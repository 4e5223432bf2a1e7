import Opifex.InstructionNumbers

/-!
# A word the vocabulary does not have

A word that no list of the vocabulary has is read as prose: it ends the list of
numbers it stands in, and that is all it does. So of an instruction and the same
instruction with such a word before one of its tokens, only the numbers between the
word and the next word that is no filler can be read differently
(`namedFrom_run`). Where those name no other targets, the word changes nothing:
"do not work on #5" marks #5 ready, as "do work on #5" does (`do_not_work`).

The two scans agree outside of the word since a token starts right after it
(`tokensOf_insert`).
-/

namespace Opifex

open Pattern

/-! ## The word put in -/

/-- The closed sets. -/
def vocabulary : List (List String) :=
  [readyVerbs, holdVerbs, exclusiveWords, scopeNouns, fillers]

/-- A word of letters, hyphens and apostrophes that no list of the vocabulary has. The
parser can make nothing of it. -/
structure IsUnknown (word : String) : Prop where
  spelled : ∃ c cs, (Text.toLowerCase word).toList = c :: cs ∧ isLetter c = true
    ∧ ∀ d ∈ cs, isWordPart d = true
  unknown : ∀ words ∈ vocabulary, words.contains (Text.toLowerCase word) = false

/-- `before ++ after` with a word put in before a token, and blanks around the
word. -/
structure Inserted (before gap word after : String) : Prop where
  word : IsUnknown word
  /-- A blank before the word, unless there is one or nothing. -/
  blank : gap = " " ∨ gap = "" ∧ (before = "" ∨ ∃ earlier, before = earlier ++ " ")
  /-- A verb, or whatever else is read, starts right after the word. -/
  token : ∃ found ∈ tokenPattern.matchAll (Text.toLowerCase (before ++ after)),
    found.1.rest = (Text.toLowerCase after).toList

/-- The instruction with the word. -/
def withWord (before gap word after : String) : String :=
  before ++ gap ++ word ++ " " ++ after

/-! ## Tokens depend on what is found -/

/-- The token that a match is, from what it took and what it captured. -/
def readFound (found : List Char × List (ℕ × List Char)) : SteeringToken :=
  tokenOf ⟨[], found.1, []⟩ ⟨[], [], found.2⟩

theorem tokenOf_eq (s e : Pos) : tokenOf s e = readFound (view (s, e)) := by
  have htaken : (⟨[], s.upTo e, []⟩ : Pos).upTo ⟨[], [], e.captures⟩ = s.upTo e := by
    show (s.upTo e).take ((s.upTo e).length - 0) = s.upTo e
    rw [Nat.sub_zero, List.take_length]
  unfold readFound tokenOf view
  rw [htaken]
  rfl

theorem tokensOf_eq (text : String) :
    tokensOf text = (tokenPattern.scan text.toList).map readFound := by
  unfold tokensOf
  rw [← map_view_matchAll, List.map_map]
  exact List.map_congr_left fun found _ => tokenOf_eq found.1 found.2

theorem toList_toLowerCase_append (s t : String) :
    (Text.toLowerCase (s ++ t)).toList
      = (Text.toLowerCase s).toList ++ (Text.toLowerCase t).toList := by
  unfold Text.toLowerCase
  rw [String.toList_ofList, String.toList_ofList, String.toList_ofList,
    String.toList_append, List.flatMap_append]

section Word

variable {cs : List Char} {c : Char} {e : Pos}

/-- **A word is matched as a word.** -/
theorem captures_of_word (hcs : ∀ d ∈ cs, isWordPart d = true)
    (he : e ∈ tokenPattern.ends ⟨[], cs, []⟩) : ∃ taken, e.captures = [(5, taken)] := by
  have hnot : ∀ d, isWordPart d = false → ∀ x y, cs ≠ x ++ d :: y := by
    rintro d hd x y rfl
    rw [hcs d (by simp)] at hd
    contradiction
  obtain ⟨owner, name, digits, -, -, -, hrest, -⟩ | ⟨digits, -, hrest, -⟩
    | ⟨digits, ⟨hne, hdigits⟩, hrest, -⟩ | ⟨d, ds, -, -, -, hcaptures⟩
    | ⟨d, hd, hrest, -⟩ := mem_ends_tokenPattern he
  · exact absurd hrest (hnot '/' (by decide) owner _)
  · exact absurd hrest (hnot '#' (by decide) [] _)
  · obtain ⟨d, ds, rfl⟩ := List.exists_cons_of_ne_nil hne
    exact absurd hrest (hnot d (isWordPart_of_isDigit (hdigits d List.mem_cons_self)) [] _)
  · exact ⟨d :: ds, hcaptures⟩
  · refine absurd hrest (hnot d ?_ [] _)
    obtain rfl | rfl := hd
    · decide
    · decide

/-- **The scan of a word** finds the word. -/
theorem scan_word (hc : isLetter c = true) (hcs : ∀ d ∈ cs, isWordPart d = true) :
    tokenPattern.scan (c :: cs) = [(c :: cs, [(5, c :: cs)])] := by
  have hpart : ∀ d ∈ c :: cs, isWordPart d = true :=
    List.forall_mem_cons.mpr ⟨isWordPart_of_isLetter hc, hcs⟩
  -- what captures another group last does not match here
  have hnil : ∀ {form : Pattern}, (∀ s, ∀ e ∈ form.ends s,
      ∃ index taken earlier, index ≠ 5 ∧ e.captures = (index, taken) :: earlier) →
      (∀ e ∈ form.ends ⟨[], c :: cs, []⟩, e ∈ tokenPattern.ends ⟨[], c :: cs, []⟩) →
      form.ends ⟨[], c :: cs, []⟩ = [] := by
    intro form hform hmem
    refine List.eq_nil_iff_forall_not_mem.mpr fun e he => ?_
    obtain ⟨index, taken, earlier, hindex, hcaptures⟩ := hform _ e he
    obtain ⟨taken', hcaptures'⟩ := captures_of_word hpart (hmem e he)
    rw [hcaptures] at hcaptures'
    exact hindex (Prod.mk.inj (List.cons.inj hcaptures').1).1
  have hgroup : ∀ {index : ℕ} {body : Pattern}, index ≠ 5 → ∀ s, ∀ e ∈ (group index body).ends s,
      ∃ index taken earlier, index ≠ 5 ∧ e.captures = (index, taken) :: earlier := by
    intro index body hindex s e he
    obtain ⟨m, -, rfl⟩ := mem_ends_group.mp he
    exact ⟨index, _, _, hindex, rfl⟩
  have hword : (tokenPattern.ends ⟨[], c :: cs, []⟩).head?
      = some ⟨cs.reverse ++ [c], [], [(5, c :: cs)]⟩ := by
    obtain ⟨slug, mark, digits, separator, hpattern⟩ : ∃ slug mark digits separator,
      tokenPattern = alt (seq slug (seq mark (group 3 digits))) (alt (group 4 digits)
        (alt (group 5 (seq (char isLetter) (many (char isWordPart)))) (group 6 separator))) :=
      ⟨_, _, _, _, rfl⟩
    have hreference : (seq slug (seq mark (group 3 digits))).ends ⟨[], c :: cs, []⟩ = [] := by
      refine hnil (fun s e he => ?_) fun e he => ?_
      · obtain ⟨m, -, he⟩ := mem_ends_seq.mp he
        obtain ⟨m', -, he⟩ := mem_ends_seq.mp he
        exact hgroup (by decide) m' e he
      · rw [hpattern]
        exact List.mem_append_left _ he
    have hnumber : (group 4 digits).ends ⟨[], c :: cs, []⟩ = [] := by
      refine hnil (hgroup (by decide)) fun e he => ?_
      rw [hpattern]
      exact List.mem_append_right _ (List.mem_append_left _ he)
    have hfirst : (char isLetter).ends ⟨[], c :: cs, []⟩ = [⟨[c], cs, []⟩] := if_pos hc
    have hgreedy := @head?_repEnds_char isWordPart cs [] hcs nofun
      (cs.length + 0 + 1) ⟨[c], cs, []⟩ (List.append_nil cs).symm (Nat.lt_succ_self _)
    have hrun : ((seq (char isLetter) (many (char isWordPart))).ends
        ⟨[], c :: cs, []⟩).head? = some ⟨cs.reverse ++ [c], [], []⟩ := by
      show (((char isLetter).ends ⟨[], c :: cs, []⟩).flatMap _).head? = _
      rw [hfirst, List.flatMap_singleton]
      exact hgreedy
    rw [hpattern]
    show List.head? (Pattern.ends (seq slug (seq mark (group 3 digits))) _ ++
      (Pattern.ends (group 4 digits) _ ++ (List.map _ _ ++ _))) = _
    rw [hreference, hnumber, List.nil_append, List.nil_append, List.head?_append,
      List.head?_map, hrun]
    show some (Pos.capture _ 5 ((c :: cs).take ((c :: cs).length - 0))) = _
    rw [Nat.sub_zero, List.take_length]
    rfl
  rw [scan_of_head isLocal_tokenPattern consumes_tokenPattern hword,
    scan_nil consumes_tokenPattern]
  show [((c :: cs).take ((c :: cs).length - 0), _)] = _
  rw [Nat.sub_zero, List.take_length]

end Word

section Insert

variable {before gap word after : String}

/-- **The tokens of an instruction**, from before and after the start of one. -/
theorem tokensOf_append (h : ∃ found ∈ tokenPattern.matchAll
      (Text.toLowerCase (before ++ after)), found.1.rest = (Text.toLowerCase after).toList) :
    tokensOf (Text.toLowerCase (before ++ after))
      = tokensOf (Text.toLowerCase before) ++ tokensOf (Text.toLowerCase after) := by
  obtain ⟨⟨s, e⟩, hfound, hrest⟩ := h
  obtain ⟨first, later, hmatches⟩ := List.mem_iff_append.mp hfound
  obtain ⟨x, hx, hscan⟩ := scan_of_match isLocal_tokenPattern consumes_tokenPattern
    _ _ _ first (by rw [String.length_toList]; exact Nat.lt_succ_self _) hmatches
  rw [toList_toLowerCase_append, show s.rest = _ from hrest] at hx
  have hbefore : (Text.toLowerCase before).toList = x := List.append_cancel_right hx
  rw [tokensOf_eq, hscan, ← hbefore, show s.rest = _ from hrest, List.map_append,
    ← tokensOf_eq, ← tokensOf_eq]

/-- **The word is one token more.** -/
theorem tokensOf_withWord (h : Inserted before gap word after) :
    tokensOf (Text.toLowerCase (withWord before gap word after))
      = tokensOf (Text.toLowerCase before) ++
        .word (Text.toLowerCase word) :: tokensOf (Text.toLowerCase after) := by
  have hblank : (Text.toLowerCase " ").toList = [' '] := by decide
  have hsplit := scan_append_cons isLocal_tokenPattern consumes_tokenPattern
    takesOnly_tokenPattern
  -- from the word on
  have hword : tokenPattern.scan ((Text.toLowerCase word).toList ++
      ' ' :: (Text.toLowerCase after).toList)
      = ((Text.toLowerCase word).toList, [(5, (Text.toLowerCase word).toList)])
        :: tokenPattern.scan (Text.toLowerCase after).toList := by
    obtain ⟨c, cs, hspelled, hc, hcs⟩ := h.word.spelled
    rw [hsplit, hspelled, scan_word hc hcs, List.singleton_append]
  have hstart : tokenPattern.scan ((Text.toLowerCase before).toList ++
      ((Text.toLowerCase gap).toList ++ ((Text.toLowerCase word).toList ++
        ' ' :: (Text.toLowerCase after).toList)))
      = tokenPattern.scan (Text.toLowerCase before).toList ++
        tokenPattern.scan ((Text.toLowerCase word).toList ++
          ' ' :: (Text.toLowerCase after).toList) := by
    obtain rfl | ⟨rfl, rfl | ⟨earlier, rfl⟩⟩ := h.blank
    · rw [hblank, List.singleton_append, hsplit]
    · have hnil : (Text.toLowerCase "").toList = [] := by decide
      rw [hnil, scan_nil consumes_tokenPattern, List.nil_append, List.nil_append,
        List.nil_append]
    · have hnil : (Text.toLowerCase "").toList = [] := by decide
      have hearlier := hsplit (Text.toLowerCase earlier).toList []
      rw [scan_nil consumes_tokenPattern, List.append_nil] at hearlier
      rw [toList_toLowerCase_append, hblank, hnil, hearlier, List.append_assoc,
        List.nil_append, List.singleton_append, hsplit]
  have hread : readFound ((Text.toLowerCase word).toList,
      [(5, (Text.toLowerCase word).toList)]) = .word (Text.toLowerCase word) := by
    show SteeringToken.word (String.ofList (Text.toLowerCase word).toList) = _
    rw [String.ofList_toList]
  unfold withWord
  rw [tokensOf_eq]
  simp only [toList_toLowerCase_append, List.append_assoc, hblank, List.singleton_append]
  rw [hstart, hword, List.map_append, List.map_cons, hread, ← tokensOf_eq, ← tokensOf_eq]

end Insert

/-! ## What a part of a sentence names -/

/-- A word that is no filler: it arms the reading, or ends a list. -/
def SteeringToken.turns : SteeringToken → Bool
  | .word w => (SteeringToken.word w).arms || (SteeringToken.word w).isProse
  | _ => false

/-- What the numbers after a token are numbers of. -/
def leads (lead : TargetKind) (token : SteeringToken) : TargetKind :=
  if token = .word "epic" ∨ token = .word "epics" then .epic
  else if token.turns then .issue
  else lead

/-- The target a token names, where numbers are in a list or not, of issues or of
epics. -/
def SteeringToken.names (armed : Bool) (lead : TargetKind) (token : SteeringToken) :
    List (TargetKind × Option String × Option String × ℕ) :=
  match token.numberToken with
  | some number =>
    if token.isReference || armed then [(lead, number.owner, number.name, number.number)]
    else []
  | none => []

/-- The targets named by tokens. -/
def namedFrom : (armed : Bool) → (lead : TargetKind) → List SteeringToken →
    List (TargetKind × Option String × Option String × ℕ)
  | _, _, [] => []
  | armed, lead, token :: tokens =>
    token.names armed lead ++ namedFrom (introduces armed token) (leads lead token) tokens

/-- Up to the next word that is no filler. -/
def runOf (tokens : List SteeringToken) : List SteeringToken :=
  tokens.takeWhile fun token => !token.turns

/-- From the next word that is no filler on. -/
def afterRun (tokens : List SteeringToken) : List SteeringToken :=
  tokens.dropWhile fun token => !token.turns

/-- Some token is a word of a list. -/
def saysOneOf (words : List String) (tokens : List SteeringToken) : Bool :=
  tokens.any fun
    | .word w => words.contains w
    | _ => false

/-- **The word changes what is named.** Of the targets that the numbers up to the next
word name with the word or without it, but not both, one is named nowhere else. -/
def ChangesTargets (before after : List SteeringToken) : Prop :=
  ∃ target,
    ¬(target ∈ namedFrom (before.foldl introduces false) (before.foldl leads .issue)
        (runOf after) ↔ target ∈ namedFrom false .issue (runOf after))
    ∧ target ∉ namedFrom false .issue before
    ∧ target ∉ namedFrom false .issue (afterRun after)

/-- Verbs of both kinds, and no phrase for the hold to attach to. -/
def Undecided (instruction : String) : Prop :=
  saysOneOf readyVerbs (tokensOf (Text.toLowerCase instruction)) = true
    ∧ saysOneOf holdVerbs (tokensOf (Text.toLowerCase instruction)) = true
    ∧ (elsePhrases.any fun pattern => pattern.test (Text.toLowerCase instruction)) = false

/-- **Not acted on the same way**: the second reading is not confident, means another
thing or names other targets. -/
def ActsApart (parsed parsed' : ParsedInstruction) : Prop :=
  ¬(parsed'.confident = true ∧ parsed'.intent = parsed.intent
    ∧ ∀ target, target ∈ parsed'.targets.map (·.identity)
      ↔ target ∈ parsed.targets.map (·.identity))

section Reading

variable {reading : ReadingState} {tokens : List SteeringToken}

theorem leadKind_readToken (reading : ReadingState) (token : SteeringToken) :
    (readToken reading token).leadKind = leads reading.leadKind token := by
  cases token with
  | reference raw owner name number => rfl
  | separator => rfl
  | bareNumber raw number =>
    rw [readToken_bareNumber]
    by_cases harmed : reading.armed = true
    · rw [if_pos harmed]
      rfl
    · rw [if_neg harmed]
      rfl
  | word w =>
    unfold readToken arm leads
    simp only [SteeringToken.word.injEq]
    by_cases hepic : w = "epic" ∨ w = "epics"
    · rw [if_pos hepic, if_pos hepic]
    rw [if_neg hepic, if_neg hepic]
    by_cases harms : (readyVerbs.contains w || holdVerbs.contains w ||
        exclusiveWords.contains w || scopeNouns.contains w) = true
    · have hturns : (SteeringToken.word w).turns = true := by
        show ((SteeringToken.word w).arms || _) = true
        rw [show (SteeringToken.word w).arms = true from harms]
        rfl
      rw [if_pos harms, if_pos hturns]
    · have hword : (SteeringToken.word w).arms = false := Bool.eq_false_iff.mpr harms
      have hturns : (SteeringToken.word w).turns = !fillers.contains w := by
        show ((SteeringToken.word w).arms ||
          (!(SteeringToken.word w).arms && !fillers.contains w)) = _
        rw [hword]
        rfl
      rw [if_neg harms, hturns]
      cases hfiller : fillers.contains w with
      | true => rfl
      | false => rfl

/-- What a token names is added to the targets. -/
theorem targets_readToken (reading : ReadingState) (token : SteeringToken) :
    (readToken reading token).targets.map (·.identity)
      = reading.targets.map (·.identity) ++ token.names reading.armed reading.leadKind := by
  cases token with
  | reference raw owner name number => exact List.map_append
  | bareNumber raw number =>
    rw [readToken_bareNumber]
    show _ = _ ++ if (false || reading.armed) = true then _ else _
    rw [Bool.false_or]
    by_cases harmed : reading.armed = true
    · rw [if_pos harmed, if_pos harmed]
      exact List.map_append
    · rw [if_neg harmed, if_neg harmed, List.append_nil]
  | separator => exact (List.append_nil _).symm
  | word w =>
    show List.map _ (arm w _).targets = _ ++ []
    rw [(arm_numbers w _).1, List.append_nil]

theorem targets_foldl_readToken (tokens : List SteeringToken) :
    ∀ reading : ReadingState,
      (tokens.foldl readToken reading).targets.map (·.identity)
        = reading.targets.map (·.identity) ++
          namedFrom reading.armed reading.leadKind tokens := by
  induction tokens with
  | nil => exact fun reading => (List.append_nil _).symm
  | cons token tokens ih =>
    intro reading
    rw [List.foldl_cons, ih, armed_readToken, leadKind_readToken, targets_readToken,
      List.append_assoc, namedFrom]

theorem namedFrom_append (tokens later : List SteeringToken) :
    ∀ (armed : Bool) (lead : TargetKind),
      namedFrom armed lead (tokens ++ later) = namedFrom armed lead tokens ++
        namedFrom (tokens.foldl introduces armed) (tokens.foldl leads lead) later := by
  induction tokens with
  | nil => exact fun armed lead => rfl
  | cons token tokens ih =>
    intro armed lead
    rw [List.cons_append, namedFrom, namedFrom, ih, List.append_assoc]
    rfl

/-- A word that is no filler forgets what came before it. -/
theorem namedFrom_of_turns {token : SteeringToken} (h : token.turns = true)
    (armed : Bool) (lead : TargetKind) :
    namedFrom armed lead (token :: tokens) = namedFrom false .issue (token :: tokens) := by
  cases token with
  | word w =>
    have hleads : leads lead (.word w) = leads .issue (.word w) := by
      unfold leads
      rw [if_pos h, if_pos h]
    have hintroduces : introduces armed (.word w) = introduces false (.word w) := by
      unfold introduces
      by_cases harms : (SteeringToken.word w).arms = true
      · rw [if_pos harms, if_pos harms]
      · have hturns : ((SteeringToken.word w).arms || (SteeringToken.word w).isProse)
          = true := h
        rw [Bool.eq_false_iff.mpr harms, Bool.false_or] at hturns
        rw [if_neg harms, if_neg harms, if_pos hturns, if_pos hturns]
    show namedFrom (introduces armed (.word w)) (leads lead (.word w)) tokens
      = namedFrom (introduces false (.word w)) (leads .issue (.word w)) tokens
    rw [hleads, hintroduces]
  | reference raw owner name number => contradiction
  | bareNumber raw number => contradiction
  | separator => contradiction

/-- **How a part of a sentence is read** depends on what came before it up to the next
word that is no filler, and no further. -/
theorem namedFrom_run (tokens : List SteeringToken) :
    ∀ (armed : Bool) (lead : TargetKind), namedFrom armed lead tokens
      = namedFrom armed lead (runOf tokens) ++ namedFrom false .issue (afterRun tokens) := by
  induction tokens with
  | nil => exact fun armed lead => rfl
  | cons token tokens ih =>
    intro armed lead
    unfold runOf afterRun
    cases hturns : token.turns with
    | true =>
      rw [List.takeWhile_cons_of_neg (by simp [hturns]),
        List.dropWhile_cons_of_neg (by simp [hturns])]
      exact namedFrom_of_turns hturns armed lead
    | false =>
      rw [List.takeWhile_cons_of_pos (by simp [hturns]),
        List.dropWhile_cons_of_pos (by simp [hturns])]
      have hrest := ih (introduces armed token) (leads lead token)
      unfold runOf afterRun at hrest
      rw [namedFrom, namedFrom, hrest, List.append_assoc]

/-- Which kinds of words a sentence has. -/
theorem saw_foldl_readToken (tokens : List SteeringToken) :
    ∀ reading : ReadingState,
      (tokens.foldl readToken reading).sawReady
          = (reading.sawReady || saysOneOf readyVerbs tokens)
        ∧ (tokens.foldl readToken reading).sawHold
          = (reading.sawHold || saysOneOf holdVerbs tokens)
        ∧ (tokens.foldl readToken reading).sawExclusiveWord
          = (reading.sawExclusiveWord || saysOneOf exclusiveWords tokens) := by
  induction tokens with
  | nil => exact fun reading => by simp [saysOneOf]
  | cons token tokens ih =>
    intro reading
    rw [List.foldl_cons]
    obtain ⟨hready, hhold, hexclusive⟩ := ih (readToken reading token)
    rw [hready, hhold, hexclusive]
    unfold saysOneOf
    rw [List.any_cons, List.any_cons, List.any_cons]
    cases token with
    | reference raw owner name number => exact ⟨rfl, rfl, rfl⟩
    | separator => exact ⟨rfl, rfl, rfl⟩
    | bareNumber raw number =>
      rw [readToken_bareNumber]
      split_ifs
      · exact ⟨rfl, rfl, rfl⟩
      · exact ⟨rfl, rfl, rfl⟩
    | word w =>
      rw [← Bool.or_assoc, ← Bool.or_assoc, ← Bool.or_assoc]
      unfold readToken arm
      dsimp only
      split_ifs
      · exact ⟨rfl, rfl, rfl⟩
      · exact ⟨rfl, rfl, rfl⟩
      · exact ⟨rfl, rfl, rfl⟩
      · exact ⟨rfl, rfl, rfl⟩

/-- The intent is a matter of the verbs. -/
theorem intentOf_spec (reading : ReadingState) (sawElsePhrase : Bool) :
    (intentOf reading sawElsePhrase).1
        = (if reading.sawHold && !reading.sawReady then .hold else .ready)
      ∧ ((intentOf reading sawElsePhrase).2 = none ↔
        ((reading.sawReady || reading.sawHold || reading.sawExclusiveWord) = true
          ∧ ¬(reading.sawReady = true ∧ reading.sawHold = true
            ∧ sawElsePhrase = false))) := by
  unfold intentOf
  cases reading.sawReady <;> cases reading.sawHold <;> cases reading.sawExclusiveWord <;>
    cases sawElsePhrase <;> simp

/-- A parse is confident when it names something and its verbs decide. -/
theorem confident_iff (reading : ReadingState) (sawElsePhrase : Bool) :
    (conclude reading sawElsePhrase).confident = true ↔
      reading.targets ≠ [] ∧ (intentOf reading sawElsePhrase).2 = none := by
  rw [confident_conclude, and_comm]
  refine and_congr_right fun hne => ?_
  show (if reading.targets = [] then (intentOf reading sawElsePhrase).2.or _
    else (intentOf reading sawElsePhrase).2) = none ↔ _
  rw [if_neg hne]

/-- Dropping repeats loses no target. -/
theorem mem_identity_dedupe {targets : List ParsedTarget}
    {target : TargetKind × Option String × Option String × ℕ}
    (hnamed : ∀ target ∈ targets, IsNamed target.owner ∧ IsNamed target.name) :
    target ∈ (Distinct.dedupe ParsedTarget.key targets).map (·.identity)
      ↔ target ∈ targets.map (·.identity) := by
  constructor
  · exact fun h => (Distinct.dedupe_sublist.map _).subset h
  · intro h
    obtain ⟨named, hmem, rfl⟩ := List.mem_map.mp h
    have hkey := Distinct.mem_map_dedupe.mpr (List.mem_map_of_mem (f := ParsedTarget.key) hmem)
    obtain ⟨kept, hkept, hsame⟩ := List.mem_map.mp hkey
    have hin := Distinct.dedupe_sublist.subset hkept
    rw [← (key_eq_iff (hnamed named hmem) (hnamed kept hin)).mp hsame]
    exact List.mem_map_of_mem hkept

end Reading

/-! ## The two readings -/

section Readings

variable {before after : List SteeringToken} {word : String}

theorem saysOneOf_insert {words : List String} (h : words.contains word = false) :
    saysOneOf words (before ++ .word word :: after) = saysOneOf words (before ++ after) := by
  unfold saysOneOf
  rw [List.any_append, List.any_append, List.any_cons]
  show (_ || (words.contains word || _)) = _
  rw [h, Bool.false_or]

/-- An unknown word ends a list. -/
theorem namedFrom_unknown (hunknown : ∀ words ∈ vocabulary, words.contains word = false)
    (armed : Bool) (lead : TargetKind) :
    namedFrom armed lead (.word word :: after) = namedFrom false .issue after := by
  have hscope := hunknown scopeNouns (by decide)
  have harms : (SteeringToken.word word).arms = false := by
    show (readyVerbs.contains word || holdVerbs.contains word ||
      exclusiveWords.contains word || scopeNouns.contains word) = false
    rw [hunknown readyVerbs (by decide), hunknown holdVerbs (by decide),
      hunknown exclusiveWords (by decide), hscope]
    rfl
  have hprose : (SteeringToken.word word).isProse = true := by
    show (!(SteeringToken.word word).arms && !fillers.contains word) = true
    rw [harms, hunknown fillers (by decide)]
    rfl
  have hturns : (SteeringToken.word word).turns = true := by
    show ((SteeringToken.word word).arms || (SteeringToken.word word).isProse) = true
    rw [harms, hprose]
    rfl
  have hepic : ¬(SteeringToken.word word = .word "epic" ∨
      SteeringToken.word word = .word "epics") := by
    rintro (heq | heq)
    · rw [SteeringToken.word.inj heq] at hscope
      exact absurd hscope (by decide)
    · rw [SteeringToken.word.inj heq] at hscope
      exact absurd hscope (by decide)
  have hintroduces : introduces armed (.word word) = false := by
    unfold introduces
    rw [harms, hprose]
    rfl
  have hleads : leads lead (.word word) = .issue := by
    unfold leads
    rw [if_neg hepic, if_pos hturns]
  rw [namedFrom, hintroduces, hleads]
  rfl

/-- Two ways differ where neither of the others decides. -/
theorem or_congr_iff {b r r' a : Prop} :
    (b ∨ r' ∨ a ↔ b ∨ r ∨ a) ↔ ¬(¬(r ↔ r') ∧ ¬b ∧ ¬a) := by tauto

/-- **What a word the vocabulary does not have can do**, between any tokens. -/
theorem actsApart_conclude
    (hunknown : ∀ words ∈ vocabulary, words.contains word = false)
    {reading reading' : ReadingState} {sawElsePhrase sawElsePhrase' : Bool}
    (hreading : (before ++ after).foldl readToken {} = reading)
    (hreading' : (before ++ .word word :: after).foldl readToken {} = reading')
    (hnamed : ∀ target ∈ reading.targets, IsNamed target.owner ∧ IsNamed target.name)
    (hnamed' : ∀ target ∈ reading'.targets, IsNamed target.owner ∧ IsNamed target.name)
    (hconfident : (conclude reading sawElsePhrase).confident = true) :
    ActsApart (conclude reading sawElsePhrase) (conclude reading' sawElsePhrase') ↔
      ChangesTargets before after
        ∨ reading'.sawReady = true ∧ reading'.sawHold = true ∧ sawElsePhrase' = false := by
  -- the verbs are the same
  obtain ⟨hready, hhold, hexclusive⟩ := saw_foldl_readToken (before ++ after) {}
  obtain ⟨hready', hhold', hexclusive'⟩ :=
    saw_foldl_readToken (before ++ .word word :: after) {}
  rw [saysOneOf_insert (hunknown readyVerbs (by decide)), ← hready, hreading, hreading']
    at hready'
  rw [saysOneOf_insert (hunknown holdVerbs (by decide)), ← hhold, hreading, hreading']
    at hhold'
  rw [saysOneOf_insert (hunknown exclusiveWords (by decide)), ← hexclusive, hreading,
    hreading'] at hexclusive'
  obtain ⟨hne, hdecided⟩ := (confident_iff reading sawElsePhrase).mp hconfident
  obtain ⟨hintent, hnone⟩ := intentOf_spec reading sawElsePhrase
  obtain ⟨hintent', hnone'⟩ := intentOf_spec reading' sawElsePhrase'
  have hsome := (hnone.mp hdecided).1
  rw [← hready', ← hhold', ← hexclusive'] at hsome
  have hmeant : (conclude reading' sawElsePhrase').intent
      = (conclude reading sawElsePhrase).intent := by
    show (intentOf reading' sawElsePhrase').1 = (intentOf reading sawElsePhrase).1
    rw [hintent, hintent', hready', hhold']
  -- the targets are named before the word, in the run after it and after the run
  have htargets : reading.targets.map (·.identity) = namedFrom false .issue before ++
      (namedFrom (before.foldl introduces false) (before.foldl leads .issue) (runOf after) ++
        namedFrom false .issue (afterRun after)) := by
    rw [← hreading, targets_foldl_readToken, namedFrom_append, ← namedFrom_run]
    rfl
  have htargets' : reading'.targets.map (·.identity) = namedFrom false .issue before ++
      (namedFrom false .issue (runOf after) ++ namedFrom false .issue (afterRun after)) := by
    rw [← hreading', targets_foldl_readToken, namedFrom_append, namedFrom_unknown hunknown,
      ← namedFrom_run]
    rfl
  have hsame : (∀ target, target ∈ (conclude reading' sawElsePhrase').targets.map (·.identity)
      ↔ target ∈ (conclude reading sawElsePhrase).targets.map (·.identity))
        ↔ ¬ChangesTargets before after := by
    rw [(numbers_conclude reading _).1, (numbers_conclude reading' _).1]
    unfold ChangesTargets
    rw [not_exists]
    refine forall_congr' fun target => ?_
    rw [mem_identity_dedupe hnamed, mem_identity_dedupe hnamed', htargets, htargets']
    simp only [List.mem_append]
    exact or_congr_iff
  unfold ActsApart
  rw [hsame, confident_iff, hnone']
  by_cases hundecided : reading'.sawReady = true ∧ reading'.sawHold = true
      ∧ sawElsePhrase' = false
  · exact iff_of_true (fun h => h.1.2.2 hundecided) (Or.inr hundecided)
  rw [or_iff_left hundecided]
  constructor
  · intro h
    by_contra hchanges
    refine h ⟨⟨fun hnil => hne ?_, hsome, hundecided⟩, hmeant, hchanges⟩
    -- the same targets, and none of them
    rw [← List.map_eq_nil_iff (f := (·.identity)), List.eq_nil_iff_forall_not_mem]
    intro target htarget
    have hmem := (hsame.mpr hchanges target).mpr
    rw [(numbers_conclude reading _).1, (numbers_conclude reading' _).1,
      mem_identity_dedupe hnamed, mem_identity_dedupe hnamed', hnil] at hmem
    exact List.not_mem_nil (hmem htarget)
  · exact fun hchanges h => h.2.2 hchanges

end Readings

theorem parseSteeringInstruction_eq (instruction : String) :
    parseSteeringInstruction instruction
      = conclude ((tokensOf (Text.toLowerCase instruction)).foldl readToken {})
        (elsePhrases.any fun pattern => pattern.test (Text.toLowerCase instruction)) := rfl

/-- **An instruction and the same instruction with a word it does not know are acted on
the same way** unless the word changes what is named, or leaves the verbs undecided. -/
theorem actsApart_withWord_iff {before gap word after : String}
    (h : Inserted before gap word after)
    (hconfident : (parseSteeringInstruction (before ++ after)).confident = true) :
    ActsApart (parseSteeringInstruction (before ++ after))
        (parseSteeringInstruction (withWord before gap word after)) ↔
      ChangesTargets (tokensOf (Text.toLowerCase before)) (tokensOf (Text.toLowerCase after))
        ∨ Undecided (withWord before gap word after) := by
  have hread : (tokensOf (Text.toLowerCase before) ++
      tokensOf (Text.toLowerCase after)).foldl readToken {}
        = (tokensOf (Text.toLowerCase (before ++ after))).foldl readToken {} := by
    rw [tokensOf_append h.token]
  have hread' : (tokensOf (Text.toLowerCase before) ++ .word (Text.toLowerCase word) ::
      tokensOf (Text.toLowerCase after)).foldl readToken {}
        = (tokensOf (Text.toLowerCase (withWord before gap word after))).foldl readToken
          {} := by
    rw [tokensOf_withWord h]
  obtain ⟨hready, hhold, -⟩ := saw_foldl_readToken
    (tokensOf (Text.toLowerCase (withWord before gap word after))) {}
  rw [Bool.false_or] at hready hhold
  unfold Undecided
  rw [parseSteeringInstruction_eq] at hconfident ⊢
  rw [parseSteeringInstruction_eq, ← hready, ← hhold]
  exact actsApart_conclude h.word.unknown hread hread' (fun _ => isNamed_foldl_readToken)
    (fun _ => isNamed_foldl_readToken) hconfident

theorem isUnknown_not : IsUnknown "not" where
  spelled := ⟨'n', ['o', 't'], by decide, by decide,
    List.forall_mem_cons.mpr ⟨by decide, List.forall_mem_singleton.mpr (by decide)⟩⟩
  unknown := by decide

/-- Before a number in a list the word takes the number out of the list. -/
theorem actsApart_not_number :
    ActsApart (parseSteeringInstruction ("work on " ++ "5"))
      (parseSteeringInstruction (withWord "work on " "" "not" "5")) := by
  have hinserted : Inserted "work on " "" "not" "5" := {
    word := isUnknown_not
    blank := Or.inr ⟨rfl, Or.inr ⟨"work on", rfl⟩⟩
    token := by decide }
  refine (actsApart_withWord_iff hinserted (by decide)).mpr (Or.inl ?_)
  exact ⟨(.issue, none, none, 5), by decide +kernel, by decide +kernel, by decide +kernel⟩

/-- **"do not work on #5" is read as "do work on #5" is.** -/
theorem do_not_work :
    Inserted "do " "" "not" "work on #5"
      ∧ withWord "do " "" "not" "work on #5" = "do not work on #5"
      ∧ (parseSteeringInstruction "do work on #5").confident = true
      ∧ (parseSteeringInstruction "do not work on #5").confident = true
      ∧ (parseSteeringInstruction "do not work on #5").intent
        = (parseSteeringInstruction "do work on #5").intent
      ∧ (parseSteeringInstruction "do not work on #5").targets
        = (parseSteeringInstruction "do work on #5").targets :=
  ⟨{ word := isUnknown_not
     blank := Or.inr ⟨rfl, Or.inr ⟨"do", rfl⟩⟩
     token := by decide },
    by decide, by decide +kernel, by decide +kernel, by decide +kernel, by decide +kernel⟩

end Opifex
