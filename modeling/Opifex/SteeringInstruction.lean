import Opifex.Issue
import Opifex.Lib.DecimalText
import Opifex.Lib.Pattern

/-!
# An operator instruction, read without a model

A sentence is read token by token: verbs say what is to happen to the issues it
names, restrictive words and "everything else" what is to happen to the rest.
`#12` always names an issue; a bare number does only when the words before it
introduce a list. What could not be decided is an *ambiguity*, and a parse with
one is not confident.

Intent, exclusivity, targets and confidence are computed each for itself: a
parse that is not confident still carries the other three.
-/

namespace Opifex

open Pattern

/-- What the operator wants to happen to the issues they named: they are to be worked
on, or to be left alone. -/
inductive SteeringIntent where
  | ready
  | hold
deriving DecidableEq, Repr

/-- What happens to everything the operator did not name: the mark that it is ready is
taken away, or it is held. -/
inductive SteeringElseIntent where
  | unready
  | hold
deriving DecidableEq, Repr

/-- An epic means the issues it lists, never the issue itself. Which of the two a number
is, the word before it says. -/
inductive TargetKind where
  | issue
  | epic
deriving DecidableEq, Repr

/-- The kind as the key of a target spells it. -/
def TargetKind.name : TargetKind → String
  | .issue => "issue"
  | .epic => "epic"

/-- An issue or an epic that the sentence names, with the repository if it names one.
The number is as it was read; whether there is such an issue is asked later. -/
structure ParsedTarget where
  kind : TargetKind
  /-- Null for a bare `#12` or `12`, which names no repository. -/
  owner : Option String
  name : Option String
  number : ℕ
  /-- As the operator wrote it. -/
  reference : String
deriving DecidableEq

/-- What the sentence was read as. Each field is filled even if the parse is not
confident. -/
structure ParsedInstruction where
  intent : SteeringIntent
  /-- The instruction restricts work to its targets and nothing else. -/
  exclusive : Bool
  elseIntent : SteeringElseIntent
  targets : List ParsedTarget
  /-- Numbers that were not read as references. -/
  ignoredNumbers : List ℕ
  /-- The parse may be acted on with no model involved. -/
  confident : Bool
  ambiguity : Option String
  notes : List String
deriving DecidableEq

/-! ## The vocabulary -/

/-- Verbs that mean "let the factory work on this". -/
def readyVerbs : List String :=
  ["work", "working", "do", "run", "start", "dispatch", "release", "resume",
    "unhold", "unblock", "ready", "focus", "prioritize", "prioritise", "build",
    "tackle"]

/-- Verbs that mean "stop acting on this". -/
def holdVerbs : List String :=
  ["hold", "pause", "stop", "halt", "freeze", "park", "suspend"]

/-- Words that make an instruction restrictive. -/
def exclusiveWords : List String := ["only", "just", "exclusively", "solely"]

/-- Nouns that introduce a list of numbers. -/
def scopeNouns : List String :=
  ["issue", "issues", "epic", "epics", "number", "numbers", "item", "items",
    "ticket", "tickets"]

/-- Words between a scope word and its list. -/
def fillers : List String :=
  ["the", "a", "an", "and", "to", "of", "for", "on", "please", "all", "these",
    "those", "them", "my", "our", "in", "at", "is", "are", "be", "up", "with"]

/-- `[A-Za-z]`. -/
def isLetter (c : Char) : Bool := ('a' ≤ c && c ≤ 'z') || ('A' ≤ c && c ≤ 'Z')

/-- `[A-Za-z0-9_.-]`. -/
def isSlugPart (c : Char) : Bool :=
  isLetter c || c.isDigit || c == '_' || c == '.' || c == '-'

/-- `\s+`. -/
def spaces : Pattern := many1 space

/-- "everything else", "the rest", "all others", "nothing else". -/
def elsePhrases : List Pattern :=
  [all [wordEdge, alt (text "everything") (alt (text "anything") (text "all")),
      spaces, text "else", wordEdge],
    all [wordEdge, text "the", spaces, text "rest", wordEdge],
    all [wordEdge, text "all", spaces, optional (all [text "the", spaces]),
      text "other", optional (text "s"), wordEdge],
    all [wordEdge, text "nothing", spaces, text "else", wordEdge]]

/-- One token: a reference, a bare number, a word or a separator. -/
def tokenPattern : Pattern :=
  let digits := many1 (char Char.isDigit)
  let slugPart := many1 (char isSlugPart)
  alt
    (all [optional (all [group 1 slugPart, text "/", group 2 slugPart]),
      text "#", group 3 digits])
    (alt (group 4 digits)
      (alt
        (group 5 (seq (char isLetter)
          (many (char fun c => isLetter c || c == '\'' || c == '’' || c == '-'))))
        (group 6 (oneOf ",&"))))

/-- The capture of a group that took part in the match. -/
def capture (e : Pos) (index : ℕ) : Option String :=
  (e.captures.lookup index).map String.ofList

/-- `Number` of a run of digits. What is too large for a double is infinite, for
which `2 ^ 1024` stands here. -/
def numberOf (digits : String) : ℕ :=
  min (Text.toDouble (digits.toList.foldl (fun n c => 10 * n + (c.toNat - '0'.toNat)) 0))
    (2 ^ 1024)

/-- The tokens of a sentence. A slug without a number is no reference: its parts are
words and separators. -/
inductive SteeringToken where
  | reference (raw : String) (owner name : Option String) (number : ℕ)
  | bareNumber (raw : String) (number : ℕ)
  | word (word : String)
  | separator
deriving DecidableEq

/-- What a match of the token pattern is. -/
def tokenOf (s e : Pos) : SteeringToken :=
  match capture e 3, capture e 4, capture e 5 with
  | some digits, _, _ =>
    .reference (String.ofList (s.upTo e)) (capture e 1) (capture e 2)
      (numberOf digits)
  | none, some digits, _ => .bareNumber digits (numberOf digits)
  | none, none, some word => .word word
  | none, none, none => .separator

/-- The tokens of a sentence, in order. What matches no token is passed over. -/
def tokensOf (text : String) : List SteeringToken :=
  (tokenPattern.matchAll text).map fun found => tokenOf found.1 found.2

/-! ## Reading -/

/-- What has been read so far: the numbers, and which kinds of words have been seen. The
kind of the next target is the one that the last list was introduced with. -/
structure ReadingState where
  targets : List ParsedTarget := []
  ignoredNumbers : List ℕ := []
  /-- The words before introduce a list of numbers. -/
  armed : Bool := false
  leadKind : TargetKind := .issue
  sawReady : Bool := false
  sawHold : Bool := false
  sawExclusiveWord : Bool := false
deriving DecidableEq

/-- What a word does to the reading of the numbers after it. -/
def arm (word : String) (reading : ReadingState) : ReadingState :=
  if word = "epic" ∨ word = "epics" then
    { reading with leadKind := .epic, armed := true }
  else if readyVerbs.contains word || holdVerbs.contains word ||
      exclusiveWords.contains word || scopeNouns.contains word then
    { reading with leadKind := .issue, armed := true }
  else if fillers.contains word then reading
  -- anything else is prose, and prose ends a list
  else { reading with armed := false, leadKind := .issue }

/-- One token. -/
def readToken (reading : ReadingState) : SteeringToken → ReadingState
  | .reference raw owner name number =>
    { reading with
      targets := reading.targets ++
        [⟨reading.leadKind, owner, name, number, raw⟩]
      armed := true }
  | .bareNumber raw number =>
    if reading.armed then
      { reading with
        targets := reading.targets ++
          [⟨reading.leadKind, none, none, number, raw⟩] }
    else { reading with ignoredNumbers := reading.ignoredNumbers ++ [number] }
  | .separator => reading
  | .word word =>
    arm word
      { reading with
        sawReady := reading.sawReady || readyVerbs.contains word
        sawHold := reading.sawHold || holdVerbs.contains word
        sawExclusiveWord :=
          reading.sawExclusiveWord || exclusiveWords.contains word }

/-- The key a target is repeated under. -/
def ParsedTarget.key (target : ParsedTarget) : String :=
  target.kind.name ++ ":" ++ target.owner.getD "" ++ "/" ++
    target.name.getD "" ++ "#" ++ toString target.number

/-- Drop repeats, keeping the first spelling. -/
def dedupeTargets (targets : List ParsedTarget) : List ParsedTarget :=
  targets.foldl
    (fun kept target =>
      if kept.any fun other => other.key == target.key then kept
      else kept ++ [target])
    []

/-- Said of a sentence with verbs of both kinds and no else-clause. -/
def twoVerbsAmbiguity : String :=
  "The instruction names both a release verb and a hold verb with no " ++
    "\"everything else\" clause for the hold to attach to, so which issues " ++
    "are to be held cannot be decided without interpretation."

/-- Said of a sentence with no verb and no restrictive word. -/
def noVerbAmbiguity : String :=
  "The instruction names no verb this parser recognises, so whether the " ++
    "issues it names should be worked on or held cannot be decided without " ++
    "interpretation."

/-- Said of a sentence that names nothing. -/
def noTargetAmbiguity : String :=
  "The instruction names no issue or epic number. Write a number as " ++
    "`#419` (or `owner/name#419`) to name one without interpretation."

/-- The intent, and why it could not be decided. -/
def intentOf (reading : ReadingState) (sawElsePhrase : Bool) :
    SteeringIntent × Option String :=
  if reading.sawReady && reading.sawHold then
    -- the hold belongs to the else-clause, not to the targets
    if sawElsePhrase then (.ready, none) else (.ready, some twoVerbsAmbiguity)
  else if reading.sawHold then (.hold, none)
  else if reading.sawReady then (.ready, none)
  else if reading.sawExclusiveWord then (.ready, none)
  else (.ready, some noVerbAmbiguity)

/-- How a confident parse is read back to the operator. -/
def readingNote (intent : SteeringIntent) (exclusive : Bool)
    (elseIntent : SteeringElseIntent) : String :=
  if exclusive then
    "Read as: work exclusively on the named issues, and " ++
      (match elseIntent with
        | .hold => "apply " ++ InputLabel.hold.name ++ " to"
        | .unready => "remove " ++ InputLabel.ready.name ++ " from") ++
      " every other issue currently marked " ++ InputLabel.ready.name ++ "."
  else
    match intent with
    | .hold =>
      "Read as: apply " ++ InputLabel.hold.name ++
        " to the named issues. Nothing else is touched."
    | .ready =>
      "Read as: apply " ++ InputLabel.ready.name ++
        " to the named issues. Nothing else is touched."

/-- Said of a hold with a restrictive word. -/
def narrowHoldNote : String :=
  "Read as a hold on the named issues only. A restrictive word next to a " ++
    "hold verb does not un-ready anything else — that would be a second, " ++
    "destructive instruction the sentence does not contain."

/-- A number of the sentence as a note prints it, exponent and all. -/
def notedNumber (value : ℕ) : String :=
  if value = 2 ^ 1024 then "Infinity" else Double.toText value

/-- Said of each number that was not read as a reference. -/
def ignoredNote (value : ℕ) : String :=
  "The number " ++ notedNumber value ++ " was not read as an issue reference — it " ++
    "is not in a list introduced by a scope word. Write `#" ++ notedNumber value ++
    "` to name issue " ++ notedNumber value ++ "."

/-- What is made of the whole sentence. -/
def conclude (reading : ReadingState) (sawElsePhrase : Bool) :
    ParsedInstruction :=
  let (intent, undecided) := intentOf reading sawElsePhrase
  let ambiguity :=
    if reading.targets = [] then undecided.or (some noTargetAmbiguity)
    else undecided
  let restrictive := reading.sawExclusiveWord || sawElsePhrase
  let elseIntent : SteeringElseIntent :=
    if sawElsePhrase && reading.sawHold then .hold else .unready
  -- "only hold 1, 2 and 3" restricts nothing
  let narrowed := restrictive && intent = .hold
  let exclusive := restrictive && !narrowed
  let confident := ambiguity.isNone && reading.targets ≠ []
  { intent := intent
    exclusive := exclusive
    elseIntent := elseIntent
    targets := dedupeTargets reading.targets
    ignoredNumbers := reading.ignoredNumbers
    confident := confident
    ambiguity := ambiguity
    notes :=
      (if narrowed then [narrowHoldNote] else []) ++
        (if confident then [readingNote intent exclusive elseIntent] else []) ++
          reading.ignoredNumbers.map ignoredNote }

/-- **The parser.** The text is lower-cased once, and every pattern is tried on what
that gives. -/
def parseSteeringInstruction (instruction : String) : ParsedInstruction :=
  let text := Text.toLowerCase instruction
  conclude ((tokensOf text).foldl readToken {})
    (elsePhrases.any fun pattern => pattern.test text)

/-- A confident parse names something and leaves nothing undecided. -/
theorem confident_conclude {reading : ReadingState} {sawElsePhrase : Bool} :
    (conclude reading sawElsePhrase).confident = true ↔
      (conclude reading sawElsePhrase).ambiguity = none ∧
        reading.targets ≠ [] := by
  show (_ && _) = true ↔ _
  rw [Bool.and_eq_true, Option.isNone_iff_eq_none, decide_eq_true_iff]
  rfl

example : (parseSteeringInstruction "only work on Acme/App#12 and hold the rest").targets
    = [⟨.issue, some "acme", some "app", 12, "acme/app#12"⟩] := by decide +kernel

end Opifex
