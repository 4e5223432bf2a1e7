import Opifex.GitHubWrites
import Opifex.Lib.Machine
import Opifex.WorkOrderDocument

/-!
# The authorization record of a work order

The record is a comment on the issue: a marker and the work order's document.
Before one is posted the comments are read, and the first that holds both the
marker and the work order's identity counts as this work order's record.

The look is made once for a call, and the post below it is repeated when its
answer is lost: then the issue carries the record twice. And the identity is
looked for as a part of the text, so that the record of attempt 10 counts as
one of attempt 1 (`RecordsDesk.tenth_attempt_counts_as_first`). When neither
happens is said exactly by `RecordsDesk.recorded_iff_unmistaken`.
-/

namespace Opifex

/-- The marker that identifies an authorization record among the comments. -/
def authorizationMarker : String := "<!-- opifex:authorization-record -->"

/-- What is posted: the document the work order serializes to, fenced. -/
def authorizationBody (workOrder : GeneratedWorkOrder) : String :=
  "\n".intercalate
    [authorizationMarker, "**Work order authorized.**", "", "```json",
      Json.stringify (toWorkOrderDocument workOrder), "```"]

/-- A work order under its own identity, as generating or rebuilding one leaves
it. -/
structure NamedWorkOrder where
  workOrder : GeneratedWorkOrder
  named : workOrderIdentity workOrder.coordinates = .ok workOrder.identity

/-- A comment of the issue, with the work order that the factory posted it for. The
record is ghost: the code knows a record only by the marker and the document in the
text. -/
structure IssueComment where
  body : String
  /-- The work order it was posted for; none for anybody else's comment. -/
  record : Option GeneratedWorkOrder
deriving DecidableEq

/-- The comment carries the work order's document. -/
def IssueComment.carries (comment : IssueComment)
    (workOrder : GeneratedWorkOrder) : Bool :=
  Text.includes comment.body (Json.stringify (toWorkOrderDocument workOrder))

/-- The comment holds the marker, and the identity somewhere in its text. -/
def IssueComment.names (comment : IssueComment) (identity : String) : Bool :=
  Text.includes comment.body authorizationMarker &&
    Text.includes comment.body identity

/-- The first comment that holds the marker and the identity. -/
def IsFirstNaming (comments : List IssueComment) (identity : String)
    (comment : IssueComment) : Prop :=
  ∃ before after, comments = before ++ comment :: after ∧
    comment.names identity = true ∧ ∀ earlier ∈ before, earlier.names identity = false

/-- One call of `write`, with what comes of each of its steps: the reading of the
comments, the attempts to post, and the branch. -/
structure RecordsCall where
  order : NamedWorkOrder
  /-- Whether the comments could be read; each is. -/
  listed : Bool
  /-- Whether writes are switched on. -/
  enabled : Bool
  /-- `github.maxRetries`. -/
  retries : ℕ
  /-- What comes of the attempts to post. -/
  attempts : List WriteAttempt
  /-- Whether `createFactoryBranch` comes to its end. -/
  branched : Bool

namespace RecordsCall

variable (fits : Json → Bool) (comments : List IssueComment) (call : RecordsCall)

/-- The work order of a call. -/
def workOrder : GeneratedWorkOrder := call.order.workOrder

/-- The existing authorization comment for this work order, if any. -/
def findAuthorization : Option IssueComment :=
  comments.find? fun comment => comment.names call.workOrder.identity

/-- The document matches the schema and the comments are read. -/
def looks : Bool := fits (toWorkOrderDocument call.workOrder) && call.listed

/-- What the attempts to post leave on the issue. -/
def posted : List IssueComment :=
  List.replicate (timesDone call.retries call.attempts)
    ⟨authorizationBody call.workOrder, some call.workOrder⟩

/-- **Post the authorization record, unless this work order already has one.**
Without a result the call failed or was abandoned. -/
def writeAuthorization : List IssueComment × Option WriteResult :=
  match call.findAuthorization comments with
  | some _ => (comments, some ⟨call.enabled, call.enabled⟩)
  | none =>
    if call.enabled then
      (comments ++ call.posted,
        if request call.retries call.attempts = .answered
        then some ⟨true, false⟩ else none)
    else (comments, some ⟨false, false⟩)

/-- **`write`**: both records, once each. -/
def write : List IssueComment × Option WriteResult :=
  if call.looks fits then
    let authorization := call.writeAuthorization comments
    if call.branched then authorization else (authorization.1, none)
  else (comments, none)

end RecordsCall

/-- What happens on the issue: a call, or a comment of somebody else's, with any text.
-/
inductive RecordsTurn where
  | remark (body : String)
  | write (call : RecordsCall)

namespace RecordsDesk

variable (fits : Json → Bool)

/-- The comments after a turn. -/
def step (comments : List IssueComment) : RecordsTurn → List IssueComment
  | .remark body => comments ++ [⟨body, none⟩]
  | .write call => (call.write fits comments).1

/-- An issue as it is found, with what others wrote on it. -/
def found (remarks : List String) : List IssueComment :=
  remarks.map fun body => ⟨body, none⟩

/-- The identities records were posted for, one for each record. -/
def recorded (comments : List IssueComment) : List String :=
  (comments.filterMap (·.record)).map (·.identity)

/-- **One record for each work order.** After a call no identity has two records, a call
that says it wrote the record has left one with this very document, and it takes no
other identity's for its own. -/
structure Recorded (comments : List IssueComment) (call : RecordsCall) : Prop where
  /-- No identity has two records. -/
  once : (recorded (call.write fits comments).1).Nodup
  /-- A call that returns the record as written leaves a comment with this very
  document. -/
  carried : ∀ result, (call.write fits comments).2 = some result →
    result.performed = true →
      ∃ comment ∈ (call.write fits comments).1,
        comment.carries call.workOrder = true
  /-- The record of another identity does not count as this one's. -/
  own : call.looks fits = true → ∀ comment,
    call.findAuthorization comments = some comment →
      ∀ other, comment.record = some other →
        other.identity = call.workOrder.identity

/-- **Unmistaken**: the first comment that holds the marker and the identity is
not the record of another identity, and where there is such a comment the
document is there too; and where there is none, the post is not done again once
it is done. -/
structure Unmistaken (comments : List IssueComment) (call : RecordsCall) :
    Prop where
  own : call.looks fits = true → ∀ comment,
    IsFirstNaming comments call.workOrder.identity comment →
      ∀ other, comment.record = some other →
        other.identity = call.workOrder.identity
  there : call.looks fits = true → call.enabled = true → call.branched = true →
    (∃ comment ∈ comments, comment.names call.workOrder.identity = true) →
      ∃ comment ∈ comments, comment.carries call.workOrder = true
  postedOnce : call.looks fits = true → call.enabled = true →
    (∀ comment ∈ comments, comment.names call.workOrder.identity = false) →
      timesDone call.retries call.attempts ≤ 1

/-- A property of the calls of a run. -/
def OfCall (P : List IssueComment → RecordsCall → Prop)
    (comments : List IssueComment) : RecordsTurn → Prop
  | .remark _ => True
  | .write call => P comments call

/-! ## What a record shows -/

theorem includes_authorizationBody {workOrder : GeneratedWorkOrder} {part : String}
    (h : part ∈ [authorizationMarker, "**Work order authorized.**", "", "```json",
      Json.stringify (toWorkOrderDocument workOrder), "```"]) :
    Text.includes (authorizationBody workOrder) part = true :=
  Text.includes_intercalate h

/-- A record holds its marker. -/
theorem includes_marker (workOrder : GeneratedWorkOrder) :
    Text.includes (authorizationBody workOrder) authorizationMarker = true :=
  includes_authorizationBody List.mem_cons_self

/-- A record holds its document. -/
theorem includes_document (workOrder : GeneratedWorkOrder) :
    Text.includes (authorizationBody workOrder)
      (Json.stringify (toWorkOrderDocument workOrder)) = true :=
  includes_authorizationBody (by simp)

/-- **A record holds its identity**, as it is spelled. -/
theorem includes_identity {workOrder : GeneratedWorkOrder}
    (h : workOrderIdentity workOrder.coordinates = .ok workOrder.identity) :
    Text.includes (authorizationBody workOrder) workOrder.identity = true := by
  obtain ⟨hvalid, hidentity⟩ := workOrderIdentity_eq_ok.mp h
  have hquote : Json.render 1 (.str workOrder.identity)
      = "\"" ++ workOrder.identity ++ "\"" := by
    refine Json.quote_of_plain fun c hc => ?_
    rw [hidentity] at hc
    exact isPlain_of_mem_identityOf (isFullSha_of_validate hvalid) hc
  refine Text.includes_trans (includes_document workOrder) ?_
  refine Text.includes_trans (@Json.includes_obj _ _ "identity"
    (.str workOrder.identity) (by simp)) ?_
  rw [hquote]
  exact Text.includes_trans (Text.includes_append_right _ _)
    (Text.includes_append_left _ _)

/-! ## The invariant -/

/-- What was posted is a record of its work order, and no identity has two. The
invariant of every run of calls and remarks. -/
structure Sound (comments : List IssueComment) : Prop where
  posted : ∀ comment ∈ comments, ∀ workOrder, comment.record = some workOrder →
    comment.body = authorizationBody workOrder ∧
      workOrderIdentity workOrder.coordinates = .ok workOrder.identity
  once : (recorded comments).Nodup

theorem findAuthorization_eq_some_iff {comments : List IssueComment}
    {call : RecordsCall} {comment : IssueComment} :
    call.findAuthorization comments = some comment ↔
      IsFirstNaming comments call.workOrder.identity comment := by
  unfold RecordsCall.findAuthorization IsFirstNaming
  rw [List.find?_eq_some_iff_append]
  constructor
  · rintro ⟨hnames, before, after, hparts, hbefore⟩
    exact ⟨before, after, hparts, hnames,
      fun earlier hearlier => by simpa using hbefore earlier hearlier⟩
  · rintro ⟨before, after, hparts, hnames, hbefore⟩
    exact ⟨hnames, before, after, hparts,
      fun earlier hearlier => by simpa using hbefore earlier hearlier⟩

theorem findAuthorization_eq_none_iff {comments : List IssueComment}
    {call : RecordsCall} :
    call.findAuthorization comments = none ↔
      ∀ comment ∈ comments, comment.names call.workOrder.identity = false := by
  unfold RecordsCall.findAuthorization
  rw [List.find?_eq_none]
  exact forall₂_congr fun _ _ => Bool.not_eq_true _ ▸ Iff.rfl

section Calls

variable {fits} {comments : List IssueComment} {call : RecordsCall}

/-- The look finds a record there is. -/
theorem not_mem_recorded_of_find (h : Sound comments)
    (hfind : call.findAuthorization comments = none) :
    call.workOrder.identity ∉ recorded comments := by
  intro hmem
  obtain ⟨workOrder, hrecord, hidentity⟩ := List.mem_map.mp hmem
  obtain ⟨comment, hcomment, hrecord⟩ := List.mem_filterMap.mp hrecord
  obtain ⟨hbody, hnamed⟩ := h.posted comment hcomment workOrder hrecord
  have hnames : comment.names call.workOrder.identity = true := by
    unfold IssueComment.names
    rw [hbody, Bool.and_eq_true, ← hidentity]
    exact ⟨includes_marker workOrder, includes_identity hnamed⟩
  rw [findAuthorization_eq_none_iff.mp hfind comment hcomment] at hnames
  cases hnames

theorem recorded_append_posted :
    recorded (comments ++ call.posted) = recorded comments
      ++ List.replicate (timesDone call.retries call.attempts)
        call.workOrder.identity := by
  simp [recorded, RecordsCall.posted]

/-- After a look that finds nothing, an identity has one record when the post
was done once at most. -/
theorem nodup_recorded_append_iff (h : Sound comments)
    (hfind : call.findAuthorization comments = none) :
    (recorded (comments ++ call.posted)).Nodup
      ↔ timesDone call.retries call.attempts ≤ 1 := by
  rw [recorded_append_posted, List.nodup_append, List.nodup_replicate]
  refine ⟨fun h => h.2.1, fun hle => ⟨h.once, hle, ?_⟩⟩
  intro identity hold other hnew hsame
  rw [hsame, List.eq_of_mem_replicate hnew] at hold
  exact not_mem_recorded_of_find h hfind hold

theorem write_of_not_looks (h : ¬ call.looks fits = true) :
    call.write fits comments = (comments, none) := by
  unfold RecordsCall.write
  rw [if_neg h]

theorem write_of_found {comment : IssueComment} (h : call.looks fits = true)
    (hfind : call.findAuthorization comments = some comment) :
    call.write fits comments
      = (comments, if call.branched then some ⟨call.enabled, call.enabled⟩
          else none) := by
  unfold RecordsCall.write RecordsCall.writeAuthorization
  rw [if_pos h, hfind]
  dsimp only
  cases call.branched with
  | false => rfl
  | true => rfl

theorem write_of_not_found (h : call.looks fits = true)
    (hfind : call.findAuthorization comments = none) :
    call.write fits comments
      = if call.enabled then
          (comments ++ call.posted,
            if call.branched ∧ request call.retries call.attempts = .answered
            then some ⟨true, false⟩ else none)
        else (comments, if call.branched then some ⟨false, false⟩ else none) := by
  unfold RecordsCall.write RecordsCall.writeAuthorization
  rw [if_pos h, hfind]
  dsimp only
  cases call.enabled with
  | false =>
    cases call.branched with
    | false => rfl
    | true => rfl
  | true =>
    cases call.branched with
    | false => simp
    | true => simp

/-- What is said of the comment found is said of the first that names the
identity. -/
theorem own_iff :
    (∀ comment, call.findAuthorization comments = some comment →
        ∀ other, comment.record = some other →
          other.identity = call.workOrder.identity) ↔
      ∀ comment, IsFirstNaming comments call.workOrder.identity comment →
        ∀ other, comment.record = some other →
          other.identity = call.workOrder.identity :=
  forall_congr' fun _ => imp_congr_left findAuthorization_eq_some_iff

theorem recorded_iff_of_found (h : Sound comments) {first : IssueComment}
    (hlooks : call.looks fits = true)
    (hfind : call.findAuthorization comments = some first) :
    Recorded fits comments call ↔ Unmistaken fits comments call := by
  have hwrite := write_of_found hlooks hfind
  obtain ⟨before, after, hparts, hnames, -⟩ := findAuthorization_eq_some_iff.mp hfind
  have hfirst : first ∈ comments := by
    rw [hparts]
    exact List.mem_append_right _ List.mem_cons_self
  constructor
  · intro hrecorded
    refine ⟨fun hl => own_iff.mp (hrecorded.own hl), ?_, fun _ _ hnone => ?_⟩
    · intro _ henabled hbranched _
      have hcarried := hrecorded.carried ⟨true, true⟩
      rw [hwrite, henabled, hbranched] at hcarried
      exact hcarried rfl rfl
    · rw [hnone first hfirst] at hnames
      cases hnames
  · intro hunmistaken
    refine ⟨?_, ?_, fun hl => own_iff.mpr (hunmistaken.own hl)⟩
    · rw [hwrite]
      exact h.once
    · intro result hresult hperformed
      rw [hwrite] at hresult ⊢
      by_cases hbranched : call.branched = true
      · rw [hbranched] at hresult
        rw [← Option.some.inj hresult] at hperformed
        exact hunmistaken.there hlooks hperformed hbranched ⟨first, hfirst, hnames⟩
      · rw [if_neg hbranched] at hresult
        cases hresult

/-- A call that posts and returns the record as written leaves its document. -/
theorem carried_of_not_found {result : WriteResult} (hlooks : call.looks fits = true)
    (hfind : call.findAuthorization comments = none)
    (hresult : (call.write fits comments).2 = some result)
    (hperformed : result.performed = true) :
    ∃ comment ∈ (call.write fits comments).1,
      comment.carries call.workOrder = true := by
  rw [write_of_not_found hlooks hfind] at hresult ⊢
  by_cases henabled : call.enabled = true
  · rw [if_pos henabled] at hresult ⊢
    dsimp only at hresult
    split_ifs at hresult with hanswered
    have hdone := timesDone_pos_of_answered hanswered.2
    exact ⟨_, List.mem_append_right _ (List.mem_replicate.mpr ⟨hdone.ne', rfl⟩),
      includes_document call.workOrder⟩
  · rw [if_neg henabled] at hresult
    dsimp only at hresult
    split_ifs at hresult
    rw [← Option.some.inj hresult] at hperformed
    cases hperformed

theorem recorded_iff_of_not_found (h : Sound comments)
    (hlooks : call.looks fits = true)
    (hfind : call.findAuthorization comments = none) :
    Recorded fits comments call ↔ Unmistaken fits comments call := by
  have hwrite := write_of_not_found hlooks hfind
  have hnone := findAuthorization_eq_none_iff.mp hfind
  constructor
  · intro hrecorded
    refine ⟨fun hl => own_iff.mp (hrecorded.own hl), ?_, fun _ henabled _ => ?_⟩
    · rintro _ _ _ ⟨comment, hcomment, hnames⟩
      rw [hnone comment hcomment] at hnames
      cases hnames
    · have honce := hrecorded.once
      rw [hwrite, henabled] at honce
      exact (nodup_recorded_append_iff h hfind).mp honce
  · intro hunmistaken
    refine ⟨?_, fun result => carried_of_not_found hlooks hfind,
      fun hl => own_iff.mpr (hunmistaken.own hl)⟩
    rw [hwrite]
    by_cases henabled : call.enabled = true
    · rw [if_pos henabled]
      exact (nodup_recorded_append_iff h hfind).mpr
        (hunmistaken.postedOnce hlooks henabled hnone)
    · rw [if_neg henabled]
      exact h.once

/-- **A call keeps one record for each work order when it is not mistaken.** -/
theorem recorded_iff (h : Sound comments) :
    Recorded fits comments call ↔ Unmistaken fits comments call := by
  by_cases hlooks : call.looks fits = true
  · cases hfind : call.findAuthorization comments with
    | some first => exact recorded_iff_of_found h hlooks hfind
    | none => exact recorded_iff_of_not_found h hlooks hfind
  · have hwrite : call.write fits comments = (comments, none) :=
      write_of_not_looks hlooks
    refine iff_of_true ⟨?_, fun result hresult => ?_, fun hl => absurd hl hlooks⟩
      ⟨fun hl => absurd hl hlooks, fun hl => absurd hl hlooks,
        fun hl => absurd hl hlooks⟩
    · rw [hwrite]
      exact h.once
    · rw [hwrite] at hresult
      cases hresult

/-- A call leaves what was there, and records of its work order. -/
theorem mem_write {comment : IssueComment}
    (h : comment ∈ (call.write fits comments).1) :
    comment ∈ comments ∨
      comment = ⟨authorizationBody call.workOrder, some call.workOrder⟩ := by
  by_cases hlooks : call.looks fits = true
  · cases hfind : call.findAuthorization comments with
    | some found =>
      rw [write_of_found hlooks hfind] at h
      exact Or.inl h
    | none =>
      rw [write_of_not_found hlooks hfind] at h
      by_cases henabled : call.enabled = true
      · rw [if_pos henabled] at h
        exact (List.mem_append.mp h).imp_right List.eq_of_mem_replicate
      · rw [if_neg henabled] at h
        exact Or.inl h
  · rw [write_of_not_looks hlooks] at h
    exact Or.inl h

/-- A call that keeps one record for each work order keeps the invariant. -/
theorem sound_write (h : Sound comments) (hrecorded : Recorded fits comments call) :
    Sound (call.write fits comments).1 := by
  refine ⟨fun comment hcomment workOrder hrecord => ?_, hrecorded.once⟩
  obtain hold | rfl := mem_write hcomment
  · exact h.posted comment hold workOrder hrecord
  · rw [← Option.some.inj hrecord]
    exact ⟨rfl, call.order.named⟩

end Calls

variable {fits}

theorem recorded_remark (comments : List IssueComment) (body : String) :
    recorded (comments ++ [⟨body, none⟩]) = recorded comments := by
  simp [recorded]

/-- A remark is no record. -/
theorem sound_remark {comments : List IssueComment} (h : Sound comments)
    (body : String) : Sound (comments ++ [⟨body, none⟩]) := by
  refine ⟨fun comment hcomment workOrder hrecord => ?_, ?_⟩
  · obtain hold | hnew := List.mem_append.mp hcomment
    · exact h.posted comment hold workOrder hrecord
    · rw [List.mem_singleton.mp hnew] at hrecord
      cases hrecord
  · rw [recorded_remark]
    exact h.once

theorem sound_found (remarks : List String) : Sound (found remarks) := by
  have hnone : ∀ comment ∈ found remarks, comment.record = none := by
    intro comment hcomment
    obtain ⟨body, -, rfl⟩ := List.mem_map.mp hcomment
    rfl
  refine ⟨fun comment hcomment workOrder hrecord => ?_, ?_⟩
  · rw [hnone comment hcomment] at hrecord
    cases hrecord
  · unfold recorded
    rw [List.filterMap_eq_nil_iff.mpr hnone]
    exact List.nodup_nil

/-- **Over every run of calls and remarks on an issue there is one record for
each work order exactly when no call is mistaken.** -/
theorem recorded_iff_unmistaken (fits : Json → Bool) (remarks : List String)
    (turns : List RecordsTurn) :
    Machine.Always (step fits) (OfCall (Recorded fits)) (found remarks) turns
      ↔ Machine.Always (step fits) (OfCall (Unmistaken fits)) (found remarks)
        turns := by
  refine @Machine.always_congr_of_keeps _ _ _ Sound _ _ ?_ ?_ _ _
    (sound_found remarks)
  · intro comments turn hsound hrecorded
    cases turn with
    | remark body => exact sound_remark hsound body
    | write call => exact sound_write hsound hrecorded
  · intro comments turn hsound
    cases turn with
    | remark body => exact Iff.rfl
    | write call => exact recorded_iff hsound

/-! ## Ten attempts at one issue -/

/-- An attempt at the work of one issue, at one base. -/
def attemptOrder (identity branch : String) (attempt : ℕ) : GeneratedWorkOrder where
  identity := identity
  branch := branch
  coordinates := ⟨"app", 312, "a3f91c2000000000000000000000000000000000", attempt⟩
  repositoryOwner := "acme"
  repositoryName := "app"
  issueNumber := 312
  issueUrl := "https://github.com/acme/app/issues/312"
  issueTitle := some "Export"
  baseCommit := "a3f91c2000000000000000000000000000000000"
  attempt := attempt
  taskSpec := "Add the export."
  acceptanceCriteria := ["`GET /export` returns 200"]
  pathConstraints := []
  decisionRefs := []
  budgetCeilingUsd := none
  wallClockTimeoutMinutes := none
  needs := []
  modelTier := none

/-- The first attempt at an issue. -/
def firstAttempt : NamedWorkOrder where
  workOrder := attemptOrder "wo_app_312_a3f91c2_a1" "factory/312-a3f91c2-a1" 1
  named := by decide

/-- The tenth attempt, whose identity starts with that of the first. -/
def tenthAttempt : NamedWorkOrder where
  workOrder := attemptOrder "wo_app_312_a3f91c2_a10" "factory/312-a3f91c2-a10" 10
  named := by decide

/-- A call whose every step succeeds. -/
def smoothCall (order : NamedWorkOrder) : RecordsCall where
  order := order
  listed := true
  enabled := true
  retries := 3
  attempts := [.answered]
  branched := true

/-- The record of the tenth attempt. -/
def tenthRecord : IssueComment where
  body := authorizationBody tenthAttempt.workOrder
  record := some tenthAttempt.workOrder

theorem write_tenthAttempt :
    ((smoothCall tenthAttempt).write (fun _ => true) []).1 = [tenthRecord] := by
  rw [write_of_not_found rfl rfl]
  rfl

/-- **The record of attempt 10 counts as the record of attempt 1**: the one
identity is a part of the other. -/
theorem tenth_attempt_counts_as_first :
    ¬ ∀ (fits : Json → Bool) (remarks : List String) (turns : List RecordsTurn),
      Machine.Always (step fits) (OfCall (Recorded fits)) (found remarks)
        turns := by
  intro h
  have hruns := h (fun _ => true) []
    [.write (smoothCall tenthAttempt), .write (smoothCall firstAttempt)]
  have hfirst : Recorded (fun _ => true)
      ((smoothCall tenthAttempt).write (fun _ => true) []).1
      (smoothCall firstAttempt) := hruns.2.1
  rw [write_tenthAttempt] at hfirst
  have hpart : Text.includes "wo_app_312_a3f91c2_a10" "wo_app_312_a3f91c2_a1"
      = true := by decide
  have hfind : (smoothCall firstAttempt).findAuthorization [tenthRecord]
      = some tenthRecord := by
    refine List.find?_cons_of_pos ?_
    exact Bool.and_eq_true_iff.mpr ⟨includes_marker _,
      Text.includes_trans (includes_identity tenthAttempt.named) hpart⟩
  have hsame := hfirst.own rfl tenthRecord hfind tenthAttempt.workOrder rfl
  revert hsame
  decide

end RecordsDesk

end Opifex
