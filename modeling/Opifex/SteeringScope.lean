import Mathlib.Data.Finset.Card
import Opifex.Steering

/-!
# Whom a proposal reaches

An issue has one address on GitHub, whatever the letter case of its repository;
a proposal keeps issues apart by their reference as it is spelled. The text of
an instruction is lower-cased, the registry and an epic's children are not, so
an issue that was named can be swept as one that was not
(`Proposal.named_issue_is_swept`). `Proposal.sparesNamed_iff_spelledAlike` says
exactly when that does not happen.

Neither the targets nor the sweep ask whether the parse is confident: a sentence
that was not understood can take the mark off a whole backlog
(`Proposal.misread_takes_ready_off`). `Proposal.unchanged_iff_settled` says when
it changes nothing.
-/

namespace Opifex

/-- Where an issue is on GitHub, which tells no letter case. -/
def issueAddress (repo : RepositoryRef) (number : ℕ) : String × ℕ :=
  (Text.toLowerCase repo.slug, number)

/-- Which issue it is that stands in scope. -/
def ScopedIssue.address (issue : ScopedIssue) : String × ℕ :=
  issueAddress issue.repo issue.number

/-- Which issue an operation is about. -/
def SteeringOperation.address (operation : SteeringOperation) : String × ℕ :=
  issueAddress operation.repo operation.number

/-- A reference names one path and one number. -/
theorem issueRef_inj {repo repo' : RepositoryRef} {number number' : ℕ}
    (h : issueRef repo number = issueRef repo' number') :
    repo.slug = repo'.slug ∧ number = number' :=
  Text.append_hash_inj h

namespace Proposal

variable (reads : SteeringReads) (dto : ProposeSteering) (scope : SteeringScope)

/-! ## What an instruction reaches -/

/-- What the parser makes of the instruction. -/
def parsed : ParsedInstruction := parseSteeringInstruction dto.instruction

/-- The repositories a target may mean. -/
def meant (target : ParsedTarget) : List RepositoryRef :=
  match target.owner, target.name with
  | some owner, some name => [⟨owner, name⟩]
  | _, _ => scope.resolution

/-- **The instruction names the issue**: in whatever letter case, as the child
of an epic, or by a number that more than one repository could be meant by. -/
def Names (address : String × ℕ) : Prop :=
  ∃ target ∈ (parsed dto).targets, ∃ repo ∈ meant scope target,
    match target.kind with
    | .issue => address = issueAddress repo target.number
    | .epic => ∃ resolution,
        reads.resolveEpic repo.slug target.number dto.maxDepth = .ok resolution ∧
          ∃ child ∈ resolution.children,
            address = issueAddress child.repo child.number

/-- The children of an epic that are read once more. -/
def openChildren (resolution : EpicResolution) : List (RepositoryRef × ℕ) :=
  (resolution.children.filter fun child =>
    !child.unreadable && !child.isPullRequest && child.state = some .isOpen).map
      fun child => (child.repo, child.number)

/-- The issues that are read for a target. -/
def referencesOf (target : ParsedTarget) : List (RepositoryRef × ℕ) :=
  match repositoryFor reads scope target with
  | .error _ => []
  | .ok repo =>
    match target.kind with
    | .issue => [(repo, target.number)]
    | .epic =>
      match reads.resolveEpic repo.slug target.number dto.maxDepth with
      | .error _ => []
      | .ok resolution => openChildren resolution

/-- The issue a reference is read to, if it is open. -/
def readOpen (reference : RepositoryRef × ℕ) : Option ScopedIssue :=
  match reads.getIssue reference.1.slug reference.2 with
  | .error _ => none
  | .ok issue =>
    if issue.isPullRequest = false ∧ issue.state = .isOpen then
      some
        { ref := issueRef reference.1 reference.2
          repo := reference.1
          number := issue.number
          title := issue.title
          inputLabels := issue.inputLabels }
    else none

/-- Everything the targets resolve to, in order. -/
def resolved : List ScopedIssue :=
  ((parsed dto).targets.flatMap (referencesOf reads dto scope)).filterMap
    (readOpen reads)

/-- What the sweep lists, each with the diff it is in for. -/
def listed : List SteeringOperation :=
  (sweptRepositories (parsed dto) scope).flatMap fun repo =>
    match listIssues reads repo with
    | .error _ => []
    | .ok issues => issues.map (sweptOperation (parsed dto) repo)

/-- The references that resolved. -/
def resolvedRefs : List String := (resolved reads dto scope).map (·.ref)

/-- What the sweep lists under no reference that resolved. -/
def unnamed : List SteeringOperation :=
  (listed reads dto scope).filter fun operation =>
    !(resolvedRefs reads dto scope).contains operation.ref

/-- **No issue is collateral that was named**: an issue gets one operation, one for what
was not named is of no issue that was, and the count of the collateral is of exactly
those. -/
structure SparesNamed (proposal : SteeringProposal) : Prop where
  /-- No two operations address one issue. -/
  once : (proposal.operations.map (·.address)).Nodup
  /-- No un-named operation addresses an issue that was named. -/
  spares : ∀ operation ∈ proposal.operations, operation.named = false →
    ¬ Names reads dto scope operation.address
  /-- The count is of the un-named issues that would change. -/
  counted : proposal.blastRadius.collateral
    = ((proposal.operations.filter fun operation =>
        !operation.named && operation.changes).map (·.address)).toFinset.card

/-- **Spelled alike**: an issue the proposal reaches in two ways has one
reference. -/
structure SpelledAlike : Prop where
  /-- Two references that resolve to one issue are the same. -/
  resolved : ∀ a ∈ resolved reads dto scope, ∀ b ∈ resolved reads dto scope,
    a.address = b.address → a.ref = b.ref
  /-- A listed issue that was named or resolved has the reference that
  resolved. -/
  listed : ∀ operation ∈ listed reads dto scope,
    (Names reads dto scope operation.address ∨
      ∃ a ∈ Proposal.resolved reads dto scope, a.address = operation.address) →
      operation.ref ∈ resolvedRefs reads dto scope
  /-- Under no such reference, no issue is listed twice. -/
  once : ((unnamed reads dto scope).map (·.address)).Nodup

/-- The issue is as the instruction asks for. -/
def Asked (intent : SteeringIntent) (issue : ScopedIssue) : Prop :=
  match intent with
  | .ready => issue.inputLabels.contains .ready = true ∧
      issue.inputLabels.contains .hold = false
  | .hold => issue.inputLabels.contains .hold = true

instance (issue : ScopedIssue) : (intent : SteeringIntent) → Decidable (Asked intent issue)
  | .ready => inferInstanceAs (Decidable (_ ∧ _))
  | .hold => inferInstanceAs (Decidable (_ = true))

/-- **Settled**: every issue the targets resolve to is as the instruction asks
for, and every issue the sweep lists is one of them. -/
structure Settled : Prop where
  asked : ∀ issue ∈ resolved reads dto scope, Asked (parsed dto).intent issue
  listed : ∀ operation ∈ listed reads dto scope,
    operation.ref ∈ resolvedRefs reads dto scope

/-! ## What the targets leave scoped -/

section Spec

variable {reads} {dto} {scope} {resolving after : Resolving}

/-- An issue that is read is scoped when it is open. -/
def scopeIssue (scopedIssues : KeyMap String ScopedIssue) (issue : ScopedIssue) :
    KeyMap String ScopedIssue :=
  scopedIssues.set issue.ref issue

theorem resolveIssue_spec {repo : RepositoryRef} {number : ℕ} {reference : String}
    (h : resolveIssue reads repo number reference resolving = .ok after) :
    after.scopedIssues
      = (readOpen reads (repo, number)).toList.foldl scopeIssue
          resolving.scopedIssues := by
  unfold resolveIssue at h
  unfold readOpen
  cases hread : reads.getIssue repo.slug number with
  | error error =>
    rw [hread] at h
    cases error with
    | notFound message =>
      rw [← Except.ok.inj h]
      rfl
    | other message => cases h
  | ok issue =>
    rw [hread] at h
    dsimp only at h ⊢
    by_cases hpull : issue.isPullRequest = true
    · rw [if_pos hpull] at h
      rw [← Except.ok.inj h, if_neg (by simp [hpull])]
      rfl
    · rw [if_neg hpull] at h
      by_cases hopen : issue.state = .isOpen
      · rw [if_neg (not_not.mpr hopen)] at h
        rw [← Except.ok.inj h, if_pos ⟨Bool.eq_false_iff.mpr hpull, hopen⟩]
        rfl
      · rw [if_pos hopen] at h
        rw [← Except.ok.inj h, if_neg (by simp [hopen])]
        rfl

/-- A child that is not read again scopes nothing. -/
theorem resolveChild_spec {child : EpicChild}
    (h : resolveChild reads resolving child = .ok after) :
    after.scopedIssues
      = ((if !child.unreadable && !child.isPullRequest && child.state = some .isOpen
          then [(child.repo, child.number)] else []).filterMap
            (readOpen reads)).foldl scopeIssue resolving.scopedIssues := by
  unfold resolveChild at h
  dsimp only at h
  by_cases hunreadable : child.unreadable = true
  · rw [if_pos hunreadable] at h
    rw [← Except.ok.inj h, if_neg (by simp [hunreadable])]
    rfl
  · rw [if_neg hunreadable] at h
    by_cases hpull : child.isPullRequest = true
    · rw [if_pos hpull] at h
      rw [← Except.ok.inj h, if_neg (by simp [hpull])]
      rfl
    · rw [if_neg hpull] at h
      by_cases hopen : child.state = some .isOpen
      · rw [if_neg (not_not.mpr hopen)] at h
        rw [resolveIssue_spec h, if_pos (by simp [hunreadable, hpull, hopen]),
          List.filterMap_cons]
        cases readOpen reads (child.repo, child.number) with
        | none => rfl
        | some issue => rfl
      · rw [if_pos hopen] at h
        rw [← Except.ok.inj h, if_neg (by simp [hopen])]
        rfl

/-- A loop that may end early, when it does not, collects what its steps
collect. -/
theorem foldlM_collect {σ α β ω : Type} {step : σ → α → Except SteeringError σ}
    {collect : σ → ω} {add : ω → β → ω} {items : α → List β}
    (hstep : ∀ s a s', step s a = .ok s' →
      collect s' = (items a).foldl add (collect s))
    {l : List α} {s s' : σ} (h : l.foldlM step s = .ok s') :
    collect s' = (l.flatMap items).foldl add (collect s) := by
  induction l generalizing s with
  | nil =>
    rw [List.foldlM_nil] at h
    rw [← Except.ok.inj h]
    rfl
  | cons a l ih =>
    rw [List.foldlM_cons] at h
    cases hfirst : step s a with
    | error error =>
      rw [hfirst] at h
      cases h
    | ok next =>
      rw [hfirst] at h
      rw [ih h, hstep s a next hfirst, List.flatMap_cons, List.foldl_append]

theorem filterMap_openChildren {resolution : EpicResolution} :
    (openChildren resolution).filterMap (readOpen reads)
      = resolution.children.flatMap fun child =>
          (if !child.unreadable && !child.isPullRequest &&
              child.state = some .isOpen
            then [(child.repo, child.number)] else []).filterMap
              (readOpen reads) := by
  unfold openChildren
  induction resolution.children with
  | nil => rfl
  | cons child children ih =>
    rw [List.flatMap_cons, ← ih, List.filter_cons]
    split
    · rw [List.map_cons, ← List.singleton_append, List.filterMap_append]
    · rfl

theorem resolveEpic_spec {repo : RepositoryRef} {target : ParsedTarget}
    (h : resolveEpic reads dto repo target resolving = .ok after) :
    after.scopedIssues
      = ((match reads.resolveEpic repo.slug target.number dto.maxDepth with
          | .error _ => []
          | .ok resolution => openChildren resolution).filterMap
            (readOpen reads)).foldl scopeIssue resolving.scopedIssues := by
  unfold resolveEpic at h
  cases hread : reads.resolveEpic repo.slug target.number dto.maxDepth with
  | error error =>
    rw [hread] at h
    cases error with
    | notFound message =>
      rw [← Except.ok.inj h]
      rfl
    | other message => cases h
  | ok resolution =>
    rw [hread] at h
    dsimp only at h ⊢
    rw [filterMap_openChildren]
    have hcollect := @foldlM_collect _ _ _ _ (resolveChild reads)
      Resolving.scopedIssues _ _ (fun _ _ _ => resolveChild_spec) _ _ _ h
    exact hcollect

theorem resolveTarget_spec {target : ParsedTarget}
    (h : resolveTarget reads dto scope resolving target = .ok after) :
    after.scopedIssues
      = ((referencesOf reads dto scope target).filterMap (readOpen reads)).foldl
          scopeIssue resolving.scopedIssues := by
  unfold resolveTarget at h
  unfold referencesOf
  cases hrepo : repositoryFor reads scope target with
  | error unresolved =>
    rw [hrepo] at h
    rw [← Except.ok.inj h]
    rfl
  | ok repo =>
    rw [hrepo] at h
    dsimp only at h ⊢
    cases hkind : target.kind with
    | epic =>
      rw [hkind] at h
      exact resolveEpic_spec h
    | issue =>
      rw [hkind] at h
      rw [resolveIssue_spec h, List.filterMap_cons]
      cases readOpen reads (repo, target.number) with
      | none => rfl
      | some issue => rfl

/-- One more operation. -/
def addOperation (operations : List SteeringOperation)
    (operation : SteeringOperation) : List SteeringOperation :=
  operations ++ [operation]

theorem foldl_addOperation (operations more : List SteeringOperation) :
    more.foldl addOperation operations = operations ++ more := by
  induction more generalizing operations with
  | nil => exact (List.append_nil _).symm
  | cons operation more ih =>
    rw [List.foldl_cons, ih, addOperation, List.append_assoc]
    rfl

/-- The sweep adds what it lists under no scoped reference. -/
theorem sweepRepository_spec {scopedIssues : KeyMap String ScopedIssue}
    {sweeping next : Sweeping} {repo : RepositoryRef}
    (h : sweepRepository reads (parsed dto) scopedIssues sweeping repo = .ok next) :
    next.operations
      = ((match listIssues reads repo with
          | .error _ => []
          | .ok issues => issues.map (sweptOperation (parsed dto) repo)).filter
            fun operation : SteeringOperation =>
              (scopedIssues.get operation.ref).isNone).foldl
                addOperation sweeping.operations := by
  unfold sweepRepository at h
  cases hlist : listIssues reads repo with
  | error error =>
    rw [hlist] at h
    cases error with
    | notFound message => cases h
    | other message => cases h
  | ok issues =>
    rw [hlist] at h
    rw [← Except.ok.inj h, foldl_addOperation]
    dsimp only
    rw [List.filter_map]
    rfl

/-- **What a proposal holds**: an operation for each scoped issue, and one for
each listed issue under no scoped reference. -/
theorem propose_spec {proposal : SteeringProposal}
    (hscope : resolveScope reads dto = .ok scope)
    (h : propose reads dto = .ok proposal) :
    proposal.operations
      = ((resolved reads dto scope).foldl scopeIssue KeyMap.empty).entries.map
          (fun entry => namedOperation (parsed dto) entry.2)
        ++ (listed reads dto scope).filter (fun operation =>
          (((resolved reads dto scope).foldl scopeIssue KeyMap.empty).get
            operation.ref).isNone) ∧
    proposal.blastRadius = blastRadius proposal.operations := by
  unfold propose at h
  rw [hscope] at h
  dsimp only [bind, Except.bind] at h
  cases hresolving : (parseSteeringInstruction dto.instruction).targets.foldlM
      (resolveTarget reads dto scope)
      ⟨KeyMap.empty,
        interpretationNeeded dto (parseSteeringInstruction dto.instruction), []⟩ with
  | error error =>
    rw [hresolving] at h
    cases h
  | ok resolving =>
    rw [hresolving] at h
    dsimp only at h
    have hscoped : resolving.scopedIssues
        = (resolved reads dto scope).foldl scopeIssue KeyMap.empty := by
      have hcollect := @foldlM_collect _ _ _ _ (resolveTarget reads dto scope)
        Resolving.scopedIssues _ _ (fun _ _ _ => resolveTarget_spec) _ _ _ hresolving
      rw [hcollect, resolved, List.filterMap_flatMap]
      rfl
    cases hsweeping : (sweptRepositories (parseSteeringInstruction dto.instruction)
        scope).foldlM
        (sweepRepository reads (parseSteeringInstruction dto.instruction)
          resolving.scopedIssues)
        ⟨resolving.scopedIssues.entries.map fun entry =>
          namedOperation (parseSteeringInstruction dto.instruction) entry.2, 0⟩ with
    | error error =>
      rw [hsweeping] at h
      cases h
    | ok sweeping =>
      rw [hsweeping] at h
      have hproposal := Except.ok.inj h
      have hcollect := @foldlM_collect _ _ _ _
        (sweepRepository reads (parsed dto) resolving.scopedIssues)
        Sweeping.operations _ _ (fun _ _ _ => sweepRepository_spec) _ _ _ hsweeping
      rw [← hproposal]
      refine ⟨?_, rfl⟩
      show sweeping.operations = _
      rw [hcollect, foldl_addOperation, ← hscoped, listed, List.filter_flatMap]
      rfl

/-! ## Keys and addresses -/

variable {issues : List ScopedIssue} {scopedIssues : KeyMap String ScopedIssue}

theorem isNone_get_scopeIssues {ref : String} :
    ((issues.foldl scopeIssue scopedIssues).get ref).isNone
      = ((scopedIssues.get ref).isNone && !(issues.map (·.ref)).contains ref) := by
  induction issues generalizing scopedIssues with
  | nil => simp
  | cons issue issues ih =>
    rw [List.foldl_cons, ih, scopeIssue, KeyMap.get_set, List.map_cons,
      List.contains_cons]
    by_cases href : issue.ref = ref
    · simp [href]
    · have href' : (ref == issue.ref) = false := by
        simpa using fun h : ref = issue.ref => href h.symm
      rw [if_neg href, href', Bool.false_or]

/-- A scoped issue is under its own reference and is one that was read. -/
theorem mem_scopeIssues {entry : String × ScopedIssue}
    (h : entry ∈ (issues.foldl scopeIssue scopedIssues).entries) :
    entry ∈ scopedIssues.entries ∨ entry.2 ∈ issues ∧ entry.1 = entry.2.ref := by
  induction issues generalizing scopedIssues with
  | nil => exact Or.inl h
  | cons issue issues ih =>
    obtain hentry | ⟨hmem, href⟩ := ih h
    · obtain hold | hnew | ⟨value, -, hnew⟩ := KeyMap.mem_alterEntries hentry
      · exact Or.inl hold
      · rw [hnew]
        exact Or.inr ⟨List.mem_cons_self, rfl⟩
      · rw [hnew]
        exact Or.inr ⟨List.mem_cons_self, rfl⟩
    · exact Or.inr ⟨List.mem_cons_of_mem _ hmem, href⟩

/-- Every issue that was read is scoped under its reference. -/
theorem exists_scoped {issue : ScopedIssue} (h : issue ∈ issues) :
    ∃ entry ∈ (issues.foldl scopeIssue KeyMap.empty).entries,
      entry.1 = issue.ref := by
  have hnone : ((issues.foldl scopeIssue KeyMap.empty).get issue.ref).isNone
      = false := by
    rw [isNone_get_scopeIssues, List.contains_iff_mem.mpr (List.mem_map_of_mem h)]
    simp
  unfold KeyMap.get at hnone
  rw [Option.isNone_map] at hnone
  obtain ⟨entry, hentry⟩ := Option.ne_none_iff_exists'.mp
    (mt Option.isNone_iff_eq_none.mpr (Bool.eq_false_iff.mp hnone))
  have hkey := List.find?_some hentry
  exact ⟨entry, List.mem_of_find?_eq_some hentry, beq_iff_eq.mp hkey⟩

theorem mem_resolved {issue : ScopedIssue}
    (h : issue ∈ resolved reads dto scope) :
    ∃ reference, readOpen reads reference = some issue := by
  obtain ⟨reference, -, hread⟩ := List.mem_filterMap.mp h
  exact ⟨reference, hread⟩

/-- What a reference is read to. -/
theorem readOpen_eq_some {reference : RepositoryRef × ℕ} {issue : ScopedIssue}
    (h : readOpen reads reference = some issue) :
    ∃ fetched, reads.getIssue reference.1.slug reference.2 = .ok fetched ∧
      issue = ⟨issueRef reference.1 reference.2, reference.1, fetched.number,
        fetched.title, fetched.inputLabels⟩ := by
  unfold readOpen at h
  cases hread : reads.getIssue reference.1.slug reference.2 with
  | error error =>
    rw [hread] at h
    cases h
  | ok fetched =>
    rw [hread] at h
    dsimp only at h
    split at h
    · exact ⟨fetched, rfl, (Option.some.inj h).symm⟩
    · cases h

/-- **One reference is read to one issue.** -/
theorem eq_of_ref {a b : ScopedIssue} (ha : a ∈ resolved reads dto scope)
    (hb : b ∈ resolved reads dto scope) (h : a.ref = b.ref) :
    a.address = b.address ∧ a.inputLabels = b.inputLabels := by
  obtain ⟨reference, hreference⟩ := mem_resolved ha
  obtain ⟨reference', hreference'⟩ := mem_resolved hb
  obtain ⟨fetched, hfetched, rfl⟩ := readOpen_eq_some hreference
  obtain ⟨fetched', hfetched', rfl⟩ := readOpen_eq_some hreference'
  obtain ⟨hslug, hnumber⟩ := issueRef_inj h
  rw [hslug, hnumber, hfetched'] at hfetched
  obtain rfl := Except.ok.inj hfetched
  refine ⟨?_, rfl⟩
  show (Text.toLowerCase _, _) = (Text.toLowerCase _, _)
  rw [hslug]

variable (reads dto scope) in
/-- The scoped issues, each under its reference. -/
def scopedEntries : List (String × ScopedIssue) :=
  ((resolved reads dto scope).foldl scopeIssue KeyMap.empty).entries

theorem mem_scopedEntries {entry : String × ScopedIssue}
    (h : entry ∈ scopedEntries reads dto scope) :
    entry.2 ∈ resolved reads dto scope ∧ entry.1 = entry.2.ref :=
  (mem_scopeIssues h).resolve_left List.not_mem_nil

/-- Every issue that was resolved has an entry, of an issue like it. -/
theorem exists_scopedEntry {issue : ScopedIssue}
    (h : issue ∈ resolved reads dto scope) :
    ∃ entry ∈ scopedEntries reads dto scope, entry.1 = issue.ref ∧
      entry.2.address = issue.address ∧
        entry.2.inputLabels = issue.inputLabels := by
  obtain ⟨entry, hentry, hkey⟩ := exists_scoped h
  have hin : entry ∈ scopedEntries reads dto scope := hentry
  obtain ⟨hmem, href⟩ := mem_scopedEntries hin
  exact ⟨entry, hin, hkey, eq_of_ref hmem h (href.symm.trans hkey)⟩

theorem nodup_scopedKeys :
    ((scopedEntries reads dto scope).map (·.1)).Nodup :=
  ((resolved reads dto scope).foldl scopeIssue KeyMap.empty).nodup

/-- Two entries under one reference are one. -/
theorem eq_of_key {a b : String × ScopedIssue}
    (ha : a ∈ scopedEntries reads dto scope)
    (hb : b ∈ scopedEntries reads dto scope) (h : a.1 = b.1) : a = b :=
  List.inj_on_of_nodup_map nodup_scopedKeys ha hb h

theorem operations_eq {proposal : SteeringProposal}
    (hscope : resolveScope reads dto = .ok scope)
    (h : propose reads dto = .ok proposal) :
    proposal.operations
      = (scopedEntries reads dto scope).map
          (fun entry => namedOperation (parsed dto) entry.2)
        ++ unnamed reads dto scope := by
  have hfilter : (listed reads dto scope).filter (fun operation =>
        (((resolved reads dto scope).foldl scopeIssue KeyMap.empty).get
          operation.ref).isNone) = unnamed reads dto scope := by
    refine List.filter_congr fun operation _ => ?_
    rw [isNone_get_scopeIssues, KeyMap.get_empty, Option.isNone_none,
      Bool.true_and, resolvedRefs]
  rw [(propose_spec hscope h).1, hfilter, scopedEntries]

theorem mem_unnamed {operation : SteeringOperation} :
    operation ∈ unnamed reads dto scope ↔
      operation ∈ listed reads dto scope ∧
        operation.ref ∉ resolvedRefs reads dto scope := by
  unfold unnamed
  rw [List.mem_filter, Bool.not_eq_true', ← Bool.not_eq_true, List.contains_iff_mem]

/-- What the sweep lists is not named and would change. -/
theorem of_mem_listed {operation : SteeringOperation}
    (h : operation ∈ listed reads dto scope) :
    operation.named = false ∧ operation.changes = true := by
  obtain ⟨repo, -, h⟩ := List.mem_flatMap.mp h
  cases hlist : listIssues reads repo with
  | error error =>
    rw [hlist] at h
    cases h
  | ok issues =>
    rw [hlist] at h
    obtain ⟨issue, -, rfl⟩ := List.mem_map.mp h
    refine ⟨rfl, ?_⟩
    simp [SteeringOperation.changes, sweptOperation]

/-- Each scoped issue has an address of its own when each issue that was read
has one reference. -/
theorem nodup_scoped_iff :
    ((scopedEntries reads dto scope).map fun entry => entry.2.address).Nodup ↔
      ∀ a ∈ resolved reads dto scope, ∀ b ∈ resolved reads dto scope,
        a.address = b.address → a.ref = b.ref := by
  have hnodup : (scopedEntries reads dto scope).Nodup :=
    List.Nodup.of_map _ nodup_scopedKeys
  rw [List.nodup_map_iff_inj_on hnodup]
  constructor
  · intro hinj a ha b hb haddress
    obtain ⟨entry, hentry, hkey, hlike, -⟩ := exists_scopedEntry ha
    obtain ⟨entry', hentry', hkey', hlike', -⟩ := exists_scopedEntry hb
    have hsame : entry = entry' := by
      refine hinj entry hentry entry' hentry' ?_
      rw [hlike, hlike', haddress]
    rw [← hkey, ← hkey', hsame]
  · intro halike entry hentry entry' hentry' haddress
    obtain ⟨hmem, href⟩ := mem_scopedEntries hentry
    obtain ⟨hmem', href'⟩ := mem_scopedEntries hentry'
    refine eq_of_key hentry hentry' ?_
    rw [href, href', halike _ hmem _ hmem' haddress]

/-- No two operations address one issue exactly when neither the scoped nor the
swept do, nor one of each. -/
theorem nodup_operations_iff {proposal : SteeringProposal}
    (hscope : resolveScope reads dto = .ok scope)
    (h : propose reads dto = .ok proposal) :
    (proposal.operations.map (·.address)).Nodup ↔
      (∀ a ∈ resolved reads dto scope, ∀ b ∈ resolved reads dto scope,
        a.address = b.address → a.ref = b.ref) ∧
      ((unnamed reads dto scope).map (·.address)).Nodup ∧
      ∀ a ∈ resolved reads dto scope, ∀ operation ∈ unnamed reads dto scope,
        a.address ≠ operation.address := by
  rw [operations_eq hscope h, List.map_append, List.map_map, List.nodup_append,
    ← nodup_scoped_iff]
  refine and_congr Iff.rfl (and_congr Iff.rfl ?_)
  constructor
  · intro hdisjoint a ha operation hoperation
    obtain ⟨entry, hentry, -, hlike, -⟩ := exists_scopedEntry ha
    rw [← hlike]
    exact hdisjoint _ (List.mem_map_of_mem hentry) _
      (List.mem_map_of_mem hoperation)
  · intro hdisjoint address haddress address' haddress'
    obtain ⟨entry, hentry, rfl⟩ := List.mem_map.mp haddress
    obtain ⟨operation, hoperation, rfl⟩ := List.mem_map.mp haddress'
    exact hdisjoint _ (mem_scopedEntries hentry).1 _ hoperation

/-- The un-named operations of a proposal are those of the sweep, and each of
them would change its issue. -/
theorem filter_unnamed {proposal : SteeringProposal}
    (hscope : resolveScope reads dto = .ok scope)
    (h : propose reads dto = .ok proposal) :
    (proposal.operations.filter fun operation =>
        !operation.named && operation.changes)
      = unnamed reads dto scope := by
  rw [operations_eq hscope h, List.filter_append,
    List.filter_eq_nil_iff.mpr, List.nil_append, List.filter_eq_self]
  · intro operation hoperation
    obtain ⟨hnamed, hchanges⟩ := of_mem_listed (mem_unnamed.mp hoperation).1
    rw [hnamed, hchanges]
    rfl
  · intro operation hoperation
    obtain ⟨entry, -, rfl⟩ := List.mem_map.mp hoperation
    exact Bool.false_ne_true

theorem collateral_eq {proposal : SteeringProposal}
    (hscope : resolveScope reads dto = .ok scope)
    (h : propose reads dto = .ok proposal) :
    proposal.blastRadius.collateral = (unnamed reads dto scope).length := by
  rw [(propose_spec hscope h).2]
  show (proposal.operations.filter (·.changes)).countP (fun o => !o.named) = _
  rw [List.countP_eq_length_filter, List.filter_filter, filter_unnamed hscope h]

/-- **No named issue is collateral exactly when every issue the proposal
reaches is spelled alike.** -/
theorem sparesNamed_iff_spelledAlike {proposal : SteeringProposal}
    (hscope : resolveScope reads dto = .ok scope)
    (hproposal : propose reads dto = .ok proposal) :
    SparesNamed reads dto scope proposal ↔ SpelledAlike reads dto scope := by
  have honce := nodup_operations_iff hscope hproposal
  have hswept : ∀ operation ∈ unnamed reads dto scope,
      operation ∈ proposal.operations ∧ operation.named = false := by
    intro operation hoperation
    rw [operations_eq hscope hproposal]
    exact ⟨List.mem_append_right _ hoperation,
      (of_mem_listed (mem_unnamed.mp hoperation).1).1⟩
  constructor
  · intro hspares
    obtain ⟨hresolved, hunnamed, hdisjoint⟩ := honce.mp hspares.once
    refine ⟨hresolved, fun operation hoperation hreached => ?_, hunnamed⟩
    by_contra href
    have hmem := mem_unnamed.mpr ⟨hoperation, href⟩
    obtain hnames | ⟨a, ha, haddress⟩ := hreached
    · obtain ⟨hin, hnamed⟩ := hswept operation hmem
      exact hspares.spares operation hin hnamed hnames
    · exact hdisjoint a ha operation hmem haddress
  · intro halike
    refine ⟨honce.mpr ⟨halike.resolved, halike.once, ?_⟩, ?_, ?_⟩
    · intro a ha operation hoperation haddress
      obtain ⟨hlisted, href⟩ := mem_unnamed.mp hoperation
      exact href (halike.listed operation hlisted (Or.inr ⟨a, ha, haddress⟩))
    · intro operation hoperation hnamed hnames
      rw [operations_eq hscope hproposal] at hoperation
      obtain hoperation | hoperation := List.mem_append.mp hoperation
      · obtain ⟨entry, -, rfl⟩ := List.mem_map.mp hoperation
        cases hnamed
      · obtain ⟨hlisted, href⟩ := mem_unnamed.mp hoperation
        exact href (halike.listed operation hlisted (Or.inl hnames))
    · rw [collateral_eq hscope hproposal, filter_unnamed hscope hproposal,
        List.toFinset_card_of_nodup halike.once, List.length_map]

/-! ## What changes nothing -/

theorem changes_eq_false_iff {operation : SteeringOperation} :
    operation.changes = false ↔ operation.add = [] ∧ operation.remove = [] := by
  simp [SteeringOperation.changes]

/-- A named issue is left as it is when it is as the instruction asks for. -/
theorem changes_namedOperation_iff {instruction : ParsedInstruction}
    {issue : ScopedIssue} :
    (namedOperation instruction issue).changes = false ↔
      Asked instruction.intent issue := by
  rw [changes_eq_false_iff]
  unfold namedOperation Asked
  cases instruction.intent with
  | ready => simp
  | hold => simp

theorem asked_congr {intent : SteeringIntent} {a b : ScopedIssue}
    (h : a.inputLabels = b.inputLabels) : Asked intent a ↔ Asked intent b := by
  unfold Asked
  rw [h]

/-- No scoped issue would change exactly when each issue that was resolved is as
the instruction asks for. -/
theorem scoped_unchanged_iff {instruction : ParsedInstruction} :
    (∀ entry ∈ scopedEntries reads dto scope,
        (namedOperation instruction entry.2).changes = false) ↔
      ∀ issue ∈ resolved reads dto scope, Asked instruction.intent issue := by
  constructor
  · intro h issue hissue
    obtain ⟨entry, hentry, -, -, hlabels⟩ := exists_scopedEntry hissue
    rw [← asked_congr hlabels]
    exact changes_namedOperation_iff.mp (h entry hentry)
  · intro h entry hentry
    exact changes_namedOperation_iff.mpr (h entry.2 (mem_scopedEntries hentry).1)

/-- No un-named operation changes anything exactly when there is none. -/
theorem unnamed_unchanged_iff :
    (∀ operation ∈ unnamed reads dto scope, operation.changes = false) ↔
      ∀ operation ∈ listed reads dto scope,
        operation.ref ∈ resolvedRefs reads dto scope := by
  constructor
  · intro h operation hoperation
    by_contra href
    have hchanges := h operation (mem_unnamed.mpr ⟨hoperation, href⟩)
    rw [(of_mem_listed hoperation).2] at hchanges
    exact Bool.noConfusion hchanges
  · intro h operation hoperation
    obtain ⟨hlisted, href⟩ := mem_unnamed.mp hoperation
    exact absurd (h operation hlisted) href

/-- **A proposal changes nothing exactly when all it reaches is settled.** -/
theorem unchanged_iff {proposal : SteeringProposal}
    (hscope : resolveScope reads dto = .ok scope)
    (hproposal : propose reads dto = .ok proposal) :
    (∀ operation ∈ proposal.operations, operation.changes = false) ↔
      Settled reads dto scope := by
  rw [operations_eq hscope hproposal, List.forall_mem_append, List.forall_mem_map,
    scoped_unchanged_iff, unnamed_unchanged_iff]
  constructor
  · intro h
    cases h
    constructor <;> assumption
  · intro h
    cases h
    constructor <;> assumption

/-- **An instruction that was not understood changes nothing exactly when all
it reaches is settled.** -/
theorem unchanged_iff_settled {proposal : SteeringProposal}
    (hscope : resolveScope reads dto = .ok scope)
    (hproposal : propose reads dto = .ok proposal) :
    ((parsed dto).confident = false → ∀ operation ∈ proposal.operations,
        operation.add = [] ∧ operation.remove = []) ↔
      ((parsed dto).confident = false → Settled reads dto scope) := by
  have hempty : (∀ operation ∈ proposal.operations,
      operation.add = [] ∧ operation.remove = []) ↔ Settled reads dto scope := by
    rw [← unchanged_iff hscope hproposal]
    exact forall₂_congr fun _ _ => changes_eq_false_iff.symm
  exact imp_congr_right fun _ => hempty

end Spec

/-! ## One repository, in two spellings -/

/-- An open issue marked ready. -/
def readyIssue (number : ℕ) : FetchedIssue where
  number := number
  state := .isOpen
  title := "Export"
  body := none
  labels := ["factory:ready"]
  inputLabels := [.ready]
  ignoredLabels := []
  isPullRequest := false

/-- One registered repository whose issues 12 and 7 are marked ready. -/
def oneRepository : SteeringReads where
  registered := [⟨⟨"Acme", "App"⟩, none⟩]
  projects := []
  getIssue := fun _ number =>
    if number = 12 ∨ number = 7 then .ok (readyIssue number)
    else .error (.notFound "Not Found")
  listReady := fun _ => .ok [readyIssue 12, readyIssue 7]
  resolveEpic := fun _ _ _ => .error (.notFound "Not Found")

/-- One repository, which bare numbers mean and a sweep reaches. -/
def oneScope : SteeringScope :=
  ⟨none, [⟨"Acme", "App"⟩], some [⟨"Acme", "App"⟩]⟩

/-- The instruction with the repository spelled, in its own letter case. -/
def spelledOut : ProposeSteering := ⟨"only work on Acme/App#12", .unstated, none⟩

/-- The same instruction with a bare number. -/
def byNumber : ProposeSteering := ⟨"only work on 12", .unstated, none⟩

/-- An instruction with no number in it. -/
def misread : ProposeSteering := ⟨"only work on the auth thing", .unstated, none⟩

theorem exists_proposal (reads : SteeringReads) (dto : ProposeSteering)
    (h : (propose reads dto).toOption.isSome = true) :
    ∃ proposal, propose reads dto = .ok proposal := by
  cases hproposal : propose reads dto with
  | ok proposal => exact ⟨proposal, rfl⟩
  | error error =>
    rw [hproposal] at h
    cases h

/-- **A named issue is swept**: the text is lower-cased, and the registry
spells the repository otherwise. -/
theorem named_issue_is_swept :
    ¬ ∀ (reads : SteeringReads) (dto : ProposeSteering) (scope : SteeringScope)
      (proposal : SteeringProposal), resolveScope reads dto = .ok scope →
        propose reads dto = .ok proposal →
          SparesNamed reads dto scope proposal := by
  intro h
  obtain ⟨proposal, hproposal⟩ :=
    exists_proposal oneRepository spelledOut (by decide +kernel)
  have hspares := h oneRepository spelledOut oneScope proposal rfl hproposal
  have htwice : ∃ a ∈ resolved oneRepository spelledOut oneScope,
      ∃ operation ∈ unnamed oneRepository spelledOut oneScope,
        a.address = operation.address := by decide +kernel
  obtain ⟨a, ha, operation, hoperation, haddress⟩ := htwice
  exact ((nodup_operations_iff rfl hproposal).mp hspares.once).2.2 a ha operation
    hoperation haddress

/-- By its number the issue is spelled as the registry does. -/
theorem sparesNamed_byNumber : ∃ proposal,
    propose oneRepository byNumber = .ok proposal ∧
      SparesNamed oneRepository byNumber oneScope proposal := by
  obtain ⟨proposal, hproposal⟩ :=
    exists_proposal oneRepository byNumber (by decide +kernel)
  refine ⟨proposal, hproposal,
    (sparesNamed_iff_spelledAlike rfl hproposal).mpr ⟨?_, ?_, ?_⟩⟩
  · decide +kernel
  · intro operation hoperation hreached
    have halike : ∀ operation ∈ listed oneRepository byNumber oneScope,
        (operation.address = issueAddress ⟨"Acme", "App"⟩ 12 ∨
          ∃ a ∈ resolved oneRepository byNumber oneScope,
            a.address = operation.address) →
          operation.ref ∈ resolvedRefs oneRepository byNumber oneScope := by
      decide +kernel
    refine halike operation hoperation (hreached.imp_left ?_)
    rintro ⟨target, htarget, repo, hrepo, hkind⟩
    have htargets : (parsed byNumber).targets = [⟨.issue, none, none, 12, "12"⟩] := by
      decide +kernel
    rw [htargets] at htarget
    obtain rfl := List.mem_singleton.mp htarget
    obtain rfl := List.mem_singleton.mp hrepo
    exact hkind
  · decide +kernel

/-- **A sentence that was not understood takes the mark off the backlog.** -/
theorem misread_takes_ready_off :
    ¬ ∀ (reads : SteeringReads) (dto : ProposeSteering) (scope : SteeringScope)
      (proposal : SteeringProposal), resolveScope reads dto = .ok scope →
        propose reads dto = .ok proposal → (parsed dto).confident = false →
          ∀ operation ∈ proposal.operations,
            operation.add = [] ∧ operation.remove = [] := by
  intro h
  obtain ⟨proposal, hproposal⟩ :=
    exists_proposal oneRepository misread (by decide)
  have hunchanged := h oneRepository misread oneScope proposal rfl hproposal
    (by decide)
  have hswept : ∃ operation ∈ unnamed oneRepository misread oneScope,
      operation.remove = [.ready] := by decide
  obtain ⟨operation, hoperation, hremove⟩ := hswept
  rw [operations_eq rfl hproposal] at hunchanged
  have hkept := (hunchanged operation (List.mem_append_right _ hoperation)).2
  rw [hremove] at hkept
  cases hkept

/-- Two verbs that contradict each other, over issues that are as the first of them
asks for: nothing is changed. -/
def contradictory : ProposeSteering :=
  ⟨"only release #12 and hold #7", .unstated, none⟩

theorem unchanged_contradictory : ∃ proposal,
    propose oneRepository contradictory = .ok proposal ∧
      (parsed contradictory).confident = false ∧
      (resolved oneRepository contradictory oneScope).map (·.number) = [12, 7] ∧
      ((parsed contradictory).confident = false →
        ∀ operation ∈ proposal.operations,
          operation.add = [] ∧ operation.remove = []) := by
  obtain ⟨proposal, hproposal⟩ :=
    exists_proposal oneRepository contradictory (by decide +kernel)
  have hscope : resolveScope oneRepository contradictory = .ok oneScope := rfl
  exact ⟨proposal, hproposal, by decide +kernel, by decide +kernel,
    (unchanged_iff_settled hscope hproposal).mpr
      fun _ => ⟨by decide +kernel, by decide +kernel⟩⟩

end Proposal

end Opifex
