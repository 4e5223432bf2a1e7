import Opifex.GitLiveness
import Opifex.IngestInterleaving
import Opifex.Lib.Machine

/-!
# Progress is what lies past the base

The watcher reads a branch newest first: what landed past the pinned base, the
base, and as much of the history behind it as the pages show. It drops the base
from the list and skips what is at or behind the head it stored last.

Neither looks for what is *behind the base*. Until a head is stored nothing is
skipped, so the history behind the base is recorded as progress
(`GitDesk.takes_progress_for_base`); and the stored head may come from the pull
request, which is read after the list, so what lands between the two is
skipped the next time. `GitDesk.exact_iff_discerned` says exactly which sweeps
record the commits past the base and nothing else.
-/

namespace Opifex

/-! ## The branch -/

/-- The full name of a commit has forty digits. -/
def GitCommit.IsFull (commit : GitCommit) : Prop :=
  commit.sha.toList.length = 40

/-- A branch that only grows, with every commit that will land on it. The fields that
are proofs say that no sha is listed twice and that every sha is a full one. -/
structure GitBranch where
  /-- What lands past the base, newest first. -/
  landing : List GitCommit
  /-- The pinned base. -/
  base : GitCommit
  /-- The history behind the base, newest first. -/
  behind : List GitCommit
  distinct : ((landing ++ base :: behind).map (·.sha)).Nodup
  full : ∀ commit ∈ landing ++ base :: behind, commit.IsFull

namespace GitBranch

variable (branch : GitBranch)

/-- The branch as GitHub lists it, newest first: what landed, the base, and what is
behind it. -/
def history : List GitCommit := branch.landing ++ branch.base :: branch.behind

/-- The branch past its base, once so many commits have landed. -/
def ahead (landed : ℕ) : List GitCommit :=
  branch.landing.drop (branch.landing.length - landed)

/-- What landed since there were fewer commits. -/
def arrivals (before more : ℕ) : List GitCommit :=
  (branch.ahead (before + more)).take
    ((branch.ahead (before + more)).length - (branch.ahead before).length)

variable {branch}

theorem ahead_eq_append (before more : ℕ) :
    branch.ahead (before + more)
      = branch.arrivals before more ++ branch.ahead before := by
  have hdrop : (branch.ahead (before + more)).drop
      ((branch.ahead (before + more)).length - (branch.ahead before).length)
      = branch.ahead before := by
    unfold ahead
    rw [List.drop_drop, List.length_drop, List.length_drop]
    congr 1
    omega
  conv_lhs => rw [← List.take_append_drop ((branch.ahead (before + more)).length
    - (branch.ahead before).length) (branch.ahead (before + more))]
  rw [hdrop]
  rfl

theorem ahead_sublist (landed : ℕ) :
    (branch.ahead landed).Sublist branch.landing := List.drop_sublist _ _

/-- What a list of the branch shows is a part of its history, in order. -/
theorem listed_sublist (landed listed : ℕ) :
    (branch.ahead landed ++ branch.base :: branch.behind.take listed).Sublist
      branch.history :=
  (ahead_sublist landed).append ((List.take_sublist _ _).cons_cons _)

end GitBranch

theorem isSameCommit_iff {a b : String} (ha : a.toList.length = 40)
    (hb : b.toList.length = 40) : isSameCommit a b = true ↔ a = b := by
  unfold isSameCommit
  dsimp only
  rw [ha, hb, min_self, List.take_of_length_le ha.le, List.take_of_length_le hb.le]
  simp [String.toList_inj]

/-- The first hit is within the first `n + 1` elements when one of these is a
hit. -/
theorem any_findIdx?_le {α : Type*} (p : α → Bool) (l : List α) (n : ℕ) :
    (l.findIdx? p).any (fun i => decide (i ≤ n)) = (l.take (n + 1)).any p := by
  induction l generalizing n with
  | nil => rfl
  | cons a l ih =>
    rw [List.findIdx?_cons, List.take_succ_cons, List.any_cons]
    cases ha : p a with
    | true => simp
    | false =>
      rw [Bool.false_or]
      cases n with
      | zero => simp [Option.any_map]
      | succ n => simpa [Option.any_map, Function.comp_def] using ih n

/-- **What is skipped.** A commit of the list is at or behind a head when the
head names it or one above it. -/
theorem isAtOrBefore_append {above below : List GitCommit} {commit : GitCommit}
    {head : String}
    (hdistinct : ((above ++ commit :: below).map (·.sha)).Nodup)
    (hfull : ∀ c ∈ above ++ commit :: below, c.IsFull) :
    isAtOrBefore commit.sha head (above ++ commit :: below)
      = (above ++ [commit]).any fun c => isSameCommit c.sha head := by
  have hindex : (above ++ commit :: below).findIdx?
      (fun c => isSameCommit c.sha commit.sha) = some above.length := by
    have hcommit : commit.IsFull := hfull commit (by simp)
    rw [List.findIdx?_append, List.findIdx?_eq_none_iff.mpr, List.findIdx?_cons,
      (isSameCommit_iff hcommit hcommit).mpr rfl]
    · simp
    · intro c hc
      rw [Bool.eq_false_iff, ne_eq, isSameCommit_iff (hfull c (by simp [hc])) hcommit]
      intro hsame
      rw [List.map_append, List.map_cons, List.nodup_middle, List.nodup_cons] at hdistinct
      refine hdistinct.1 (List.mem_append_left _ ?_)
      exact List.mem_map.mpr ⟨c, hc, hsame⟩
  have htake : (above ++ commit :: below).take (above.length + 1)
      = above ++ [commit] := by
    rw [List.take_append, List.take_of_length_le (by omega)]
    simp
  unfold isAtOrBefore
  rw [hindex, ← htake, ← any_findIdx?_le]
  cases (above ++ commit :: below).findIdx? (fun c => isSameCommit c.sha head) with
  | none => rfl
  | some i => simp

/-! ## Sweeps of the branch -/

/-- One sweep: what landed before it, and what it reads. The pull request and
the checks are read after the list. -/
structure GitSweep where
  /-- How many commits landed since the sweep before. -/
  landed : ℕ
  /-- How much of the history behind the base the list shows. -/
  listed : ℕ
  pullRequest : Option GitPullRequest
  checks : List GitCheck
  now : Instant
deriving DecidableEq

/-- A watched run with what is stored for it, and how much has landed. The branch is
fixed; how much of it a sweep can see grows. -/
structure GitDesk where
  watched : GitWatchedRun
  record : RunRecord
  landed : ℕ

/-- The id of a commit's event. -/
def GitWatchedRun.commitId (run : GitWatchedRun) (commit : GitCommit) : String :=
  "git:" ++ run.owner ++ "/" ++ run.name ++ ":commit:" ++ commit.sha

/-- An event the watcher stored for a commit. -/
def RunEventRow.isGitProgress (row : RunEventRow) : Bool :=
  row.type = .progress && row.source = .gitDerived

/-- The ids of the progress git was read for. -/
def progressIds (events : List RunEventRow) : List (Option String) :=
  (events.filter (·.isGitProgress)).map (·.externalId)

namespace GitDesk

variable (branch : GitBranch)

/-- What the watcher knows of the run. -/
def known (desk : GitDesk) : GitWatchedRun :=
  { desk.watched with
    baseCommit := branch.base.sha
    lastKnownHeadCommit := desk.record.run.headCommit
    pullRequestUrl := desk.record.run.pullRequestUrl }

/-- The history the list shows behind the base. -/
def behind (sweep : GitSweep) : List GitCommit :=
  branch.behind.take sweep.listed

/-- The branch past its base when the sweep lists it. -/
def ahead (desk : GitDesk) (sweep : GitSweep) : List GitCommit :=
  branch.ahead (desk.landed + sweep.landed)

/-- What the sweep gathers. -/
def observe (desk : GitDesk) (sweep : GitSweep) : GitObservation where
  run := desk.known branch
  commits := desk.ahead branch sweep ++ branch.base :: behind branch sweep
  pullRequest := sweep.pullRequest
  checks := sweep.checks

/-- **A sweep of the run**: the derived events are stored, then the run is
updated. -/
def step (desk : GitDesk) (sweep : GitSweep) : GitDesk :=
  let observation := desk.observe branch sweep
  { watched := desk.watched
    record :=
      { run := desk.record.run.gitUpdate (observation.update sweep.now)
        events :=
          createMany desk.record.events (observation.derivedEvents.map toRow) }
    landed := desk.landed + sweep.landed }

/-- When the branch past its base, the pull request and the checks moved. -/
def moments (desk : GitDesk) (sweep : GitSweep) : List Instant :=
  (desk.ahead branch sweep).map (·.authoredAt) ++
    sweep.pullRequest.toList.map (·.updatedAt) ++
      sweep.checks.map fun check => check.completedAt.getD sweep.now

/-- One progress event is stored for each commit, and no other. -/
def Recorded (desk : GitDesk) (commits : List GitCommit) : Prop :=
  (progressIds desk.record.events).Perm
    (commits.map fun commit => some (desk.watched.commitId commit))

/-- **Progress is exactly what lies past the base**: a sweep records every commit past
it, and neither the base nor anything behind it counts as progress or as activity. -/
structure Exact (desk : GitDesk) (sweep : GitSweep) : Prop where
  recorded : (desk.step branch sweep).Recorded (desk.ahead branch sweep)
  /-- No commit at or behind the base yields an event. -/
  behind : ∀ event ∈ (desk.observe branch sweep).derivedEvents,
    ∀ commit ∈ branch.base :: branch.behind,
      event.eventId ≠ desk.watched.commitId commit
  /-- Nor does one count as activity. -/
  activity : (desk.observe branch sweep).latestActivity sweep.now
    = Reduce.reduce max (desk.moments branch sweep)
  /-- A branch at its base shows nothing. -/
  still : desk.ahead branch sweep = [] → sweep.pullRequest = none →
    (desk.observe branch sweep).derivedEvents = [] ∧
      (desk.observe branch sweep).latestActivity sweep.now = none

/-- The stored head names the commit. -/
def IsHead (desk : GitDesk) (commit : GitCommit) : Prop :=
  ∃ head, desk.record.run.headCommit = some head ∧
    isSameCommit commit.sha head = true

/-- **What a sweep is not misled by**: the listing that GitHub answers and the head that
is stored tell the commits past the base from those behind it. A condition on the lists
and the state before. -/
structure Discerns (desk : GitDesk) (sweep : GitSweep) : Prop where
  /-- History behind the base is listed only once a head is stored that is not
  below it. -/
  skipsBehind : ∀ commit below, behind branch sweep = commit :: below →
    ∃ head ∈ desk.ahead branch sweep ++ [branch.base, commit], desk.IsHead head
  /-- The stored head is none of the commits seen for the first time. -/
  seesArrivals : ∀ commit ∈ branch.arrivals desk.landed sweep.landed,
    ¬ desk.IsHead commit
  /-- History behind the base is older than something past it. -/
  dated : ∀ commit ∈ behind branch sweep, ∃ moment ∈ desk.moments branch sweep,
    commit.authoredAt ≤ moment
  /-- A branch at its base has no checks. -/
  unchecked : desk.ahead branch sweep = [] → sweep.pullRequest = none →
    sweep.checks = []

/-! ## Storing what was derived -/

section Storing

variable {stored data : List RunEventRow} {row : RunEventRow}

theorem mem_progressIds {id : Option String} :
    id ∈ progressIds stored ↔
      ∃ row ∈ stored, row.isGitProgress = true ∧ row.externalId = id := by
  unfold progressIds
  simp [and_assoc]

/-- A duplicate of a row among those of its kind is found by its id. -/
theorem mem_progressIds_insertEvent {id : Option String}
    (hkind : ∀ other ∈ stored, other.externalId = row.externalId →
      row.isGitProgress = true → other.isGitProgress = true) :
    id ∈ progressIds (insertEvent stored row) ↔
      id ∈ progressIds stored ∨ row.isGitProgress = true ∧ row.externalId = id := by
  unfold insertEvent
  by_cases hstored : isStored stored row = true
  · rw [if_pos hstored]
    refine ⟨Or.inl, fun h => h.elim (fun hold => hold) fun ⟨hrow, hid⟩ => ?_⟩
    obtain ⟨other, hother, hsame⟩ :=
      List.any_eq_true.mp (Bool.and_eq_true_iff.mp hstored).2
    have hsame : other.externalId = row.externalId := beq_iff_eq.mp hsame
    exact mem_progressIds.mpr
      ⟨other, hother, hkind other hother hsame hrow, hsame.trans hid⟩
  · rw [if_neg hstored]
    simp only [mem_progressIds, List.mem_append, List.mem_singleton, or_and_right,
      exists_or, exists_eq_left]

/-- Storing keeps the ids apart. -/
theorem nodup_progressIds_insertEvent (hid : row.externalId.isSome = true)
    (h : (progressIds stored).Nodup) :
    (progressIds (insertEvent stored row)).Nodup := by
  unfold insertEvent
  by_cases hstored : isStored stored row = true
  · rw [if_pos hstored]
    exact h
  · rw [if_neg hstored]
    unfold progressIds
    rw [List.filter_append, List.map_append]
    refine List.Nodup.append h ?_ ?_
    · exact ((List.nodup_singleton row).filter _).map_on (by simp)
    · rintro id hold hnew
      obtain ⟨other, hother, hsame⟩ := List.mem_map.mp hold
      obtain ⟨_, hrow, rfl⟩ := List.mem_map.mp hnew
      obtain rfl := List.mem_singleton.mp (List.mem_filter.mp hrow).1
      refine hstored (Bool.and_eq_true_iff.mpr ⟨hid, List.any_eq_true.mpr
        ⟨other, (List.mem_filter.mp hother).1, beq_iff_eq.mpr hsame⟩⟩)

theorem nodup_progressIds_createMany
    (hids : ∀ row ∈ data, row.externalId.isSome = true)
    (h : (progressIds stored).Nodup) :
    (progressIds (createMany stored data)).Nodup := by
  induction data generalizing stored with
  | nil => exact h
  | cons row data ih =>
    exact ih (fun other hother => hids other (List.mem_cons_of_mem _ hother))
      (nodup_progressIds_insertEvent (hids row List.mem_cons_self) h)

/-- What is stored after a list of rows, when an id never names rows of two
kinds. -/
theorem mem_progressIds_createMany {id : Option String}
    (hkind : ∀ row ∈ data, ∀ other, other ∈ stored ∨ other ∈ data →
      other.externalId = row.externalId → row.isGitProgress = true →
        other.isGitProgress = true) :
    id ∈ progressIds (createMany stored data) ↔
      id ∈ progressIds stored ∨ id ∈ progressIds data := by
  induction data generalizing stored with
  | nil => simp [createMany, progressIds]
  | cons row data ih =>
    have hrest : id ∈ progressIds (createMany (insertEvent stored row) data) ↔
        id ∈ progressIds (insertEvent stored row) ∨ id ∈ progressIds data := by
      refine ih fun later hlater other hother => hkind later
        (List.mem_cons_of_mem _ hlater) other ?_
      obtain hother | hother := hother
      · exact (mem_insertEvent hother).imp_right fun h =>
          List.mem_cons.mpr (Or.inl h)
      · exact Or.inr (List.mem_cons_of_mem _ hother)
    have hfirst := @mem_progressIds_insertEvent stored row id fun other hother =>
      hkind row List.mem_cons_self other (Or.inl hother)
    show id ∈ progressIds (createMany (insertEvent stored row) data) ↔ _
    rw [hrest, hfirst, or_assoc]
    simp only [mem_progressIds, List.mem_cons, or_and_right, exists_or, exists_eq_left]

end Storing

/-! ## What a sweep emits -/

section Sweep

variable {branch} {desk : GitDesk} {sweep : GitSweep}

theorem commitId_injective {run : GitWatchedRun} {a b : GitCommit}
    (h : run.commitId a = run.commitId b) : a.sha = b.sha := by
  unfold GitWatchedRun.commitId at h
  exact String.append_right_inj _ |>.mp h

/-- No two commits of a branch share a name. -/
theorem eq_of_sha {a b : GitCommit} (ha : a ∈ branch.history)
    (hb : b ∈ branch.history) (h : a.sha = b.sha) : a = b :=
  List.inj_on_of_nodup_map branch.distinct ha hb h

theorem listed_subset {commit : GitCommit}
    (h : commit ∈ (desk.observe branch sweep).commits) :
    commit ∈ branch.history :=
  (GitBranch.listed_sublist _ _).subset h

theorem ahead_subset {commit : GitCommit} (h : commit ∈ desk.ahead branch sweep) :
    commit ∈ (desk.observe branch sweep).commits :=
  List.mem_append_left _ h

theorem behind_subset {commit : GitCommit} (h : commit ∈ behind branch sweep) :
    commit ∈ (desk.observe branch sweep).commits :=
  List.mem_append_right _ (List.mem_cons_of_mem _ h)

/-- What the list shows past the base is not what it shows behind it. -/
theorem disjoint_ahead_behind {a b : GitCommit} (ha : a ∈ branch.landing)
    (hb : b ∈ branch.base :: branch.behind) : a.sha ≠ b.sha := by
  have h := branch.distinct
  rw [List.map_append, List.nodup_append] at h
  exact h.2.2 _ (List.mem_map_of_mem ha) _ (List.mem_map_of_mem hb)

/-- The filter drops the base and nothing else. -/
theorem progressCommits_observe :
    (desk.observe branch sweep).progressCommits
      = desk.ahead branch sweep ++ behind branch sweep := by
  have hbase : branch.base.IsFull := branch.full _ (by simp)
  have hsame : ∀ commit ∈ branch.history,
      isSameCommit commit.sha branch.base.sha = true ↔ commit = branch.base :=
    fun commit hcommit =>
      (isSameCommit_iff (branch.full commit hcommit) hbase).trans
        ⟨eq_of_sha hcommit (by simp [GitBranch.history]), congrArg _⟩
  have hkeep : ∀ part : List GitCommit, (∀ commit ∈ part,
      commit ∈ branch.history ∧ commit ≠ branch.base) →
      part.filter (fun commit => !isSameCommit commit.sha branch.base.sha) = part := by
    intro part hpart
    refine List.filter_eq_self.mpr fun commit hcommit => ?_
    rw [Bool.not_eq_true', Bool.eq_false_iff, ne_eq, hsame commit (hpart commit hcommit).1]
    exact (hpart commit hcommit).2
  unfold GitObservation.progressCommits
  show (desk.ahead branch sweep ++ branch.base :: behind branch sweep).filter
    (fun commit => !isSameCommit commit.sha branch.base.sha) = _
  rw [List.filter_append, hkeep, List.filter_cons_of_neg, hkeep]
  · intro commit hcommit
    refine ⟨@listed_subset _ desk _ _ (behind_subset hcommit), ?_⟩
    rintro rfl
    have h := branch.distinct
    rw [List.map_append, List.nodup_append, List.map_cons, List.nodup_cons] at h
    exact h.2.1.1 (List.mem_map_of_mem (List.mem_of_mem_take hcommit))
  · rw [Bool.not_eq_true', Bool.not_eq_false, hsame _ (by simp [GitBranch.history])]
  · intro commit hcommit
    refine ⟨listed_subset (ahead_subset hcommit), ?_⟩
    rintro rfl
    exact disjoint_ahead_behind ((GitBranch.ahead_sublist _).subset hcommit)
      List.mem_cons_self rfl

/-- The sweep derives an event for the commit. -/
def Emits (branch : GitBranch) (desk : GitDesk) (sweep : GitSweep)
    (commit : GitCommit) : Prop :=
  (desk.observe branch sweep).commitEvent commit ≠ none

/-- A listed commit is skipped when the stored head is it or one above it. -/
theorem emits_iff {above below : List GitCommit} {commit : GitCommit}
    (h : (desk.observe branch sweep).commits = above ++ commit :: below) :
    Emits branch desk sweep commit ↔
      ∀ head ∈ above ++ [commit], ¬ desk.IsHead head := by
  have hsub : (above ++ commit :: below).Sublist branch.history :=
    h ▸ GitBranch.listed_sublist _ _
  have hdistinct : ((above ++ commit :: below).map (·.sha)).Nodup :=
    branch.distinct.sublist (hsub.map _)
  have hfull : ∀ c ∈ above ++ commit :: below, c.IsFull :=
    fun c hc => branch.full c (hsub.subset hc)
  have hskip : ((desk.known branch).lastKnownHeadCommit.any fun head =>
        head ≠ "" && isAtOrBefore commit.sha head
          (desk.observe branch sweep).commits) = true ↔
      ∃ head ∈ above ++ [commit], desk.IsHead head := by
    rw [h]
    show (desk.record.run.headCommit.any _) = true ↔ _
    rw [Option.any_eq_true]
    constructor
    · rintro ⟨head, hhead, hskip⟩
      rw [isAtOrBefore_append hdistinct hfull, Bool.and_eq_true,
        List.any_eq_true] at hskip
      obtain ⟨c, hc, hnamed⟩ := hskip.2
      exact ⟨c, hc, head, hhead, hnamed⟩
    · rintro ⟨c, hc, head, hhead, hnamed⟩
      refine ⟨head, hhead, ?_⟩
      rw [isAtOrBefore_append hdistinct hfull, Bool.and_eq_true, List.any_eq_true]
      refine ⟨decide_eq_true ?_, c, hc, hnamed⟩
      rintro rfl
      simp [isSameCommit] at hnamed
  unfold Emits GitObservation.commitEvent
  show (if (desk.known branch).lastKnownHeadCommit.any _ = true then none else _) ≠ none ↔ _
  by_cases hskipped : ∃ head ∈ above ++ [commit], desk.IsHead head
  · rw [if_pos (hskip.mpr hskipped)]
    obtain ⟨head, hhead, his⟩ := hskipped
    exact iff_of_false (fun hne => hne rfl) fun hall => hall head hhead his
  · rw [if_neg (mt hskip.mp hskipped)]
    refine iff_of_true (Option.some_ne_none _) fun head hhead his => ?_
    exact hskipped ⟨head, hhead, his⟩

theorem emits_iff_exists {commit : GitCommit} :
    Emits branch desk sweep commit ↔ ∃ event,
      (desk.observe branch sweep).commitEvent commit = some event :=
  Option.ne_none_iff_exists'

/-- The event of a commit carries the commit's id. -/
theorem commitEvent_eq_some {commit : GitCommit} {event : RunEventPayload}
    (h : (desk.observe branch sweep).commitEvent commit = some event) :
    event.eventId = desk.watched.commitId commit ∧
      (toRow event).isGitProgress = true := by
  unfold GitObservation.commitEvent at h
  dsimp only at h
  split at h
  · cases h
  · rw [← Option.some.inj h]
    exact ⟨rfl, rfl⟩

/-- The event of a pull request carries no commit's id. -/
theorem pullEvent_eq_some {event : RunEventPayload}
    (h : (desk.observe branch sweep).pullEvent = some event) :
    (∀ commit, event.eventId ≠ desk.watched.commitId commit) ∧
      (toRow event).isGitProgress = false := by
  unfold GitObservation.pullEvent at h
  dsimp only at h
  split at h
  · cases h
  · split at h
    · cases h
    · rw [← Option.some.inj h]
      refine ⟨fun commit hid => ?_, rfl⟩
      have hchars := congrArg String.toList hid
      simp [GitWatchedRun.commitId, observe, known] at hchars

theorem mem_derivedEvents {event : RunEventPayload} :
    event ∈ (desk.observe branch sweep).derivedEvents ↔
      (∃ commit ∈ desk.ahead branch sweep ++ behind branch sweep,
        (desk.observe branch sweep).commitEvent commit = some event) ∨
      (desk.observe branch sweep).pullEvent = some event := by
  unfold GitObservation.derivedEvents
  rw [progressCommits_observe, List.mem_append, List.mem_filterMap,
    Option.mem_toList]

/-- **The ids among the rows of a sweep** are those of the commits it emits. -/
theorem mem_progressIds_rows {rowId : Option String} :
    rowId ∈ progressIds ((desk.observe branch sweep).derivedEvents.map toRow) ↔
      ∃ commit ∈ desk.ahead branch sweep ++ behind branch sweep,
        Emits branch desk sweep commit ∧
          some (desk.watched.commitId commit) = rowId := by
  simp only [mem_progressIds, List.mem_map]
  constructor
  · rintro ⟨_, ⟨event, hevent, rfl⟩, hkind, rfl⟩
    obtain ⟨commit, hcommit, hemits⟩ | hpull := mem_derivedEvents.mp hevent
    · refine ⟨commit, hcommit, emits_iff_exists.mpr ⟨event, hemits⟩, ?_⟩
      exact congrArg some (commitEvent_eq_some hemits).1.symm
    · rw [(pullEvent_eq_some hpull).2] at hkind
      cases hkind
  · rintro ⟨commit, hcommit, hemits, rfl⟩
    obtain ⟨event, hevent⟩ := emits_iff_exists.mp hemits
    obtain ⟨hid, hkind⟩ := commitEvent_eq_some hevent
    refine ⟨toRow event, ⟨event, ?_, rfl⟩, hkind, congrArg some hid⟩
    exact mem_derivedEvents.mpr (Or.inl ⟨commit, hcommit, hevent⟩)

/-! ## The invariant -/

/-- **What a desk has recorded** is what has landed, and no other row carries
the id of a commit. -/
structure Sound (branch : GitBranch) (desk : GitDesk) : Prop where
  recorded : desk.Recorded (branch.ahead desk.landed)
  apart : ∀ row ∈ desk.record.events, row.isGitProgress = false →
    ∀ commit, row.externalId ≠ some (desk.watched.commitId commit)

/-- A row of a sweep is a commit's or carries no commit's id. -/
theorem kind_of_mem_rows {row : RunEventRow}
    (h : row ∈ (desk.observe branch sweep).derivedEvents.map toRow) :
    (∃ commit, row.externalId = some (desk.watched.commitId commit)) ∧
        row.isGitProgress = true ∨
      (∀ commit, row.externalId ≠ some (desk.watched.commitId commit)) ∧
        row.isGitProgress = false := by
  obtain ⟨event, hevent, rfl⟩ := List.mem_map.mp h
  obtain ⟨commit, -, hemits⟩ | hpull := mem_derivedEvents.mp hevent
  · obtain ⟨hid, hkind⟩ := commitEvent_eq_some hemits
    exact Or.inl ⟨⟨commit, congrArg some hid⟩, hkind⟩
  · obtain ⟨hid, hkind⟩ := pullEvent_eq_some hpull
    exact Or.inr ⟨fun commit h => hid commit (Option.some.inj h), hkind⟩

theorem mem_progressIds_step (h : desk.Sound branch) {rowId : Option String} :
    rowId ∈ progressIds (desk.step branch sweep).record.events ↔
      (∃ commit ∈ branch.ahead desk.landed,
          some (desk.watched.commitId commit) = rowId) ∨
        ∃ commit ∈ desk.ahead branch sweep ++ behind branch sweep,
          Emits branch desk sweep commit ∧
            some (desk.watched.commitId commit) = rowId := by
  show rowId ∈ progressIds (createMany desk.record.events _) ↔ _
  rw [mem_progressIds_createMany, mem_progressIds_rows, h.recorded.mem_iff,
    List.mem_map]
  intro row hrow other hother hsame hkind
  obtain ⟨⟨commit, hid⟩, -⟩ | ⟨-, hother'⟩ := kind_of_mem_rows hrow
  · obtain hother | hother := hother
    · by_contra hprogress
      exact h.apart other hother (Bool.eq_false_iff.mpr hprogress) commit
        (hsame.trans hid)
    · obtain ⟨-, hprogress⟩ | ⟨hno, -⟩ := kind_of_mem_rows hother
      · exact hprogress
      · exact absurd (hsame.trans hid) (hno commit)
  · rw [hother'] at hkind
    cases hkind

/-- The ids of different commits are different. -/
theorem nodup_commitIds {run : GitWatchedRun} {commits : List GitCommit}
    (h : commits.Sublist branch.history) :
    (commits.map fun commit => some (run.commitId commit)).Nodup := by
  have hnodup : (commits.map (·.sha)).Nodup := branch.distinct.sublist (h.map _)
  refine List.Nodup.map_on ?_ (List.Nodup.of_map _ hnodup)
  intro a ha b hb hid
  exact eq_of_sha (h.subset ha) (h.subset hb)
    (commitId_injective (Option.some.inj hid))

theorem nodup_progressIds (h : desk.Sound branch) :
    (progressIds desk.record.events).Nodup :=
  h.recorded.nodup_iff.mpr <|
    nodup_commitIds ((GitBranch.ahead_sublist _).trans (List.sublist_append_left _ _))

theorem ahead_eq_arrivals :
    desk.ahead branch sweep
      = branch.arrivals desk.landed sweep.landed ++ branch.ahead desk.landed :=
  GitBranch.ahead_eq_append _ _

/-- A commit that just landed was not on the branch before. -/
theorem arrivals_disjoint {a b : GitCommit}
    (ha : a ∈ branch.arrivals desk.landed sweep.landed)
    (hb : b ∈ branch.ahead desk.landed) : a.sha ≠ b.sha := by
  have h : ((desk.ahead branch sweep).map (·.sha)).Nodup :=
    branch.distinct.sublist (((GitBranch.ahead_sublist _).trans
      (List.sublist_append_left _ _)).map _)
  rw [ahead_eq_arrivals, List.map_append, List.nodup_append] at h
  exact h.2.2 _ (List.mem_map_of_mem ha) _ (List.mem_map_of_mem hb)

/-- **When a sweep records what lies past the base**: it emits every commit
that just landed and nothing behind the base. -/
theorem recorded_step_iff (h : desk.Sound branch) :
    (desk.step branch sweep).Recorded (desk.ahead branch sweep) ↔
      (∀ commit ∈ branch.arrivals desk.landed sweep.landed,
        Emits branch desk sweep commit) ∧
      ∀ commit ∈ behind branch sweep, ¬ Emits branch desk sweep commit := by
  have hold : ∀ commit ∈ branch.ahead desk.landed, commit ∈ desk.ahead branch sweep := by
    intro commit hcommit
    rw [ahead_eq_arrivals]
    exact List.mem_append_right _ hcommit
  constructor
  · intro hrecorded
    constructor
    · intro commit hcommit
      have hahead : commit ∈ desk.ahead branch sweep := by
        rw [ahead_eq_arrivals]
        exact List.mem_append_left _ hcommit
      have hid : some (desk.watched.commitId commit)
          ∈ progressIds (desk.step branch sweep).record.events :=
        hrecorded.mem_iff.mpr (List.mem_map_of_mem hahead)
      obtain ⟨other, hother, hsame⟩ | ⟨other, hother, hemits, hsame⟩ :=
        (mem_progressIds_step h).mp hid
      · exact absurd (commitId_injective (Option.some.inj hsame)).symm
          (arrivals_disjoint hcommit hother)
      · have hin : other ∈ branch.history := by
          obtain hother | hother := List.mem_append.mp hother
          · exact listed_subset (ahead_subset hother)
          · exact @listed_subset _ desk _ _ (behind_subset hother)
        rwa [← eq_of_sha hin (listed_subset (ahead_subset hahead))
          (commitId_injective (Option.some.inj hsame))]
    · intro commit hcommit hemits
      have hid : some (desk.watched.commitId commit)
          ∈ progressIds (desk.step branch sweep).record.events :=
        (mem_progressIds_step h).mpr
          (Or.inr ⟨commit, List.mem_append_right _ hcommit, hemits, rfl⟩)
      obtain ⟨other, hother, hsame⟩ := List.mem_map.mp (hrecorded.mem_iff.mp hid)
      exact disjoint_ahead_behind ((GitBranch.ahead_sublist _).subset hother)
        (List.mem_cons_of_mem _ (List.mem_of_mem_take hcommit))
        (commitId_injective (Option.some.inj hsame))
  · rintro ⟨harrivals, hbehind⟩
    have hrows : ∀ row ∈ (desk.observe branch sweep).derivedEvents.map toRow,
        row.externalId.isSome = true := by
      intro row hrow
      obtain ⟨event, -, rfl⟩ := List.mem_map.mp hrow
      rfl
    refine (List.perm_ext_iff_of_nodup
      (nodup_progressIds_createMany hrows (nodup_progressIds h))
      (nodup_commitIds ((GitBranch.ahead_sublist _).trans
        (List.sublist_append_left _ _)))).mpr fun rowId => ?_
    refine (mem_progressIds_step h).trans ?_
    rw [List.mem_map]
    constructor
    · rintro (⟨commit, hcommit, rfl⟩ | ⟨commit, hcommit, hemits, rfl⟩)
      · exact ⟨commit, hold commit hcommit, rfl⟩
      · obtain hcommit | hcommit := List.mem_append.mp hcommit
        · exact ⟨commit, hcommit, rfl⟩
        · exact absurd hemits (hbehind commit hcommit)
    · rintro ⟨commit, hcommit, rfl⟩
      have hcommit' : commit ∈ desk.ahead branch sweep := hcommit
      rw [ahead_eq_arrivals] at hcommit'
      obtain harrived | hthere := List.mem_append.mp hcommit'
      · exact Or.inr ⟨commit, List.mem_append_left _ hcommit,
          harrivals commit harrived, rfl⟩
      · exact Or.inl ⟨commit, hthere, rfl⟩

/-- Every commit that just landed is emitted when none is the stored head. -/
theorem emits_arrivals_iff :
    (∀ commit ∈ branch.arrivals desk.landed sweep.landed,
        Emits branch desk sweep commit) ↔
      ∀ commit ∈ branch.arrivals desk.landed sweep.landed,
        ¬ desk.IsHead commit := by
  have hlist : (desk.observe branch sweep).commits
      = branch.arrivals desk.landed sweep.landed
        ++ (branch.ahead desk.landed ++ branch.base :: behind branch sweep) := by
    show desk.ahead branch sweep ++ _ = _
    rw [ahead_eq_arrivals, List.append_assoc]
  have hsplit : ∀ {above below : List GitCommit} {commit : GitCommit},
      branch.arrivals desk.landed sweep.landed = above ++ commit :: below →
      (Emits branch desk sweep commit ↔
        ∀ head ∈ above ++ [commit], ¬ desk.IsHead head) := by
    intro above below commit h
    refine @emits_iff _ _ _ above (below ++ (branch.ahead desk.landed ++
      branch.base :: behind branch sweep)) _ ?_
    rw [hlist, h, List.append_assoc, List.cons_append]
  constructor
  · intro h commit hcommit
    obtain ⟨above, below, hparts⟩ := List.append_of_mem hcommit
    exact (hsplit hparts).mp (h commit hcommit) commit (by simp)
  · intro h commit hcommit
    obtain ⟨above, below, hparts⟩ := List.append_of_mem hcommit
    refine (hsplit hparts).mpr fun head hhead => h head ?_
    rw [hparts]
    obtain hhead | hhead := List.mem_append.mp hhead
    · exact List.mem_append_left _ hhead
    · rw [List.mem_singleton.mp hhead]
      exact List.mem_append_right _ List.mem_cons_self

/-- Nothing behind the base is emitted when the newest of it is not. -/
theorem not_emits_behind_iff :
    (∀ commit ∈ behind branch sweep, ¬ Emits branch desk sweep commit) ↔
      ∀ commit below, behind branch sweep = commit :: below →
        ∃ head ∈ desk.ahead branch sweep ++ [branch.base, commit],
          desk.IsHead head := by
  have hsplit : ∀ {above below : List GitCommit} {commit : GitCommit},
      behind branch sweep = above ++ commit :: below →
      (¬ Emits branch desk sweep commit ↔
        ∃ head ∈ desk.ahead branch sweep ++ branch.base :: (above ++ [commit]),
          desk.IsHead head) := by
    intro above below commit h
    rw [@emits_iff _ _ _ (desk.ahead branch sweep ++ branch.base :: above) below]
    · push Not
      rw [List.append_assoc]
      rfl
    · show desk.ahead branch sweep ++ _ = _
      rw [h, List.append_assoc]
      rfl
  constructor
  · intro h commit below hparts
    exact (@hsplit [] _ _ hparts).mp
      (h commit (by rw [hparts]; exact List.mem_cons_self))
  · intro h commit hcommit
    obtain ⟨above, below, hparts⟩ := List.append_of_mem hcommit
    refine (hsplit hparts).mpr ?_
    cases above with
    | nil => exact h commit below hparts
    | cons newest above =>
      obtain ⟨head, hhead, his⟩ := h newest _ hparts
      refine ⟨head, ?_, his⟩
      simp only [List.mem_append, List.mem_cons, List.not_mem_nil, or_false] at hhead ⊢
      tauto

/-- Nothing behind the base counts as activity when it is older than what
does. -/
theorem activity_iff :
    (desk.observe branch sweep).latestActivity sweep.now
        = Reduce.reduce max (desk.moments branch sweep) ↔
      ∀ commit ∈ behind branch sweep, ∃ moment ∈ desk.moments branch sweep,
        commit.authoredAt ≤ moment := by
  have hactivity : (desk.observe branch sweep).latestActivity sweep.now
      = Reduce.reduce max ((desk.ahead branch sweep ++ behind branch sweep).map
          (·.authoredAt) ++ sweep.pullRequest.toList.map (·.updatedAt) ++
        sweep.checks.map fun check => check.completedAt.getD sweep.now) := by
    unfold GitObservation.latestActivity
    rw [progressCommits_observe]
    rfl
  have hmem : ∀ moment, moment ∈ (desk.ahead branch sweep ++
      behind branch sweep).map (·.authoredAt) ++
        sweep.pullRequest.toList.map (·.updatedAt) ++
        (sweep.checks.map fun check => check.completedAt.getD sweep.now) ↔
      moment ∈ desk.moments branch sweep ∨
        ∃ commit ∈ behind branch sweep, commit.authoredAt = moment := by
    intro moment
    simp only [moments, List.map_append, List.mem_append, List.mem_map, or_assoc,
      or_comm, or_left_comm]
  rw [hactivity, Reduce.reduce_max_eq_iff_of_subset
    fun moment hmoment => (hmem moment).mpr (Or.inl hmoment)]
  constructor
  · intro h commit hcommit
    exact h _ ((hmem _).mpr (Or.inr ⟨commit, hcommit, rfl⟩))
  · intro h moment hmoment
    obtain hmoment | ⟨commit, hcommit, rfl⟩ := (hmem moment).mp hmoment
    · exact ⟨moment, hmoment, le_rfl⟩
    · exact h commit hcommit

/-- **A sweep is exact when it is not misled.** -/
theorem exact_iff_discerns (h : desk.Sound branch) :
    desk.Exact branch sweep ↔ desk.Discerns branch sweep := by
  constructor
  · intro hexact
    obtain ⟨harrivals, hbehind⟩ := (recorded_step_iff h).mp hexact.recorded
    refine ⟨not_emits_behind_iff.mp hbehind, emits_arrivals_iff.mp harrivals,
      activity_iff.mp hexact.activity, fun hahead hpull => ?_⟩
    have hnone := (hexact.still hahead hpull).2
    rw [hexact.activity, Reduce.reduce_eq_none] at hnone
    exact List.map_eq_nil_iff.mp (List.append_eq_nil_iff.mp hnone).2
  · intro hdiscerns
    have hbehind := not_emits_behind_iff.mpr hdiscerns.skipsBehind
    have hactivity := activity_iff.mpr hdiscerns.dated
    refine ⟨(recorded_step_iff h).mpr
      ⟨emits_arrivals_iff.mpr hdiscerns.seesArrivals, hbehind⟩, ?_, hactivity, ?_⟩
    · intro event hevent commit hcommit hid
      obtain ⟨other, hother, hemits⟩ | hpull := mem_derivedEvents.mp hevent
      · have hsame := commitId_injective ((commitEvent_eq_some hemits).1.symm.trans hid)
        obtain hother | hother := List.mem_append.mp hother
        · exact disjoint_ahead_behind ((GitBranch.ahead_sublist _).subset hother)
            hcommit hsame
        · exact hbehind other hother (emits_iff_exists.mpr ⟨event, hemits⟩)
      · exact (pullEvent_eq_some hpull).1 commit hid
    · intro hahead hpull
      constructor
      · refine List.eq_nil_iff_forall_not_mem.mpr fun event hevent => ?_
        obtain ⟨commit, hcommit, hemits⟩ | hevent := mem_derivedEvents.mp hevent
        · rw [hahead, List.nil_append] at hcommit
          exact hbehind commit hcommit (emits_iff_exists.mpr ⟨event, hemits⟩)
        · unfold GitObservation.pullEvent at hevent
          rw [show (desk.observe branch sweep).pullRequest = none from hpull] at hevent
          cases hevent
      · rw [hactivity, moments, hahead, hpull, hdiscerns.unchecked hahead hpull]
        rfl

/-- An exact sweep keeps the invariant. -/
theorem sound_step (h : desk.Sound branch) (hexact : desk.Exact branch sweep) :
    (desk.step branch sweep).Sound branch := by
  refine ⟨hexact.recorded, fun row hrow hkind commit => ?_⟩
  obtain hrow | hrow := mem_createMany hrow
  · exact h.apart row hrow hkind commit
  · obtain ⟨-, hprogress⟩ | ⟨hno, -⟩ := kind_of_mem_rows hrow
    · rw [hprogress] at hkind
      cases hkind
    · exact hno commit

end Sweep

variable {branch} in
/-- **Progress is exactly what lies past the base, sweep after sweep, when no
sweep is misled.** -/
theorem exact_iff_discerned (desk : GitDesk) (hsound : desk.Sound branch)
    (sweeps : List GitSweep) :
    Machine.Always (step branch) (Exact branch) desk sweeps
      ↔ Machine.Always (step branch) (Discerns branch) desk sweeps :=
  Machine.always_congr_of_keeps (fun _ _ => sound_step)
    (fun _ _ => exact_iff_discerns) hsound

/-! ## A fresh branch -/

/-- A branch on which one commit will land, with one behind its base. -/
def freshBranch : GitBranch where
  landing := [⟨"5c1e90f35c1e90f35c1e90f35c1e90f35c1e90f3", "Add the export", 1500⟩]
  base := ⟨"a3f91c2aa3f91c2aa3f91c2aa3f91c2aa3f91c2a", "Release 1.4", 900⟩
  behind := [⟨"77d0e4b177d0e4b177d0e4b177d0e4b177d0e4b1", "Fix the export", 800⟩]
  distinct := by decide
  full := by
    unfold GitCommit.IsFull
    decide

/-- A run that nothing is stored for. -/
def unswept : GitDesk where
  watched :=
    { runId := 1
      workOrderIdentity := "wo_app_312_a3f91c2_a1"
      owner := "acme"
      name := "app"
      branch := "factory/312-a3f91c2-a1"
      baseCommit := "a3f91c2aa3f91c2aa3f91c2aa3f91c2aa3f91c2a"
      startedAt := 1000
      lastKnownHeadCommit := none
      pullRequestUrl := none }
  record := ⟨freshRun, []⟩
  landed := 0

theorem sound_unswept : unswept.Sound freshBranch where
  recorded := List.Perm.refl []
  apart := fun _ hrow => absurd hrow List.not_mem_nil

/-- The first sweep of the branch: the list shows the base and what is behind
it. -/
def firstSweep : GitSweep where
  landed := 0
  listed := 1
  pullRequest := none
  checks := []
  now := 2000

/-- **History behind the base is taken for progress**: a branch still at its
base has a progress event and activity. -/
theorem takes_progress_for_base :
    ¬ ∀ (branch : GitBranch) (desk : GitDesk), desk.Sound branch →
      ∀ sweeps : List GitSweep,
        Machine.Always (step branch) (Exact branch) desk sweeps := by
  intro h
  have hexact : unswept.Exact freshBranch firstSweep :=
    (h freshBranch unswept sound_unswept [firstSweep]).1
  have hstill := (hexact.still rfl rfl).1
  revert hstill
  decide

/-- The commit past the base is seen by a sweep whose list ends at the base,
and again by one whose list goes on: both are exact. -/
theorem exact_sweeps_of_freshBranch :
    Machine.Always (step freshBranch) (Exact freshBranch) unswept
      [{ firstSweep with landed := 1, listed := 0 }, firstSweep] := by
  refine (exact_iff_discerned unswept sound_unswept _).mpr ⟨?_, ?_, trivial⟩
  · exact
      { skipsBehind := fun _ _ h => nomatch h
        seesArrivals := fun _ _ ⟨_, hhead, _⟩ => nomatch hhead
        dated := fun _ h => nomatch h
        unchecked := fun h => nomatch h }
  · exact
      { skipsBehind := fun _ _ _ => ⟨_, List.mem_cons_self, _, rfl, by decide⟩
        seesArrivals := fun _ h => nomatch h
        dated := fun commit hcommit => by
          rw [List.mem_singleton.mp hcommit]
          exact ⟨1500, by decide, by decide⟩
        unchecked := fun h => nomatch h }

end GitDesk

end Opifex
