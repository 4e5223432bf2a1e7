import Opifex.GitHubWrites
import Opifex.Lib.Machine
import Opifex.Lib.Text

/-!
# The directory a run happens in

A repository is its commits, the tip of the work order's branch on the remote,
and the workspace on disk: the branch HEAD is on, the commit it is at, and the
files of the working tree. The branch is created with the execution record as
its only commit over the base. A run is provisioned from the tip that is read,
or from the base where none is; a workspace whose HEAD is already there is kept
as it is.

Between two invocations the agent edits, commits and pushes. Neither the tip it
pushed nor the files it left are told from what was authorised
(`Provision.resumes_what_was_left`). `Provision.startsAuthorised_iff_unspoiled`
says exactly when every run starts from what was authorised, and
`Provision.startsAuthorised_of_unpushed` that keeping the agent from pushing and
from leaving edits on an authorised commit is enough.
-/

namespace Opifex

/-- The files of a tree: paths and their contents. -/
abbrev Files := List (String × String)

/-- The tree with one file more, or another content for it. -/
def Files.add (files : Files) (path content : String) : Files :=
  (path, content) :: files.filter fun file => file.1 ≠ path

/-- A commit, named by what it holds: two commits of the same files, message and parent
are one. -/
inductive Commit where
  | root (files : Files) (message : String)
  | child (parent : Commit) (files : Files) (message : String)
deriving DecidableEq

namespace Commit

/-- The parent of a commit; none of the root. -/
def parent : Commit → Option Commit
  | root _ _ => none
  | child parent _ _ => some parent

/-- The files of a commit. -/
def files : Commit → Files
  | root files _ => files
  | child _ files _ => files

end Commit

/-- A directory with a repository in it: the branch that is checked out, its commit, and
the files, which may be others than the commit's. -/
structure Workspace where
  /-- What `rev-parse --abbrev-ref HEAD` says. -/
  branch : String
  /-- None before the first commit is checked out. -/
  head : Option Commit
  /-- The files of the working tree. -/
  files : Files
deriving DecidableEq

/-- The commit that is made on HEAD. -/
def Workspace.commit (workspace : Workspace) (files : Files) (message : String) :
    Workspace :=
  { workspace with
    head := some <|
      match workspace.head with
      | none => .root files message
      | some head => .child head files message }

/-- What a directory is asked for: which work order, the commit it is pinned to, and the
branch it works on. -/
structure WorkspaceRequest where
  identity : String
  baseCommit : Commit
  branch : String
deriving DecidableEq

/-- What a runner is handed: whether an earlier attempt's directory was kept, and the
commit that is checked out. -/
structure ProvisionedWorkspace where
  /-- An existing workspace was found and kept. -/
  reused : Bool
  headCommit : Commit
deriving DecidableEq

/-- How `ls-remote` ends: the remote is asked for the tip of the branch, and may not
answer. -/
inductive LsRemote where
  | answered
  | failed
  /-- It prints something that is no sha. -/
  | unreadable
deriving DecidableEq, Repr

/-- The steps of a clone that end the provisioning when they fail, in their order. -/
inductive CloneStep where
  | initialise
  | addRemote
  | configureCredentials
  | configureName
  | configureEmail
  /-- The full fetch, after the shallow one has failed. -/
  | fetch
  | checkOut
deriving DecidableEq, Repr

/-- Why there is no directory to hand out. A run is not started without one. -/
inductive WorkspaceError where
  /-- No path is built from the identity. -/
  | identity
  /-- The directory could not be removed or made. -/
  | directory
  | git (step : CloneStep)
deriving DecidableEq

/-- What becomes of removing the directory: a removal that throws may have taken part of
it. -/
inductive Removal where
  | removed
  /-- The removal throws, and leaves this. -/
  | failed (left : Option Workspace)
deriving DecidableEq

/-- What comes of each step of one provisioning, of the file system, of git, and of the
remote. -/
structure ProvisionAnswers where
  /-- `stat` finds a directory where there is one. -/
  isDirectory : Bool
  branchRead : Bool
  headRead : Bool
  /-- The remote, asked from the workspace that is there. -/
  inspected : LsRemote
  removal : Removal
  made : Bool
  hasToken : Bool
  succeeds : CloneStep → Bool
  /-- The remote, asked from the new clone. -/
  cloned : LsRemote
  shallow : Bool
  /-- The removal of what a failed clone leaves. -/
  cleanup : Removal

/-- What is asked of `createFactoryBranch`, and what comes of each of its requests. -/
structure BranchWriting where
  path : String
  content : String
  commitMessage : String
  /-- The ref is read, or GitHub says there is none. -/
  findRef : Bool
  /-- The kill switch. -/
  enabled : Bool
  /-- The base is read, and the blob, the tree and the commit are made. -/
  objects : Bool
  retries : ℕ
  /-- The attempts to create the ref. -/
  attempts : List WriteAttempt
deriving DecidableEq

/-- How the creation of the branch returns to the dispatcher: what was written, and the
commit the branch is at if there is one. -/
structure CreateFactoryBranchResult where
  write : WriteResult
  /-- Null when the kill switch suppressed the write. -/
  commitSha : Option Commit
  created : Bool
deriving DecidableEq

/-- One repository, as far as one work order's branch is concerned: the remote's side of
it and the runner's. -/
structure RunRepository where
  /-- The tip of the branch on the remote. -/
  remote : Option Commit
  /-- The execution records the branch was created with. -/
  records : List Commit
  workspace : Option Workspace
  /-- The runner has a run of the identity in its map. -/
  running : Bool
deriving DecidableEq

namespace Provision

variable (request : WorkspaceRequest) (repository : RunRepository)

/-! ## The branch and its record -/

/-- The execution record: one file over the base. -/
def recordCommit (writing : BranchWriting) : Commit :=
  .child request.baseCommit
    (request.baseCommit.files.add writing.path writing.content)
    writing.commitMessage

/-- What `assertFactoryBranch` lets pass. -/
def isFactoryBranch (branch : String) : Bool :=
  "factory/".toList.isPrefixOf branch.toList &&
    !Text.includes branch ".." && !Text.includes branch " "

/-- The branch, once its ref is created. -/
def pointed (writing : BranchWriting) : RunRepository :=
  { repository with
    remote := some (recordCommit request writing)
    records := recordCommit request writing :: repository.records }

/-- `createFactoryBranch`; none where it throws. A branch that exists is left as
it is, and the ref is created last. -/
def createFactoryBranch (writing : BranchWriting) :
    RunRepository × Option CreateFactoryBranchResult :=
  if !isFactoryBranch request.branch || !writing.findRef then (repository, none)
  else
    match repository.remote with
    | some tip =>
      (repository, some
        { write := ⟨writing.enabled, writing.enabled⟩
          commitSha := some tip
          created := false })
    | none =>
      if !writing.enabled then
        (repository, some
          { write := ⟨false, false⟩, commitSha := none, created := false })
      else if !writing.objects then (repository, none)
      else
        (if 0 < timesDone writing.retries writing.attempts then
            pointed request repository writing
          else repository,
          if Opifex.request writing.retries writing.attempts = .answered then
            some
              { write := ⟨true, false⟩
                commitSha := some (recordCommit request writing)
                created := true }
          else none)

/-! ## Provisioning -/

/-- Where the workspace should start: the tip of the branch, or the base commit
where no tip is read. -/
def startPoint (answer : LsRemote) : Commit :=
  match answer with
  | .failed | .unreadable => request.baseCommit
  | .answered =>
    match repository.remote with
    | none => request.baseCommit
    | some tip => tip

/-- Is there already a usable workspace? -/
def inspect (answers : ProvisionAnswers) : Option ProvisionedWorkspace :=
  match repository.workspace with
  | none => none
  | some workspace =>
    if !answers.isDirectory then none
    else
      match workspace.head with
      | none => none
      | some head =>
        if !answers.branchRead || workspace.branch != request.branch then none
        else if !answers.headRead then none
        else if head ≠ startPoint request repository answers.inspected then none
        else some { reused := true, headCommit := head }

/-- `expect`: a step that fails ends the clone. -/
def expect (answers : ProvisionAnswers) (step : CloneStep) : Except CloneStep Unit :=
  if answers.succeeds step then .ok () else .error step

/-- The clone, and the commit it is at. -/
def clone (answers : ProvisionAnswers) : Except CloneStep Commit := do
  expect answers .initialise
  expect answers .addRemote
  if answers.hasToken then expect answers .configureCredentials
  expect answers .configureName
  expect answers .configureEmail
  let start := startPoint request repository answers.cloned
  if !answers.shallow then expect answers .fetch
  expect answers .checkOut
  return start

/-- A path is built from letters, digits, `_` and `-`. -/
def isPathSafe (identity : String) : Bool :=
  identity != "" && identity.toList.all fun c => c.isAlphanum || c == '_' || c == '-'

/-- What a removal leaves. -/
def removeWorkspace (removal : Removal) : RunRepository :=
  match removal with
  | .removed => { repository with workspace := none }
  | .failed left => { repository with workspace := left }

/-- The directory once the start is checked out in it. -/
def checkedOut (start : Commit) : RunRepository :=
  { repository with workspace := some ⟨request.branch, some start, start.files⟩ }

/-- `provision` -/
def provision (answers : ProvisionAnswers) :
    RunRepository × Except WorkspaceError ProvisionedWorkspace :=
  if !isPathSafe request.identity then (repository, .error .identity)
  else
    match inspect request repository answers with
    | some existing => (repository, .ok existing)
    | none =>
      let cleared := removeWorkspace repository answers.removal
      if answers.removal ≠ .removed ∨ answers.made = false then
        (cleared, .error .directory)
      else
        match clone request repository answers with
        | .ok head =>
          (checkedOut request repository head,
            .ok { reused := false, headCommit := head })
        | .error step => (removeWorkspace repository answers.cleanup, .error (.git step))

/-! ## Invocations -/

/-- What happens to one work order, its branch and its directory, in any order. The
agent may do what it likes in the directory, and pushes to this branch only. -/
inductive InvocationEvent where
  /-- The dispatcher creates the branch. -/
  | createBranch (writing : BranchWriting)
  /-- The runner is handed the work order. -/
  | submit (atCapacity : Bool) (answers : ProvisionAnswers)
  /-- The run has left the runner's map. -/
  | reaped
  /-- The agent leaves the working tree so. -/
  | edit (files : Files)
  /-- The agent commits these files. -/
  | commit (files : Files) (message : String)
  /-- The agent pushes HEAD to the branch. -/
  | push

/-- `submit`, as far as its workspace: none is provisioned for a run that is in
the map, nor at the ceiling. -/
def submit (atCapacity : Bool) (answers : ProvisionAnswers) :
    RunRepository × Option (Except WorkspaceError ProvisionedWorkspace) :=
  if repository.running || atCapacity then (repository, none)
  else
    match provision request repository answers with
    | (provisioned, .ok workspace) =>
      ({ provisioned with running := true }, some (.ok workspace))
    | (provisioned, .error failure) => (provisioned, some (.error failure))

/-- An event. What the agent does needs a directory, and changes nothing without one. -/
def step (repository : RunRepository) : InvocationEvent → RunRepository
  | .createBranch writing => (createFactoryBranch request repository writing).1
  | .submit atCapacity answers => (submit request repository atCapacity answers).1
  | .reaped => { repository with running := false }
  | .edit files =>
    { repository with
      workspace := repository.workspace.map ({ · with files := files }) }
  | .commit files message =>
    { repository with
      workspace := repository.workspace.map
        (·.commit files message) }
  | .push =>
    match repository.workspace.bind (·.head) with
    | none => repository
    | some head => { repository with remote := some head }

/-- Before the first dispatch. -/
def unprovisioned : RunRepository := ⟨none, [], none, false⟩

/-! ## What a run starts from -/

/-- The base commit, or an execution record over it. -/
def Authorised (commit : Commit) : Prop :=
  commit = request.baseCommit ∨
    commit ∈ repository.records ∧ commit.parent = some request.baseCommit

/-- The workspace a submit returns is on the branch, at an authorised commit,
and holds exactly its files. -/
def StartsAuthorised (event : InvocationEvent) : Prop :=
  match event with
  | .submit atCapacity answers =>
    ∀ provisioned,
      (submit request repository atCapacity answers).2 = some (.ok provisioned) →
        Authorised request repository provisioned.headCommit ∧
          (submit request repository atCapacity answers).1.workspace
            = some ⟨request.branch, some provisioned.headCommit,
                provisioned.headCommit.files⟩
  | _ => True

/-- The tip a provisioning reads. -/
def tipRead (answer : LsRemote) : Option Commit :=
  if answer = .answered then repository.remote else none

/-- A workspace is on the branch, and its HEAD is at the tip that is read, or at
the base where none is. -/
def IsKept (answers : ProvisionAnswers) (workspace : Workspace) : Prop :=
  repository.workspace = some workspace ∧
    answers.isDirectory = true ∧ answers.branchRead = true ∧
    answers.headRead = true ∧ workspace.branch = request.branch ∧
    workspace.head =
      some ((tipRead repository answers.inspected).getD request.baseCommit)

/-- Each step of a clone succeeds. -/
def ClonesThrough (answers : ProvisionAnswers) : Prop :=
  answers.removal = .removed ∧ answers.made = true ∧
    ∀ step, answers.succeeds step = true ∨
      step = .configureCredentials ∧ answers.hasToken = false ∨
      step = .fetch ∧ answers.shallow = true

/-- The tip that is read, if one is, is the base or an execution record. -/
def TipAuthorised (answer : LsRemote) : Prop :=
  ∀ tip, tipRead repository answer = some tip →
    tip = request.baseCommit ∨ tip ∈ repository.records

/-- **Unspoiled**: what a provisioning finds is what was authorised. The directory it
keeps or the tip it clones is the run's own, and holds no files of an invocation that
was cut short. -/
structure Unspoiled (answers : ProvisionAnswers) : Prop where
  /-- The workspace that is kept holds the files of its HEAD. -/
  kept : ∀ workspace, IsKept request repository answers workspace →
    TipAuthorised request repository answers.inspected ∧
      workspace.files
        = ((tipRead repository answers.inspected).getD request.baseCommit).files
  /-- Where none is kept, the tip that is cloned is authorised. -/
  cloned : (¬ ∃ workspace, IsKept request repository answers workspace) →
    ClonesThrough answers → TipAuthorised request repository answers.cloned

/-- Each provisioning finds what was authorised. -/
def UnspoiledStep (event : InvocationEvent) : Prop :=
  match event with
  | .submit atCapacity answers =>
    repository.running = false → atCapacity = false →
      isPathSafe request.identity = true → Unspoiled request repository answers
  | _ => True

section Spec

variable {request} {repository}

/-- The branch is created with its record, or nothing happens. -/
theorem createFactoryBranch_spec (writing : BranchWriting) :
    (createFactoryBranch request repository writing).1 = repository ∨
      (createFactoryBranch request repository writing).1
        = pointed request repository writing := by
  unfold createFactoryBranch
  split
  · exact Or.inl rfl
  · cases repository.remote with
    | some tip => exact Or.inl rfl
    | none =>
      dsimp only
      split
      · exact Or.inl rfl
      · split
        · exact Or.inl rfl
        · dsimp only
          split
          · exact Or.inr rfl
          · exact Or.inl rfl

/-! ## What a provisioning returns -/

theorem startPoint_eq (answer : LsRemote) :
    startPoint request repository answer
      = (tipRead repository answer).getD request.baseCommit := by
  unfold startPoint tipRead
  cases answer with
  | answered => cases repository.remote <;> rfl
  | failed => rfl
  | unreadable => rfl

/-- A workspace is kept where HEAD is at the start point. -/
theorem inspect_eq_some_iff {answers : ProvisionAnswers}
    {existing : ProvisionedWorkspace} :
    inspect request repository answers = some existing ↔
      ∃ workspace, IsKept request repository answers workspace ∧
        existing = ⟨true, startPoint request repository answers.inspected⟩ := by
  unfold IsKept
  rw [← startPoint_eq]
  unfold inspect
  cases hworkspace : repository.workspace with
  | none => simp
  | some workspace =>
    obtain ⟨branch, head, files⟩ := workspace
    cases head with
    | none => simp
    | some head =>
      dsimp only
      constructor
      · intro h
        split_ifs at h with hdirectory hbranch hhead hstart
        simp only [Bool.not_eq_true', Bool.not_eq_false, Bool.or_eq_true, not_or,
          bne_iff_ne, not_not] at hdirectory hbranch hhead hstart
        exact ⟨_, ⟨rfl, hdirectory, hbranch.1, hhead, hbranch.2, congrArg some hstart⟩,
          by rw [← hstart, Option.some.inj h]⟩
      · rintro ⟨workspace, ⟨hsame, hdirectory, hbranchRead, hhead, hbranch, hstart⟩,
          rfl⟩
        rw [← Option.some.inj hsame] at hbranch hstart
        have hstart' : head = _ := Option.some.inj hstart
        have hbranch' : branch = request.branch := hbranch
        rw [hdirectory, hbranchRead, hhead, hbranch', ← hstart']
        simp

theorem expect_bind_eq_ok_iff {α : Type} {answers : ProvisionAnswers}
    {step : CloneStep} {rest : Unit → Except CloneStep α} {a : α} :
    (expect answers step >>= rest) = .ok a ↔
      answers.succeeds step = true ∧ rest () = .ok a := by
  unfold expect
  by_cases h : answers.succeeds step = true
  · rw [if_pos h, and_iff_right h]
    rfl
  · rw [if_neg h]
    exact iff_of_false (fun hfailed => nomatch hfailed) fun hboth => h hboth.1

/-- A step that is made only where it is needed. -/
theorem expect_if_eq_ok_iff {α : Type} {answers : ProvisionAnswers}
    {needed : Bool} {step : CloneStep} {rest : Except CloneStep α} {a : α} :
    (if needed then expect answers step >>= fun _ => rest else rest) = .ok a ↔
      (answers.succeeds step = true ∨ needed = false) ∧ rest = .ok a := by
  cases needed with
  | true => simpa using expect_bind_eq_ok_iff
  | false =>
    rw [if_neg Bool.false_ne_true]
    exact (and_iff_right (Or.inr rfl)).symm

/-- A clone is at the start point, where each of its steps succeeds. -/
theorem clone_eq_ok_iff {answers : ProvisionAnswers} {head : Commit} :
    clone request repository answers = .ok head ↔
      (∀ step, answers.succeeds step = true ∨
        step = .configureCredentials ∧ answers.hasToken = false ∨
        step = .fetch ∧ answers.shallow = true) ∧
      head = startPoint request repository answers.cloned := by
  unfold clone
  simp only [expect_bind_eq_ok_iff, expect_if_eq_ok_iff]
  constructor
  · rintro ⟨hinit, hremote, htoken, hname, hemail, hfetch, hcheckOut, hhead⟩
    refine ⟨fun step => ?_, (Except.ok.inj hhead).symm⟩
    cases step with
    | initialise => exact Or.inl hinit
    | addRemote => exact Or.inl hremote
    | configureCredentials => exact htoken.imp_right fun h => Or.inl ⟨rfl, h⟩
    | configureName => exact Or.inl hname
    | configureEmail => exact Or.inl hemail
    | fetch =>
      exact hfetch.imp_right fun h => Or.inr ⟨rfl, by simpa using h⟩
    | checkOut => exact Or.inl hcheckOut
  · rintro ⟨hsteps, rfl⟩
    have hstep : ∀ step, step ≠ .configureCredentials → step ≠ .fetch →
        answers.succeeds step = true := by
      intro step htoken hfetch
      obtain h | ⟨h, -⟩ | ⟨h, -⟩ := hsteps step
      · exact h
      · exact absurd h htoken
      · exact absurd h hfetch
    refine ⟨hstep _ nofun nofun, hstep _ nofun nofun, ?_, hstep _ nofun nofun,
      hstep _ nofun nofun, ?_, hstep _ nofun nofun, rfl⟩
    · simpa using hsteps .configureCredentials
    · simpa using hsteps .fetch

theorem tipAuthorised_iff
    (hrecords : ∀ commit ∈ repository.records,
      commit.parent = some request.baseCommit) {answer : LsRemote} :
    TipAuthorised request repository answer ↔
      Authorised request repository (startPoint request repository answer) := by
  unfold TipAuthorised Authorised
  rw [startPoint_eq]
  cases tipRead repository answer with
  | none => simp
  | some tip =>
    simp only [Option.some.injEq, forall_eq', Option.getD_some]
    exact or_congr Iff.rfl (and_iff_left_of_imp (hrecords tip)).symm

/-- A workspace that can be kept is. -/
theorem provision_of_kept {answers : ProvisionAnswers} {workspace : Workspace}
    (hsafe : isPathSafe request.identity = true)
    (hkept : IsKept request repository answers workspace) :
    provision request repository answers
      = (repository,
          .ok ⟨true, startPoint request repository answers.inspected⟩) := by
  unfold provision
  rw [if_neg (by simp [hsafe]), inspect_eq_some_iff.mpr ⟨workspace, hkept, rfl⟩]

/-- Where none can, the start is cloned. -/
theorem provision_eq_ok_iff {answers : ProvisionAnswers} {after : RunRepository}
    {provisioned : ProvisionedWorkspace}
    (hsafe : isPathSafe request.identity = true)
    (hnone : ¬ ∃ workspace, IsKept request repository answers workspace) :
    provision request repository answers = (after, .ok provisioned) ↔
      ClonesThrough answers ∧
        after = checkedOut request repository
          (startPoint request repository answers.cloned) ∧
        provisioned = ⟨false, startPoint request repository answers.cloned⟩ := by
  have hinspect : inspect request repository answers = none := by
    by_contra hsome
    obtain ⟨existing, hexisting⟩ := Option.ne_none_iff_exists'.mp hsome
    obtain ⟨workspace, hkept, -⟩ := inspect_eq_some_iff.mp hexisting
    exact hnone ⟨workspace, hkept⟩
  unfold provision ClonesThrough
  rw [if_neg (by simp [hsafe]), hinspect]
  dsimp only
  by_cases hcleared : answers.removal = .removed ∧ answers.made = true
  · rw [if_neg (by simp [hcleared]), and_assoc, and_iff_right hcleared.1,
      and_assoc, and_iff_right hcleared.2]
    cases hclone : clone request repository answers with
    | ok head =>
      obtain ⟨hsteps, rfl⟩ := clone_eq_ok_iff.mp hclone
      rw [and_iff_right hsteps, Prod.mk.injEq, Except.ok.injEq, @eq_comm _ after,
        @eq_comm _ provisioned]
    | error step =>
      refine iff_of_false (fun h => nomatch (Prod.mk.inj h).2) fun h => ?_
      have hok := (@clone_eq_ok_iff request repository _ _).mpr ⟨h.1, rfl⟩
      rw [hclone] at hok
      cases hok
  · have hfailed : answers.removal ≠ .removed ∨ answers.made = false := by
      rw [← Bool.not_eq_true]
      exact not_and_or.mp hcleared
    rw [if_pos hfailed]
    exact iff_of_false (fun h => nomatch (Prod.mk.inj h).2)
      fun h => hcleared ⟨h.1.1, h.1.2.1⟩

/-- A submit that gets as far provisions. -/
theorem submit_of_free {answers : ProvisionAnswers}
    (hrunning : repository.running = false) :
    (submit request repository false answers).1.workspace
        = (provision request repository answers).1.workspace ∧
      (submit request repository false answers).2
        = some (provision request repository answers).2 := by
  unfold submit
  rw [hrunning, Bool.or_false, if_neg Bool.false_ne_true]
  cases provision request repository answers with
  | mk after result =>
    cases result with
    | ok workspace => exact ⟨rfl, rfl⟩
    | error failure => exact ⟨rfl, rfl⟩

theorem provision_notSafe {answers : ProvisionAnswers}
    (hsafe : ¬ isPathSafe request.identity = true) :
    provision request repository answers = (repository, .error .identity) := by
  unfold provision
  rw [if_pos (by simpa using hsafe)]

/-- What a provisioning returns is authorised exactly when what it finds is. -/
theorem provision_authorised_iff {answers : ProvisionAnswers}
    (hrecords : ∀ commit ∈ repository.records,
      commit.parent = some request.baseCommit)
    (hsafe : isPathSafe request.identity = true) :
    (∀ provisioned, (provision request repository answers).2 = .ok provisioned →
      Authorised request repository provisioned.headCommit ∧
        (provision request repository answers).1.workspace
          = some ⟨request.branch, some provisioned.headCommit,
              provisioned.headCommit.files⟩) ↔
      Unspoiled request repository answers := by
  by_cases hkept : ∃ workspace, IsKept request repository answers workspace
  · obtain ⟨workspace, hworkspace⟩ := hkept
    have hsame : repository.workspace
        = some ⟨request.branch,
            some (startPoint request repository answers.inspected),
            workspace.files⟩ := by
      rw [hworkspace.1, startPoint_eq, ← hworkspace.2.2.2.2.1,
        ← hworkspace.2.2.2.2.2]
    rw [provision_of_kept hsafe hworkspace]
    dsimp only
    constructor
    · intro h
      obtain ⟨hauthorised, hfiles⟩ := h _ rfl
      refine ⟨fun kept hkept => ⟨(tipAuthorised_iff hrecords).mpr hauthorised, ?_⟩,
        fun hnone => absurd ⟨workspace, hworkspace⟩ hnone⟩
      obtain rfl := Option.some.inj (hkept.1.symm.trans hworkspace.1)
      rw [hsame] at hfiles
      rw [← startPoint_eq]
      exact congrArg Workspace.files (Option.some.inj hfiles)
    · rintro h provisioned hprovisioned
      obtain ⟨htip, hfiles⟩ := h.kept workspace hworkspace
      rw [← Except.ok.inj hprovisioned]
      refine ⟨(tipAuthorised_iff hrecords).mp htip, ?_⟩
      rw [hsame, hfiles, startPoint_eq]
  · constructor
    · intro h
      refine ⟨fun workspace hworkspace => absurd ⟨workspace, hworkspace⟩ hkept,
        fun _ hclones => ?_⟩
      have hok := (provision_eq_ok_iff hsafe hkept).mpr ⟨hclones, rfl, rfl⟩
      rw [hok] at h
      exact (tipAuthorised_iff hrecords).mpr (h _ rfl).1
    · intro h provisioned hprovisioned
      have hok : provision request repository answers
          = ((provision request repository answers).1, .ok provisioned) :=
        Prod.ext rfl hprovisioned
      obtain ⟨hclones, hafter, rfl⟩ := (provision_eq_ok_iff hsafe hkept).mp hok
      rw [hafter]
      exact ⟨(tipAuthorised_iff hrecords).mp (h.cloned hkept hclones), rfl⟩

/-- A step starts a run from what was authorised exactly when what it finds
is. -/
theorem startsAuthorised_iff_unspoiledStep
    (hrecords : ∀ commit ∈ repository.records,
      commit.parent = some request.baseCommit) (event : InvocationEvent) :
    StartsAuthorised request repository event ↔
      UnspoiledStep request repository event := by
  cases event with
  | submit atCapacity answers =>
    unfold StartsAuthorised UnspoiledStep
    dsimp only
    by_cases hfree : repository.running = false ∧ atCapacity = false
    · obtain ⟨hrunning, rfl⟩ := hfree
      obtain ⟨hworkspace, hresult⟩ := @submit_of_free request repository answers hrunning
      rw [hworkspace, hresult]
      simp only [Option.some.injEq, forall_const, hrunning]
      by_cases hsafe : isPathSafe request.identity = true
      · rw [provision_authorised_iff hrecords hsafe, forall_prop_of_true hsafe]
      · rw [provision_notSafe hsafe]
        exact iff_of_true (fun _ h => nomatch h) fun h => absurd h hsafe
    · refine iff_of_true (fun provisioned hprovisioned => ?_)
        fun hrunning hcapacity => absurd ⟨hrunning, hcapacity⟩ hfree
      have hskipped : (repository.running || atCapacity) = true := by
        by_contra hnot
        exact hfree (Bool.or_eq_false_iff.mp (Bool.eq_false_iff.mpr hnot))
      unfold submit at hprovisioned
      rw [if_pos hskipped] at hprovisioned
      cases hprovisioned
  | _ => exact Iff.rfl

/-! ## Runs -/

/-- The records are not touched but by the creation of the branch. -/
theorem records_provision {answers : ProvisionAnswers} :
    (provision request repository answers).1.records = repository.records := by
  unfold provision
  split
  · rfl
  · cases inspect request repository answers with
    | some existing => rfl
    | none =>
      dsimp only
      split
      · unfold removeWorkspace
        split <;> rfl
      · cases clone request repository answers with
        | ok head => rfl
        | error step =>
          dsimp only
          unfold removeWorkspace
          split <;> rfl

theorem records_submit {atCapacity : Bool} {answers : ProvisionAnswers} :
    (submit request repository atCapacity answers).1.records = repository.records := by
  unfold submit
  split
  · rfl
  · have hrecords := @records_provision request repository answers
    cases hprovision : provision request repository answers with
    | mk after result =>
      rw [hprovision] at hrecords
      cases result with
      | ok workspace => exact hrecords
      | error failure => exact hrecords

/-- Every record is over the base. -/
theorem records_over_base_step
    (hrecords : ∀ commit ∈ repository.records,
      commit.parent = some request.baseCommit) (event : InvocationEvent) :
    ∀ commit ∈ (step request repository event).records,
      commit.parent = some request.baseCommit := by
  cases event with
  | createBranch writing =>
    show ∀ commit ∈ (createFactoryBranch request repository writing).1.records, _
    obtain hsame | hpointed := @createFactoryBranch_spec request repository writing
    · rw [hsame]
      exact hrecords
    · rw [hpointed]
      exact List.forall_mem_cons.mpr ⟨rfl, hrecords⟩
  | submit atCapacity answers =>
    show ∀ commit ∈ (submit request repository atCapacity answers).1.records, _
    rw [records_submit]
    exact hrecords
  | push =>
    unfold step
    dsimp only
    split
    · exact hrecords
    · exact hrecords
  | _ => exact hrecords

/-- **Every run starts from what was authorised exactly when each provisioning
finds what was authorised**, whatever the agent does between. -/
theorem startsAuthorised_iff_unspoiled (request : WorkspaceRequest)
    (events : List InvocationEvent) :
    Machine.Always (step request) (StartsAuthorised request) unprovisioned events ↔
      Machine.Always (step request) (UnspoiledStep request) unprovisioned events := by
  refine @Machine.always_congr_of_preserved _ _ (step request)
    (fun repository => ∀ commit ∈ repository.records,
      commit.parent = some request.baseCommit) _ _
    (fun _ event hrecords => records_over_base_step hrecords event)
    (fun _ event hrecords => startsAuthorised_iff_unspoiledStep hrecords event) _ _ ?_
  intro commit hcommit
  cases hcommit

/-! ## An agent that keeps to itself -/

variable (request) in
/-- The agent does not push, and what a submit finds on an authorised commit is
unedited. -/
def KeepsToItself (repository : RunRepository) (event : InvocationEvent) : Prop :=
  match event with
  | .push => False
  | .submit _ _ => ∀ workspace, repository.workspace = some workspace →
    ∀ head, workspace.head = some head → Authorised request repository head →
      workspace.files = head.files
  | _ => True

/-- The branch is where it was created. -/
theorem remote_step
    (hremote : ∀ tip, repository.remote = some tip → tip ∈ repository.records)
    {event : InvocationEvent} (hkeeps : KeepsToItself request repository event) :
    ∀ tip, (step request repository event).remote = some tip →
      tip ∈ (step request repository event).records := by
  have hprovision : ∀ answers,
      (provision request repository answers).1.remote = repository.remote := by
    intro answers
    unfold provision removeWorkspace
    split
    · rfl
    · cases inspect request repository answers with
      | some existing => rfl
      | none =>
        dsimp only
        split
        · split <;> rfl
        · cases clone request repository answers with
          | ok head => rfl
          | error step =>
            dsimp only
            split <;> rfl
  cases event with
  | push => exact absurd hkeeps id
  | createBranch writing =>
    show ∀ tip, (createFactoryBranch request repository writing).1.remote = some tip →
      tip ∈ (createFactoryBranch request repository writing).1.records
    obtain hsame | hpointed := @createFactoryBranch_spec request repository writing
    · rw [hsame]
      exact hremote
    · rw [hpointed]
      intro tip htip
      rw [← Option.some.inj htip]
      exact List.mem_cons_self
  | submit atCapacity answers =>
    show ∀ tip, (submit request repository atCapacity answers).1.remote = some tip →
      tip ∈ (submit request repository atCapacity answers).1.records
    have hsame : (submit request repository atCapacity answers).1.remote
        = repository.remote := by
      unfold submit
      split
      · rfl
      · have hafter := hprovision answers
        cases hcase : provision request repository answers with
        | mk after result =>
          rw [hcase] at hafter
          cases result with
          | ok workspace => exact hafter
          | error failure => exact hafter
    rw [hsame, records_submit]
    exact hremote
  | _ => exact hremote

/-- **An agent that keeps to itself** leaves every run to start from what was
authorised. -/
theorem startsAuthorised_of_unpushed (request : WorkspaceRequest)
    (events : List InvocationEvent)
    (h : Machine.Always (step request) (KeepsToItself request) unprovisioned events) :
    Machine.Always (step request) (StartsAuthorised request) unprovisioned events := by
  refine @Machine.always_of_invariant _ _ (step request)
    (fun repository => (∀ commit ∈ repository.records,
        commit.parent = some request.baseCommit) ∧
      ∀ tip, repository.remote = some tip → tip ∈ repository.records)
    (KeepsToItself request) _ ?_ ?_ _ _ ⟨?_, ?_⟩ h
  · rintro repository event ⟨hrecords, hremote⟩ hkeeps
    exact ⟨records_over_base_step hrecords event, remote_step hremote hkeeps⟩
  · rintro repository event ⟨hrecords, hremote⟩ hkeeps
    rw [startsAuthorised_iff_unspoiledStep hrecords]
    have htip : ∀ answer, TipAuthorised request repository answer := by
      intro answer tip htip
      unfold tipRead at htip
      split at htip
      · exact Or.inr (hremote tip htip)
      · cases htip
    cases event with
    | submit atCapacity answers =>
      intro hrunning hcapacity hsafe
      refine ⟨fun workspace hkept => ⟨htip _, ?_⟩, fun _ _ => htip _⟩
      have hhead := hkept.2.2.2.2.2
      rw [← startPoint_eq] at hhead ⊢
      exact hkeeps workspace hkept.1 _ hhead ((tipAuthorised_iff hrecords).mp (htip _))
    | _ => trivial
  · intro commit hcommit
    cases hcommit
  · intro tip htip
    cases htip

end Spec

/-! ## A run that goes on where another left off -/

/-- A work order pinned to a commit with one file. -/
def localOrder : WorkspaceRequest :=
  ⟨"wo_app_312_a3f91c2_a1", .root [("README.md", "app")] "base",
    "factory/312-a3f91c2-a1"⟩

/-- Every step succeeds. -/
def smoothProvision : ProvisionAnswers where
  isDirectory := true
  branchRead := true
  headRead := true
  inspected := .answered
  removal := .removed
  made := true
  hasToken := true
  succeeds := fun _ => true
  cloned := .answered
  shallow := true
  cleanup := .removed

/-- The agent leaves an edit, the run is over, the order is submitted again. -/
def leftEdited : List InvocationEvent :=
  [.submit false smoothProvision, .edit [("README.md", "half done")], .reaped,
    .submit false smoothProvision]

/-- **What was left is resumed**: the second submit keeps the edited files. -/
theorem resumes_what_was_left :
    ¬ ∀ (request : WorkspaceRequest) (events : List InvocationEvent),
      Machine.Always (step request) (StartsAuthorised request) unprovisioned
        events := by
  intro h
  obtain ⟨-, -, -, hlast, -⟩ := h localOrder leftEdited
  have hkept : (submit localOrder (Machine.run (step localOrder) unprovisioned
      (leftEdited.take 3)) false smoothProvision).2
        = some (.ok ⟨true, localOrder.baseCommit⟩) := by decide
  have hedited : (submit localOrder (Machine.run (step localOrder) unprovisioned
      (leftEdited.take 3)) false smoothProvision).1.workspace
        = some ⟨localOrder.branch, some localOrder.baseCommit,
            [("README.md", "half done")]⟩ := by decide
  have hstart := (hlast _ hkept).2
  have hfiles := hedited.symm.trans hstart
  revert hfiles
  decide

end Provision

end Opifex
