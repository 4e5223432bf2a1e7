import Opifex.GitHubWrites
import Opifex.Lib.Grouping
import Opifex.Lib.Machine
import Opifex.Lib.Text

/-!
# Creating a factory branch

A call looks for the ref, and if there is none makes a blob, a tree, a commit and at last
the ref, five requests one after the other, each with retries of its own. Calls run side
by side. GitHub may execute a request that was sent at any later time, and more than once:
the client may have given up on it, or have sent it again.

GitHub creates a ref only where there is none, and what a request for one names was made by
the requests before it. So whatever fails and however calls interleave, a factory branch is
absent or stands on the one file that was to be committed, it is never moved, and a call
that returns with writes enabled names the commit it stands on (`allOrNothing_run`). With
writes enabled: as it returns (`Returns`), or as it went on to write.
-/

namespace Opifex.FactoryBranches

/-! ## A repository on GitHub -/

/-- What a tree has at a path: the mode and the object. A file that the branch carries
is an entry of its tree. -/
structure TreeEntry where
  mode : String
  sha : String
deriving DecidableEq

/-- A commit object. Its sha is the key it is stored under, so no field repeats it; two
calls that make the same commit make one object. -/
structure GitCommit where
  tree : String
  parents : List String
  message : String
deriving DecidableEq

/-- The objects of a repository by their SHA, and its branches. A tree has an entry for
each path of a file. -/
structure GitRepository where
  blobs : KeyMap String String
  trees : KeyMap String (KeyMap String TreeEntry)
  commits : KeyMap String GitCommit
  refs : KeyMap String String

/-- The requests of `createFactoryBranch`, in the order in which it makes them. All but
the last leave the branch as it is. -/
inductive GitRequest where
  | getRef (branch : String)
  | getCommit (sha : String)
  | createBlob (content : String)
  /-- A file on top of a tree. -/
  | createTree (baseTree path blob : String)
  | createCommit (message tree : String) (parents : List String)
  | createRef (branch sha : String)
deriving DecidableEq

/-- The one request that makes a branch. The others add objects that nothing points to.
-/
def GitRequest.createsRef : GitRequest → Bool
  | .createRef _ _ => true
  | _ => false

/-- What GitHub answers to a request, as far as the code reads it. An answer may be lost
on its way, after GitHub has done what was asked. -/
inductive GitAnswer where
  /-- The commit of a branch. -/
  | ref (sha : String)
  /-- The tree of a commit. -/
  | commit (tree : String)
  | created (sha : String)
  | refCreated
  | notFound
  /-- A validation failed. -/
  | unprocessable
deriving DecidableEq

/-- An object is stored under its SHA, and two objects do not share one. -/
def addObject {ν : Type*} (same : ν → ν → Bool) (objects : KeyMap String ν) (sha : String)
    (object : ν) : Option (KeyMap String ν) :=
  match objects.get sha with
  | none => some (objects.set sha object)
  | some other => if same other object then some objects else none

/-- Two trees are one object if they have the same entries. -/
def sameTree (tree other : KeyMap String TreeEntry) : Bool :=
  tree.entries.isPerm other.entries

namespace GitRepository

/-- GitHub executes a request; an object that it makes has this SHA. -/
def serve (github : GitRepository) (sha : String) :
    GitRequest → Option (GitRepository × GitAnswer)
  | .getRef branch =>
    match github.refs.get branch with
    | some tip => some (github, .ref tip)
    | none => some (github, .notFound)
  | .getCommit commit =>
    match github.commits.get commit with
    | some found => some (github, .commit found.tree)
    | none => some (github, .notFound)
  | .createBlob content =>
    (addObject (· == ·) github.blobs sha content).map fun blobs =>
      ({ github with blobs := blobs }, .created sha)
  | .createTree baseTree path blob =>
    match github.trees.get baseTree, github.blobs.get blob with
    | some tree, some _ =>
      (addObject sameTree github.trees sha (tree.set path ⟨"100644", blob⟩)).map fun trees =>
        ({ github with trees := trees }, .created sha)
    | _, _ => some (github, .unprocessable)
  | .createCommit message tree parents =>
    if (github.trees.get tree).isSome ∧ ∀ parent ∈ parents, (github.commits.get parent).isSome then
      (addObject (· == ·) github.commits sha ⟨tree, parents, message⟩).map fun commits =>
        ({ github with commits := commits }, .created sha)
    else some (github, .unprocessable)
  | .createRef branch commit =>
    -- "Reference already exists"
    if (github.refs.get branch).isSome ∨ (github.commits.get commit).isNone then
      some (github, .unprocessable)
    else some ({ github with refs := github.refs.set branch commit }, .refCreated)

end GitRepository

/-! ## A call -/

/-- The prefix of a branch that the factory owns. -/
def factoryBranchPrefix : String := "factory/"

/-- `assertFactoryBranch` lets it pass. -/
def isFactoryBranch (branch : String) : Bool :=
  Text.startsWith branch factoryBranchPrefix &&
    !(Text.includes branch ".." || Text.includes branch " ")

/-- What a branch is to carry: one file with its content, on top of a base commit. -/
structure FactoryFile where
  baseCommit : String
  path : String
  content : String
deriving DecidableEq

/-- What is asked for: the branch, the one file on it, and the message of its commit. -/
structure CreateFactoryBranchInput where
  branch : String
  file : FactoryFile
  commitMessage : String

/-- How the call returns: what became of the write, the commit the branch stands on, and
whether this call created it. -/
structure CreateFactoryBranchResult where
  write : WriteResult
  commitSha : Option String
  created : Bool
deriving DecidableEq

/-- The request a call waits for, or how it ended. A stage carries the objects that were
made before it. -/
inductive BranchStage where
  | findRef
  | baseCommit
  | blob (baseTree : String)
  | tree (baseTree blobSha : String)
  | commit (treeSha : String)
  | ref (commitSha : String)
  | returned (result : CreateFactoryBranchResult)
  | thrown
deriving DecidableEq

namespace BranchStage

/-- The request of a stage, if it makes one. -/
def request (input : CreateFactoryBranchInput) : BranchStage → Option GitRequest
  | .findRef => some (.getRef input.branch)
  | .baseCommit => some (.getCommit input.file.baseCommit)
  | .blob _ => some (.createBlob input.file.content)
  | .tree baseTree blobSha => some (.createTree baseTree input.file.path blobSha)
  | .commit treeSha => some (.createCommit input.commitMessage treeSha [input.file.baseCommit])
  | .ref commitSha => some (.createRef input.branch commitSha)
  | .returned _ | .thrown => none

/-- What a call makes of an answer. `guardedWrite` reads the switch once the ref has been
looked for, whatever came of that. -/
def next (writesEnabled : Bool) : BranchStage → GitAnswer → BranchStage
  | .findRef, .ref existing =>
    .returned ⟨⟨writesEnabled, writesEnabled⟩, some existing, false⟩
  | .findRef, .notFound =>
    if writesEnabled then .baseCommit else .returned ⟨⟨false, false⟩, none, false⟩
  | .baseCommit, .commit baseTree => .blob baseTree
  | .blob baseTree, .created blobSha => .tree baseTree blobSha
  | .tree _ _, .created treeSha => .commit treeSha
  | .commit _, .created commitSha => .ref commitSha
  | .ref commitSha, .refCreated => .returned ⟨⟨true, false⟩, some commitSha, true⟩
  | _, _ => .thrown

end BranchStage

/-- A call of `createFactoryBranch`, between two of its requests. An attempt has a
number, so that the answer to an earlier one can arrive late. -/
structure BranchCall where
  input : CreateFactoryBranchInput
  stage : BranchStage
  /-- The number of its last attempt, of any of its requests. -/
  attempt : ℕ
  retriesLeft : ℕ

/-! ## Calls side by side -/

/-- An attempt is of a call, and has a number. It is on its way until GitHub has handled
it, which may be after the call has given up on it. -/
structure SentRequest where
  call : ℕ
  attempt : ℕ
  request : GitRequest

/-- An answer on its way: to which attempt of which call. A call takes the answer to its
last attempt only. -/
structure SentAnswer where
  call : ℕ
  attempt : ℕ
  answer : GitAnswer
deriving DecidableEq

/-- GitHub, the write switch, and the calls under way. Requests and answers that were
sent stay: one may be executed, or arrive, long after its call gave up on it. -/
structure BranchDesk where
  github : GitRepository
  /-- `GITHUB_WRITES_ENABLED`, which is read live. -/
  writesEnabled : Bool
  calls : ℕ → Option BranchCall
  /-- Every request that was ever sent, and every answer to one. -/
  sent : List SentRequest
  answers : List SentAnswer

/-- What happens next. GitHub, the network and the calls take turns in any order, and
others may push to the repository between any two steps. -/
inductive BranchEvent where
  | start (id : ℕ) (input : CreateFactoryBranchInput)
  /-- GitHub executes a request that was sent. -/
  | serve (sent : ℕ) (sha : String)
  /-- An answer to its last attempt comes to a call. -/
  | receive (id : ℕ) (answer : GitAnswer)
  /-- The last attempt times out or is answered with a server error. -/
  | fail (id : ℕ)
  /-- It is refused for good: the rate limit, or the credential. -/
  | reject (id : ℕ)
  /-- GitHub says 404 to a credential that may not see what is there. -/
  | hide (id : ℕ)
  | switch (writesEnabled : Bool)
  /-- Somebody else makes an object, or moves a branch, or deletes it. -/
  | push (request : GitRequest) (sha : String)
  | moveRef (branch : String) (sha : Option String)

namespace BranchDesk

/-- No call has started. -/
def create (github : GitRepository) (writesEnabled : Bool) : BranchDesk where
  github := github
  writesEnabled := writesEnabled
  calls := fun _ => none
  sent := []
  answers := []

/-- A call as it stands now. -/
def put (desk : BranchDesk) (id : ℕ) (call : BranchCall) : BranchDesk :=
  { desk with calls := Function.update desk.calls id (some call) }

/-- A call goes to a stage, and sends its request, if it has one, as a new attempt. -/
def advance (desk : BranchDesk) (id : ℕ) (call : BranchCall) (stage : BranchStage)
    (retriesLeft : ℕ) : BranchDesk :=
  let moved := { call with stage := stage, attempt := call.attempt + 1, retriesLeft := retriesLeft }
  { desk.put id moved with
    sent := (stage.request call.input).toList.map (⟨id, call.attempt + 1, ·⟩) ++ desk.sent }

/-- One step; `maxRetries` is that of the client. -/
def step (maxRetries : ℕ) (desk : BranchDesk) : BranchEvent → BranchDesk
  | .start id input =>
    match desk.calls id with
    | some _ => desk
    | none =>
      if isFactoryBranch input.branch then
        desk.advance id ⟨input, .findRef, 0, maxRetries⟩ .findRef maxRetries
      else desk.put id ⟨input, .thrown, 0, maxRetries⟩
  | .serve index sha =>
    match desk.sent[index]? with
    | none => desk
    | some sent =>
      match desk.github.serve sha sent.request with
      | none => desk
      | some (github, answer) =>
        { desk with
          github := github
          answers := ⟨sent.call, sent.attempt, answer⟩ :: desk.answers }
  | .receive id answer =>
    match desk.calls id with
    | none => desk
    | some call =>
      if (call.stage.request call.input).isSome ∧
          (⟨id, call.attempt, answer⟩ : SentAnswer) ∈ desk.answers then
        desk.advance id call (call.stage.next desk.writesEnabled answer) maxRetries
      else desk
  | .fail id =>
    match desk.calls id with
    | none => desk
    | some call =>
      if (call.stage.request call.input).isNone then desk
      else
        match call.retriesLeft with
        | 0 => desk.put id { call with stage := .thrown }
        | left + 1 => desk.advance id call call.stage left
  | .reject id =>
    match desk.calls id with
    | none => desk
    | some call =>
      if (call.stage.request call.input).isNone then desk
      else desk.put id { call with stage := .thrown }
  | .hide id =>
    match desk.calls id with
    | none => desk
    | some call =>
      if (call.stage.request call.input).isNone then desk
      else desk.advance id call (call.stage.next desk.writesEnabled .notFound) maxRetries
  | .switch writesEnabled => { desk with writesEnabled := writesEnabled }
  | .push request sha =>
    if request.createsRef then desk
    else
      match desk.github.serve sha request with
      | none => desk
      | some (github, _) => { desk with github := github }
  | .moveRef branch sha =>
    let refs := match sha with
      | some sha => desk.github.refs.set branch sha
      | none => desk.github.refs.erase branch
    { desk with github := { desk.github with refs := refs } }

end BranchDesk

/-! ## What a branch is to stand on -/

namespace GitRepository

variable {github later : GitRepository} {branch sha : String} {request : GitRequest}
variable {answer : GitAnswer} {file : FactoryFile}

/-- A commit is there, and has this tree. -/
def HasTree (github : GitRepository) (commitSha treeSha : String) : Prop :=
  ∃ commit, github.commits.get commitSha = some commit ∧ commit.tree = treeSha

/-- A tree that is another one but for one file. -/
def SetsFile (github : GitRepository) (baseTree path blobSha treeSha : String) : Prop :=
  ∃ base tree, github.trees.get baseTree = some base ∧ github.trees.get treeSha = some tree
    ∧ ∀ other, tree.get other = (base.set path ⟨"100644", blobSha⟩).get other

/-- The tree of the base commit with exactly this file set to this content. -/
def CarriesTree (github : GitRepository) (file : FactoryFile) (treeSha : String) : Prop :=
  ∃ baseTree blobSha, github.HasTree file.baseCommit baseTree
    ∧ github.blobs.get blobSha = some file.content
    ∧ github.SetsFile baseTree file.path blobSha treeSha

/-- **A commit whose only parent is the base commit, and that only adds the file.** -/
def Carries (github : GitRepository) (file : FactoryFile) (commitSha : String) : Prop :=
  ∃ commit, github.commits.get commitSha = some commit ∧ commit.parents = [file.baseCommit]
    ∧ github.CarriesTree file commit.tree

/-- What an answer says of its request is so, as far as the branch is concerned. -/
def Says (github : GitRepository) (branch : String) : GitRequest → GitAnswer → Prop
  | .getRef asked, .ref tip => asked = branch → github.refs.get branch = some tip
  | .getCommit commitSha, .commit treeSha => github.HasTree commitSha treeSha
  | .createBlob content, .created sha => github.blobs.get sha = some content
  | .createTree baseTree path blobSha, .created sha => github.SetsFile baseTree path blobSha sha
  | .createCommit message tree parents, .created sha =>
    github.commits.get sha = some ⟨tree, parents, message⟩
  | .createRef asked commitSha, .refCreated =>
    asked = branch → github.refs.get branch = some commitSha
  | _, _ => True

/-- Objects stay, and so does the branch: what one state of the repository has, a later
one has too. -/
structure Persists (github later : GitRepository) (branch : String) : Prop where
  blobs : ∀ sha blob, github.blobs.get sha = some blob → later.blobs.get sha = some blob
  trees : ∀ sha tree, github.trees.get sha = some tree → later.trees.get sha = some tree
  commits : ∀ sha commit,
    github.commits.get sha = some commit → later.commits.get sha = some commit
  ref : ∀ tip, github.refs.get branch = some tip → later.refs.get branch = some tip

theorem Persists.refl (github : GitRepository) (branch : String) :
    github.Persists github branch :=
  ⟨fun _ _ => id, fun _ _ => id, fun _ _ => id, fun _ => id⟩

theorem HasTree.persists {commitSha treeSha : String} (h : github.HasTree commitSha treeSha)
    (hlater : github.Persists later branch) : later.HasTree commitSha treeSha := by
  obtain ⟨commit, hcommit, htree⟩ := h
  exact ⟨commit, hlater.commits _ _ hcommit, htree⟩

theorem SetsFile.persists {baseTree path blobSha treeSha : String}
    (h : github.SetsFile baseTree path blobSha treeSha)
    (hlater : github.Persists later branch) : later.SetsFile baseTree path blobSha treeSha := by
  obtain ⟨base, tree, hbase, htree, hsame⟩ := h
  exact ⟨base, tree, hlater.trees _ _ hbase, hlater.trees _ _ htree, hsame⟩

theorem CarriesTree.persists {treeSha : String} (h : github.CarriesTree file treeSha)
    (hlater : github.Persists later branch) : later.CarriesTree file treeSha := by
  obtain ⟨baseTree, blobSha, hbase, hblob, hsets⟩ := h
  exact ⟨baseTree, blobSha, hbase.persists hlater, hlater.blobs _ _ hblob,
    hsets.persists hlater⟩

theorem Carries.persists {commitSha : String} (h : github.Carries file commitSha)
    (hlater : github.Persists later branch) : later.Carries file commitSha := by
  obtain ⟨commit, hcommit, hparents, htree⟩ := h
  exact ⟨commit, hlater.commits _ _ hcommit, hparents, htree.persists hlater⟩

theorem Says.persists (h : github.Says branch request answer)
    (hlater : github.Persists later branch) : later.Says branch request answer := by
  cases request with
  | getRef asked =>
    cases answer with
    | ref tip => exact fun hasked => hlater.ref _ (h hasked)
    | _ => trivial
  | getCommit commitSha =>
    cases answer with
    | commit treeSha => exact HasTree.persists h hlater
    | _ => trivial
  | createBlob content =>
    cases answer with
    | created sha => exact hlater.blobs _ _ h
    | _ => trivial
  | createTree baseTree path blobSha =>
    cases answer with
    | created sha => exact SetsFile.persists h hlater
    | _ => trivial
  | createCommit message tree parents =>
    cases answer with
    | created sha => exact hlater.commits _ _ h
    | _ => trivial
  | createRef asked commitSha =>
    cases answer with
    | refCreated => exact fun hasked => hlater.ref _ (h hasked)
    | _ => trivial

end GitRepository

theorem addObject_eq_some {ν : Type*} {same : ν → ν → Bool} {objects later : KeyMap String ν}
    {sha : String} {object : ν} (h : addObject same objects sha object = some later) :
    (∀ other value, objects.get other = some value → later.get other = some value)
      ∧ ∃ stored, later.get sha = some stored ∧ (stored = object ∨ same stored object = true) := by
  unfold addObject at h
  cases hold : objects.get sha with
  | none =>
    rw [hold] at h
    obtain rfl := Option.some.inj h
    refine ⟨fun other value hvalue => ?_, object, ?_, Or.inl rfl⟩
    · rw [KeyMap.get_set, if_neg, hvalue]
      rintro rfl
      rw [hold] at hvalue
      contradiction
    · rw [KeyMap.get_set, if_pos rfl]
  | some stored =>
    rw [hold] at h
    dsimp only at h
    split_ifs at h with hsame
    obtain rfl := Option.some.inj h
    exact ⟨fun _ _ => id, stored, hold, Or.inr hsame⟩

namespace GitRepository

/-- **What GitHub does with a request**: objects and branches stay, the answer says what is
so, and a branch that is new is the one that was asked for. -/
theorem serve_eq_some {github later : GitRepository} {branch sha : String}
    {request : GitRequest} {answer : GitAnswer}
    (h : github.serve sha request = some (later, answer)) :
    github.Persists later branch ∧ later.Says branch request answer
      ∧ (∀ tip, later.refs.get branch = some tip →
        github.refs.get branch = some tip ∨ request = .createRef branch tip) := by
  cases request with
  | getRef asked =>
    unfold serve at h
    dsimp only at h
    cases htip : github.refs.get asked with
    | none =>
      rw [htip] at h
      obtain ⟨rfl, rfl⟩ := Prod.mk.inj (Option.some.inj h)
      exact ⟨.refl _ _, trivial, fun _ => Or.inl⟩
    | some tip =>
      rw [htip] at h
      obtain ⟨rfl, rfl⟩ := Prod.mk.inj (Option.some.inj h)
      refine ⟨.refl _ _, ?_, fun _ => Or.inl⟩
      rintro rfl
      exact htip
  | getCommit commitSha =>
    unfold serve at h
    dsimp only at h
    cases hcommit : github.commits.get commitSha with
    | none =>
      rw [hcommit] at h
      obtain ⟨rfl, rfl⟩ := Prod.mk.inj (Option.some.inj h)
      exact ⟨.refl _ _, trivial, fun _ => Or.inl⟩
    | some commit =>
      rw [hcommit] at h
      obtain ⟨rfl, rfl⟩ := Prod.mk.inj (Option.some.inj h)
      exact ⟨.refl _ _, ⟨commit, hcommit, rfl⟩, fun _ => Or.inl⟩
  | createBlob content =>
    obtain ⟨blobs, hadd, hlater⟩ := Option.map_eq_some_iff.mp h
    obtain ⟨rfl, rfl⟩ := Prod.mk.inj hlater
    obtain ⟨hkeep, stored, hstored, hsame⟩ := addObject_eq_some hadd
    have hblob : stored = content := hsame.elim id LawfulBEq.eq_of_beq
    exact ⟨⟨hkeep, fun _ _ => id, fun _ _ => id, fun _ => id⟩, hblob ▸ hstored, fun _ => Or.inl⟩
  | createTree baseTree path blobSha =>
    unfold serve at h
    dsimp only at h
    cases hbase : github.trees.get baseTree with
    | none =>
      rw [hbase] at h
      obtain ⟨rfl, rfl⟩ := Prod.mk.inj (Option.some.inj h)
      exact ⟨.refl _ _, trivial, fun _ => Or.inl⟩
    | some base =>
      cases hblob : github.blobs.get blobSha with
      | none =>
        rw [hbase, hblob] at h
        obtain ⟨rfl, rfl⟩ := Prod.mk.inj (Option.some.inj h)
        exact ⟨.refl _ _, trivial, fun _ => Or.inl⟩
      | some blob =>
        rw [hbase, hblob] at h
        obtain ⟨trees, hadd, hlater⟩ := Option.map_eq_some_iff.mp h
        obtain ⟨rfl, rfl⟩ := Prod.mk.inj hlater
        obtain ⟨hkeep, stored, hstored, hsame⟩ := addObject_eq_some hadd
        refine ⟨⟨fun _ _ => id, hkeep, fun _ _ => id, fun _ => id⟩,
          ⟨base, stored, hkeep _ _ hbase, hstored, fun other => ?_⟩, fun _ => Or.inl⟩
        obtain rfl | hperm := hsame
        · rfl
        · exact KeyMap.get_of_perm (List.isPerm_iff.mp hperm) other
  | createCommit message tree parents =>
    unfold serve at h
    dsimp only at h
    split_ifs at h
    · obtain ⟨commits, hadd, hlater⟩ := Option.map_eq_some_iff.mp h
      obtain ⟨rfl, rfl⟩ := Prod.mk.inj hlater
      obtain ⟨hkeep, stored, hstored, hsame⟩ := addObject_eq_some hadd
      obtain rfl : stored = ⟨tree, parents, message⟩ := hsame.elim id LawfulBEq.eq_of_beq
      exact ⟨⟨fun _ _ => id, fun _ _ => id, hkeep, fun _ => id⟩, hstored, fun _ => Or.inl⟩
    · obtain ⟨rfl, rfl⟩ := Prod.mk.inj (Option.some.inj h)
      exact ⟨.refl _ _, trivial, fun _ => Or.inl⟩
  | createRef asked commitSha =>
    unfold serve at h
    dsimp only at h
    split_ifs at h with htaken
    · obtain ⟨rfl, rfl⟩ := Prod.mk.inj (Option.some.inj h)
      exact ⟨.refl _ _, trivial, fun _ => Or.inl⟩
    · obtain ⟨rfl, rfl⟩ := Prod.mk.inj (Option.some.inj h)
      refine ⟨⟨fun _ _ => id, fun _ _ => id, fun _ _ => id, fun tip htip => ?_⟩, ?_,
        fun tip htip => ?_⟩
      · -- a ref that is there is not created once more
        dsimp only
        rw [KeyMap.get_set, if_neg, htip]
        rintro rfl
        exact htaken (Or.inl (Option.isSome_iff_exists.mpr ⟨tip, htip⟩))
      · rintro rfl
        exact KeyMap.get_set.trans (if_pos rfl)
      · dsimp only at htip
        rw [KeyMap.get_set] at htip
        split_ifs at htip with hasked
        · exact Or.inr (by rw [hasked, Option.some.inj htip])
        · exact Or.inl htip

end GitRepository

/-! ## One call -/

namespace BranchStage

/-- What a call has found out at a stage, and what it says when it returns. -/
def Sound (github : GitRepository) (branch : String) (file : FactoryFile) :
    BranchStage → Prop
  | .findRef | .baseCommit | .thrown => True
  | .blob baseTree => github.HasTree file.baseCommit baseTree
  | .tree baseTree blobSha =>
    github.HasTree file.baseCommit baseTree ∧ github.blobs.get blobSha = some file.content
  | .commit treeSha => github.CarriesTree file treeSha
  | .ref commitSha => github.Carries file commitSha
  | .returned result => result.write.performed = true →
    ∃ tip, result.commitSha = some tip ∧ github.refs.get branch = some tip

variable {github later : GitRepository} {branch : String} {file : FactoryFile}
variable {stage : BranchStage} {input : CreateFactoryBranchInput}

theorem Sound.persists (h : stage.Sound github branch file)
    (hlater : github.Persists later branch) : stage.Sound later branch file := by
  cases stage with
  | findRef => trivial
  | baseCommit => trivial
  | thrown => trivial
  | blob baseTree => exact GitRepository.HasTree.persists h hlater
  | tree baseTree blobSha =>
    obtain ⟨hbase, hblob⟩ := h
    exact ⟨hbase.persists hlater, hlater.blobs _ _ hblob⟩
  | commit treeSha => exact GitRepository.CarriesTree.persists h hlater
  | ref commitSha => exact GitRepository.Carries.persists h hlater
  | returned result =>
    intro hperformed
    obtain ⟨tip, hcommit, htip⟩ := h hperformed
    exact ⟨tip, hcommit, hlater.ref _ htip⟩

/-- **One answer.** What a call makes of an answer that is so is sound. -/
theorem Sound.next {request : GitRequest} {answer : GitAnswer} {writesEnabled : Bool}
    (h : stage.Sound github input.branch input.file)
    (hrequest : stage.request input = some request)
    (hso : github.Says input.branch request answer) :
    (stage.next writesEnabled answer).Sound github input.branch input.file := by
  cases stage with
  | findRef =>
    obtain rfl := Option.some.inj hrequest
    cases answer with
    | ref existing => exact fun _ => ⟨existing, rfl, hso rfl⟩
    | notFound =>
      cases writesEnabled with
      | true => trivial
      | false => exact fun hperformed => absurd hperformed Bool.false_ne_true
    | _ => trivial
  | baseCommit =>
    obtain rfl := Option.some.inj hrequest
    cases answer with
    | commit baseTree => exact hso
    | _ => trivial
  | blob baseTree =>
    obtain rfl := Option.some.inj hrequest
    cases answer with
    | created blobSha => exact ⟨h, hso⟩
    | _ => trivial
  | tree baseTree blobSha =>
    obtain rfl := Option.some.inj hrequest
    cases answer with
    | created treeSha => exact ⟨baseTree, blobSha, h.1, h.2, hso⟩
    | _ => trivial
  | commit treeSha =>
    obtain rfl := Option.some.inj hrequest
    cases answer with
    | created commitSha => exact ⟨_, hso, rfl, h⟩
    | _ => trivial
  | ref commitSha =>
    obtain rfl := Option.some.inj hrequest
    cases answer with
    | refCreated => exact fun _ => ⟨commitSha, rfl, hso rfl⟩
    | _ => trivial
  | returned result =>
    unfold BranchStage.request at hrequest
    contradiction
  | thrown =>
    unfold BranchStage.request at hrequest
    contradiction

/-- With writes enabled, a call returns what was performed. -/
theorem performed_of_next {answer : GitAnswer} {result : CreateFactoryBranchResult}
    (h : stage.next true answer = .returned result) : result.write.performed = true := by
  cases stage with
  | findRef =>
    cases answer with
    | ref existing =>
      obtain rfl := BranchStage.returned.inj h
      rfl
    | notFound => exact BranchStage.noConfusion h
    | _ => exact BranchStage.noConfusion h
  | ref commitSha =>
    cases answer with
    | refCreated =>
      obtain rfl := BranchStage.returned.inj h
      rfl
    | _ => exact BranchStage.noConfusion h
  | returned earlier => cases answer <;> exact BranchStage.noConfusion h
  | thrown => cases answer <;> exact BranchStage.noConfusion h
  | _ => cases answer <;> exact BranchStage.noConfusion h

end BranchStage

/-! ## All calls -/

namespace BranchDesk

section Runs

variable {maxRetries : ℕ} {desk : BranchDesk} {branch : String} {file : FactoryFile}
variable {id : ℕ} {call : BranchCall}

/-- The invariant for one branch. An answer is to a request that was sent, and the last
request that a call has sent is that of its stage. -/
structure Intact (branch : String) (file : FactoryFile) (desk : BranchDesk) : Prop where
  ref : ∀ tip, desk.github.refs.get branch = some tip → desk.github.Carries file tip
  created : ∀ sent ∈ desk.sent, ∀ commitSha, sent.request = .createRef branch commitSha →
    desk.github.Carries file commitSha
  calls : ∀ id call, desk.calls id = some call → call.input.branch = branch →
    call.input.file = file ∧ call.stage.Sound desk.github branch file
  attempts : ∀ sent ∈ desk.sent, ∃ call, desk.calls sent.call = some call
    ∧ sent.attempt ≤ call.attempt
    ∧ (sent.attempt = call.attempt →
      ∀ request, call.stage.request call.input = some request → request = sent.request)
  answers : ∀ answer ∈ desk.answers, ∃ sent ∈ desk.sent, sent.call = answer.call
    ∧ sent.attempt = answer.attempt ∧ desk.github.Says branch sent.request answer.answer

theorem put_calls (other : ℕ) :
    (desk.put id call).calls other = if other = id then some call else desk.calls other :=
  Function.update_apply ..

theorem advance_calls {stage : BranchStage} {left : ℕ} (other : ℕ) :
    (desk.advance id call stage left).calls other
      = if other = id then
          some { call with stage := stage, attempt := call.attempt + 1, retriesLeft := left }
        else desk.calls other :=
  Function.update_apply ..

/-- GitHub changes by what keeps objects and the branch. -/
theorem Intact.github (h : desk.Intact branch file) {later : GitRepository}
    (hlater : desk.github.Persists later branch)
    (href : ∀ tip, later.refs.get branch = some tip → later.Carries file tip) :
    { desk with github := later }.Intact branch file where
  ref := href
  created sent hsent commitSha hrequest :=
    (h.created sent hsent commitSha hrequest).persists hlater
  calls id call hcall hbranch := by
    obtain ⟨hfile, hsound⟩ := h.calls id call hcall hbranch
    exact ⟨hfile, hsound.persists hlater⟩
  attempts := h.attempts
  answers answer hanswer := by
    obtain ⟨sent, hsent, hcall, hattempt, hso⟩ := h.answers answer hanswer
    exact ⟨sent, hsent, hcall, hattempt, hso.persists hlater⟩

/-- A call goes on to a stage that is sound. -/
theorem Intact.advance (h : desk.Intact branch file) {stage : BranchStage} {left : ℕ}
    (hcurrent : ∀ current, desk.calls id = some current → current.attempt ≤ call.attempt)
    (hstage : call.input.branch = branch →
      call.input.file = file ∧ stage.Sound desk.github branch file) :
    (desk.advance id call stage left).Intact branch file where
  ref := h.ref
  created sent hsent commitSha hrequest := by
    obtain hsent | hsent := List.mem_append.mp hsent
    · obtain ⟨request, hmem, rfl⟩ := List.mem_map.mp hsent
      obtain rfl : request = .createRef branch commitSha := hrequest
      have hstageRequest := Option.mem_toList.mp hmem
      cases stage with
      | ref found =>
        obtain ⟨hbranch, rfl⟩ := GitRequest.createRef.inj (Option.some.inj hstageRequest)
        exact (hstage hbranch).2
      | _ => exact absurd hstageRequest (by simp [BranchStage.request])
    · exact h.created sent hsent commitSha hrequest
  calls other found hfound hbranch := by
    rw [advance_calls] at hfound
    split_ifs at hfound
    · obtain rfl := Option.some.inj hfound
      exact hstage hbranch
    · exact h.calls other found hfound hbranch
  attempts sent hsent := by
    obtain hsent | hsent := List.mem_append.mp hsent
    · obtain ⟨request, hmem, rfl⟩ := List.mem_map.mp hsent
      refine ⟨_, (advance_calls id).trans (if_pos rfl), le_rfl, fun _ other hother => ?_⟩
      exact Option.some.inj (hother.symm.trans (Option.mem_toList.mp hmem))
    · obtain ⟨found, hfound, hle, hlast⟩ := h.attempts sent hsent
      by_cases hid : sent.call = id
      · rw [hid] at hfound ⊢
        -- an older attempt is not the last one any more
        have hlt := Nat.lt_succ_of_le (hle.trans (hcurrent found hfound))
        exact ⟨_, (advance_calls id).trans (if_pos rfl), hlt.le,
          fun hsame => absurd hsame hlt.ne⟩
      · exact ⟨found, (advance_calls _).trans ((if_neg hid).trans hfound), hle, hlast⟩
  answers answer hanswer := by
    obtain ⟨sent, hsent, hanswered⟩ := h.answers answer hanswer
    exact ⟨sent, List.mem_append_right _ hsent, hanswered⟩

/-- A call ends without a result. -/
theorem Intact.thrown (h : desk.Intact branch file)
    (hcurrent : ∀ current, desk.calls id = some current → current.attempt ≤ call.attempt)
    (hfile : call.input.branch = branch → call.input.file = file)
    (hthrown : call.stage = .thrown) : (desk.put id call).Intact branch file where
  ref := h.ref
  created := h.created
  calls other found hfound hbranch := by
    rw [put_calls] at hfound
    split_ifs at hfound
    · obtain rfl := Option.some.inj hfound
      rw [hthrown]
      exact ⟨hfile hbranch, trivial⟩
    · exact h.calls other found hfound hbranch
  attempts sent hsent := by
    obtain ⟨found, hfound, hle, hlast⟩ := h.attempts sent hsent
    by_cases hid : sent.call = id
    · rw [hid] at hfound ⊢
      refine ⟨call, (put_calls id).trans (if_pos rfl), hle.trans (hcurrent found hfound), ?_⟩
      rw [hthrown]
      exact fun _ request hrequest => absurd hrequest (Option.some_ne_none _).symm
    · exact ⟨found, (put_calls _).trans ((if_neg hid).trans hfound), hle, hlast⟩
  answers := h.answers

/-- Somebody else moves another branch. -/
theorem get_moveRef (desk : BranchDesk) {other : String} (sha : Option String)
    (h : other ≠ branch) :
    (match sha with
      | some sha => desk.github.refs.set other sha
      | none => desk.github.refs.erase other).get branch = desk.github.refs.get branch := by
  cases sha with
  | some sha => exact KeyMap.get_set.trans (if_neg h)
  | none => exact KeyMap.get_erase.trans (if_neg h)

/-- **One step.** -/
theorem Intact.step (h : desk.Intact branch file) {event : BranchEvent}
    (hstart : ∀ id input, event = .start id input → input.branch = branch → input.file = file)
    (hnobody : ∀ sha, event ≠ .moveRef branch sha) :
    (desk.step maxRetries event).Intact branch file := by
  unfold BranchDesk.step
  cases event with
  | start id input =>
    dsimp only
    cases hcall : desk.calls id with
    | some call => exact h
    | none =>
      have hcurrent : ∀ current, desk.calls id = some current → current.attempt ≤ 0 := by
        intro current hcurrent
        rw [hcall] at hcurrent
        contradiction
      dsimp only
      split_ifs
      · exact h.advance hcurrent fun hbranch => ⟨hstart id input rfl hbranch, trivial⟩
      · exact h.thrown hcurrent (hstart id input rfl) rfl
  | serve index sha =>
    dsimp only
    cases hsent : desk.sent[index]? with
    | none => exact h
    | some sent =>
      have hmem := List.mem_of_getElem? hsent
      cases hserve : desk.github.serve sha sent.request with
      | none =>
        dsimp only
        rw [hserve]
        exact h
      | some served =>
        obtain ⟨later, answer⟩ := served
        dsimp only
        rw [hserve]
        obtain ⟨hlater, hso, href⟩ := GitRepository.serve_eq_some hserve
        have hgithub := h.github hlater fun tip htip => by
          obtain hold | hnew := href tip htip
          · exact (h.ref tip hold).persists hlater
          · exact (h.created sent hmem tip hnew).persists hlater
        exact { hgithub with
          answers := fun found hfound => by
            obtain rfl | hfound := List.mem_cons.mp hfound
            · exact ⟨sent, hmem, rfl, rfl, hso⟩
            · exact hgithub.answers found hfound }
  | receive id answer =>
    dsimp only
    cases hcall : desk.calls id with
    | none => exact h
    | some call =>
      dsimp only
      split_ifs with hreceived
      · obtain ⟨hrequest, hanswer⟩ := hreceived
        obtain ⟨request, hrequest⟩ := Option.isSome_iff_exists.mp hrequest
        refine h.advance (fun current hcurrent => ?_) fun hbranch => ?_
        · rw [Option.some.inj (hcall.symm.trans hcurrent)]
        · obtain ⟨hfile, hsound⟩ := h.calls id call hcall hbranch
          obtain ⟨sent, hsent, hid, hattempt, hso⟩ := h.answers _ hanswer
          obtain ⟨found, hfound, -, hlast⟩ := h.attempts sent hsent
          rw [hid] at hfound
          obtain rfl := Option.some.inj (hcall.symm.trans hfound)
          -- the answer is to the request of the stage the call is at
          rw [← hlast hattempt request hrequest] at hso
          subst hbranch hfile
          exact ⟨rfl, hsound.next hrequest hso⟩
      · exact h
  | fail id =>
    dsimp only
    cases hcall : desk.calls id with
    | none => exact h
    | some call =>
      have hcurrent : ∀ current, desk.calls id = some current →
          current.attempt ≤ call.attempt := by
        intro current hcurrent
        rw [Option.some.inj (hcall.symm.trans hcurrent)]
      dsimp only
      split_ifs
      · exact h
      · cases call.retriesLeft with
        | zero => exact h.thrown hcurrent (fun hbranch => (h.calls id call hcall hbranch).1) rfl
        | succ left => exact h.advance hcurrent (h.calls id call hcall)
  | reject id =>
    dsimp only
    cases hcall : desk.calls id with
    | none => exact h
    | some call =>
      dsimp only
      split_ifs
      · exact h
      · refine h.thrown (fun current hcurrent => ?_)
          (fun hbranch => (h.calls id call hcall hbranch).1) rfl
        rw [Option.some.inj (hcall.symm.trans hcurrent)]
  | hide id =>
    dsimp only
    cases hcall : desk.calls id with
    | none => exact h
    | some call =>
      dsimp only
      split_ifs with hrequest
      · exact h
      · obtain ⟨request, hrequest⟩ :=
          Option.ne_none_iff_exists'.mp (mt Option.isNone_iff_eq_none.mpr hrequest)
        refine h.advance (fun current hcurrent => ?_) fun hbranch => ?_
        · rw [Option.some.inj (hcall.symm.trans hcurrent)]
        · obtain ⟨hfile, hsound⟩ := h.calls id call hcall hbranch
          subst hbranch hfile
          exact ⟨rfl, hsound.next hrequest (by cases request <;> trivial)⟩
  | switch writesEnabled => exact { h with }
  | push request sha =>
    dsimp only
    split_ifs with hcreates
    · exact h
    · cases hserve : desk.github.serve sha request with
      | none => exact h
      | some served =>
        obtain ⟨later, answer⟩ := served
        obtain ⟨hlater, -, href⟩ := GitRepository.serve_eq_some hserve
        refine h.github hlater fun tip htip => ?_
        obtain hold | rfl := href tip htip
        · exact (h.ref tip hold).persists hlater
        · exact absurd rfl hcreates
  | moveRef other sha =>
    have hother : other ≠ branch :=
      fun hsame => hnobody sha (congrArg (BranchEvent.moveRef · sha) hsame)
    have hget := get_moveRef desk sha hother
    refine h.github ⟨fun _ _ => id, fun _ _ => id, fun _ _ => id, fun tip htip => ?_⟩
      fun tip htip => ?_
    · exact hget.trans htip
    · exact h.ref tip (hget.symm.trans htip)

/-- Whatever a call does, a branch that is there stays where it is. -/
theorem get_step_of_some {event : BranchEvent} {tip : String}
    (hnobody : ∀ sha, event ≠ .moveRef branch sha)
    (h : desk.github.refs.get branch = some tip) :
    (desk.step maxRetries event).github.refs.get branch = some tip := by
  unfold BranchDesk.step
  cases event with
  | start id input =>
    dsimp only
    cases desk.calls id with
    | some call => exact h
    | none =>
      dsimp only
      split_ifs
      · exact h
      · exact h
  | serve index sha =>
    dsimp only
    cases desk.sent[index]? with
    | none => exact h
    | some sent =>
      dsimp only
      cases hserve : desk.github.serve sha sent.request with
      | none => exact h
      | some served => exact (GitRepository.serve_eq_some hserve).1.ref tip h
  | receive id answer =>
    dsimp only
    cases desk.calls id with
    | none => exact h
    | some call =>
      dsimp only
      split_ifs
      · exact h
      · exact h
  | fail id =>
    dsimp only
    cases desk.calls id with
    | none => exact h
    | some call =>
      dsimp only
      split_ifs
      · exact h
      · cases call.retriesLeft with
        | zero => exact h
        | succ left => exact h
  | reject id =>
    dsimp only
    cases desk.calls id with
    | none => exact h
    | some call =>
      dsimp only
      split_ifs
      · exact h
      · exact h
  | hide id =>
    dsimp only
    cases desk.calls id with
    | none => exact h
    | some call =>
      dsimp only
      split_ifs
      · exact h
      · exact h
  | switch writesEnabled => exact h
  | push request sha =>
    dsimp only
    split_ifs
    · exact h
    · cases hserve : desk.github.serve sha request with
      | none => exact h
      | some served => exact (GitRepository.serve_eq_some hserve).1.ref tip h
  | moveRef other sha =>
    have hother : other ≠ branch :=
      fun hsame => hnobody sha (congrArg (BranchEvent.moveRef · sha) hsame)
    exact (get_moveRef desk sha hother).trans h

/-- **What a step does to a call**: it is as it was, or it goes on with an answer, or it
does not return. -/
theorem calls_step {event : BranchEvent}
    (h : (desk.step maxRetries event).calls id = some call) :
    desk.calls id = some call
      ∨ (∃ old answer, desk.calls id = some old
        ∧ call.stage = old.stage.next desk.writesEnabled answer)
      ∨ ∀ result, call.stage ≠ .returned result := by
  unfold BranchDesk.step at h
  cases event with
  | start other input =>
    dsimp only at h
    cases hcall : desk.calls other with
    | some found =>
      rw [hcall] at h
      exact Or.inl h
    | none =>
      rw [hcall] at h
      dsimp only at h
      split_ifs at h
      · rw [advance_calls] at h
        split_ifs at h
        · obtain rfl := Option.some.inj h
          exact Or.inr (Or.inr fun _ => BranchStage.noConfusion)
        · exact Or.inl h
      · rw [put_calls] at h
        split_ifs at h
        · obtain rfl := Option.some.inj h
          exact Or.inr (Or.inr fun _ => BranchStage.noConfusion)
        · exact Or.inl h
  | serve index sha =>
    dsimp only at h
    cases hsent : desk.sent[index]? with
    | none =>
      rw [hsent] at h
      exact Or.inl h
    | some sent =>
      rw [hsent] at h
      dsimp only at h
      cases hserve : desk.github.serve sha sent.request with
      | none =>
        rw [hserve] at h
        exact Or.inl h
      | some served =>
        rw [hserve] at h
        exact Or.inl h
  | receive other answer =>
    dsimp only at h
    cases hcall : desk.calls other with
    | none =>
      rw [hcall] at h
      exact Or.inl h
    | some found =>
      rw [hcall] at h
      dsimp only at h
      split_ifs at h
      · rw [advance_calls] at h
        split_ifs at h with hid
        · obtain rfl := Option.some.inj h
          exact Or.inr (Or.inl ⟨found, answer, hid ▸ hcall, rfl⟩)
        · exact Or.inl h
      · exact Or.inl h
  | fail other =>
    dsimp only at h
    cases hcall : desk.calls other with
    | none =>
      rw [hcall] at h
      exact Or.inl h
    | some found =>
      rw [hcall] at h
      dsimp only at h
      split_ifs at h with hrequest
      · exact Or.inl h
      · cases hleft : found.retriesLeft with
        | zero =>
          rw [hleft] at h
          dsimp only at h
          rw [put_calls] at h
          split_ifs at h
          · obtain rfl := Option.some.inj h
            exact Or.inr (Or.inr fun _ => BranchStage.noConfusion)
          · exact Or.inl h
        | succ left =>
          rw [hleft] at h
          dsimp only at h
          rw [advance_calls] at h
          split_ifs at h
          · -- the same request once more, of a call that has one
            obtain rfl := Option.some.inj h
            refine Or.inr (Or.inr fun result hreturned => hrequest ?_)
            have hstage : found.stage = .returned result := hreturned
            rw [hstage]
            rfl
          · exact Or.inl h
  | reject other =>
    dsimp only at h
    cases hcall : desk.calls other with
    | none =>
      rw [hcall] at h
      exact Or.inl h
    | some found =>
      rw [hcall] at h
      dsimp only at h
      split_ifs at h
      · exact Or.inl h
      · rw [put_calls] at h
        split_ifs at h
        · obtain rfl := Option.some.inj h
          exact Or.inr (Or.inr fun _ => BranchStage.noConfusion)
        · exact Or.inl h
  | hide other =>
    dsimp only at h
    cases hcall : desk.calls other with
    | none =>
      rw [hcall] at h
      exact Or.inl h
    | some found =>
      rw [hcall] at h
      dsimp only at h
      split_ifs at h
      · exact Or.inl h
      · rw [advance_calls] at h
        split_ifs at h with hid
        · obtain rfl := Option.some.inj h
          exact Or.inr (Or.inl ⟨found, .notFound, hid ▸ hcall, rfl⟩)
        · exact Or.inl h
  | switch writesEnabled => exact Or.inl h
  | push request sha =>
    dsimp only at h
    split_ifs at h
    · exact Or.inl h
    · cases hserve : desk.github.serve sha request with
      | none =>
        rw [hserve] at h
        exact Or.inl h
      | some served =>
        rw [hserve] at h
        exact Or.inl h
  | moveRef other sha => exact Or.inl h

/-- A call that returns at a step, with writes enabled: it was under way before, and
after it has this result. -/
structure Returns (maxRetries : ℕ) (desk : BranchDesk) (event : BranchEvent) (id : ℕ)
    (branch : String) (result : CreateFactoryBranchResult) : Prop where
  enabled : desk.writesEnabled = true
  pending : ∀ call earlier, desk.calls id = some call → call.stage ≠ .returned earlier
  returned : ∃ call, (desk.step maxRetries event).calls id = some call
    ∧ call.input.branch = branch ∧ call.stage = .returned result

/-- **What returns with writes enabled was performed.** -/
theorem Returns.performed {event : BranchEvent} {result : CreateFactoryBranchResult}
    (h : Returns maxRetries desk event id branch result) : result.write.performed = true := by
  obtain ⟨call, hcall, -, hstage⟩ := h.returned
  obtain hold | ⟨old, answer, -, hnext⟩ | hnot := calls_step hcall
  · exact absurd hstage (h.pending call result hold)
  · rw [hstage, h.enabled] at hnext
    exact BranchStage.performed_of_next hnext.symm
  · exact absurd hstage (hnot result)

/-- **All or nothing.** In every run in which the calls for a branch carry one file and
nobody else moves it, the branch is absent or stands on a commit that carries the file; a
call that returns while writes are enabled, or that says its write was performed, names
that commit, from then on; and no branch that is there is moved but by somebody else. -/
theorem allOrNothing_run (maxRetries : ℕ) (github : GitRepository) (writesEnabled : Bool)
    (branch : String) (file : FactoryFile) (events : List BranchEvent)
    (hfirst : ∀ tip, github.refs.get branch = some tip → github.Carries file tip)
    (hstart : ∀ id input, .start id input ∈ events → input.branch = branch → input.file = file)
    (hnobody : ∀ sha, .moveRef branch sha ∉ events) :
    let desk := Machine.run (step maxRetries) (create github writesEnabled) events
    (∀ tip, desk.github.refs.get branch = some tip → desk.github.Carries file tip)
      ∧ (∀ before event after id result, events = before ++ event :: after →
        Returns maxRetries (Machine.run (step maxRetries) (create github writesEnabled) before)
          event id branch result →
        ∃ tip, result.commitSha = some tip ∧ desk.github.refs.get branch = some tip)
      ∧ (∀ id call result, desk.calls id = some call → call.input.branch = branch →
        call.stage = .returned result → result.write.performed = true →
        ∃ tip, result.commitSha = some tip ∧ desk.github.refs.get branch = some tip)
      ∧ (∀ other tip more, (∀ sha, .moveRef other sha ∉ more) →
        desk.github.refs.get other = some tip →
        (Machine.run (step maxRetries) desk more).github.refs.get other = some tip) := by
  intro desk
  have hintact : ∀ reached, reached <+: events →
      (Machine.run (step maxRetries) (create github writesEnabled) reached).Intact branch
        file := by
    intro reached hreached
    refine @Machine.run_preserves_of_mem _ _ _ (Intact branch file) _
      (fun event hevent _ h => h.step ?_ ?_) _ ?_
    · rintro id input rfl
      exact hstart id input (hreached.subset hevent)
    · rintro sha rfl
      exact hnobody sha (hreached.subset hevent)
    · exact ⟨hfirst, fun sent hsent => absurd hsent List.not_mem_nil,
        fun id call hcall => absurd hcall (Option.some_ne_none _).symm,
        fun sent hsent => absurd hsent List.not_mem_nil,
        fun answer hanswer => absurd hanswer List.not_mem_nil⟩
  have hnames : ∀ reached, reached <+: events → ∀ id call result,
      (Machine.run (step maxRetries) (create github writesEnabled) reached).calls id
        = some call → call.input.branch = branch → call.stage = .returned result →
      result.write.performed = true → ∃ tip, result.commitSha = some tip
        ∧ (Machine.run (step maxRetries) (create github writesEnabled)
          reached).github.refs.get branch = some tip := by
    intro reached hreached id call result hcall hbranch hstage hperformed
    have hsound := ((hintact reached hreached).calls id call hcall hbranch).2
    rw [hstage] at hsound
    exact hsound hperformed
  have hstays : ∀ (desk : BranchDesk) other tip more, (∀ sha, .moveRef other sha ∉ more) →
      desk.github.refs.get other = some tip →
      (Machine.run (step maxRetries) desk more).github.refs.get other = some tip := by
    intro desk other tip more hothers htip
    refine @Machine.run_preserves_of_mem _ _ _
      (fun desk : BranchDesk => desk.github.refs.get other = some tip) _
      (fun event hevent _ h => get_step_of_some ?_ h) _ htip
    rintro sha rfl
    exact hothers sha hevent
  refine ⟨(hintact events List.prefix_rfl).ref, ?_, hnames events List.prefix_rfl, hstays desk⟩
  rintro before event after id result rfl hreturns
  obtain ⟨call, hcall, hbranch, hstage⟩ := hreturns.returned
  rw [← Machine.run_concat (step maxRetries)] at hcall
  have hprefix : before ++ [event] <+: before ++ event :: after :=
    ⟨after, by rw [List.append_assoc, List.singleton_append]⟩
  obtain ⟨tip, hsha, htip⟩ := hnames _ hprefix id call result hcall hbranch hstage
    hreturns.performed
  refine ⟨tip, hsha, ?_⟩
  have hlater := hstays _ branch tip after
    (fun sha hmem => hnobody sha (List.mem_append_right before (List.mem_cons_of_mem event hmem)))
    htip
  rwa [← Machine.run_append (step maxRetries), List.append_assoc, List.singleton_append] at hlater

/-- A repository with one commit, and a call for a branch from there. -/
def oneCommit : GitRepository :=
  ⟨.empty, KeyMap.empty.set "t0" .empty, KeyMap.empty.set "c0" ⟨"t0", [], "First"⟩, .empty⟩

/-- The record of one work order, on a branch of its own. -/
def recordInput : CreateFactoryBranchInput :=
  ⟨"factory/312", ⟨"c0", "record.json", "record"⟩, "Record"⟩

/-- Two calls for one branch. The ref that the first one creates is reported as failed; it
asks for it again and is refused, and the second call finds it. -/
def contended : List BranchEvent :=
  [.start 0 recordInput, .serve 0 "", .receive 0 .notFound, .serve 0 "",
    .receive 0 (.commit "t0"), .serve 0 "b1", .receive 0 (.created "b1"), .serve 0 "t1",
    .receive 0 (.created "t1"), .serve 0 "c1", .receive 0 (.created "c1"), .serve 0 "", .fail 0,
    .serve 0 "", .receive 0 .unprocessable, .start 1 recordInput, .serve 0 "",
    .receive 1 (.ref "c1")]

theorem allOrNothing_contended :
    (Machine.run (step 3) (create oneCommit true) contended).github.Carries recordInput.file "c1"
      ∧ (Machine.run (step 3) (create oneCommit true) contended).github.refs.get "factory/312"
        = some "c1" := by
  have href : (Machine.run (step 3) (create oneCommit true) contended).github.refs.get
      "factory/312" = some "c1" := by decide
  refine ⟨(allOrNothing_run 3 oneCommit true "factory/312" recordInput.file contended
    (fun tip htip => absurd htip (Option.some_ne_none tip).symm)
    (fun id found hmem _ => ?_) (fun sha hmem => ?_)).1 "c1" href, href⟩
  · obtain ⟨-, rfl⟩ | ⟨-, rfl⟩ : id = 0 ∧ found = recordInput ∨ id = 1 ∧ found = recordInput := by
      simpa [contended] using hmem
    · rfl
    · rfl
  · simp [contended] at hmem

end Runs

end BranchDesk

end Opifex.FactoryBranches
