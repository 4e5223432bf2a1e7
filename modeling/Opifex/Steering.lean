import Opifex.Lib.Grouping
import Opifex.SteeringInstruction

/-!
# An instruction as a proposed diff of labels

The targets of an instruction are resolved one after another: to the repository
they mean, to the issues an epic lists, and to what GitHub says of each. What is
open is *scoped*, under its reference as it is spelled; each scoped issue gets
an operation. A restrictive instruction then sweeps the repositories in scope:
every issue marked ready whose reference is not among the scoped gets an
operation that takes the mark off.

Nothing is written here. What GitHub and the registry answer is given: an
answer of `notFound` is reported as unresolved, any other failure ends the
proposal.
-/

namespace Opifex

/-- A repository as a request or a response spells it. Two spellings may be of one
repository: GitHub ignores case. -/
structure RepositoryRef where
  owner : String
  name : String
deriving DecidableEq

/-- `owner/name`, as it is spelled. -/
def RepositoryRef.slug (repo : RepositoryRef) : String :=
  repo.owner ++ "/" ++ repo.name

/-- `owner/name#number`. -/
def issueRef (repo : RepositoryRef) (number : ℕ) : String :=
  repo.slug ++ "#" ++ toString number

/-- A repository Opifex observes, and the project it belongs to, if it is in one. -/
structure RegisteredRepository where
  repo : RepositoryRef
  projectId : Option String
deriving DecidableEq

/-- An issue as it is read by its number or from a list. GitHub lists pull requests
among the issues, so it says whether it is one. -/
structure FetchedIssue extends NormalizedIssue where
  isPullRequest : Bool
deriving DecidableEq

/-- A child of an epic, as the resolution of epics answers it, with the issue that named
it. One that could not be read is listed all the same. -/
structure EpicChild where
  repo : RepositoryRef
  number : ℕ
  /-- Null when the issue could not be read. -/
  state : Option IssueState
  isPullRequest : Bool
  namedBy : String
  unreadable : Bool
deriving DecidableEq

/-- An epic with its children, as they are shown to the operator, and how deep they were
looked for. -/
structure EpicResolution where
  ref : String
  title : String
  source : String
  maxDepth : ℕ
  nativeUnavailable : Option String
  children : List EpicChild
deriving DecidableEq

/-- How a read of GitHub fails. Only a missing issue is told apart: it is the
reference's fault and not GitHub's. -/
inductive GitHubReadError where
  | notFound (message : String)
  | other (message : String)
deriving DecidableEq

/-- Why there is no proposal: what was named is not there, or GitHub could not be read.
-/
inductive SteeringError where
  | notFound (message : String)
  | github (message : String)
deriving DecidableEq

/-- What the registry and GitHub answer. A path spells the repository as the
request does. -/
structure SteeringReads where
  registered : List RegisteredRepository
  projects : List String
  getIssue : (path : String) → (number : ℕ) → Except GitHubReadError FetchedIssue
  /-- Open items marked ready, pull requests among them. -/
  listReady : (path : String) → Except GitHubReadError (List FetchedIssue)
  resolveEpic : (path : String) → (number : ℕ) → (maxDepth : Option ℕ) →
    Except GitHubReadError EpicResolution

/-- The scope an operator states; at most one of them. Where none is stated the
instruction has to tell it. -/
inductive StatedScope where
  | unstated
  | repository (repo : RepositoryRef)
  | project (id : String)
  /-- The repositories in no project. -/
  | noProject
  | allRepositories
deriving DecidableEq

/-- What is asked for: the instruction, the scope, and how deep an epic is gone into.
Nothing is written by asking. -/
structure ProposeSteering where
  instruction : String
  scope : StatedScope
  maxDepth : Option ℕ
deriving DecidableEq

/-- The repositories of a request, after the stated scope has been looked up: those that
a bare number may mean, and those that a sweep reaches. -/
structure SteeringScope where
  /-- How the operator named it. -/
  stated : Option String
  /-- What a bare `#12` may resolve against. -/
  resolution : List RepositoryRef
  /-- What "everything else" reaches; null when nobody said. -/
  sweep : Option (List RepositoryRef)
deriving DecidableEq

/-- Why a reference came to nothing. The operator is told of each, so that a proposal
does less than was said but never something else. -/
inductive UnresolvedReason where
  | issueNotFound
  | issueClosed
  | isPullRequest
  | repositoryNotRegistered
  | ambiguousRepository
  | ambiguousScope
  | emptyScope
  | unreadable
  | needsInterpretation
deriving DecidableEq, Repr

/-- A reference that came to nothing, with the sentence that says why. It is shown,
never dropped. -/
structure UnresolvedReference where
  reference : String
  reason : UnresolvedReason
  detail : String
deriving DecidableEq

/-- An issue the instruction resolved to, with the labels that it has now. -/
structure ScopedIssue where
  ref : String
  repo : RepositoryRef
  number : ℕ
  title : String
  inputLabels : List InputLabel
deriving DecidableEq

/-- The two labels steering may write. The third input label clears a quarantine, which
only a person does. -/
inductive SteerableLabel where
  | ready
  | hold
deriving DecidableEq, Repr

/-- What is proposed for one issue: the labels to add and to remove, and the labels it
carried when it was read. -/
structure SteeringOperation where
  ref : String
  repo : RepositoryRef
  number : ℕ
  title : String
  add : List SteerableLabel
  remove : List SteerableLabel
  observedInputLabels : List InputLabel
  reason : String
  /-- The operator named this issue; otherwise it is collateral. -/
  named : Bool
deriving DecidableEq

namespace SteeringOperation

/-- The diff is not empty. -/
def changes (operation : SteeringOperation) : Bool :=
  operation.add ≠ [] || operation.remove ≠ []

end SteeringOperation

/-- GitHub repository names are case-insensitive. -/
def isRegistered (repo : RepositoryRef) (registered : List RegisteredRepository) :
    Bool :=
  registered.any fun candidate =>
    Text.toLowerCase candidate.repo.slug == Text.toLowerCase repo.slug

section Propose

variable (reads : SteeringReads) (dto : ProposeSteering)

/-! ## The scope -/

/-- The stated scope, expanded to repositories. -/
def resolveScope : Except SteeringError SteeringScope :=
  let all := reads.registered.map (·.repo)
  match dto.scope with
  | .repository repo =>
    if isRegistered repo reads.registered then
      .ok ⟨some ("`" ++ repo.slug ++ "`"), [repo], some [repo]⟩
    else
      .error (.notFound (repo.slug ++
        " is not a repository Opifex observes, so it cannot be steered."))
  | .project id =>
    if reads.projects.contains id then
      let inScope := (reads.registered.filter fun repo =>
        repo.projectId == some id).map (·.repo)
      .ok ⟨some ("Project `" ++ id ++ "`"), inScope, some inScope⟩
    else
      .error (.notFound ("No project " ++ id ++
        " is registered with Opifex, so it cannot be steered."))
  | .noProject =>
    let inScope := (reads.registered.filter fun repo =>
      repo.projectId == none).map (·.repo)
    .ok ⟨some "The set of observed repositories in no project", inScope,
      some inScope⟩
  | .allRepositories =>
    .ok ⟨some "Every repository Opifex observes", all, some all⟩
  | .unstated =>
    -- one registered repository leaves nothing to be ambiguous about
    .ok ⟨none, all, if 1 < all.length then none else some all⟩

/-- Which repository a target names, or why none. -/
def repositoryFor (scope : SteeringScope) (target : ParsedTarget) :
    Except UnresolvedReference RepositoryRef :=
  match target.owner, target.name with
  | some owner, some name =>
    let repo : RepositoryRef := ⟨owner, name⟩
    if isRegistered repo reads.registered then .ok repo
    else
      .error
        { reference := target.reference
          reason := .repositoryNotRegistered
          detail := owner ++ "/" ++ name ++
            " is not a repository Opifex observes. Register it first." }
  | _, _ =>
    match scope.resolution with
    | [repo] => .ok repo
    | [] =>
      .error
        { reference := target.reference
          reason :=
            if scope.stated = none then .repositoryNotRegistered
            else .emptyScope
          detail :=
            match scope.stated with
            | none =>
              "No repository is registered with Opifex, so there is nothing " ++
                "for a bare issue number to refer to."
            | some stated =>
              stated ++ " contains no observed repository, so there is " ++
                "nothing for `" ++ target.reference ++ "` to refer to." }
    | repos =>
      .error
        { reference := target.reference
          reason := .ambiguousRepository
          detail :=
            (match scope.stated with
              | none =>
                toString repos.length ++ " repositories are registered, so "
              | some stated =>
                stated ++ " covers " ++ toString repos.length ++
                  " repositories, so ") ++
              "`" ++ target.reference ++ "` could mean any of them. Write it as " ++
              "`owner/name#" ++ toString target.number ++ "`, or send a " ++
              "`repository` with the instruction." }

/-! ## The targets -/

/-- What the targets so far resolved to: issues, each once, references that came to
nothing, and epics. -/
structure Resolving where
  scopedIssues : KeyMap String ScopedIssue
  unresolved : List UnresolvedReference
  epics : List EpicResolution

/-- A reference comes to nothing, and the reason is kept. -/
def Resolving.refuse (resolving : Resolving) (reference : String)
    (reason : UnresolvedReason) (detail : String) : Resolving :=
  { resolving with
    unresolved := resolving.unresolved ++ [⟨reference, reason, detail⟩] }

/-- An issue that is open is scoped; anything else is reported. -/
def resolveIssue (repo : RepositoryRef) (number : ℕ) (reference : String)
    (resolving : Resolving) : Except SteeringError Resolving :=
  let ref := issueRef repo number
  match reads.getIssue repo.slug number with
  | .error (.notFound _) =>
    .ok (resolving.refuse reference .issueNotFound (ref ++
      " could not be read. It may not exist, may have been transferred, or " ++
        "may be private to this token."))
  | .error (.other message) => .error (.github message)
  | .ok issue =>
    if issue.isPullRequest then
      .ok (resolving.refuse reference .isPullRequest (ref ++
        " is a pull request. Steering acts on issues, which is what a work " ++
          "order is built from."))
    else if issue.state ≠ .isOpen then
      .ok (resolving.refuse reference .issueClosed (ref ++
        " is closed. Marking a closed issue changes nothing the reconciler " ++
          "will act on."))
    else
      .ok { resolving with
        scopedIssues := resolving.scopedIssues.set ref
          { ref := ref
            repo := repo
            number := issue.number
            title := issue.title
            inputLabels := issue.inputLabels } }

/-- A child of an epic, read once more for its labels. -/
def resolveChild (resolving : Resolving) (child : EpicChild) :
    Except SteeringError Resolving :=
  let ref := issueRef child.repo child.number
  if child.unreadable then
    .ok (resolving.refuse ref .unreadable (ref ++ " is named by " ++
      child.namedBy ++ " but could not be read, so it is not in the diff."))
  else if child.isPullRequest then
    .ok (resolving.refuse ref .isPullRequest
      (ref ++ " is a pull request, not an issue."))
  else if child.state ≠ some .isOpen then
    .ok (resolving.refuse ref .issueClosed
      (ref ++ " is closed, so it is not in the diff."))
  else resolveIssue reads child.repo child.number ref resolving

/-- An epic is expanded to the issues it lists. -/
def resolveEpic (repo : RepositoryRef) (target : ParsedTarget)
    (resolving : Resolving) : Except SteeringError Resolving :=
  match reads.resolveEpic repo.slug target.number dto.maxDepth with
  | .error (.notFound message) =>
    .ok (resolving.refuse target.reference .issueNotFound ("The epic " ++
      issueRef repo target.number ++ " could not be read: " ++ message))
  | .error (.other message) => .error (.github message)
  | .ok resolution =>
    resolution.children.foldlM (resolveChild reads)
      { resolving with epics := resolving.epics ++ [resolution] }

/-- One target: its repository first, and then the issue, or the children of the epic.
-/
def resolveTarget (scope : SteeringScope) (resolving : Resolving)
    (target : ParsedTarget) : Except SteeringError Resolving :=
  match repositoryFor reads scope target with
  | .error unresolved =>
    .ok { resolving with unresolved := resolving.unresolved ++ [unresolved] }
  | .ok repo =>
    match target.kind with
    | .epic => resolveEpic reads dto repo target resolving
    | .issue =>
      resolveIssue reads repo target.number target.reference resolving

/-! ## The operations -/

/-- **The diff for an issue the operator named.** -/
def namedOperation (parsed : ParsedInstruction) (issue : ScopedIssue) :
    SteeringOperation :=
  let has := fun label => issue.inputLabels.contains label
  let add : List SteerableLabel :=
    match parsed.intent with
    | .ready => if has .ready then [] else [.ready]
    -- a hold leaves the ready label where it is
    | .hold => if has .hold then [] else [.hold]
  let remove : List SteerableLabel :=
    match parsed.intent with
    | .ready => if has .hold then [.hold] else []
    | .hold => []
  { ref := issue.ref
    repo := issue.repo
    number := issue.number
    title := issue.title
    add := add
    remove := remove
    observedInputLabels := issue.inputLabels
    reason :=
      if add = [] ∧ remove = [] then
        "Named by the instruction, and already in the state it asks for. " ++
          "Nothing to change."
      else
        match parsed.intent with
        | .ready => "Named by the instruction as work to do."
        | .hold => "Named by the instruction as work to hold."
    named := true }

/-- **The diff for an issue the sweep reaches.** -/
def sweptOperation (parsed : ParsedInstruction) (repo : RepositoryRef)
    (issue : FetchedIssue) : SteeringOperation where
  ref := issueRef repo issue.number
  repo := repo
  number := issue.number
  title := issue.title
  add :=
    if parsed.elseIntent = .hold ∧ issue.inputLabels.contains .hold = false
    then [.hold] else []
  remove := [.ready]
  observedInputLabels := issue.inputLabels
  reason :=
    match parsed.elseIntent with
    | .hold => "Not named by the instruction, which asked to hold everything else."
    | .unready =>
      "Not named by the instruction, which restricted work to the issues it named."
  named := false

/-- `listIssues`: open issues marked ready, without the pull requests. -/
def listIssues (repo : RepositoryRef) :
    Except GitHubReadError (List FetchedIssue) :=
  (reads.listReady repo.slug).map fun items =>
    items.filter fun item => !item.isPullRequest

/-- What the sweep did so far: the operations it proposes, and how many issues it looked
at. -/
structure Sweeping where
  operations : List SteeringOperation
  candidatesConsidered : ℕ

/-- One repository: every listed issue whose reference is not scoped. -/
def sweepRepository (parsed : ParsedInstruction)
    (scopedIssues : KeyMap String ScopedIssue) (sweeping : Sweeping)
    (repo : RepositoryRef) : Except SteeringError Sweeping :=
  match listIssues reads repo with
  | .error (.notFound message) => .error (.github message)
  | .error (.other message) => .error (.github message)
  | .ok issues =>
    .ok
      { operations := sweeping.operations ++
          (issues.filter fun issue =>
            (scopedIssues.get (issueRef repo issue.number)).isNone).map
              (sweptOperation parsed repo)
        candidatesConsidered := sweeping.candidatesConsidered + issues.length }

/-- The instruction restricts work to what it names. -/
def ParsedInstruction.sweeps (parsed : ParsedInstruction) : Bool :=
  parsed.exclusive && parsed.intent = .ready

/-- The repositories that are swept. -/
def sweptRepositories (parsed : ParsedInstruction) (scope : SteeringScope) :
    List RepositoryRef :=
  if parsed.sweeps then scope.sweep.getD [] else []

/-- Why "everything else" is not swept. -/
def sweepRefusal (parsed : ParsedInstruction) (scope : SteeringScope) :
    Option UnresolvedReference :=
  if parsed.sweeps then
    match scope.sweep with
    | none =>
      some
        { reference := dto.instruction
          reason := .ambiguousScope
          detail := toString reads.registered.length ++
            " repositories are registered, so \"everything else\" could mean " ++
            "an issue in any of them. Say what this instruction covers: a " ++
            "`repository` as `owner/name`, a `project`, `project: \"none\"` for " ++
            "the repositories in no project, or `allRepositories: true` to " ++
            "sweep every repository Opifex observes." }
    | some [] =>
      some
        { reference := dto.instruction
          reason := .emptyScope
          detail :=
            match scope.stated with
            | none =>
              "No repository is registered with Opifex, so there is nothing " ++
                "for \"everything else\" to reach."
            | some stated =>
              stated ++ " contains no observed repository, so there is " ++
                "nothing for \"everything else\" to reach. Nothing has been " ++
                "proposed for it." }
    | some (_ :: _) => none
  else none

/-! ## The proposal -/

/-- What a proposal would do, in numbers and in a sentence, for the operator who
confirms it. -/
structure BlastRadius where
  issuesAffected : ℕ
  named : ℕ
  collateral : ℕ
  labelsAdded : ℕ
  labelsRemoved : ℕ
  unreadied : ℕ
  readied : ℕ
  held : ℕ
  destructive : Bool
  summary : String
deriving DecidableEq

/-- A count with its noun, as the summary writes it. -/
def Steering.plural (count : ℕ) (noun : String) : String :=
  toString count ++ " " ++ noun ++ (if count = 1 then "" else "s")

/-- The numbers an operator reads before confirming. An operation with an empty
diff is not counted. -/
def blastRadius (operations : List SteeringOperation) : BlastRadius :=
  let changing := operations.filter (·.changes)
  let labelsRemoved := (changing.map fun o => o.remove.length).sum
  let unreadied := changing.countP fun o => o.remove.contains .ready
  let readied := changing.countP fun o => o.add.contains .ready
  let held := changing.countP fun o => o.add.contains .hold
  let collateral := changing.countP fun o => !o.named
  let sentences :=
    if changing = [] then
      ["Nothing changes: every issue this instruction names is already in " ++
        "the state it asks for."]
    else
      (if 0 < readied then
        ["This will mark " ++ Steering.plural readied "issue" ++ " ready."] else []) ++
      (if 0 < unreadied then
        ["This will un-ready " ++ Steering.plural unreadied "issue" ++
          (if 0 < collateral then
            ", " ++ toString collateral ++
              " of which the instruction did not name."
          else ".")] else []) ++
      (if 0 < held then
        ["This will hold " ++ Steering.plural held "issue" ++ "."] else [])
  { issuesAffected := changing.length
    named := changing.countP (·.named)
    collateral := collateral
    labelsAdded := (changing.map fun o => o.add.length).sum
    labelsRemoved := labelsRemoved
    unreadied := unreadied
    readied := readied
    held := held
    destructive := decide (0 < labelsRemoved)
    summary := " ".intercalate sentences }

/-- **The answer**: what was understood, whom it concerns, and the diff of labels.
Nothing has been written. -/
structure SteeringProposal where
  instruction : String
  /-- Whether the parser understood, what it read, and what it could not. -/
  deterministic : Bool
  notes : List String
  ambiguity : Option String
  intent : SteeringIntent
  exclusive : Bool
  elseIntent : SteeringElseIntent
  repositories : List String
  candidatesConsidered : ℕ
  epics : List EpicResolution
  operations : List SteeringOperation
  blastRadius : BlastRadius
  unresolved : List UnresolvedReference

/-- What is reported before any target is looked at. -/
def interpretationNeeded (parsed : ParsedInstruction) : List UnresolvedReference :=
  if parsed.confident then []
  else
    [{ reference := dto.instruction
       reason := .needsInterpretation
       detail := parsed.ambiguity.getD
        "The instruction could not be read without interpretation." }]

/-- **`propose`**: what the instruction would change. -/
def propose : Except SteeringError SteeringProposal := do
  let parsed := parseSteeringInstruction dto.instruction
  let scope ← resolveScope reads dto
  let resolving ← parsed.targets.foldlM (resolveTarget reads dto scope)
    ⟨KeyMap.empty, interpretationNeeded dto parsed, []⟩
  let named :=
    resolving.scopedIssues.entries.map fun entry => namedOperation parsed entry.2
  let sweeping ← (sweptRepositories parsed scope).foldlM
    (sweepRepository reads parsed resolving.scopedIssues) ⟨named, 0⟩
  return {
    instruction := dto.instruction
    deterministic := parsed.confident
    notes := parsed.notes
    ambiguity := parsed.ambiguity
    intent := parsed.intent
    exclusive := parsed.exclusive
    elseIntent := parsed.elseIntent
    repositories :=
      (if parsed.sweeps then scope.sweep.getD []
        else scope.sweep.getD scope.resolution).map (·.slug)
    candidatesConsidered := sweeping.candidatesConsidered
    epics := resolving.epics
    operations := sweeping.operations
    blastRadius := blastRadius sweeping.operations
    unresolved := resolving.unresolved ++
      (sweepRefusal reads dto parsed scope).toList }

end Propose

end Opifex
