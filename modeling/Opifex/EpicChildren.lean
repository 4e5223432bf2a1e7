import Mathlib.Data.Rat.Floor
import Opifex.EpicBody
import Opifex.Lib.BreadthFirst
import Opifex.SteeringScope

/-!
# Resolving an epic to its children

What an issue names is what GitHub records as its sub-issues and, where it records
none, what its body lists. A resolution goes over the epic, then over what it names,
and so on for as many levels as were asked for, at most five. An issue that cannot be
read stays a child but names nothing, and neither does a pull request.

On references as they are spelled this is the breadth-first search of
`Opifex.Lib.BreadthFirst` (`exists_resolve`). But GitHub tells no letter case of a
repository, and a reference does: two spellings of one issue are two children, and
the epic under another spelling is its own child. `resolvesEpic_iff_apart` says that
nothing else goes wrong.
-/

namespace Opifex

open BreadthFirst

/-! ## What GitHub answers -/

/-- A sub-issue as GitHub lists it: the issue, and the URL that says which repository it
is of. -/
structure SubIssue extends FetchedIssue where
  url : String
deriving DecidableEq

/-- What GitHub answers when it is asked for an issue or for the sub-issues of one. The
answers do not change while an epic is resolved. -/
structure EpicReads where
  getIssue : (path : String) → (number : ℕ) → Except GitHubReadError FetchedIssue
  listSubIssues : (path : String) → (number : ℕ) →
    Except GitHubReadError (List SubIssue)

/-- The URL of an issue or a pull request, with the owner and the name captured. The
host is not looked at. -/
def issueUrlPattern : Pattern :=
  let part := Pattern.many1 (Pattern.char isReferencePart)
  Pattern.all [.textStart, .text "http", .optional (.text "s"), .text "://",
    .many1 (.char (· != '/')), .text "/", .group 1 part, .text "/", .group 2 part,
    .text "/", .alt (.text "issues") (.text "pull"), .text "/",
    .many1 (.char Char.isDigit)]

/-- `https://github.com/owner/name/issues/1` → owner and name. -/
def repoFromIssueUrl (url : String) : Option RepositoryRef :=
  (issueUrlPattern.search [] url.toList).map fun found =>
    ⟨found.2.captured 1, found.2.captured 2⟩

/-! ## The levels of an epic -/

/-- Where a child was named: in GitHub's own list of sub-issues, or in the body of the
issue. -/
inductive EpicChildSource where
  | subIssuesApi
  | issueBody
deriving DecidableEq, Repr

/-- One node waiting to be expanded, with its body already in hand, so that the body is
not fetched again. -/
structure Frontier where
  repo : RepositoryRef
  number : ℕ
  body : Option String

/-- How the resolution names an issue whose children are still to be read. -/
def Frontier.ref (node : Frontier) : String := issueRef node.repo node.number

/-- A reference, with the issue where the source of it has fetched that: the list of
sub-issues comes with them, a body does not. -/
structure NamedRef where
  repo : RepositoryRef
  number : ℕ
  issue : Option FetchedIssue

/-- How the resolution names an issue that another named. -/
def NamedRef.ref (named : NamedRef) : String := issueRef named.repo named.number

/-- What one issue names: the references, where they come from, and what could not be
read. `nativeUnavailable` says why GitHub's own list was not to be had. -/
structure NamedRefs where
  refs : List NamedRef
  source : EpicChildSource
  nativeUnavailable : Option String
  unparsed : List String

/-- A bare `#123` means the repository of the issue that names it. -/
def ParsedChildRef.repoIn (ref : ParsedChildRef) (own : RepositoryRef) : RepositoryRef :=
  match ref.owner, ref.name with
  | some owner, some name =>
    if Text.truthy owner && Text.truthy name then ⟨owner, name⟩ else own
  | _, _ => own

/-- The references of the body, and why the native relationship did not answer. -/
def bodyRefs (node : Frontier) (unavailable : String) : NamedRefs :=
  let parsed := parseEpicBodyChildren node.body
  { refs := parsed.refs.map fun ref => ⟨ref.repoIn node.repo, ref.number, none⟩
    source := .issueBody
    nativeUnavailable := some
      (if parsed.sectionFound then unavailable
      else unavailable ++ "; the body has no child-work section")
    unparsed := parsed.unparsed }

/-- **`childrenOf`**: what one issue names, native first. -/
def childrenOf (reads : EpicReads) (node : Frontier) :
    Except GitHubReadError NamedRefs :=
  match reads.listSubIssues node.repo.slug node.number with
  | .ok [] => .ok (bodyRefs node "GitHub records no sub-issues for this issue")
  | .ok subIssues => .ok
    { refs := subIssues.map fun issue =>
        ⟨(repoFromIssueUrl issue.url).getD node.repo, issue.number,
          some issue.toFetchedIssue⟩
      source := .subIssuesApi
      nativeUnavailable := none
      unparsed := [] }
  | .error (.notFound message) =>
    .ok (bodyRefs node ("sub-issues lookup answered 404: " ++ message))
  | .error (.other message) => .error (.other message)

/-- An issue, or null when GitHub says it is not there. -/
def tryGetIssue (reads : EpicReads) (repo : RepositoryRef) (number : ℕ) :
    Except GitHubReadError (Option FetchedIssue) :=
  match reads.getIssue repo.slug number with
  | .ok issue => .ok (some issue)
  | .error (.notFound _) => .ok none
  | .error (.other message) => .error (.other message)

/-- A child of the epic as it is answered: which issue it is, where it was named, and
how deep below the epic it stands. -/
structure ListedChild extends EpicChild where
  ref : String
  title : Option String
  source : EpicChildSource
  /-- 1 for a direct child of the epic. -/
  depth : ℕ
deriving DecidableEq

/-- Why a reference was not followed. Nothing is dropped without one of these, so that
an operator can be told what became of each reference. -/
inductive SkippedRefReason where
  /-- An issue names itself. -/
  | self
  /-- A reference back to the epic. -/
  | cycle
  /-- The same issue reached twice. -/
  | duplicate
deriving DecidableEq, Repr

/-- A reference that was not followed, with the issue that named it and the reason. -/
structure SkippedRef where
  ref : String
  namedBy : String
  reason : SkippedRefReason
deriving DecidableEq

/-- The variables of the loop over the levels: what was found, what was skipped, what
was seen, and the nodes of the next level. -/
structure EpicWalk where
  children : List ListedChild := []
  skipped : List SkippedRef := []
  /-- Items that named no issue, with the issue whose body they stand in. -/
  unparsed : List (String × String) := []
  seen : List String
  rootSource : Option EpicChildSource := none
  nativeUnavailable : Option String := none
  next : List Frontier := []

section Walk

variable (reads : EpicReads) (rootRef : String) (maxDepth depth : ℕ)

/-- The child that a reference becomes. -/
def listedChild (node : Frontier) (source : EpicChildSource) (named : NamedRef)
    (issue : Option FetchedIssue) : ListedChild where
  repo := named.repo
  number := named.number
  ref := named.ref
  title := issue.map (·.title)
  state := issue.map (·.state)
  isPullRequest := issue.any (·.isPullRequest)
  source := source
  depth := depth
  namedBy := node.ref
  unreadable := issue.isNone

/-- What is expanded on the next level. -/
def expandable (named : NamedRef) (issue : Option FetchedIssue) : List Frontier :=
  match issue with
  | none => []
  | some issue =>
    if depth < maxDepth && !issue.isPullRequest then
      [⟨named.repo, named.number, issue.body⟩]
    else []

/-- Only what the body names is fetched here. -/
def fetchNamed (named : NamedRef) : Except GitHubReadError (Option FetchedIssue) :=
  match named.issue with
  | some issue => .ok (some issue)
  | none => tryGetIssue reads named.repo named.number

/-- The body of the inner loop. -/
def visitRef (node : Frontier) (source : EpicChildSource) (walk : EpicWalk)
    (named : NamedRef) : Except GitHubReadError EpicWalk :=
  if named.ref ∈ walk.seen then
    .ok { walk with
      skipped := walk.skipped ++
        [⟨named.ref, node.ref,
          if named.ref = node.ref then .self
          else if named.ref = rootRef then .cycle else .duplicate⟩] }
  else do
    let issue ← fetchNamed reads named
    .ok { walk with
      seen := walk.seen ++ [named.ref]
      children := walk.children ++ [listedChild depth node source named issue]
      next := walk.next ++ expandable maxDepth depth named issue }

/-- What is kept of an expansion besides the references. -/
def EpicWalk.note (walk : EpicWalk) (node : Frontier) (named : NamedRefs) : EpicWalk :=
  { walk with
    rootSource :=
      if node.ref = rootRef then
        if named.refs = [] then none else some named.source
      else walk.rootSource
    nativeUnavailable :=
      if node.ref = rootRef then named.nativeUnavailable else walk.nativeUnavailable
    unparsed := walk.unparsed ++ named.unparsed.map (node.ref, ·) }

/-- One node of the frontier. -/
def visitNode (walk : EpicWalk) (node : Frontier) : Except GitHubReadError EpicWalk := do
  let named ← childrenOf reads node
  named.refs.foldlM (visitRef reads rootRef maxDepth depth node named.source)
    (walk.note rootRef node named)

/-- The levels that are left. -/
def walkLevels : (left depth : ℕ) → EpicWalk → Except GitHubReadError EpicWalk
  | 0, _, walk => .ok walk
  | left + 1, depth, walk =>
    if walk.next.isEmpty then .ok walk
    else do
      let walk ← walk.next.foldlM (visitNode reads rootRef maxDepth depth)
        { walk with next := [] }
      walkLevels left (depth + 1) walk

end Walk

/-- A number that was asked for, before it is clamped to the depths that are walked. -/
inductive AskedDepth where
  | finite (value : ℚ)
  /-- An infinity, or no number. -/
  | notFinite

/-- The ceiling on `maxDepth`. -/
def maxEpicDepth : ℕ := 5

/-- `Math.trunc`. -/
def mathTrunc (value : ℚ) : ℤ := if 0 ≤ value then ⌊value⌋ else ⌈value⌉

/-- `clamp`. -/
def clamp (value : AskedDepth) (least most : ℕ) : ℕ :=
  match value with
  | .notFinite => least
  | .finite value => (min (max (mathTrunc value) least) most).toNat

/-- What is answered for an epic. Every reference in it was either followed, and is a
child, or skipped, and says why. -/
structure ResolvedEpic where
  repo : RepositoryRef
  number : ℕ
  ref : String
  title : String
  /-- By depth, then in the order the source named them. -/
  children : List ListedChild
  /-- What answered for the epic itself; null for neither. -/
  source : Option EpicChildSource
  /-- The depth actually walked. -/
  maxDepth : ℕ
  /-- Every reference not followed, and why. -/
  skipped : List SkippedRef
  nativeUnavailable : Option String
  unparsed : List (String × String)

/-- The depth that is walked. -/
def walkedDepth (maxDepth : Option AskedDepth) : ℕ :=
  clamp (maxDepth.getD (.finite 1)) 1 maxEpicDepth

/-- What is returned of a walk. -/
def EpicWalk.resolution (walk : EpicWalk) (repo : RepositoryRef) (number : ℕ)
    (title : String) (maxDepth : ℕ) : ResolvedEpic where
  repo := repo
  number := number
  ref := issueRef repo number
  title := title
  children := walk.children
  source := walk.rootSource
  maxDepth := maxDepth
  skipped := walk.skipped
  nativeUnavailable := walk.nativeUnavailable
  unparsed := walk.unparsed

/-- **`resolve`**. -/
def resolve (reads : EpicReads) (repo : RepositoryRef) (issueNumber : ℕ)
    (maxDepth : Option AskedDepth) : Except GitHubReadError ResolvedEpic := do
  let levels := walkedDepth maxDepth
  let epic ← reads.getIssue repo.slug issueNumber
  let rootRef := issueRef repo issueNumber
  let walk ← walkLevels reads rootRef levels levels 1
    { seen := [rootRef], next := [⟨repo, issueNumber, epic.body⟩] }
  .ok (walk.resolution repo issueNumber epic.title levels)

/-! ## The graph of what names what -/

/-- A reference as it is spelled. -/
def refText (node : String × ℕ) : String := node.1 ++ "#" ++ toString node.2

/-- The issue a reference is of. -/
def addressOf (node : String × ℕ) : String × ℕ := (Text.toLowerCase node.1, node.2)

theorem addressOf_root (repo : RepositoryRef) (number : ℕ) :
    addressOf (repo.slug, number) = issueAddress repo number := rfl

/-- The repository of a reference in a body: the one it spells, or the issue's own. A
half that is empty counts as absent. -/
def ParsedChildRef.pathIn (ref : ParsedChildRef) (own : String) : String :=
  match ref.owner, ref.name with
  | some owner, some name =>
    if Text.truthy owner && Text.truthy name then owner ++ "/" ++ name else own
  | _, _ => own

namespace EpicReads

variable (reads : EpicReads)

/-- The issue at a node, if it can be read. -/
def issueAt (node : String × ℕ) : Option FetchedIssue :=
  (reads.getIssue node.1 node.2).toOption

/-- The sub-issues at a node. A list that cannot be read is none. -/
def subIssuesAt (node : String × ℕ) : List SubIssue :=
  (reads.listSubIssues node.1 node.2).toOption.getD []

/-- **What is named as a child**: the sub-issues that GitHub records or, where it
records none, what the body lists. -/
def names (node : String × ℕ) : List (String × ℕ) :=
  if (reads.subIssuesAt node).isEmpty then
    (parseEpicBodyChildren ((reads.issueAt node).bind (·.body))).refs.map fun ref =>
      (ref.pathIn node.1, ref.number)
  else
    (reads.subIssuesAt node).map fun issue =>
      (((repoFromIssueUrl issue.url).map (·.slug)).getD node.1, issue.number)

/-- A readable issue that is no pull request. -/
def isOpen (node : String × ℕ) : Bool := (reads.issueAt node).any (!·.isPullRequest)

/-- Issue by issue. -/
def namesAt (address : String × ℕ) : List (String × ℕ) :=
  (reads.names address).map addressOf

/-- **What is documented of GitHub**, and that no request fails but for an issue that
is not there. -/
structure Documented : Prop where
  /-- GitHub tells no letter case of a repository. -/
  getIssue_congr : ∀ path path' number issue,
    Text.toLowerCase path = Text.toLowerCase path' →
      reads.getIssue path number = .ok issue → reads.getIssue path' number = .ok issue
  listSubIssues_congr : ∀ path path' number issues,
    Text.toLowerCase path = Text.toLowerCase path' →
      reads.listSubIssues path number = .ok issues →
      reads.listSubIssues path' number = .ok issues
  /-- A sub-issue reads as it was listed. -/
  getIssue_listed : ∀ path number issues, reads.listSubIssues path number = .ok issues →
    ∀ issue ∈ issues,
      reads.getIssue (((repoFromIssueUrl issue.url).map (·.slug)).getD path) issue.number
        = .ok issue.toFetchedIssue
  getIssue_answers : ∀ path number message,
    reads.getIssue path number ≠ .error (.other message)
  listSubIssues_answers : ∀ path number message,
    reads.listSubIssues path number ≠ .error (.other message)

end EpicReads

namespace ListedChild

variable (child : ListedChild)

/-- The reference of the child. -/
def node : String × ℕ := (child.repo.slug, child.number)

/-- Which issue a listed child is, whatever the letter case of its repository. -/
def address : String × ℕ := issueAddress child.repo child.number

theorem addressOf_node : addressOf child.node = child.address := rfl

/-- The child is gone over, on a level above the last. -/
def isExpanded (levels : ℕ) : Bool :=
  child.depth < levels && (!child.unreadable && !child.isPullRequest)

end ListedChild

/-- **The children are what the epic leads to** in so many steps: each issue once, at
its distance and named from one level nearer. What the issues gone over name is what
became a child and what was skipped. -/
structure ResolvesEpic (reads : EpicReads) (repo : RepositoryRef) (number levels : ℕ)
    (resolution : ResolvedEpic) : Prop where
  mem_iff : ∀ address, (∃ child ∈ resolution.children, child.address = address) ↔
    address ≠ issueAddress repo number ∧ ∃ steps ≤ levels,
      Reaches reads.namesAt reads.isOpen (issueAddress repo number) steps address
  once : (resolution.children.map (·.address)).Nodup
  reached : ∀ child ∈ resolution.children,
    Reaches reads.namesAt reads.isOpen (issueAddress repo number) child.depth
      child.address
  nearest : ∀ child ∈ resolution.children, ∀ steps,
    Reaches reads.namesAt reads.isOpen (issueAddress repo number) steps child.address →
      child.depth ≤ steps
  named : ∀ child ∈ resolution.children,
    (child.namedBy = issueRef repo number ∧ child.depth = 1
      ∧ child.address ∈ reads.namesAt (issueAddress repo number))
    ∨ ∃ inner ∈ resolution.children, child.namedBy = inner.ref
      ∧ child.depth = inner.depth + 1 ∧ child.address ∈ reads.namesAt inner.address
  ordered : resolution.children.Pairwise fun child later => child.depth ≤ later.depth
  /-- Each reference with the one that names it. -/
  all_named :
    (((repo.slug, number)
        :: (resolution.children.filter (·.isExpanded levels)).map (·.node)).flatMap
      fun node => (reads.names node).map fun named => (refText node, refText named)).Perm
    (resolution.children.map (fun child => (child.namedBy, child.ref))
      ++ resolution.skipped.map fun skipped => (skipped.namedBy, skipped.ref))

/-! ## The walk is a search -/

theorem refText_injective : Function.Injective refText :=
  fun _ _ h => Prod.ext (Text.append_hash_inj h).1 (Text.append_hash_inj h).2

/-- The node of an issue whose children are still to be read. -/
def Frontier.node (frontier : Frontier) : String × ℕ :=
  (frontier.repo.slug, frontier.number)

/-- The node of an issue that another named. -/
def NamedRef.node (named : NamedRef) : String × ℕ := (named.repo.slug, named.number)

theorem ParsedChildRef.slug_repoIn (ref : ParsedChildRef) (own : RepositoryRef) :
    (ref.repoIn own).slug = ref.pathIn own.slug := by
  unfold repoIn pathIn
  split
  · split_ifs
    · rfl
    · rfl
  · rfl

section Expandable

variable {reads : EpicReads} {maxDepth depth : ℕ} {named : NamedRef}

theorem map_node_expandable :
    (expandable maxDepth depth named (reads.issueAt named.node)).map (·.node)
      = if depth < maxDepth then
          if reads.isOpen named.node then [named.node] else []
        else [] := by
  unfold expandable EpicReads.isOpen
  cases reads.issueAt named.node with
  | none => simp
  | some issue =>
    rw [Option.any_some]
    dsimp only
    by_cases hlast : depth < maxDepth
    · cases issue.isPullRequest <;> simp [hlast, NamedRef.node, Frontier.node]
    · simp [hlast]

theorem body_of_mem_expandable {node : Frontier}
    (h : node ∈ expandable maxDepth depth named (reads.issueAt named.node)) :
    node.body = (reads.issueAt node.node).bind (·.body) := by
  unfold expandable at h
  cases hread : reads.issueAt named.node with
  | none =>
    rw [hread] at h
    contradiction
  | some issue =>
    rw [hread] at h
    dsimp only at h
    split_ifs at h
    · rw [List.mem_singleton.mp h]
      show issue.body = (reads.issueAt named.node).bind (·.body)
      rw [hread]
      rfl
    · contradiction

end Expandable

/-- The walk **shows** a search: the same children at the same depths, named by the same
issues, and the same references left out. -/
structure Shows (reads : EpicReads) (root : String × ℕ) (s : Search (String × ℕ))
    (walk : EpicWalk) : Prop where
  children : (walk.children.map fun child => (child.node, child.depth, child.namedBy))
    = s.found.map fun found => (found.node, found.depth, refText found.namedBy)
  read : ∀ child ∈ walk.children, child.ref = refText child.node
    ∧ (!child.unreadable && !child.isPullRequest) = reads.isOpen child.node
  seen : walk.seen = (s.seen root).map refText
  skipped : (walk.skipped.map fun skipped => (skipped.namedBy, skipped.ref))
    = s.skipped.map (Prod.map refText refText)

/-- Within a level, the next one is in hand: it has the open children of this level
where the walk goes deeper, each with the body that was fetched. -/
structure ShowsLevel (reads : EpicReads) (root : String × ℕ) (maxDepth depth : ℕ)
    (s : Search (String × ℕ)) (walk : EpicWalk) : Prop extends Shows reads root s walk where
  next : walk.next.map (·.node)
    = if depth < maxDepth then s.frontierAt reads.isOpen depth else []
  bodies : ∀ node ∈ walk.next, node.body = (reads.issueAt node.node).bind (·.body)

section Simulation

variable {reads : EpicReads} (hdoc : reads.Documented)
  {repo : RepositoryRef} {number maxDepth depth : ℕ} {s : Search (String × ℕ)}
  {walk : EpicWalk}

include hdoc

theorem tryGetIssue_eq (repo : RepositoryRef) (number : ℕ) :
    tryGetIssue reads repo number = .ok (reads.issueAt (repo.slug, number)) := by
  unfold tryGetIssue EpicReads.issueAt
  cases hissue : reads.getIssue repo.slug number with
  | ok issue => rfl
  | error e =>
    cases e with
    | notFound message => rfl
    | other message => exact absurd hissue (hdoc.getIssue_answers _ _ _)

/-- **What `childrenOf` returns is what the issue names.** -/
theorem exists_childrenOf (node : Frontier)
    (hbody : node.body = (reads.issueAt node.node).bind (·.body)) :
    ∃ named, childrenOf reads node = .ok named
      ∧ named.refs.map (·.node) = reads.names node.node
      ∧ ∀ ref ∈ named.refs, ∀ issue, ref.issue = some issue →
        reads.issueAt ref.node = some issue := by
  have hempty : ∀ unavailable, reads.subIssuesAt node.node = [] →
      (bodyRefs node unavailable).refs.map (·.node) = reads.names node.node
        ∧ ∀ ref ∈ (bodyRefs node unavailable).refs, ∀ issue, ref.issue = some issue →
          reads.issueAt ref.node = some issue := by
    intro unavailable hnil
    constructor
    · unfold EpicReads.names bodyRefs
      rw [hnil, if_pos List.isEmpty_nil, hbody, List.map_map]
      congr 1
      funext ref
      exact Prod.ext (ref.slug_repoIn node.repo) rfl
    · intro ref href issue hissue
      obtain ⟨parsed, -, rfl⟩ := List.mem_map.mp href
      exact absurd hissue (by simp)
  unfold childrenOf
  cases hsub : reads.listSubIssues node.repo.slug node.number with
  | error e =>
    cases e with
    | notFound message => exact ⟨_, rfl, hempty _ (by simp [EpicReads.subIssuesAt,
        Frontier.node, hsub, Except.toOption])⟩
    | other message => exact absurd hsub (hdoc.listSubIssues_answers _ _ _)
  | ok subIssues =>
    have hnative : reads.subIssuesAt node.node = subIssues := by
      show (reads.listSubIssues node.repo.slug node.number).toOption.getD [] = _
      rw [hsub]
      rfl
    cases subIssues with
    | nil => exact ⟨_, rfl, hempty _ hnative⟩
    | cons first rest =>
      refine ⟨_, rfl, ?_, ?_⟩
      · unfold EpicReads.names
        rw [hnative, if_neg (by simp), List.map_map]
        congr 1
        funext issue
        refine Prod.ext ?_ rfl
        show ((repoFromIssueUrl issue.url).getD node.repo).slug = _
        cases repoFromIssueUrl issue.url with
        | none => rfl
        | some repo => rfl
      · intro ref href issue hissue
        obtain ⟨sub, hmem, rfl⟩ := List.mem_map.mp href
        have hread := hdoc.getIssue_listed _ _ _ hsub sub hmem
        rw [← Option.some.inj hissue]
        show (reads.getIssue ((repoFromIssueUrl sub.url).getD node.repo).slug
          sub.number).toOption = _
        have hslug : ((repoFromIssueUrl sub.url).getD node.repo).slug
            = ((repoFromIssueUrl sub.url).map (·.slug)).getD node.repo.slug := by
          cases repoFromIssueUrl sub.url with
          | none => rfl
          | some repo => rfl
        rw [hslug, hread]
        rfl

/-- **One reference.** -/
theorem exists_visitRef {root : String × ℕ} (rootRef : String)
    (h : ShowsLevel reads root maxDepth depth s walk) (node : Frontier)
    (source : EpicChildSource) (named : NamedRef)
    (hissue : ∀ issue, named.issue = some issue →
      reads.issueAt named.node = some issue) :
    ∃ walk', visitRef reads rootRef maxDepth depth node source walk named = .ok walk'
      ∧ ShowsLevel reads root maxDepth depth (s.visit root depth (node.node, named.node))
        walk' := by
  have hseen : named.ref ∈ walk.seen ↔ named.node ∈ s.seen root := by
    rw [h.seen]
    exact @List.mem_map_of_injective _ _ _ refText_injective named.node _
  unfold visitRef Search.visit
  by_cases hold : named.ref ∈ walk.seen
  · rw [if_pos hold, if_pos (hseen.mp hold)]
    refine ⟨_, rfl, { h with skipped := ?_ }⟩
    rw [List.map_append, List.map_append, h.skipped]
    rfl
  rw [if_neg hold, if_neg fun hmem => hold (hseen.mpr hmem)]
  have hfetch : fetchNamed reads named = .ok (reads.issueAt named.node) := by
    unfold fetchNamed
    cases hcase : named.issue with
    | none => exact tryGetIssue_eq hdoc _ _
    | some issue => exact congrArg _ (hissue issue hcase).symm
  rw [hfetch]
  refine ⟨_, rfl, ?_⟩
  exact
    { children := by
        rw [List.map_append, List.map_append, h.children]
        rfl
      read := fun child hmem => by
        obtain hmem | hmem := List.mem_append.mp hmem
        · exact h.read child hmem
        rw [List.mem_singleton.mp hmem]
        refine ⟨rfl, ?_⟩
        show (!(reads.issueAt named.node).isNone
          && !(reads.issueAt named.node).any (·.isPullRequest)) = reads.isOpen named.node
        unfold EpicReads.isOpen
        cases reads.issueAt named.node with
        | none => rfl
        | some issue => rfl
      seen := by
        rw [h.seen]
        simp [Search.seen]
        rfl
      skipped := h.skipped
      next := by
        rw [List.map_append, h.next]
        rw [map_node_expandable]
        by_cases hlast : depth < maxDepth
        · rw [if_pos hlast, if_pos hlast, if_pos hlast, Search.frontierAt,
            Search.frontierAt, List.filter_append, List.map_append]
          congr 1
          cases hopen : reads.isOpen named.node <;> simp [hopen]
        · rw [if_neg hlast, if_neg hlast, if_neg hlast, List.append_nil]
      bodies := fun next hmem => by
        obtain hmem | hmem := List.mem_append.mp hmem
        · exact h.bodies next hmem
        · exact body_of_mem_expandable hmem }

theorem exists_foldlM_visitRef {root : String × ℕ} (rootRef : String) (node : Frontier)
    (source : EpicChildSource) (refs : List NamedRef)
    (hissues : ∀ ref ∈ refs, ∀ issue, ref.issue = some issue →
      reads.issueAt ref.node = some issue)
    (h : ShowsLevel reads root maxDepth depth s walk) :
    ∃ walk', refs.foldlM (visitRef reads rootRef maxDepth depth node source) walk
        = .ok walk'
      ∧ ShowsLevel reads root maxDepth depth
        ((refs.map fun ref => (node.node, ref.node)).foldl (Search.visit root depth) s)
        walk' := by
  induction refs generalizing s walk with
  | nil => exact ⟨walk, rfl, h⟩
  | cons ref refs ih =>
    obtain ⟨walk', hvisit, hshows⟩ := exists_visitRef hdoc rootRef h node source ref
      (hissues ref List.mem_cons_self)
    rw [List.foldlM_cons, hvisit]
    exact ih (fun ref href => hissues ref (List.mem_cons_of_mem _ href)) hshows

/-- **One node of a level.** -/
theorem exists_visitNode {root : String × ℕ} (rootRef : String) (node : Frontier)
    (hbody : node.body = (reads.issueAt node.node).bind (·.body))
    (h : ShowsLevel reads root maxDepth depth s walk) :
    ∃ walk', visitNode reads rootRef maxDepth depth walk node = .ok walk'
      ∧ ShowsLevel reads root maxDepth depth
        (((reads.names node.node).map (node.node, ·)).foldl (Search.visit root depth) s)
        walk' := by
  obtain ⟨named, hchildren, hnames, hissues⟩ := exists_childrenOf hdoc node hbody
  have hnoted : ShowsLevel reads root maxDepth depth s (walk.note rootRef node named) :=
    { h with }
  obtain ⟨walk', hfold, hshows⟩ :=
    exists_foldlM_visitRef hdoc rootRef node named.source named.refs hissues hnoted
  refine ⟨walk', ?_, ?_⟩
  · unfold visitNode
    rw [hchildren]
    exact hfold
  · rw [← hnames, List.map_map]
    exact hshows

/-- **One level.** -/
theorem exists_foldlM_visitNode {root : String × ℕ} (rootRef : String)
    (nodes : List Frontier)
    (hbodies : ∀ node ∈ nodes, node.body = (reads.issueAt node.node).bind (·.body))
    (h : ShowsLevel reads root maxDepth depth s walk) :
    ∃ walk', nodes.foldlM (visitNode reads rootRef maxDepth depth) walk = .ok walk'
      ∧ ShowsLevel reads root maxDepth depth
        (s.level reads.names root depth (nodes.map (·.node))) walk' := by
  induction nodes generalizing s walk with
  | nil => exact ⟨walk, rfl, h⟩
  | cons node nodes ih =>
    obtain ⟨walk', hvisit, hshows⟩ :=
      exists_visitNode hdoc rootRef node (hbodies node List.mem_cons_self) h
    obtain ⟨walk'', hrest, hlevel⟩ :=
      ih (fun node hnode => hbodies node (List.mem_cons_of_mem _ hnode)) hshows
    refine ⟨walk'', ?_, ?_⟩
    · rw [List.foldlM_cons, hvisit]
      exact hrest
    · unfold Search.level Search.edges at hlevel ⊢
      rw [List.map_cons, List.flatMap_cons, List.foldl_append]
      exact hlevel

/-- **The levels that are left.** -/
theorem exists_walkLevels {root : String × ℕ} (rootRef : String) (left : ℕ)
    (hleft : left + depth = maxDepth)
    (hexplored : Explored reads.names reads.isOpen root depth s)
    (h : Shows reads root s walk)
    (hnext : 0 < left → walk.next.map (·.node) = s.frontier reads.isOpen root depth)
    (hbodies : ∀ node ∈ walk.next,
      node.body = (reads.issueAt node.node).bind (·.body)) :
    ∃ walk', walkLevels reads rootRef maxDepth left (depth + 1) walk = .ok walk'
      ∧ Shows reads root
        (s.searchFrom reads.names reads.isOpen root left (depth + 1)
          (s.frontier reads.isOpen root depth)) walk' := by
  induction left generalizing depth s walk with
  | zero => exact ⟨walk, rfl, h⟩
  | succ left ih =>
    have hnext := hnext (Nat.succ_pos left)
    unfold walkLevels
    by_cases hempty : walk.next.isEmpty = true
    · have hnil : s.frontier reads.isOpen root depth = [] := by
        rw [← hnext, List.isEmpty_iff.mp hempty]
        rfl
      rw [if_pos hempty, hnil, hexplored.searchFrom_nil hnil]
      exact ⟨walk, rfl, h⟩
    rw [if_neg hempty]
    have hstart : ShowsLevel reads root maxDepth (depth + 1) s
        { walk with next := [] } :=
      { h with
        next := by
          rw [hexplored.frontierAt_eq_nil (Nat.lt_succ_self depth), ite_self]
          rfl
        bodies := by simp }
    obtain ⟨walk', hfold, hlevel⟩ :=
      exists_foldlM_visitNode hdoc rootRef walk.next hbodies hstart
    rw [hnext] at hlevel
    rw [hfold]
    have hlater : 0 < left → walk'.next.map (·.node)
        = (s.level reads.names root (depth + 1)
            (s.frontier reads.isOpen root depth)).frontier reads.isOpen root
              (depth + 1) := by
      intro hpos
      rw [hlevel.next, if_pos (by omega)]
      exact (if_neg (Nat.succ_ne_zero depth)).symm
    exact ih (by omega) hexplored.level hlevel.toShows hlater hlevel.bodies

/-- **A resolution is the search** over references as they are spelled. -/
theorem exists_resolve {epic : FetchedIssue}
    (hepic : reads.getIssue repo.slug number = .ok epic) (asked : Option AskedDepth) :
    ∃ walk, resolve reads repo number asked
        = .ok (walk.resolution repo number epic.title (walkedDepth asked))
      ∧ Shows reads (repo.slug, number)
        (Search.search reads.names reads.isOpen (repo.slug, number) (walkedDepth asked))
        walk := by
  have hstart : Shows reads (repo.slug, number) {}
      { seen := [issueRef repo number], next := [⟨repo, number, epic.body⟩] } :=
    ⟨rfl, by simp, rfl, rfl⟩
  have hbody : epic.body = (reads.issueAt (repo.slug, number)).bind (·.body) := by
    unfold EpicReads.issueAt
    rw [hepic]
    rfl
  obtain ⟨walk, hwalk, hshows⟩ := exists_walkLevels hdoc (issueRef repo number)
    (walkedDepth asked) (Nat.add_zero _) explored_start hstart (fun _ => rfl)
    fun node hnode => by rw [List.mem_singleton.mp hnode]; exact hbody
  refine ⟨walk, ?_, hshows⟩
  unfold resolve
  rw [hepic]
  show (walkLevels _ _ _ _ _ _ >>= _) = _
  rw [hwalk]
  rfl

end Simulation

/-! ## Spellings of one issue -/

/-- Two answers succeed alike. -/
theorem toOption_congr {ε α : Type*} {answer answer' : Except ε α}
    (h : ∀ x, answer = .ok x → answer' = .ok x)
    (h' : ∀ x, answer' = .ok x → answer = .ok x) :
    answer.toOption = answer'.toOption := by
  cases answer with
  | ok x => rw [h x rfl]
  | error e =>
    cases answer' with
    | ok x => exact absurd (h' x rfl) (by simp)
    | error e' => rfl

section Spelling

variable {reads : EpicReads} (hdoc : reads.Documented)

include hdoc

theorem issueAt_addressOf (node : String × ℕ) :
    reads.issueAt (addressOf node) = reads.issueAt node :=
  have hlower := Text.toLowerCase_toLowerCase node.1
  toOption_congr (fun issue => hdoc.getIssue_congr _ _ _ issue hlower)
    fun issue => hdoc.getIssue_congr _ _ _ issue hlower.symm

theorem subIssuesAt_addressOf (node : String × ℕ) :
    reads.subIssuesAt (addressOf node) = reads.subIssuesAt node :=
  have hlower := Text.toLowerCase_toLowerCase node.1
  congrArg (·.getD [])
    (toOption_congr (fun issues => hdoc.listSubIssues_congr _ _ _ issues hlower)
      fun issues => hdoc.listSubIssues_congr _ _ _ issues hlower.symm)

/-- **A reference stands for the issue at its address.** -/
theorem standsFor_addressOf :
    StandsFor reads.names reads.isOpen reads.namesAt reads.isOpen addressOf where
  names_eq node := by
    have hlower := Text.toLowerCase_toLowerCase node.1
    unfold EpicReads.namesAt EpicReads.names
    rw [issueAt_addressOf hdoc, subIssuesAt_addressOf hdoc]
    by_cases hempty : (reads.subIssuesAt node).isEmpty = true
    · rw [if_pos hempty, if_pos hempty, List.map_map, List.map_map]
      refine List.map_congr_left fun ref _ => Prod.ext ?_ rfl
      show Text.toLowerCase (ref.pathIn (Text.toLowerCase node.1))
        = Text.toLowerCase (ref.pathIn node.1)
      unfold ParsedChildRef.pathIn
      split
      · split_ifs
        · rfl
        · exact hlower
      · exact hlower
    · rw [if_neg hempty, if_neg hempty, List.map_map, List.map_map]
      refine List.map_congr_left fun issue _ => Prod.ext ?_ rfl
      show Text.toLowerCase (((repoFromIssueUrl issue.url).map (·.slug)).getD
        (Text.toLowerCase node.1)) = Text.toLowerCase
        (((repoFromIssueUrl issue.url).map (·.slug)).getD node.1)
      cases repoFromIssueUrl issue.url with
      | none => exact hlower
      | some repo => rfl
  isOpen_eq node := by
    unfold EpicReads.isOpen
    rw [issueAt_addressOf hdoc]

end Spelling

section Resolved

variable {reads : EpicReads} {repo : RepositoryRef} {number levels : ℕ}
  {s : Search (String × ℕ)} {walk : EpicWalk} {title : String}
  (h : Shows reads (repo.slug, number) s walk)

include h

/-- What is found is a child, and the other way round. -/
theorem Shows.exists_found {child : ListedChild} (hchild : child ∈ walk.children) :
    ∃ found ∈ s.found, found.node = child.node ∧ found.depth = child.depth
      ∧ refText found.namedBy = child.namedBy := by
  have hmem := List.mem_map_of_mem (f := fun child : ListedChild =>
    (child.node, child.depth, child.namedBy)) hchild
  rw [h.children] at hmem
  obtain ⟨found, hfound, heq⟩ := List.mem_map.mp hmem
  exact ⟨found, hfound, congrArg (·.1) heq, congrArg (·.2.1) heq, congrArg (·.2.2) heq⟩

theorem Shows.exists_child {found : Found (String × ℕ)} (hfound : found ∈ s.found) :
    ∃ child ∈ walk.children, child.node = found.node ∧ child.depth = found.depth
      ∧ child.namedBy = refText found.namedBy := by
  have hmem := List.mem_map_of_mem (f := fun found : Found (String × ℕ) =>
    (found.node, found.depth, refText found.namedBy)) hfound
  rw [← h.children] at hmem
  obtain ⟨child, hchild, heq⟩ := List.mem_map.mp hmem
  exact ⟨child, hchild, congrArg (·.1) heq, congrArg (·.2.1) heq, congrArg (·.2.2) heq⟩

theorem Shows.map_node : walk.children.map (·.node) = s.found.map (·.node) := by
  have hnodes := congrArg (List.map (·.1)) h.children
  rw [List.map_map, List.map_map] at hnodes
  exact hnodes

theorem Shows.map_address : walk.children.map (·.address)
    = s.found.map fun found => addressOf found.node := by
  have haddresses := congrArg (List.map addressOf) h.map_node
  rw [List.map_map, List.map_map] at haddresses
  exact haddresses

/-- The issues that are gone over. -/
theorem Shows.map_node_expanded (levels : ℕ) :
    (walk.children.filter (·.isExpanded levels)).map (·.node)
      = (s.found.filter fun found =>
          found.depth < levels && reads.isOpen found.node).map (·.node) := by
  have hopen : walk.children.filter (·.isExpanded levels)
      = walk.children.filter fun child =>
          child.depth < levels && reads.isOpen child.node :=
    List.filter_congr fun child hchild =>
      congrArg (decide (child.depth < levels) && ·) (h.read child hchild).2
  have hkept := congrArg (fun places =>
    (places.filter fun place : (String × ℕ) × ℕ × String =>
      place.2.1 < levels && reads.isOpen place.1).map (·.1)) h.children
  rw [List.filter_map, List.filter_map, List.map_map, List.map_map] at hkept
  rw [hopen]
  exact hkept

/-- **What is gone over names the children and what is skipped.** -/
theorem Shows.perm_named (hexplored : Explored reads.names reads.isOpen
    (repo.slug, number) levels s) (hlevels : 0 < levels) :
    (((repo.slug, number)
        :: (walk.children.filter (·.isExpanded levels)).map (·.node)).flatMap
      fun node => (reads.names node).map fun named => (refText node, refText named)).Perm
    (walk.children.map (fun child => (child.namedBy, child.ref))
      ++ walk.skipped.map fun skipped => (skipped.namedBy, skipped.ref)) := by
  have hperm := hexplored.all_named.map (Prod.map refText refText)
  have hover : (repo.slug, number)
        :: (walk.children.filter (·.isExpanded levels)).map (·.node)
      = s.goneOver reads.isOpen (repo.slug, number) levels := by
    rw [h.map_node_expanded levels, Search.goneOver, if_neg hlevels.ne']
  have hchildren : walk.children.map (fun child => (child.namedBy, child.ref))
      = (s.found.map fun found => (found.namedBy, found.node)).map
          (Prod.map refText refText) := by
    have hshown := congrArg (List.map fun place : (String × ℕ) × ℕ × String =>
      (place.2.2, refText place.1)) h.children
    rw [List.map_map, List.map_map] at hshown
    rw [List.map_map]
    refine (List.map_congr_left fun child hchild => ?_).trans hshown
    exact congrArg (child.namedBy, ·) (h.read child hchild).1
  rw [hover, hchildren, h.skipped, ← List.map_append]
  refine (List.Perm.of_eq ?_).trans hperm
  unfold Search.edges
  rw [List.map_flatMap]
  congr 1
  funext node
  rw [List.map_map]
  rfl

variable (hexplored : Explored reads.names reads.isOpen (repo.slug, number) levels s)

include hexplored

/-- **Where no two spellings of an issue meet**, the children are what the epic leads
to. -/
theorem Shows.resolvesEpic (hdoc : reads.Documented) (hlevels : 0 < levels)
    (hapart : Apart reads.names reads.isOpen (repo.slug, number) levels addressOf) :
    ResolvesEpic reads repo number levels
      (walk.resolution repo number title levels) := by
  have hissues := hexplored.map (standsFor_addressOf hdoc) hapart
  have hfound : ∀ child ∈ walk.children, ∃ found ∈ (s.map addressOf).found,
      found.node = child.address ∧ found.depth = child.depth := by
    intro child hchild
    obtain ⟨found, hmem, hnode, hdepth, -⟩ := h.exists_found hchild
    exact ⟨found.map addressOf, List.mem_map_of_mem hmem,
      (congrArg addressOf hnode).trans child.addressOf_node, hdepth⟩
  exact
    { mem_iff := fun address => by
        refine Iff.trans ⟨?_, ?_⟩ (hissues.mem_iff address)
        · rintro ⟨child, hchild, rfl⟩
          obtain ⟨found, hmem, hnode, -⟩ := hfound child hchild
          exact ⟨found, hmem, hnode⟩
        · rintro ⟨_, hissue, rfl⟩
          obtain ⟨found, hmem, rfl⟩ := List.mem_map.mp hissue
          obtain ⟨child, hchild, hnode, -⟩ := h.exists_child hmem
          exact ⟨child, hchild,
            child.addressOf_node.symm.trans (congrArg addressOf hnode)⟩
      once := by
        show (walk.children.map (·.address)).Nodup
        have honce := hissues.nodup
        unfold Search.map at honce
        rw [List.map_map] at honce
        rw [h.map_address]
        exact honce
      reached := fun child hchild => by
        obtain ⟨found, hmem, hnode, hdepth⟩ := hfound child hchild
        rw [← hnode, ← hdepth]
        exact hissues.reaches found hmem
      nearest := fun child hchild steps hreaches => by
        obtain ⟨found, hmem, hnode, hdepth⟩ := hfound child hchild
        rw [← hdepth]
        rw [← hnode] at hreaches
        exact hissues.least found hmem steps hreaches
      named := fun child hchild => by
        obtain ⟨found, hmem, hnode, hdepth, hnamer⟩ := h.exists_found hchild
        have hnames : child.address ∈ reads.namesAt (addressOf found.namedBy) := by
          rw [(standsFor_addressOf hdoc).names_eq, ← child.addressOf_node, ← hnode]
          exact List.mem_map_of_mem (hexplored.named found hmem).1
        obtain ⟨hroot, hone⟩ | ⟨inner, hinner, heq, -, hnearer⟩ :=
          (hexplored.named found hmem).2
        · rw [hroot] at hnamer
          rw [hroot, addressOf_root] at hnames
          exact Or.inl ⟨hnamer.symm, hdepth.symm.trans hone, hnames⟩
        · obtain ⟨parent, hparent, hparentNode, hparentDepth, -⟩ := h.exists_child hinner
          refine Or.inr ⟨parent, hparent, ?_, ?_, ?_⟩
          · rw [(h.read parent hparent).1, hparentNode, heq, hnamer]
          · rw [hparentDepth, hnearer, hdepth]
          · rw [← heq, ← hparentNode, parent.addressOf_node] at hnames
            exact hnames
      ordered := by
        have hdepths : walk.children.map (·.depth) = s.found.map (·.depth) := by
          have hshown := congrArg (List.map (·.2.1)) h.children
          rw [List.map_map, List.map_map] at hshown
          exact hshown
        have hsorted := List.pairwise_map.mpr hexplored.ordered
        rw [← hdepths] at hsorted
        exact List.pairwise_map.mp hsorted
      all_named := h.perm_named hexplored hlevels }

/-- **Where the children are what the epic leads to**, no two spellings meet. -/
theorem Shows.apart
    (hresolves : ResolvesEpic reads repo number levels
      (walk.resolution repo number title levels)) :
    Apart reads.names reads.isOpen (repo.slug, number) levels addressOf := by
  refine hexplored.apart ?_ fun found hfound => ?_
  · have honce : (walk.children.map (·.address)).Nodup := hresolves.once
    rw [h.map_address] at honce
    exact honce
  · obtain ⟨child, hchild, hnode, -⟩ := h.exists_child hfound
    rw [← hnode]
    exact ((hresolves.mem_iff child.address).mp ⟨child, hchild, rfl⟩).1

end Resolved

theorem walkedDepth_pos (asked : Option AskedDepth) : 0 < walkedDepth asked := by
  unfold walkedDepth
  cases asked.getD (.finite 1) with
  | notFinite => exact Nat.one_pos
  | finite value =>
    have hleast : (1 : ℤ) ≤ min (max (mathTrunc value) ((1 : ℕ) : ℤ)) (maxEpicDepth : ℤ) :=
      le_min (le_max_right _ _) (by decide)
    show 0 < (min (max (mathTrunc value) ((1 : ℕ) : ℤ)) (maxEpicDepth : ℤ)).toNat
    omega

/-- **A resolution is the breadth-first closure of what is named** exactly when no two
references that are met spell one issue differently. -/
theorem resolvesEpic_iff_apart {reads : EpicReads} (hdoc : reads.Documented)
    {repo : RepositoryRef} {number : ℕ} {epic : FetchedIssue}
    (hepic : reads.getIssue repo.slug number = .ok epic) (asked : Option AskedDepth) :
    (∃ resolution, resolve reads repo number asked = .ok resolution
        ∧ ResolvesEpic reads repo number (walkedDepth asked) resolution)
      ↔ Apart reads.names reads.isOpen (repo.slug, number) (walkedDepth asked)
          addressOf := by
  obtain ⟨walk, hresolve, hshows⟩ := exists_resolve hdoc hepic asked
  have hexplored := explored_search reads.names reads.isOpen (repo.slug, number)
    (walkedDepth asked)
  rw [hresolve]
  constructor
  · rintro ⟨resolution, heq, hresolves⟩
    rw [← Except.ok.inj heq] at hresolves
    exact hshows.apart hexplored hresolves
  · intro hapart
    exact ⟨_, rfl, hshows.resolvesEpic hexplored hdoc (walkedDepth_pos asked) hapart⟩

/-! ## One spelling -/

/-- **Where what is named under a spelling is named under it again**, nothing is met in
another one. -/
theorem apart_of_one_spelling {reads : EpicReads} {path : String}
    (h : ∀ number, ∀ named ∈ reads.names (path, number), named.1 = path)
    (number levels : ℕ) :
    Apart reads.names reads.isOpen (path, number) levels addressOf := by
  have hreached : ∀ steps node,
      Reaches reads.names reads.isOpen (path, number) steps node → node.1 = path := by
    intro steps node hreaches
    induction hreaches with
    | direct hnamed => exact h number _ hnamed
    | @step steps inner node _ _ hnamed ih =>
      have hinner : inner = (path, inner.2) := Prod.ext ih rfl
      rw [hinner] at hnamed
      exact h inner.2 node hnamed
  have hmet : ∀ node, Meets reads.names reads.isOpen (path, number) levels node →
      node.1 = path := by
    rintro node (rfl | ⟨steps, -, hreaches⟩)
    · rfl
    · exact hreached steps node hreaches
  intro node other hnode hother heq
  have hnumber : node.2 = other.2 := congrArg (·.2) heq
  exact Prod.ext ((hmet node hnode).trans (hmet other hother).symm) hnumber

/-- The issue with a number, in the one repository there is. -/
def diamondIssue (number : ℕ) : FetchedIssue :=
  { Proposal.readyIssue number with
    body := match number with
      | 1 => some "## Child work\n- [ ] #2\n- [ ] #3"
      | 2 => some "## Child work\n- [ ] #4"
      | _ => none }

/-- An epic over two others: both lead to the issue 4, one by its body and one by its
sub-issues, of which 5 is another. -/
def diamond : EpicReads where
  getIssue path number :=
    if Text.toLowerCase path = "acme/app" ∧ number ≤ 5 then .ok (diamondIssue number)
    else .error (.notFound "Not Found")
  listSubIssues path number :=
    if Text.toLowerCase path = "acme/app" ∧ number = 3 then
      .ok [⟨diamondIssue 4, "https://github.com/acme/app/issues/4"⟩,
        ⟨diamondIssue 5, "https://github.com/acme/app/issues/5"⟩]
    else .ok []

theorem documented_diamond : diamond.Documented where
  getIssue_congr path path' number issue hlower hread := by
    unfold diamond at hread ⊢
    dsimp only at hread ⊢
    rw [← hlower]
    exact hread
  listSubIssues_congr path path' number issues hlower hread := by
    unfold diamond at hread ⊢
    dsimp only at hread ⊢
    rw [← hlower]
    exact hread
  getIssue_listed path number issues hlist issue hmem := by
    unfold diamond at hlist
    dsimp only at hlist
    split_ifs at hlist with hthree
    · have hfour : repoFromIssueUrl "https://github.com/acme/app/issues/4"
          = some ⟨"acme", "app"⟩ := by decide
      have hfive : repoFromIssueUrl "https://github.com/acme/app/issues/5"
          = some ⟨"acme", "app"⟩ := by decide
      rw [← Except.ok.inj hlist] at hmem
      obtain rfl | hmem := List.mem_cons.mp hmem
      · rw [hfour, Option.map_some, Option.getD_some]
        decide
      · obtain rfl := List.mem_singleton.mp hmem
        rw [hfive, Option.map_some, Option.getD_some]
        decide
    · rw [← Except.ok.inj hlist] at hmem
      cases hmem
  getIssue_answers path number message := by
    unfold diamond
    dsimp only
    split_ifs <;> simp
  listSubIssues_answers path number message := by
    unfold diamond
    dsimp only
    split_ifs <;> simp

theorem names_diamond (number : ℕ) :
    ∀ named ∈ diamond.names ("acme/app", number), named.1 = "acme/app" := by
  by_cases hsome : number ≤ 3
  · obtain rfl | rfl | rfl | rfl :
        number = 0 ∨ number = 1 ∨ number = 2 ∨ number = 3 := by omega
    all_goals decide +kernel
  · have hissue : (diamond.issueAt ("acme/app", number)).bind (·.body) = none := by
      unfold EpicReads.issueAt diamond diamondIssue
      dsimp only
      split_ifs
      · simp only [Except.toOption, Option.bind_some]
        split
        · omega
        · omega
        · rfl
      · rfl
    have hsubs : diamond.subIssuesAt ("acme/app", number) = [] := by
      unfold EpicReads.subIssuesAt diamond
      dsimp only
      rw [if_neg (by omega)]
      rfl
    have hnone : (parseEpicBodyChildren none).refs = [] := by decide
    unfold EpicReads.names
    rw [hsubs, hissue, hnone]
    rintro named hnamed
    cases hnamed

/-- Two levels of it are resolved to four issues, each of them once. -/
theorem resolvesEpic_diamond :
    ∃ resolution, resolve diamond ⟨"acme", "app"⟩ 1 (some (.finite 2)) = .ok resolution
      ∧ ResolvesEpic diamond ⟨"acme", "app"⟩ 1 (walkedDepth (some (.finite 2)))
        resolution :=
  (resolvesEpic_iff_apart documented_diamond rfl (some (.finite 2))).mpr
    (apart_of_one_spelling names_diamond 1 _)

example : (resolve diamond ⟨"acme", "app"⟩ 1 (some (.finite 2))).toOption.map
    (fun resolution => resolution.children.map (·.address))
      = some [("acme/app", 2), ("acme/app", 3), ("acme/app", 4), ("acme/app", 5)] := by
  decide +kernel

/-! ## A repository in two spellings -/

/-- One repository, with an epic of this body and one issue. -/
def oneEpic (body : String) : EpicReads where
  getIssue path number :=
    if Text.toLowerCase path = "acme/app" then
      if number = 1 then .ok { Proposal.readyIssue 1 with body := some body }
      else if number = 2 then .ok (Proposal.readyIssue 2)
      else .error (.notFound "Not Found")
    else .error (.notFound "Not Found")
  listSubIssues _ _ := .ok []

theorem documented_oneEpic (body : String) : (oneEpic body).Documented where
  getIssue_congr path path' number issue hlower hread := by
    unfold oneEpic at hread ⊢
    dsimp only at hread ⊢
    rw [← hlower]
    exact hread
  listSubIssues_congr _ _ _ _ _ hread := hread
  getIssue_listed _ _ _ hlist issue hmem := by
    rw [← Except.ok.inj hlist] at hmem
    contradiction
  getIssue_answers path number message := by
    unfold oneEpic
    dsimp only
    split_ifs <;> simp
  listSubIssues_answers _ _ _ := by simp [oneEpic]

/-- **One issue in two spellings becomes two children.** -/
theorem resolve_two_spellings :
    ¬∀ (reads : EpicReads) (repo : RepositoryRef) (number : ℕ) (epic : FetchedIssue)
      (asked : Option AskedDepth), reads.Documented →
      reads.getIssue repo.slug number = .ok epic →
      ∃ resolution, resolve reads repo number asked = .ok resolution
        ∧ ResolvesEpic reads repo number (walkedDepth asked) resolution := by
  intro h
  let body := "## Child work\n- [ ] #2\n- [ ] Acme/App#2"
  obtain ⟨resolution, hresolve, hresolves⟩ :=
    h (oneEpic body) ⟨"acme", "app"⟩ 1 _ none (documented_oneEpic body) rfl
  have hchildren : (resolve (oneEpic body) ⟨"acme", "app"⟩ 1 none).toOption.map
      (fun resolution => resolution.children.map (·.address))
      = some [("acme/app", 2), ("acme/app", 2)] := by decide +kernel
  rw [hresolve] at hchildren
  have honce := hresolves.once
  rw [show resolution.children.map (·.address) = _ from Option.some.inj hchildren] at honce
  exact absurd honce (by decide)

end Opifex
