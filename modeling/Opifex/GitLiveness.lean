import Opifex.Lib.Reduce
import Opifex.RunEvents

/-!
# Liveness from git alone

A sweep of the git watcher reads the commits of a run's branch, its pull
request and the checks of its head, and derives events and the newest moment
of any activity. The events are inferences and say so: every one of them is
tagged `git-derived`.
-/

namespace Opifex

/-! ## What git says -/

/-- What the watcher needs to know of a run: where its branch is, what it starts from,
and what was seen of it last. -/
structure GitWatchedRun where
  runId : ℕ
  workOrderIdentity : String
  owner : String
  name : String
  branch : String
  /-- The pinned base commit. A commit at base is not progress. -/
  baseCommit : String
  startedAt : Instant
  lastKnownHeadCommit : Option String
  pullRequestUrl : Option String
deriving DecidableEq

/-- A commit as GitHub lists it. The time is the author's, which the runner's machine
has set. -/
structure GitCommit where
  sha : String
  message : String
  authoredAt : Instant
deriving DecidableEq

/-- A pull request as GitHub lists it, with the head commit it has now. -/
structure GitPullRequest where
  number : ℕ
  url : String
  headSha : String
  updatedAt : Instant
deriving DecidableEq

/-- A check of the head commit; one in flight has no completion time, and shows no
activity yet. -/
structure GitCheck where
  completedAt : Option Instant
deriving DecidableEq

/-- What a sweep reads of one run: its branch, its pull request and its checks. Progress
is derived from it alone. -/
structure GitObservation where
  run : GitWatchedRun
  /-- Newest first. -/
  commits : List GitCommit
  pullRequest : Option GitPullRequest
  checks : List GitCheck
deriving DecidableEq

/-- Whether two names of a commit, one of them perhaps a prefix, agree. -/
def isSameCommit (a b : String) : Bool :=
  let shortest := min a.toList.length b.toList.length
  7 ≤ shortest && a.toList.take shortest == b.toList.take shortest

/-- Whether a commit is the last known head or older, by the order of the list
and not by its dates. -/
def isAtOrBefore (sha lastKnownHead : String) (newestFirst : List GitCommit) :
    Bool :=
  let index := newestFirst.findIdx? fun commit => isSameCommit commit.sha sha
  let headIndex :=
    newestFirst.findIdx? fun commit => isSameCommit commit.sha lastKnownHead
  match headIndex with
  -- the branch was rewritten: every commit is new
  | none => false
  | some headIndex => index.any fun index => decide (headIndex ≤ index)

/-- The first line of a commit's message, as far as a summary shows it: the length is in
UTF-16 units. -/
def firstLine (message : String) : String :=
  String.ofList (Text.takeUnits 120 (message.toList.takeWhile (· ≠ '\n')))

namespace GitObservation

/-- Commits after the pinned base. -/
def progressCommits (observation : GitObservation) : List GitCommit :=
  observation.commits.filter fun commit =>
    !isSameCommit commit.sha observation.run.baseCommit

/-- The event of a commit that was not seen before. -/
def commitEvent (observation : GitObservation) (commit : GitCommit) :
    Option RunEventPayload :=
  let run := observation.run
  if run.lastKnownHeadCommit.any fun head =>
      head ≠ "" && isAtOrBefore commit.sha head observation.commits
  then none
  else
    some
      { eventId :=
          "git:" ++ run.owner ++ "/" ++ run.name ++ ":commit:" ++ commit.sha
        runId := run.runId
        workOrderId := run.workOrderIdentity
        type := .progress
        source := .gitDerived
        occurredAt := commit.authoredAt
        summary := some ("Commit " ++ String.ofList (commit.sha.toList.take 7) ++
          " landed on " ++ run.branch ++ ": " ++ firstLine commit.message) }

/-- A pull request is completion in the only sense git can see, once. -/
def pullEvent (observation : GitObservation) : Option RunEventPayload :=
  let run := observation.run
  match observation.pullRequest with
  | none => none
  | some pull =>
    if run.pullRequestUrl.any Text.truthy then none
    else
      some
        { eventId := "git:" ++ run.owner ++ "/" ++ run.name ++ ":pr:" ++
            toString pull.number ++ ":opened"
          runId := run.runId
          workOrderId := run.workOrderIdentity
          type := .completed
          source := .gitDerived
          occurredAt := pull.updatedAt
          summary := some ("Pull request #" ++ toString pull.number ++
            " opened from " ++ run.branch)
          result := some
            { branch := some run.branch
              headCommit := some pull.headSha
              pullRequestUrl := some pull.url } }

/-- The events a sweep records. -/
def derivedEvents (observation : GitObservation) : List RunEventPayload :=
  observation.progressCommits.filterMap observation.commitEvent ++
    observation.pullEvent.toList

/-- The most recent moment git shows any activity. A check in flight is
activity as of now. -/
def latestActivity (observation : GitObservation) (now : Instant) :
    Option Instant :=
  Reduce.reduce max <|
    observation.progressCommits.map (·.authoredAt) ++
      observation.pullRequest.toList.map (·.updatedAt) ++
        observation.checks.map fun check => check.completedAt.getD now

end GitObservation

/-- The `data` of the update at the end of a sweep of one run. Nothing in its condition
names the activity that is stored by then. -/
structure GitUpdate where
  /-- What the sweep read as the run's start. -/
  startedAt : Instant
  lastActivityAt : Option Instant
  head : Option String
  pullRequest : Option GitPullRequest
deriving DecidableEq

/-- What the sweep hands to `updateRun`. -/
def GitObservation.update (observation : GitObservation) (now : Instant) :
    GitUpdate where
  startedAt := observation.run.startedAt
  lastActivityAt := observation.latestActivity now
  head :=
    (observation.pullRequest.map (·.headSha)).or
      (observation.commits.head?.map (·.sha))
  pullRequest :=
    if observation.run.pullRequestUrl.any Text.truthy then none
    else observation.pullRequest

/-- The instant the update writes, if it writes one: activity after the run
started. -/
def GitUpdate.writes (update : GitUpdate) : Option Instant :=
  update.lastActivityAt.filter fun activity =>
    decide (update.startedAt < activity)

/-- **`updateRun`**: the newest event is written over whatever is stored. -/
def RunRow.gitUpdate (update : GitUpdate) (run : RunRow) : RunRow :=
  { run with
    lastEventAt := update.writes.or run.lastEventAt
    headCommit := (update.head.filter Text.truthy).or run.headCommit
    pullRequestUrl :=
      (update.pullRequest.map (·.url)).or run.pullRequestUrl
    pullRequestNumber :=
      (update.pullRequest.map (·.number)).or run.pullRequestNumber }

/-- Every event git is read for is tagged so. -/
theorem source_derivedEvents {observation : GitObservation}
    {event : RunEventPayload} (h : event ∈ observation.derivedEvents) :
    event.source = .gitDerived := by
  rcases List.mem_append.mp h with h | h
  · obtain ⟨commit, -, hcommit⟩ := List.mem_filterMap.mp h
    unfold GitObservation.commitEvent at hcommit
    dsimp only at hcommit
    split at hcommit
    · cases hcommit
    · rw [← Option.some.inj hcommit]
  · have hpull := Option.mem_toList.mp h
    unfold GitObservation.pullEvent at hpull
    dsimp only at hpull
    split at hpull
    · cases hpull
    · split at hpull
      · cases hpull
      · rw [← Option.some.inj hpull]

end Opifex
