import Mathlib.Data.String.Basic
import Mathlib.Order.Lattice

/-!
# The runner seam

What the control plane knows about a runner: the closed vocabularies a work
order's needs are written in, and the capability manifest a runner advertises.
Only the fields routing and dispatch read are kept; a manifest's display name,
invocation model, branch patterns and vendor-specific part decide
nothing below.

A runner's key is matched against `^[a-z0-9]+(-[a-z0-9]+)*$` when its manifest
is registered, so the type of keys carries that shape. On this alphabet the
collation order of the source's `localeCompare` and the code-unit order of its
`sort()` are both the order of the code points, which is the order of `String`.
-/

namespace Opifex

/-- A capability a work order requires. A runner that lacks one is not asked, however
idle it is. -/
inductive RunnerNeed where
  | fullStreaming
  | costReporting
  | structuredRateLimits
  | ownInfrastructure
deriving DecidableEq, Repr

/-- The need as it is written in labels, columns and messages. -/
def RunnerNeed.name : RunnerNeed → String
  | .fullStreaming => "full-streaming"
  | .costReporting => "cost-reporting"
  | .structuredRateLimits => "structured-rate-limits"
  | .ownInfrastructure => "own-infrastructure"

/-- How much model a piece of work wants: a size, never a model name, so that each
runner maps it to its own models. -/
inductive ModelTier where
  | small
  | standard
  | large
deriving DecidableEq, Repr

/-- The tier as it is written in labels, columns and messages. -/
def ModelTier.name : ModelTier → String
  | .small => "small"
  | .standard => "standard"
  | .large => "large"

/-- Whose hardware the work runs on, which a work order may insist on. -/
inductive ExecutionLocus where
  | ownInfrastructure
  | vendorCloud
deriving DecidableEq, Repr

/-- How much of a run Opifex can see, and so how long a silence says something. -/
inductive StreamingFidelity where
  | full
  | partialStream
  | none
deriving DecidableEq, Repr

/-- Whether a rate limit arrives with a reset time. Without one a park has to be guessed
at. -/
inductive RateLimitSignal where
  | structured
  | heuristic
  | none
deriving DecidableEq, Repr

/-- How stable the runner declares itself to be. One below `stable` is a preview, and is
not to be the only runner that could take a work order. -/
inductive StabilityTier where
  | experimental
  | beta
  | stable
deriving DecidableEq, Repr

/-- The tier as a manifest spells it. -/
def StabilityTier.name : StabilityTier → String
  | .experimental => "experimental"
  | .beta => "beta"
  | .stable => "stable"

/-- A character of a key's segments, `[a-z0-9]`. -/
def isKeyChar (c : Char) : Bool :=
  c.isLower || c.isDigit

/-- `^[a-z0-9]+(-[a-z0-9]+)*$`, where `inSegment` says whether the current
segment has a character yet. -/
def keyShape : Bool → List Char → Bool
  | inSegment, [] => inSegment
  | inSegment, c :: cs =>
    if c = '-' then inSegment && keyShape false cs
    else isKeyChar c && keyShape true cs

/-- **A runner's key**, together with the shape its registration checked. An ill-formed
key cannot be built. -/
structure RunnerKey where
  val : String
  wellFormed : keyShape false val.toList = true

namespace RunnerKey

theorem val_injective : Function.Injective RunnerKey.val := by
  rintro ⟨a, _⟩ ⟨b, _⟩ h
  cases h
  rfl

theorem keyShape_claudeCodeLocal : keyShape false "claude-code-local".toList = true := by
  decide

/-- Keys are ordered as their strings are. -/
instance : LinearOrder RunnerKey :=
  LinearOrder.lift' RunnerKey.val val_injective

end RunnerKey

/-- What a runner can do, as a declaration. Routing reads nothing else of a runner, and
never its name. -/
structure RunnerCapabilities where
  key : RunnerKey
  version : String
  executionLocus : ExecutionLocus
  streamingFidelity : StreamingFidelity
  rateLimitSignal : RateLimitSignal
  stabilityTier : StabilityTier
  reportsCost : Bool
  /-- The runner's own limit on how many runs it will take. -/
  maxConcurrency : ℕ
  /-- The sizes it serves; absent means any. -/
  modelTiers : Option (List ModelTier)
  /-- Whether it can take work right now; absent means yes. -/
  available : Option Bool
  unavailableReason : Option String
deriving DecidableEq

/-- A runner's handle on a submitted run. `externalId` is the runner's own
and opaque. -/
structure RunHandle where
  runnerKey : RunnerKey
  externalId : String
  workOrderIdentity : String
deriving DecidableEq

end Opifex
