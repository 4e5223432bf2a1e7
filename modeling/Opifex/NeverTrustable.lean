import Opifex.Lib.Json
import Opifex.Lib.Parts
import Opifex.SpendAdmission
import Opifex.TrustGrants

/-!
# The never-trustable list

What no grant may authorise, effect by effect. The check goes through the
effects in order and collects the refusals of each; none of them looks at
another.

A write is refused by the path it goes to. The path is brought to one form
first, in which slashes and dots that name nothing are gone, and a path with two
dots in a row anywhere is refused as it stands.
-/

namespace Opifex

/-! ## Effects -/

/-- What an effect may delete. The first three are on GitHub, and no rule lets them go;
the other two are rows of the control plane. -/
inductive DeleteSubject where
  | branch
  | issue
  | pullRequest
  | run
  | workOrder
deriving DecidableEq, Repr

/-- The subject as the refusal names it. -/
def DeleteSubject.name : DeleteSubject → String
  | .branch => "branch"
  | .issue => "issue"
  | .pullRequest => "pull-request"
  | .run => "run"
  | .workOrder => "work-order"

/-- How an effect touches a credential: it reads it, or it writes it. The rule refuses
both. -/
inductive CredentialMode where
  | read
  | write
deriving DecidableEq, Repr

/-- The mode as the refusal names it. -/
def CredentialMode.name : CredentialMode → String
  | .read => "read"
  | .write => "write"

/-- What an effect may do to a grant. All but `revoke` would give the factory more than
it was trusted with. -/
inductive GrantOperation where
  | create
  | widen
  | renew
  | revoke
deriving DecidableEq, Repr

/-- The operation as the refusal names it. -/
def GrantOperation.name : GrantOperation → String
  | .create => "create"
  | .widen => "widen"
  | .renew => "renew"
  | .revoke => "revoke"

/-- One concrete thing an action would do. An action is judged by its effects: it is
refused where a rule refuses one of them. -/
inductive AutonomyEffect where
  | gitPush (repository branch : String) (force protectedBranch : Bool)
  | delete (subject : DeleteSubject) (ref : String)
  | credentialAccess (mode : CredentialMode) (what : String)
  | spend (usd : JsNumber)
  | fileWrite (repository path : String)
  | quarantineClear (workOrder : String)
  | trustGrantWrite (operation : GrantOperation)
  | budgetConfigWrite (setting : String)
  | issueCreate (repository : String)
  | issueEdit (repository ref : String)
  | dispatch (repository workOrder : String)
  | comment (repository ref : String)
deriving DecidableEq

/-- The rules of the list, in the order of the source. No grant and no approval sets one
aside. -/
inductive NeverTrustableRule where
  | forcePush
  | protectedBranchWrite
  | destructiveDelete
  | credentialAccess
  | hardSpendCeiling
  | selfModification
  | quarantineSelfClear
  | trustSelfGrant
  | budgetConfigWrite
deriving DecidableEq, Repr

/-- One rule refusing one effect, with the reason that an operator is shown. -/
structure NeverTrustableRefusal where
  rule : NeverTrustableRule
  effect : AutonomyEffect
  reason : String
deriving DecidableEq

/-! ## Paths -/

/-- A kind of path that no write may touch, and why: what lies there could change what
the factory is allowed to do. -/
structure ForbiddenPathRule where
  pattern : String
  why : String
deriving DecidableEq

/-- **The protected paths.** The patterns are of the source; what each stands for is
spelled out in `WritePathGuard`. -/
def forbiddenWritePaths : List ForbiddenPathRule :=
  [ ⟨".github/workflows/**",
      "a CI workflow is the check that enforces every other rule"⟩,
    ⟨".github/actions/**",
      "a composite action is a CI workflow with one level of indirection"⟩,
    ⟨"scripts/**",
      "CI invokes these as gates, so editing one edits the gate"⟩,
    ⟨"apps/api/src/autonomy/**",
      "an agent that can edit the guard has no guard"⟩,
    ⟨"apps/api/src/supervisor/action-classes.ts",
      "the policy table: what may be proposed and what may be promoted"⟩,
    ⟨"**/.env", "budget, quota and credential configuration"⟩,
    ⟨"**/.env.*",
      "budget, quota and credential configuration (.env.example included)"⟩,
    ⟨"**/*.env", "budget, quota and credential configuration"⟩ ]

/-- **`normaliseWritePath`**: a path in one form, none where it is refused. -/
def normaliseWritePath (rawPath : String) : Option String :=
  let unified := Text.replaceChar '\\' '/' rawPath
  if Text.includes unified ".." then none
  else
    let segments := (Text.split '/' unified).filter fun segment =>
      segment != "" && segment != "."
    some ("/".intercalate segments)

/-- What comes after the last slash. -/
def basenameOf (path : String) : String :=
  String.ofList (path.toList.rtakeWhile (· != '/'))

/-- A basename glob with at most one `*`, at one end. -/
def matchesBasename (glob name : String) : Bool :=
  if Text.startsWith glob "*" then
    let ending := Text.slice 1 glob
    Text.endsWith name ending && decide (Text.length ending < Text.length name)
  else if Text.endsWith glob "*" then
    let start := Text.sliceEnd 1 glob
    Text.startsWith name start && decide (Text.length start < Text.length name)
  else name == glob

/-- The three forms of a pattern. -/
def matchesPattern (pattern path : String) : Bool :=
  if Text.endsWith pattern "/**" then
    let directory := Text.sliceEnd 3 pattern
    path == directory || Text.startsWith path (directory ++ "/")
  else if Text.startsWith pattern "**/" then
    matchesBasename (Text.slice 3 pattern) (basenameOf path)
  else path == pattern

/-- **`forbiddenPathReason`**: why the path is refused, by the first rule that
it matches. -/
def forbiddenPathReason (rawPath : String) : Option String :=
  match normaliseWritePath rawPath with
  | none => some "a path containing \"..\" is a traversal attempt, not a file name"
  | some path =>
    (forbiddenWritePaths.find? fun rule => matchesPattern rule.pattern path).map
      (·.why)

/-! ## The check -/

section Check

variable (numberText : ℚ → String)

/-- Why this amount may not be spent. Only one reason is that it is too
much. -/
def spendRefusalReason (usd : JsNumber) (ceiling : HardCeiling) :
    Option String :=
  match usd.value.filter (0 ≤ ·) with
  | none =>
    some ("Refused: spend of \"" ++ usd.text ++ "\" is not a usable amount. " ++
      "An unknown cost is not a zero cost (VISION §6), so it is refused " ++
        "rather than assumed to be under the ceiling.")
  | some amount =>
    match ceiling.malformed, ceiling.limitUsd with
    | some malformed, _ =>
      some ("Refused: spend of $" ++ usd.text ++ " cannot be checked — the " ++
        "configured hard ceiling " ++ Json.quote malformed ++ " is not a " ++
          "usable number (#65). A ceiling that failed to parse is not a " ++
            "ceiling.")
    | none, none =>
      some ("Refused: spend of $" ++ usd.text ++ " cannot be checked — no " ++
        "hard spend ceiling is configured (#65). An unset ceiling is not an " ++
          "unlimited one: the guard has nothing to check against, so the " ++
            "spend does not proceed.")
    | none, some limitUsd =>
      if limitUsd < amount then
        some ("Refused: spend of $" ++ usd.text ++ " exceeds the hard ceiling " ++
          "of $" ++ numberText limitUsd ++ ". No trust grant, promoted action " ++
            "class or agent raises it (VISION §8); only a signed-in admin " ++
              "can, interactively, on the record (ADR-0018 §6).")
      else none

/-- One round of the check: what is refused of an effect is put after what has
been refused. -/
def checkEffect (ceiling : HardCeiling)
    (refusals : List NeverTrustableRefusal) (effect : AutonomyEffect) :
    List NeverTrustableRefusal :=
  match effect with
  | .gitPush repository branch force protectedBranch =>
    -- both can be refused of one push
    let refusals :=
      if force then
        refusals ++ [⟨.forcePush, effect,
          "Refused: force-push to " ++ repository ++ "@" ++ branch ++ ". " ++
            "Force-pushing is never trustable (VISION §8), regardless of " ++
              "any grant."⟩]
      else refusals
    if protectedBranch then
      refusals ++ [⟨.protectedBranchWrite, effect,
        "Refused: push to protected branch " ++ repository ++ "@" ++ branch ++
          ". Writes to protected branches are never trustable (VISION §8), " ++
            "regardless of any grant."⟩]
    else refusals
  | .delete subject ref =>
    -- the other two subjects are rows of the control plane
    if subject = .branch ∨ subject = .issue ∨ subject = .pullRequest then
      refusals ++ [⟨.destructiveDelete, effect,
        "Refused: delete of " ++ subject.name ++ " " ++ ref ++ ". Deleting " ++
          "branches, issues and pull requests is never trustable " ++
            "(VISION §8), regardless of any grant."⟩]
    else refusals
  | .credentialAccess mode what =>
    refusals ++ [⟨.credentialAccess, effect,
      "Refused: " ++ mode.name ++ " access to credential \"" ++ what ++ "\". " ++
        "Reading or writing credentials is never trustable (VISION §8), " ++
          "regardless of any grant."⟩]
  | .spend usd =>
    match spendRefusalReason numberText usd ceiling with
    | some refusal => refusals ++ [⟨.hardSpendCeiling, effect, refusal⟩]
    | none => refusals
  | .fileWrite repository path =>
    match forbiddenPathReason path with
    | some forbidden =>
      refusals ++ [⟨.selfModification, effect,
        "Refused: write to " ++ repository ++ ":" ++ path ++ ". " ++
          forbidden ++ " — modifying CI workflows, the policy table or " ++
            "budget configuration is never trustable (VISION §8)."⟩]
    | none => refusals
  | .quarantineClear workOrder =>
    refusals ++ [⟨.quarantineSelfClear, effect,
      "Refused: clearing quarantine on work order " ++ workOrder ++ ". " ++
        "Only a human clears quarantine (VISION §8) — the label " ++
          "factory:clear-quarantine is the human-authored input that does it."⟩]
  | .trustGrantWrite operation =>
    if operation ≠ .revoke then
      refusals ++ [⟨.trustSelfGrant, effect,
        "Refused: " ++ operation.name ++ " of a trust grant. An agent that " ++
          "can grant itself trust has the appearance of guardrails and " ++
            "none of the substance (VISION §8); only revoke is permitted."⟩]
    else refusals
  | .budgetConfigWrite setting =>
    refusals ++ [⟨.budgetConfigWrite, effect,
      "Refused: write to budget configuration \"" ++ setting ++ "\". " ++
        "Modifying budget configuration is never trustable outside an " ++
          "interactive, RBAC-gated admin action (VISION §8, ADR-0018 §6) — " ++
            "no trust grant, promoted action class or agent-reachable path " ++
              "moves a spend ceiling."⟩]
  | .issueCreate _ | .issueEdit _ _ | .dispatch _ _ | .comment _ _ => refusals

/-- **`checkNeverTrustable`**: all refusals of all effects; none means
permitted. -/
def checkNeverTrustable (effects : List AutonomyEffect) (ceiling : HardCeiling) :
    List NeverTrustableRefusal :=
  effects.foldl (checkEffect numberText ceiling) []

end Check

end Opifex
