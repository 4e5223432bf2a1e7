import Mathlib.Logic.Function.Basic
import Opifex.Lib.Instant
import Opifex.Lib.Machine

/-!
# Refresh tokens

A refresh exchanges a refresh token for its successor: it looks the token up,
revokes it, and creates another. A token that is presented after it was revoked
counts as reuse, and every token of its user is revoked. A logout revokes one token
or all, and a clean-up deletes the rows that have expired or been revoked.

Each statement is one step of the model (`TokenEvent.next`), so the statements of
any number of calls interleave freely; what a call does between two of them touches
nothing that is shared. Beside the rows the model keeps what happened: every token
as it was created, who issued it for which, and which tokens a logout has revoked.
-/

namespace Opifex

/-- A row of `refresh_tokens`: whose it is, until when, and when it was revoked if it
was. -/
structure RefreshToken where
  userId : ℕ
  expiresAt : Instant
  revokedAt : Option Instant

/-- The rows, by the token each holds the hash of. That a token is drawn twice, or that
two have one hash, is left out of account. -/
structure TokenTable where
  rows : ℕ → Option RefreshToken
  /-- The token that is drawn next: 32 random bytes are no token's yet. -/
  next : ℕ
  unused : ∀ token, next ≤ token → rows token = none

namespace TokenTable

/-- `updateMany`: `revokedAt` is set in the rows that meet a condition. -/
def revoke (table : TokenTable) (p : ℕ → RefreshToken → Bool) (now : Instant) :
    TokenTable where
  rows := fun token => (table.rows token).map fun row =>
    if p token row then { row with revokedAt := some now } else row
  next := table.next
  unused := fun token h => by rw [table.unused token h]; rfl

/-- `deleteMany` -/
def delete (table : TokenTable) (p : RefreshToken → Bool) : TokenTable where
  rows := fun token => (table.rows token).filter fun row => !p row
  next := table.next
  unused := fun token h => by rw [table.unused token h]; rfl

/-- `create` -/
def create (table : TokenTable) (row : RefreshToken) : TokenTable where
  rows := Function.update table.rows table.next (some row)
  next := table.next + 1
  unused := fun token h => by
    rw [Function.update_of_ne (by omega), table.unused token (by omega)]

end TokenTable

/-! ## Calls -/

/-- The calls that touch the rows: a refresh, a logout, the revocation of a user's
sessions, and the nightly cleanup. -/
inductive TokenRequest where
  | refreshAccessToken (token : ℕ)
  /-- Of one token, or of all. -/
  | logout (userId : ℕ) (token : Option ℕ)
  | revokeAllUserTokens (userId : ℕ)
  | cleanupExpiredTokens
deriving DecidableEq

/-- The token that is presented for its successor. -/
def TokenRequest.presents : TokenRequest → Option ℕ
  | .refreshAccessToken token => some token
  | _ => none

/-- Why a refresh is refused. The first four are the source's own exceptions; the last
is what the database throws. -/
inductive TokenRefusal where
  | invalid
  | revoked
  | expired
  | deactivated
  /-- The row to revoke is gone. -/
  | failed
deriving DecidableEq, Repr

/-- How a call returns: with the token that was issued, with a refusal, or with nothing
to say. -/
inductive TokenAnswer where
  | accepted (token : ℕ)
  | refused (refusal : TokenRefusal)
  | done
deriving DecidableEq

/-- The statement a call comes to next. A refresh looks its token up, revokes it and
issues another, and other calls run between these. -/
inductive TokenStage where
  /-- The lookup of a refresh; the only statement of the other calls. -/
  | first
  /-- A revoked token was presented. -/
  | revokingAll (userId : ℕ)
  | rotating (token : ℕ) (row : RefreshToken)
  | issuing (token : ℕ) (row : RefreshToken)
  | ending (answer : TokenAnswer)
  | returned (answer : TokenAnswer)

/-- A call under way: what it was asked, the statement it comes to next, and what is
remembered of it in order to say what it did. The code keeps none of the latter. -/
structure TokenCall where
  request : TokenRequest
  stage : TokenStage
  begunAt : ℕ
  returnedAt : Option ℕ
  /-- The tokens before this one had been issued when it began. -/
  issuedBefore : ℕ
  /-- It presents a token that had been exchanged and not expired when it began. -/
  reuse : Bool
  /-- Between its revocation and its issue, its token was logged out or the tokens
  of its user were revoked for reuse. -/
  overtaken : Bool

/-- A token was issued in exchange for another, by which call. The list of them is
ghost: the rows do not say what a token was exchanged for. -/
structure TokenIssue where
  parent : ℕ
  token : ℕ
  /-- The call that issued it. -/
  issuer : ℕ
  /-- The other had been revoked by a logout. -/
  loggedOut : Bool
deriving DecidableEq

/-- What a call is answered besides the rows: the clock, and what is read of the user.
-/
structure TokenTurn where
  now : Instant
  /-- `user.isActive` -/
  active : Bool
  /-- When a token that is created now expires. -/
  expiresAt : Instant

/-- What happens next: a call begins, or one that began goes on. Calls may go on in any
order. -/
inductive TokenEvent where
  | begin (id : ℕ) (now : Instant) (request : TokenRequest)
  /-- The call executes its next statement, or returns. -/
  | next (id : ℕ) (turn : TokenTurn)

/-- The table with everything that is remembered about a run: the calls by their id,
each token as it was created, the exchanges in order, and which tokens a logout revoked.
-/
structure TokenDesk where
  table : TokenTable
  calls : ℕ → Option TokenCall
  /-- Every token as it was created. -/
  created : ℕ → Option RefreshToken
  issues : List TokenIssue
  loggedOut : ℕ → Bool
  clock : ℕ

namespace TokenDesk

/-- Tokens of which none has been exchanged, and no calls. -/
def start (table : TokenTable) : TokenDesk :=
  ⟨table, fun _ => none, table.rows, [], fun _ => false, 0⟩

/-- The where clause of `revokeAllUserTokens`. -/
def isLiveOf (userId : ℕ) (_ : ℕ) (row : RefreshToken) : Bool :=
  row.userId == userId && row.revokedAt.isNone

/-- The where clause of the logout of one token. -/
def isOwn (userId token : ℕ) (other : ℕ) (row : RefreshToken) : Bool :=
  other == token && row.userId == userId

/-- The call presents a token that has been exchanged and has not expired. -/
def reuses (desk : TokenDesk) (now : Instant) : TokenRequest → Bool
  | .refreshAccessToken token =>
    desk.issues.any (·.parent == token) &&
      (desk.created token).any fun row => !decide (row.expiresAt < now)
  | _ => false

/-- A call as it stands now. -/
def put (desk : TokenDesk) (id : ℕ) (call : TokenCall) : TokenDesk :=
  { desk with calls := Function.update desk.calls id (some call) }

/-- A revocation, as a step of the run. What is remembered of it is written apart. -/
def revoke (desk : TokenDesk) (p : ℕ → RefreshToken → Bool) (now : Instant) : TokenDesk :=
  { desk with table := desk.table.revoke p now }

/-- The rows that meet a condition are about to be revoked by a logout. -/
def logOut (desk : TokenDesk) (p : ℕ → RefreshToken → Bool) : TokenDesk :=
  { desk with
    loggedOut := fun token => desk.loggedOut token || (desk.table.rows token).any (p token) }

/-- The calls that are to issue a successor of such a token are overtaken. -/
def overtake (desk : TokenDesk) (p : ℕ → RefreshToken → Bool) : TokenDesk :=
  { desk with
    calls := fun id => (desk.calls id).map fun call =>
      match call.stage with
      | .issuing token row => { call with overtaken := call.overtaken || p token row }
      | _ => call }

/-- What a lookup leads to. -/
def lookedUp (desk : TokenDesk) (token : ℕ) (turn : TokenTurn) : TokenStage :=
  match desk.table.rows token with
  | none => .ending (.refused .invalid)
  | some row =>
    if row.revokedAt.isSome then .revokingAll row.userId
    else if row.expiresAt < turn.now then .ending (.refused .expired)
    else if !turn.active then .ending (.refused .deactivated)
    else .rotating token row

/-- The first statement of a call. -/
def executeFirst (desk : TokenDesk) (id : ℕ) (call : TokenCall) (turn : TokenTurn) :
    TokenDesk :=
  match call.request with
  | .refreshAccessToken token =>
    desk.put id { call with stage := desk.lookedUp token turn }
  | .logout userId (some token) =>
    (((desk.logOut (isOwn userId token)).overtake (isOwn userId token)).revoke
      (isOwn userId token) turn.now).put id { call with stage := .ending .done }
  | .logout userId none =>
    ((desk.logOut (isLiveOf userId)).revoke (isLiveOf userId) turn.now).put id
      { call with stage := .ending .done }
  | .revokeAllUserTokens userId =>
    (desk.revoke (isLiveOf userId) turn.now).put id { call with stage := .ending .done }
  | .cleanupExpiredTokens =>
    { desk with
      table := desk.table.delete fun row =>
        decide (row.expiresAt < turn.now) || row.revokedAt.isSome }.put id
      { call with stage := .ending .done }

/-- `createRefreshToken`, at the end of a rotation. -/
def issue (desk : TokenDesk) (id token : ℕ) (row : RefreshToken) (turn : TokenTurn) :
    TokenDesk :=
  let successor : RefreshToken := ⟨row.userId, turn.expiresAt, none⟩
  { desk with
    table := desk.table.create successor
    created := Function.update desk.created desk.table.next (some successor)
    issues := desk.issues ++ [⟨token, desk.table.next, id, desk.loggedOut token⟩] }

/-- The next statement of a call. -/
def execute (desk : TokenDesk) (id : ℕ) (call : TokenCall) (turn : TokenTurn) : TokenDesk :=
  match call.stage with
  | .first => desk.executeFirst id call turn
  | .revokingAll userId =>
    ((desk.overtake fun _ row => row.userId == userId).revoke (isLiveOf userId) turn.now).put
      id { call with stage := .ending (.refused .revoked) }
  | .rotating token row =>
    match desk.table.rows token with
    | none => desk.put id { call with stage := .ending (.refused .failed) }
    | some _ =>
      (desk.revoke (fun other _ => other == token) turn.now).put id
        { call with stage := .issuing token row }
  | .issuing token row =>
    (desk.issue id token row turn).put id
      { call with stage := .ending (.accepted desk.table.next) }
  | .ending answer =>
    desk.put id { call with stage := .returned answer, returnedAt := some desk.clock }
  | .returned _ => desk

/-- A call starts. -/
def begun (desk : TokenDesk) (now : Instant) (request : TokenRequest) : TokenCall :=
  ⟨request, .first, desk.clock, none, desk.table.next, desk.reuses now request, false⟩

/-- What an event does to the rows and the calls. An id that is taken begins no second
call, and an id that is not taken has nothing to go on with. -/
def act (desk : TokenDesk) : TokenEvent → TokenDesk
  | .begin id now request =>
    match desk.calls id with
    | some _ => desk
    | none => desk.put id (desk.begun now request)
  | .next id turn =>
    match desk.calls id with
    | some call => desk.execute id call turn
    | none => desk

/-- An event, which takes one unit of the run's own time. -/
def step (desk : TokenDesk) (event : TokenEvent) : TokenDesk :=
  { desk.act event with clock := desk.clock + 1 }

/-! ## Single use -/

/-- The token would be accepted, if its user is active and it has not expired. -/
def Live (desk : TokenDesk) (token : ℕ) : Prop :=
  ∃ row ∈ desk.table.rows token, row.revokedAt = none

/-- The token was issued to the user. -/
def Owns (desk : TokenDesk) (userId token : ℕ) : Prop :=
  ∃ row ∈ desk.created token, row.userId = userId

/-- Each began before the other returned. -/
def Overlaps (call other : TokenCall) : Prop :=
  (∀ returned ∈ call.returnedAt, other.begunAt < returned) ∧
    ∀ returned ∈ other.returnedAt, call.begunAt < returned

/-- **A refresh token is exchanged at most once, and reuse ends the session**: whoever
presents a token that was exchanged is refused, and the tokens of the user are revoked.
-/
structure SingleUse (desk : TokenDesk) : Prop where
  once : desk.issues.Pairwise fun issue other => issue.parent ≠ other.parent
  /-- A reuse is refused, and once it has been, no token issued to the user before
  it, or by a refresh that overlaps it, is accepted. -/
  reused : ∀ id, ∀ call ∈ desk.calls id, call.reuse = true →
    ∀ answer, call.stage = .returned answer → (∃ refusal, answer = .refused refusal) ∧
      ∀ token userId other, call.request = .refreshAccessToken token →
        desk.Owns userId token → desk.Owns userId other →
          (other < call.issuedBefore ∨ ∃ issue ∈ desk.issues, issue.token = other ∧
            ∃ issuer ∈ desk.calls issue.issuer, Overlaps issuer call) →
          ¬ desk.Live other
  /-- No token is exchanged after a logout has revoked it. -/
  loggedOut : ∀ issue ∈ desk.issues, issue.loggedOut = false

/-- What a call finds that is about to execute its next statement. -/
def FindsUnchanged (desk : TokenDesk) (call : TokenCall) : Prop :=
  match call.stage with
  -- the row of a token that is reused has not been cleaned up
  | .first => call.reuse = true → ∀ token ∈ call.request.presents,
    desk.table.rows token ≠ none
  -- the row has not been revoked since it was looked up
  | .rotating token _ => ∀ row ∈ desk.table.rows token, row.revokedAt = none
  -- nor has the session been ended since the row was revoked
  | .issuing _ _ => call.overtaken = false
  | _ => True

/-- **Unraced**: a rotation writes only over what it has read, and the rows that
detect reuse are there. -/
def Unraced (desk : TokenDesk) : TokenEvent → Prop
  | .begin _ _ _ => True
  | .next id _ => ∀ call ∈ desk.calls id, FindsUnchanged desk call

instance (desk : TokenDesk) : DecidablePred (FindsUnchanged desk)
  | ⟨request, .first, _, _, _, reuse, _⟩ =>
    inferInstanceAs (Decidable (reuse = true → ∀ token ∈ request.presents,
      ¬ desk.table.rows token = none))
  | ⟨_, .rotating token _, _, _, _, _, _⟩ =>
    inferInstanceAs (Decidable (∀ row ∈ desk.table.rows token, row.revokedAt = none))
  | ⟨_, .issuing _ _, _, _, _, _, overtaken⟩ =>
    inferInstanceAs (Decidable (overtaken = false))
  | ⟨_, .revokingAll _, _, _, _, _, _⟩ => isTrue trivial
  | ⟨_, .ending _, _, _, _, _, _⟩ => isTrue trivial
  | ⟨_, .returned _, _, _, _, _, _⟩ => isTrue trivial

instance (desk : TokenDesk) : DecidablePred (Unraced desk)
  | .begin _ _ _ => isTrue trivial
  | .next id _ => inferInstanceAs (Decidable (∀ call ∈ desk.calls id, FindsUnchanged desk call))

end TokenDesk

end Opifex
