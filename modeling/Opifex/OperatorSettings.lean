import Opifex.Lib.Grouping
import Opifex.Lib.Journal
import Opifex.Lib.Json
import Opifex.Lib.Machine

/-!
# Operator settings

The stored settings, the overlay one process keeps of them in memory, and the calls
that are under way in it. `get` reads the memory. A refresh reads all rows and the
revision in one transaction and replaces the overlay when the result comes; a write
is one transaction, which moves the revision on, and then re-reads, leaves an audit
row and announces its key; a `PATCH` refreshes, compares the revision in memory with
`If-Match` and makes its writes one after another.

A call stops wherever the code awaits. The database executes what a call waits for
at any moment (`SettingsEvent.execute`), and the process takes the result up at any
later one (`SettingsEvent.proceed`), so reads may be taken up in another order than
they were made in. Other processes write to the same rows
(`SettingsEvent.elsewhere`).

The journal beside the rows is no part of the code: it keeps what each revision
held, so that what the memory shows can be compared with it.
-/

namespace Opifex

/-- The JSON text of a value, as `JSON.stringify` prints it. -/
abbrev JsonText := String

/-! ## Entries -/

/-- `SealedSecret`: what is stored of a secret. The tag goes with the ciphertext and is
left out. -/
structure SealedSecret where
  keyVersion : ℕ
  iv : String
  ciphertext : String
  /-- The nonce is base64. -/
  base64 : ':' ∉ iv.toList
deriving DecidableEq

/-- `OverlayEntry`: the two shapes a row can have, by the constraint of its table: a
plain value, or the envelope of a secret. -/
inductive OverlayEntry where
  | value (raw : JsonText)
  | secret (envelope : SealedSecret)
deriving DecidableEq

/-- `fingerprint` -/
def fingerprint : OverlayEntry → String
  | .value raw => "v:" ++ raw
  | .secret envelope =>
    "s:" ++ toString envelope.keyVersion ++ ":" ++ envelope.iv ++ ":" ++
      envelope.ciphertext

/-- `diffOverlays` -/
def diffOverlays (previous next : KeyMap String OverlayEntry) : List String :=
  (next.entries.filter fun entry =>
      (previous.get entry.1).map fingerprint ≠ some (fingerprint entry.2)).map Prod.fst ++
    (previous.entries.map Prod.fst).filter fun key => (next.get key).isNone

/-! ## The registry -/

/-- Where the value in force comes from. The database wins over the environment, and the
environment over the default. -/
inductive SettingSource where
  | default
  | env
  | database
deriving DecidableEq, Repr

/-- `ResolvedOperatorSetting`: the value that is in force with the layer it comes from,
and what was wrong with a layer above it. -/
structure ResolvedSetting where
  value : JsonText
  source : SettingSource
  /-- A value was supplied there and rejected for this. -/
  invalid : Option (SettingSource × String) := none
  /-- A stored secret does not open. -/
  error : Option String := none
deriving DecidableEq

/-- `OPERATOR_SETTINGS`, with the environment below the rows. The registry is fixed;
what the rows hold is above the environment, and that above the defaults. -/
structure SettingsRegistry where
  /-- `isOperatorSettingKey` -/
  isManaged : String → Bool
  isSecret : String → Bool
  /-- `parseOperatorSetting` -/
  parse : String → JsonText → Except String JsonText
  default : String → JsonText
  invalidFallback : String → Option JsonText
  /-- `environmentValue` -/
  environment : String → Option JsonText
  /-- `resolveSecret` of an envelope. -/
  openSealed : String → SealedSecret → Except String JsonText

namespace SettingsRegistry

variable (registry : SettingsRegistry)

/-- The value in force where what was supplied does not parse: the one the registry
names for it, or else the default. -/
def invalidFallbackValue (key : String) : JsonText :=
  (registry.invalidFallback key).getD (registry.default key)

/-- What a supplied value resolves to. -/
def resolveSupplied (key : String) (source : SettingSource) (raw : JsonText) :
    ResolvedSetting :=
  match registry.parse key raw with
  | .ok value => { value := value, source := source }
  | .error reason =>
    { value := registry.invalidFallbackValue key, source := .default,
      invalid := some (source, reason) }

/-- `resolveSecretSetting`: a secret that does not open is not looked for in the
environment. -/
def resolveSecretSetting (key : String) (envelope : SealedSecret) : ResolvedSetting :=
  match registry.openSealed key envelope with
  | .error message =>
    { value := registry.default key, source := .default, error := some message }
  | .ok value => registry.resolveSupplied key .database value

/-- `resolve`: from the entry of the key's row. -/
def resolve (key : String) (stored : Option OverlayEntry) : ResolvedSetting :=
  match stored, registry.isSecret key with
  | some (.secret envelope), true => registry.resolveSecretSetting key envelope
  | some (.value raw), _ => registry.resolveSupplied key .database raw
  | _, _ =>
    match registry.environment key with
    | some raw => registry.resolveSupplied key .env raw
    | none => { value := registry.default key, source := .default }

end SettingsRegistry

/-! ## Writes -/

/-- What is asked of `set` and `clear`: to leave a value at a key, or to take away what
is stored there. -/
inductive SettingWrite where
  /-- The value, and what sealing it would give. -/
  | set (key : String) (raw : JsonText) (sealing : Except String SealedSecret)
  | clear (key : String)

/-- The key of a change. -/
def SettingWrite.key : SettingWrite → String
  | .set key _ _ => key
  | .clear key => key

/-- Why a call throws: what it asks for is refused, its revision is not the one in
memory or cannot be told, or a transaction of it fails. -/
inductive SettingsRefusal where
  | unknownKey (key : String)
  | invalidValue (key reason : String)
  /-- No encryption key is configured. -/
  | notSealed (problem : String)
  | missingPermission (secrets : List String)
  | malformedIfMatch (received : String)
  | revisionUnreadable
  | staleRevision (current : ℕ) (expected : ℤ)
  | transactionFailed (problem : String)
deriving DecidableEq

/-- What a transaction is to do: leave this entry, or none. A value that was asked for
has been checked and sealed by then. -/
structure SettledWrite where
  key : String
  entry : Option OverlayEntry
deriving DecidableEq

/-- What `set` and `clear` do before their transaction. An empty secret is
cleared. -/
def SettingsRegistry.settle (registry : SettingsRegistry) :
    SettingWrite → Except SettingsRefusal SettledWrite
  | .clear key =>
    if registry.isManaged key then .ok ⟨key, none⟩ else .error (.unknownKey key)
  | .set key raw sealing =>
    if !registry.isManaged key then .error (.unknownKey key)
    else
      match registry.parse key raw with
      | .error reason => .error (.invalidValue key reason)
      | .ok value =>
        if !registry.isSecret key then .ok ⟨key, some (.value value)⟩
        else if value = Json.quote "" then .ok ⟨key, none⟩
        else
          match sealing with
          | .error problem => .error (.notSealed problem)
          | .ok envelope => .ok ⟨key, some (.secret envelope)⟩

/-- The rows of `operator_settings`, and the counter beside them, which every
transaction that changes a row moves on. -/
structure StoredSettings where
  rows : KeyMap String OverlayEntry
  revision : ℕ

/-- A clear that finds no row changes nothing. -/
def StoredSettings.changes (stored : StoredSettings) (write : SettledWrite) : Bool :=
  write.entry.isSome || (stored.rows.get write.key).isSome

/-- The transaction of `set` or `clear`: the row and the counter together. -/
def StoredSettings.commit (stored : StoredSettings) (write : SettledWrite) :
    StoredSettings :=
  match write.entry with
  | some entry => ⟨stored.rows.set write.key entry, stored.revision + 1⟩
  | none =>
    if (stored.rows.get write.key).isSome then
      ⟨stored.rows.erase write.key, stored.revision + 1⟩
    else stored

/-! ## The overlay -/

/-- Whether the last refresh could read the rows. A memory whose refresh failed keeps
what it had. -/
inductive OverlayStatus where
  | loaded
  | unavailable
deriving DecidableEq, Repr

/-- `OperatorSettingsOverlayState`: what the process says of its memory, and of the last
attempt to refresh it. -/
structure OverlayState where
  status : OverlayStatus
  revision : Option ℕ
  overriddenKeys : ℕ
  problem : Option String := none
  /-- Whether a load has succeeded before, where the last one did not. -/
  stale : Option Bool := none

/-- The memory of `OperatorSettingsService`: the rows as this process read them last,
and what it says of them. -/
structure SettingsMemory where
  overlayRows : KeyMap String OverlayEntry
  lastRefreshChanged : List String
  overlayState : OverlayState
  /-- `loadedAt` is set. -/
  loaded : Bool

namespace SettingsMemory

/-- The memory of a process before its first refresh. -/
def notLoaded : SettingsMemory where
  overlayRows := KeyMap.empty
  lastRefreshChanged := []
  overlayState :=
    { status := .unavailable, revision := none, overriddenKeys := 0,
      problem := some "the operator settings overlay has not been loaded yet" }
  loaded := false

/-- The rest of `refresh`, once its read has been answered. -/
def install (registry : SettingsRegistry) (memory : SettingsMemory)
    (read : StoredSettings) : SettingsMemory :=
  let next := read.rows.keep registry.isManaged
  { overlayRows := next
    lastRefreshChanged := diffOverlays memory.overlayRows next
    overlayState :=
      { status := .loaded, revision := some read.revision,
        overriddenKeys := next.entries.length }
    loaded := true }

/-- `markUnavailable`: the rows and the revision stay. -/
def markUnavailable (memory : SettingsMemory) (problem : String) : SettingsMemory :=
  { memory with
    lastRefreshChanged := []
    overlayState :=
      { status := .unavailable, revision := memory.overlayState.revision,
        overriddenKeys := memory.overlayRows.entries.length,
        problem := some problem, stale := some memory.loaded } }

/-- `get` -/
def get (registry : SettingsRegistry) (memory : SettingsMemory) (key : String) :
    JsonText :=
  (registry.resolve key (memory.overlayRows.get key)).value

end SettingsMemory

/-! ## Calls -/

/-- An `If-Match` header, without its blanks and quotes. Only a revision asks for the
check. -/
inductive IfMatch where
  | absent
  /-- `*` -/
  | any
  | malformed (received : String)
  | revision (expected : ℤ)
deriving DecidableEq

/-- `assertFresh` -/
def assertFresh (overlay : Option ℕ) : IfMatch → Except SettingsRefusal Unit
  | .absent => .ok ()
  | .any => .ok ()
  | .malformed received => .error (.malformedIfMatch received)
  | .revision expected =>
    match overlay with
    | none => .error .revisionUnreadable
    | some current =>
      if (current : ℤ) = expected then .ok ()
      else .error (.staleRevision current expected)

/-- What a process is asked to do with the settings. A patch has several changes, each
with a transaction of its own. -/
inductive SettingsRequest where
  /-- One turn of the 15 second loop, or the load at boot. -/
  | refresh
  | write (write : SettingWrite)
  /-- A `PATCH`, by a user who may or may not write secrets. -/
  | patch (maySetSecrets : Bool) (ifMatch : IfMatch) (changes : List SettingWrite)

/-- What a call has still to do. A patch is a refresh, a check and a write for each
change, in this order. -/
inductive SettingsTask where
  | refresh
  | assertFresh (ifMatch : IfMatch)
  | write (write : SettingWrite)

/-- The parts of a request, each with its own statements. A `PATCH` refreshes, compares
the revision, and then makes its changes one by one. -/
def SettingsRequest.tasks : SettingsRequest → List SettingsTask
  | .refresh => [.refresh]
  | .write change => [.write change]
  | .patch _ ifMatch changes => .refresh :: .assertFresh ifMatch :: changes.map .write

/-- What refuses a `PATCH` before anything is read: the DTO, and
`assertMaySetSecrets`. -/
def SettingsRegistry.admit (registry : SettingsRegistry) :
    SettingsRequest → Except SettingsRefusal Unit
  | .refresh => .ok ()
  | .write _ => .ok ()
  | .patch maySetSecrets _ changes =>
    match changes.find? (fun change => !registry.isManaged change.key) with
    | some change => .error (.unknownKey change.key)
    | none =>
      let secrets := (changes.map (·.key)).filter registry.isSecret
      if secrets ≠ [] ∧ maySetSecrets = false then .error (.missingPermission secrets)
      else .ok ()

/-- A row a call has changed, at the revision of its transaction. -/
structure ChangedRow where
  key : String
  revision : ℕ
deriving DecidableEq

/-- How the transaction of a write ended: it failed, it changed a row, or there was
nothing to change. -/
inductive WriteOutcome where
  | failed (problem : String)
  /-- A clear that found no row, at this revision. -/
  | unchanged (key : String) (revision : ℕ)
  | changed (row : ChangedRow)
deriving DecidableEq

/-- Where a call stands: between two of its tasks, before or after a statement of the
database, or at its end. -/
inductive SettingsStage where
  | ready
  /-- The read of a refresh is under way, for a write that has committed or not. -/
  | reading (own : Option ChangedRow)
  | read (answer : Except String StoredSettings) (own : Option ChangedRow)
  | writing (write : SettledWrite)
  | written (outcome : WriteOutcome)
  /-- The audit row is under way; whether the write's own read was answered. -/
  | auditing (row : ChangedRow) (reread : Bool)
  | returned
  | rejected (refusal : SettingsRefusal)

/-- A write that was carried out, and what became of it. The list of them is ghost: it
is what a call did, in its order. -/
structure CarriedWrite where
  write : SettingWrite
  settled : SettledWrite
  outcome : WriteOutcome

/-- A call under way: what is left of it, what it waits for, and what it has carried
out. -/
structure SettingsCall where
  request : SettingsRequest
  /-- A write stays here until its transaction has succeeded. -/
  tasks : List SettingsTask
  stage : SettingsStage
  /-- The writes whose transactions have succeeded, in their order. -/
  carried : List CarriedWrite
  /-- The revision in memory when `assertFresh` let the call pass. -/
  passedAt : Option (Option ℕ)

/-- What was announced, and the revision in memory then. Listeners read the memory, so
what they see is of that revision or a later one. -/
structure Announcement where
  keys : List String
  shown : Option ℕ

/-- A `set` or `clear` whose promise has resolved: the write to the key it is to be
followed by, which is its own if it changed the row. -/
structure ResolvedWrite where
  row : ChangedRow
  changed : Bool

/-! ## The whole -/

/-- The stored settings, the memory of one process, and the calls of it under way, with
what is remembered of the run: the writes to the rows in order, what was announced, and
what was resolved. -/
structure SettingsDesk where
  stored : StoredSettings
  memory : SettingsMemory
  calls : ℕ → Option SettingsCall
  /-- The writes to the rows so far, each by a call of this process or by another
  process. -/
  journal : Journal (Option ℕ) String OverlayEntry
  announced : List Announcement
  resolved : List ResolvedWrite

/-- What happens next. A call waits for the database between two of its steps, and other
processes write to the rows at any moment. -/
inductive SettingsEvent where
  | begin (id : ℕ) (request : SettingsRequest)
  /-- The database executes what the call waits for, or fails to. -/
  | execute (id : ℕ) (failure : Option String)
  /-- The process takes up what the call waits for, up to the next `await`. -/
  | proceed (id : ℕ)
  | elsewhere (write : SettledWrite)

namespace SettingsDesk

/-- Nothing has been loaded and no call is under way. -/
def boot (stored : StoredSettings) : SettingsDesk where
  stored := stored
  memory := SettingsMemory.notLoaded
  calls := fun _ => none
  journal := Journal.start stored.rows.get stored.revision
  announced := []
  resolved := []

/-- The revision that `overlay()` reports. -/
def revision (desk : SettingsDesk) : Option ℕ := desk.memory.overlayState.revision

/-- A call as it stands now. -/
def put (desk : SettingsDesk) (id : ℕ) (call : SettingsCall) : SettingsDesk :=
  { desk with calls := Function.update desk.calls id (some call) }

/-- A transaction commits. -/
def commit (desk : SettingsDesk) (author : Option ℕ) (write : SettledWrite) :
    SettingsDesk :=
  { desk with
    stored := desk.stored.commit write
    journal :=
      if desk.stored.changes write then desk.journal.write author write.key write.entry
      else desk.journal }

/-- `notifyChanged`: no keys, no event. -/
def notifyChanged (desk : SettingsDesk) (keys : List String) : SettingsDesk :=
  { desk with
    announced := if keys = [] then desk.announced
      else desk.announced ++ [⟨keys, desk.revision⟩] }

/-- `refresh` takes up what its read was answered. -/
def refreshed (registry : SettingsRegistry) (desk : SettingsDesk) :
    Except String StoredSettings → SettingsDesk
  | .error problem => { desk with memory := desk.memory.markUnavailable problem }
  | .ok read =>
    let memory := desk.memory.install registry read
    { desk with memory := memory }.notifyChanged memory.lastRefreshChanged

/-- The promise of a write resolves. -/
def withResolved (desk : SettingsDesk) (writes : List ResolvedWrite) : SettingsDesk :=
  { desk with resolved := desk.resolved ++ writes }

/-- What a clear that found no row at a revision is to be followed by. -/
def leftBy (desk : SettingsDesk) (key : String) (revision : ℕ) : List ResolvedWrite :=
  ((desk.journal.last revision key).map fun write =>
    ⟨⟨key, write.revision⟩, false⟩).toList

/-- How a transaction that is to succeed ends. -/
def outcomeOf (desk : SettingsDesk) (write : SettledWrite) : WriteOutcome :=
  if desk.stored.changes write then .changed ⟨write.key, desk.stored.revision + 1⟩
  else .unchanged write.key desk.stored.revision

/-- The database executes what a call waits for. -/
def executed (desk : SettingsDesk) (id : ℕ) (call : SettingsCall)
    (failure : Option String) : SettingsDesk :=
  match call.stage, call.tasks with
  | .reading own, _ =>
    let answer := match failure with
      | some problem => .error problem
      | none => .ok desk.stored
    desk.put id { call with stage := .read answer own }
  | .writing settled, .write write :: tasks =>
    match failure with
    | some problem => desk.put id { call with stage := .written (.failed problem) }
    | none =>
      let outcome := desk.outcomeOf settled
      (desk.commit (some id) settled).put id
        { call with
          tasks := tasks
          stage := .written outcome
          carried := call.carried ++ [⟨write, settled, outcome⟩] }
  | _, _ => desk

/-- A call goes on to its next task. -/
def resume (registry : SettingsRegistry) (desk : SettingsDesk) (call : SettingsCall) :
    SettingsCall :=
  match call.tasks with
  | [] => { call with stage := .returned }
  | .refresh :: tasks => { call with tasks := tasks, stage := .reading none }
  | .assertFresh ifMatch :: tasks =>
    match assertFresh desk.revision ifMatch with
    | .error refusal => { call with stage := .rejected refusal }
    | .ok () => { call with tasks := tasks, passedAt := some desk.revision }
  | .write write :: _ =>
    match registry.settle write with
    | .error refusal => { call with stage := .rejected refusal }
    | .ok settled => { call with stage := .writing settled }

/-- The process takes up what a call waits for. After its transaction a write
refreshes, leaves an audit row, and announces its key if the last refresh of the
process has not (`afterWrite`). -/
def proceeded (registry : SettingsRegistry) (desk : SettingsDesk) (id : ℕ)
    (call : SettingsCall) : SettingsDesk :=
  match call.stage with
  | .ready => desk.put id (desk.resume registry call)
  | .read answer own =>
    (desk.refreshed registry answer).put id
      { call with
        stage := own.elim .ready fun row => .auditing row answer.isOk }
  | .written (.failed problem) =>
    desk.put id { call with stage := .rejected (.transactionFailed problem) }
  | .written (.unchanged key revision) =>
    (desk.withResolved (desk.leftBy key revision)).put id { call with stage := .ready }
  | .written (.changed row) => desk.put id { call with stage := .reading (some row) }
  | .auditing row _ =>
    let keys := if row.key ∈ desk.memory.lastRefreshChanged then [] else [row.key]
    ((desk.notifyChanged keys).withResolved [⟨row, true⟩]).put id { call with stage := .ready }
  | _ => desk

/-- A call starts. -/
def begun (registry : SettingsRegistry) (request : SettingsRequest) : SettingsCall :=
  match registry.admit request with
  | .ok () => ⟨request, request.tasks, .ready, [], none⟩
  | .error refusal => ⟨request, request.tasks, .rejected refusal, [], none⟩

/-- An event: a call begins, the database answers it, the process takes the answer up,
or another process writes. -/
def step (registry : SettingsRegistry) (desk : SettingsDesk) :
    SettingsEvent → SettingsDesk
  | .begin id request =>
    match desk.calls id with
    | some _ => desk
    | none => desk.put id (begun registry request)
  | .execute id failure =>
    match desk.calls id with
    | some call => desk.executed id call failure
    | none => desk
  | .proceed id =>
    match desk.calls id with
    | some call => desk.proceeded registry id call
    | none => desk
  | .elsewhere write => desk.commit none write

end SettingsDesk

end Opifex
