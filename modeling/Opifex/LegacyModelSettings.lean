import Opifex.Lib.Faults
import Opifex.OperatorSettings

/-!
# Moving the legacy model settings

The one model credential and its base URL go to the slots of the selected provider. A
ciphertext is bound to its setting key, so the move opens under the old key, writes
through the ordinary path of the settings, which seals under the new one, and deletes
the old row last.

Every statement may fail, with or without being carried out, or be the one before which
the process is killed. A destination that holds a value keeps it, a row that cannot be
read stays, and a run that came to its end leaves nothing for the next
(`KeepsCredentials`). The write is not guarded: a plain row is readable without the
encryption key, but the credential in it cannot be sealed, and a transaction that fails
throws as well. And a blank credential is cleared rather than stored before its row is
dropped. `keepsCredentials_iff` is that nothing else goes wrong.
-/

namespace Opifex

open Faults

/-! ## The secret box -/

/-- AES-256-GCM on base64 texts; a ciphertext comes with its tag. What is assumed of it
stands in `Authentic`, `Nonce` and the byte counts. -/
structure Cipher where
  Key : Type
  encrypt : Key → (iv aad plaintext : String) → String
  /-- None is a tag that does not verify. -/
  decrypt : Key → (iv aad ciphertext : String) → Option String
  ivBytes : String → ℕ
  tagBytes : String → ℕ

/-- What was encrypted opens under the same additional data, and the tag has its sixteen
bytes. Nothing is assumed of what opens under other data. -/
structure Cipher.Authentic (cipher : Cipher) : Prop where
  opens : ∀ key iv aad plaintext,
    cipher.decrypt key iv aad (cipher.encrypt key iv aad plaintext) = some plaintext
  tag : ∀ key iv aad plaintext, cipher.tagBytes (cipher.encrypt key iv aad plaintext) = 16

/-- `randomBytes(IV_BYTES)` -/
structure Cipher.Nonce (cipher : Cipher) where
  text : String
  bytes : cipher.ivBytes text = 12
  base64 : ':' ∉ text.toList

/-- Why a sealed secret cannot be opened. `SecretBox` distinguishes them; the migration
does not. -/
inductive OpenFailureReason where
  | keyUnavailable
  | malformedEnvelope
  | unsupportedKeyVersion
  | decryptFailed
deriving DecidableEq, Repr

/-- `secret-box.ts`, in a process: the cipher, and the key the process was given, or why
it has none. -/
structure SecretBox where
  cipher : Cipher
  /-- `loadKey`: or why there is no key. -/
  key : Except String cipher.Key

namespace SecretBox

/-- The version that a secret sealed now is of. -/
def currentKeyVersion : ℕ := 1

/-- The versions that can still be opened. -/
def supportedKeyVersions : List ℕ := [1]

/-- What a secret is bound to besides its key: the version, and the setting it was
sealed for. A secret moved to another setting's row does not open. -/
def additionalData (keyVersion : ℕ) (settingKey : String) : String :=
  "v" ++ toString keyVersion ++ ":" ++ settingKey

variable (box : SecretBox)

/-- `seal`: the error is why. -/
def sealSecret (nonce : box.cipher.Nonce) (plaintext settingKey : String) :
    Except String SealedSecret :=
  if plaintext = "" then
    .error "seal requires a non-empty plaintext; clear a secret by removing the stored value instead of sealing an empty string."
  else
    match box.key with
    | .error problem => .error ("Secrets cannot be stored: " ++ problem)
    | .ok key =>
      .ok ⟨currentKeyVersion, nonce.text,
        box.cipher.encrypt key nonce.text (additionalData currentKeyVersion settingKey) plaintext,
        nonce.base64⟩

/-- `open` -/
def openSecret (sealed : SealedSecret) (settingKey : String) :
    Except OpenFailureReason String :=
  match box.key with
  | .error _ => .error .keyUnavailable
  | .ok key =>
    if sealed.keyVersion ∉ supportedKeyVersions then .error .unsupportedKeyVersion
    else if box.cipher.ivBytes sealed.iv ≠ 12 ∨ box.cipher.tagBytes sealed.ciphertext ≠ 16 then
      .error .malformedEnvelope
    else
      match box.cipher.decrypt key sealed.iv (additionalData sealed.keyVersion settingKey)
        sealed.ciphertext with
      | some plaintext => .ok plaintext
      | none => .error .decryptFailed

variable {box}

/-- **What is sealed opens under its key.** -/
theorem openSecret_sealSecret (hcipher : box.cipher.Authentic) {nonce : box.cipher.Nonce}
    {plaintext settingKey : String} {sealed : SealedSecret}
    (h : box.sealSecret nonce plaintext settingKey = .ok sealed) :
    box.openSecret sealed settingKey = .ok plaintext := by
  unfold sealSecret at h
  by_cases hempty : plaintext = ""
  · rw [if_pos hempty] at h
    contradiction
  rw [if_neg hempty] at h
  unfold openSecret
  cases hkey : box.key with
  | error problem =>
    rw [hkey] at h
    contradiction
  | ok key =>
    rw [hkey] at h
    obtain rfl := Except.ok.inj h
    dsimp only
    rw [if_neg (show ¬ currentKeyVersion ∉ supportedKeyVersions by decide),
      if_neg (by simp [nonce.bytes, hcipher.tag]), hcipher.opens]

/-- Without a key nothing is sealed, and with one only the empty secret is not. -/
theorem isOk_sealSecret (nonce : box.cipher.Nonce) (plaintext settingKey : String) :
    (box.sealSecret nonce plaintext settingKey).isOk
      = (decide (plaintext ≠ "") && box.key.isOk) := by
  unfold sealSecret
  by_cases hempty : plaintext = ""
  · rw [if_pos hempty, hempty]
    rfl
  · rw [if_neg hempty, decide_eq_true hempty, Bool.true_and]
    cases box.key with
    | error problem => rfl
    | ok key => rfl

end SecretBox

/-! ## The credential slots -/

/-- The providers, each with slots of its own for a credential and a base URL. -/
inductive SupervisorModelProvider where
  | anthropic
  | openai
deriving DecidableEq, Repr

namespace SupervisorModelProvider

/-- The provider as a setting stores it, and as its slots are named. -/
def name : SupervisorModelProvider → String
  | .anthropic => "anthropic"
  | .openai => "openai"

end SupervisorModelProvider

/-- Every provider. The registry has the slots of each. -/
def supervisorModelProviders : List SupervisorModelProvider := [.anthropic, .openai]

/-- The two settings that were superseded, each by a slot of the provider that was
chosen. -/
inductive LegacyModelSetting where
  | apiKey
  | baseUrl
deriving DecidableEq, Repr

namespace LegacyModelSetting

/-- The key of a legacy setting, from before there were slots. -/
def key : LegacyModelSetting → String
  | .apiKey => "supervisor.model.apiKey"
  | .baseUrl => "supervisor.model.baseUrl"

/-- `modelApiKeySettingKey` and `modelBaseUrlSettingKey`. -/
def slot (provider : SupervisorModelProvider) : LegacyModelSetting → String
  | .apiKey => "models." ++ provider.name ++ ".apiKey"
  | .baseUrl => "models." ++ provider.name ++ ".baseUrl"

/-- Only the API key is a secret. -/
def isSecret : LegacyModelSetting → Bool
  | .apiKey => true
  | .baseUrl => false

/-- A key names one of the slots. -/
def hasSlot (setting : LegacyModelSetting) (key : String) : Bool :=
  supervisorModelProviders.any fun provider => key == setting.slot provider

end LegacyModelSetting

/-- `stringSetting`: what its schema makes of a value. -/
def stringSetting (allowEmpty : Bool) (formatted : String → Bool) (raw : JsonText) :
    Except String JsonText :=
  match Json.unquote raw with
  | none => .error "Invalid input: expected string"
  | some text =>
    if (if Text.trim text = "" then allowEmpty else formatted (Text.trim text)) then
      .ok (Json.quote (Text.trim text))
    else .error "Invalid input"

/-- The registry with the slots of `modelCredentialSettings` in it. What the URL standard
accepts is an argument. -/
def withModelCredentialSettings (isUrl : String → Bool) (rest : SettingsRegistry) :
    SettingsRegistry where
  isManaged key :=
    LegacyModelSetting.apiKey.hasSlot key || LegacyModelSetting.baseUrl.hasSlot key ||
      rest.isManaged key
  isSecret key :=
    if LegacyModelSetting.apiKey.hasSlot key then true
    else if LegacyModelSetting.baseUrl.hasSlot key then false
    else rest.isSecret key
  parse key raw :=
    if LegacyModelSetting.apiKey.hasSlot key then stringSetting true (fun _ => true) raw
    else if LegacyModelSetting.baseUrl.hasSlot key then stringSetting true isUrl raw
    else rest.parse key raw
  default key :=
    if LegacyModelSetting.apiKey.hasSlot key || LegacyModelSetting.baseUrl.hasSlot key then
      Json.quote ""
    else rest.default key
  invalidFallback := rest.invalidFallback
  environment := rest.environment
  openSealed := rest.openSealed

/-! ## The migration -/

/-- A move: the legacy setting, and the key its value goes to. Where it goes depends on
the provider. -/
structure LegacyModelSettingMove where
  fromKey : LegacyModelSetting
  toKey : String
deriving DecidableEq

/-- The moves for a provider: the credential first, and then the base URL. -/
def legacyModelSettingMoves (provider : SupervisorModelProvider) :
    List LegacyModelSettingMove :=
  [⟨.apiKey, LegacyModelSetting.apiKey.slot provider⟩,
    ⟨.baseUrl, LegacyModelSetting.baseUrl.slot provider⟩]

/-- What became of one move. Only `moved` drops the legacy row: whatever was not moved
stays where it can be found. -/
inductive MoveResult where
  | moved
  /-- The destination already held a value. -/
  | occupied
  | unreadable
  /-- The registry refused the value for the new key. -/
  | rejected
deriving DecidableEq, Repr

/-- A move with what became of it, as the boot log reports it. -/
structure LegacyModelSettingOutcome where
  move : LegacyModelSettingMove
  result : MoveResult
deriving DecidableEq

/-- The statements of a run; the last four are about one setting. Each has a fate of its
own in a run. -/
inductive MigrationStatement where
  | findMany
  /-- The transaction of `set` or `clear`. -/
  | write (setting : LegacyModelSetting)
  /-- The read of the refresh after a write, and its audit row. -/
  | refresh (setting : LegacyModelSetting)
  | audit (setting : LegacyModelSetting)
  | dropLegacyRow (setting : LegacyModelSetting)
deriving DecidableEq, Repr

/-- What a deployment is set up with: the secret box, the registry, and the provider
that the settings resolve to. -/
structure ModelDeployment where
  box : SecretBox
  isUrl : String → Bool
  /-- The settings besides the slots. -/
  rest : SettingsRegistry
  /-- What `supervisor.model.provider` resolves to. -/
  provider : SupervisorModelProvider

namespace ModelDeployment

variable (deployment : ModelDeployment)

/-- The registry of the deployment: the slots of every provider and the legacy keys,
with the rest of the settings around them. -/
def registry : SettingsRegistry :=
  withModelCredentialSettings deployment.isUrl deployment.rest

/-- How the process is when the migration starts, and what it draws: a nonce for each of
the two moves. -/
structure Boot where
  /-- A database client is injected. -/
  wired : Bool
  overlay : OverlayStatus
  nonce : LegacyModelSetting → deployment.box.cipher.Nonce

/-- `readStoredValue` -/
def readStoredValue (row : OverlayEntry) (settingKey : String) :
    Except OpenFailureReason String :=
  match row with
  | .secret envelope => deployment.box.openSecret envelope settingKey
  | .value raw =>
    match Json.unquote raw with
    | some value => .ok value
    | none => .error .malformedEnvelope

/-- What sealing the parsed value gives. -/
def sealing (nonce : deployment.box.cipher.Nonce) (key : String) (raw : JsonText) :
    Except String SealedSecret :=
  match deployment.registry.parse key raw with
  | .error reason => .error reason
  | .ok value => deployment.box.sealSecret nonce ((Json.unquote value).getD value) key

/-- `afterWrite`: neither of its statements can fail the write, or changes a row. -/
def afterWrite (setting : LegacyModelSetting) :
    Program MigrationStatement StoredSettings Unit := do
  let _ ← Program.attempt (Program.statement (.refresh setting) fun stored => (stored, ()))
  let _ ← Program.attempt (Program.statement (.audit setting) fun stored => (stored, ()))
  pure ()

/-- `set`, for the row of a setting. -/
def set (nonce : deployment.box.cipher.Nonce) (setting : LegacyModelSetting)
    (key value : String) : Program MigrationStatement StoredSettings Unit :=
  let raw := Json.quote value
  match deployment.registry.settle (.set key raw (deployment.sealing nonce key raw)) with
  | .error _ => Program.throw
  | .ok write => do
    let changed ← Program.statement (.write setting) fun stored =>
      (stored.commit write, stored.changes write)
    if changed then afterWrite setting else pure ()

/-- `dropLegacyRow`: a failure is reported, and that is all. -/
def dropLegacyRow (setting : LegacyModelSetting) :
    Program MigrationStatement StoredSettings Unit := do
  let _ ← Program.attempt (Program.statement (.dropLegacyRow setting) fun stored =>
    (stored.commit ⟨setting.key, none⟩, ()))
  pure ()

/-- One move. The value is read, checked against the registry for its new key, and
stored there, and only then is the legacy row dropped. At any statement the process may
die. -/
def moveOne (boot : deployment.Boot) (move : LegacyModelSettingMove) (row : OverlayEntry)
    (destinationOccupied : Bool) :
    Program MigrationStatement StoredSettings LegacyModelSettingOutcome :=
  if destinationOccupied then pure ⟨move, .occupied⟩
  else
    match deployment.readStoredValue row move.fromKey.key with
    | .error _ => pure ⟨move, .unreadable⟩
    | .ok value =>
      match deployment.registry.parse move.toKey (Json.quote value) with
      | .error _ => pure ⟨move, .rejected⟩
      | .ok _ => do
        deployment.set (boot.nonce move.fromKey) move.fromKey move.toKey value
        -- the write first: the credential is in both slots rather than in none
        dropLegacyRow move.fromKey
        pure ⟨move, .moved⟩

/-- The loop of `migrate`, over the rows that were found. -/
def moveAll (boot : deployment.Boot) (rows : KeyMap String OverlayEntry) :
    List LegacyModelSettingMove →
    Program MigrationStatement StoredSettings (List LegacyModelSettingOutcome)
  | [] => pure []
  | move :: moves =>
    match rows.get move.fromKey.key with
    | none => moveAll boot rows moves
    | some row => do
      let outcome ← deployment.moveOne boot move row (rows.get move.toKey).isSome
      let outcomes ← moveAll boot rows moves
      pure (outcome :: outcomes)

/-- **`migrate`** -/
def migrate (boot : deployment.Boot) :
    Program MigrationStatement StoredSettings (List LegacyModelSettingOutcome) :=
  if !boot.wired then pure []
  else if boot.overlay ≠ .loaded then pure []
  else do
    let found ← Program.attempt (Program.statement .findMany fun stored => (stored, stored.rows))
    match found with
    | none => pure []
    | some rows => deployment.moveAll boot rows (legacyModelSettingMoves deployment.provider)

/-! ## What is to hold -/

/-- The slot holds the value, up to the blanks around it, which the registry takes off
whatever it reads. -/
def HoldsValue (stored : StoredSettings) (key value : String) : Prop :=
  ∃ row, stored.rows.get key = some row ∧
    ∃ read, deployment.readStoredValue row key = .ok read ∧ Text.trim read = Text.trim value

/-- **A run of the migration keeps the credentials**: it does not stop the boot, what
could be read can still be read, a destination that held a row keeps it, and what could
not be read is left alone. -/
structure KeepsCredentials (boot : deployment.Boot) (fates : MigrationStatement → Fate)
    (stored : StoredSettings) : Prop where
  /-- It does not reject, and so does not stop the boot. -/
  returns : (deployment.migrate boot fates stored).outcome ≠ .thrown
  /-- A value that could be read can be read, in the old slot or in the new one. -/
  kept : ∀ move ∈ legacyModelSettingMoves deployment.provider, ∀ value,
    deployment.HoldsValue stored move.fromKey.key value →
    ∀ state ∈ (deployment.migrate boot fates stored).states,
      deployment.HoldsValue state move.fromKey.key value ∨
        deployment.HoldsValue state move.toKey value
  destinations : ∀ move ∈ legacyModelSettingMoves deployment.provider, ∀ row,
    stored.rows.get move.toKey = some row →
    ∀ state ∈ (deployment.migrate boot fates stored).states,
      state.rows.get move.toKey = some row
  unread : ∀ move ∈ legacyModelSettingMoves deployment.provider, ∀ row reason,
    stored.rows.get move.fromKey.key = some row →
    deployment.readStoredValue row move.fromKey.key = .error reason →
    ∀ state ∈ (deployment.migrate boot fates stored).states,
      state.rows.get move.fromKey.key = some row
  /-- After a run that read the rows and in which nothing failed another one changes
  nothing. -/
  settled : boot.wired = true → boot.overlay = .loaded →
    (∀ statement, fates statement = .done) →
    (deployment.migrate boot fates stored).outcome ≠ .thrown →
    ∀ again fates', ∀ state ∈
      (deployment.migrate again fates' (deployment.migrate boot fates stored).store).states,
      state = (deployment.migrate boot fates stored).store

/-- The value that is moved, of a row that is there, whose destination is free, that can
be read and whose value the registry accepts. -/
def movedValue (rows : KeyMap String OverlayEntry) (move : LegacyModelSettingMove) :
    Option String :=
  match rows.get move.fromKey.key with
  | none => none
  | some row =>
    if (rows.get move.toKey).isSome then none
    else
      match deployment.readStoredValue row move.fromKey.key with
      | .error _ => none
      | .ok value =>
        if (deployment.registry.parse move.toKey (Json.quote value)).isOk then some value
        else none

/-- A credential of blanks, which the settings do not store. -/
def isBlank (move : LegacyModelSettingMove) (value : String) : Bool :=
  move.fromKey.isSecret && Text.trim value == ""

/-- A credential needs the encryption key. -/
def isSealable (move : LegacyModelSettingMove) (value : String) : Bool :=
  !move.fromKey.isSecret || Text.trim value == "" || deployment.box.key.isOk

/-- The process is killed before the move of a value is over. -/
def isCut (fates : MigrationStatement → Fate) (move : LegacyModelSettingMove)
    (value : String) : Bool :=
  fates (.write move.fromKey) == .killed ||
    (!isBlank move value &&
      (fates (.refresh move.fromKey) == .killed || fates (.audit move.fromKey) == .killed)) ||
    fates (.dropLegacyRow move.fromKey) == .killed

/-- **What a move must not come to**: a credential that cannot be sealed, a write that is
reported as failed, or a blank credential whose row is dropped. -/
def isCarried (fates : MigrationStatement → Fate) (move : LegacyModelSettingMove)
    (value : String) : Bool :=
  deployment.isSealable move value && !(fates (.write move.fromKey)).throws &&
    !(isBlank move value && fates (.write move.fromKey) == .done &&
      (fates (.dropLegacyRow move.fromKey)).commits)

/-- The moves that the run comes to are carried. -/
def allCarried (fates : MigrationStatement → Fate) (rows : KeyMap String OverlayEntry) :
    List LegacyModelSettingMove → Bool
  | [] => true
  | move :: moves =>
    match deployment.movedValue rows move with
    | none => allCarried fates rows moves
    | some value =>
      deployment.isCarried fates move value &&
        (isCut fates move value || allCarried fates rows moves)

end ModelDeployment

/-! ## Keys -/

namespace LegacyModelSetting

variable {setting other : LegacyModelSetting} {provider : SupervisorModelProvider}

theorem key_inj (h : setting.key = other.key) : setting = other := by
  revert h
  cases setting <;> cases other <;> decide

theorem slot_inj (h : setting.slot provider = other.slot provider) : setting = other := by
  revert h
  cases setting <;> cases other <;> cases provider <;> decide

theorem slot_ne_key : setting.slot provider ≠ other.key := by
  cases setting <;> cases other <;> cases provider <;> decide

theorem hasSlot_slot : setting.hasSlot (other.slot provider) = decide (setting = other) := by
  cases setting <;> cases other <;> cases provider <;> decide

end LegacyModelSetting

theorem StoredSettings.get_commit (stored : StoredSettings) (write : SettledWrite)
    (key : String) :
    (stored.commit write).rows.get key
      = if write.key = key then write.entry else stored.rows.get key := by
  obtain ⟨name, entry⟩ := write
  cases entry with
  | some entry => exact KeyMap.get_set
  | none =>
    show (if (stored.rows.get name).isSome then
      (⟨stored.rows.erase name, stored.revision + 1⟩ : StoredSettings) else stored).rows.get key = _
    by_cases hsome : (stored.rows.get name).isSome = true
    · rw [if_pos hsome]
      exact KeyMap.get_erase
    · rw [if_neg hsome]
      by_cases hkey : name = key
      · rw [if_pos hkey, ← hkey]
        exact Option.not_isSome_iff_eq_none.mp hsome
      · rw [if_neg hkey]

namespace ModelDeployment

section Moves

variable {deployment : ModelDeployment} {boot : deployment.Boot}
variable {fates : MigrationStatement → Fate} {stored : StoredSettings}
variable {rows : KeyMap String OverlayEntry} {move : LegacyModelSettingMove}
variable {moves : List LegacyModelSettingMove} {row : OverlayEntry} {value : String}

theorem eq_of_mem_moves (h : move ∈ legacyModelSettingMoves deployment.provider) :
    move.toKey = move.fromKey.slot deployment.provider := by
  obtain rfl | h := List.mem_cons.mp h
  · rfl
  · rw [List.mem_singleton.mp h]

/-- What the registry makes of a text for a slot. -/
theorem parse_slot (setting : LegacyModelSetting) (value : String) :
    deployment.registry.parse (setting.slot deployment.provider) (Json.quote value)
      = if setting.isSecret ∨ Text.trim value = "" ∨ deployment.isUrl (Text.trim value) then
          .ok (Json.quote (Text.trim value))
        else .error "Invalid input" := by
  unfold registry withModelCredentialSettings
  dsimp only
  rw [LegacyModelSetting.hasSlot_slot, LegacyModelSetting.hasSlot_slot]
  unfold stringSetting
  rw [Json.unquote_quote]
  dsimp only
  cases setting with
  | apiKey => simp [LegacyModelSetting.isSecret]
  | baseUrl =>
    by_cases hempty : Text.trim value = ""
    · simp [LegacyModelSetting.isSecret, hempty]
    · simp [LegacyModelSetting.isSecret, hempty]

theorem isManaged_slot (setting : LegacyModelSetting) :
    deployment.registry.isManaged (setting.slot deployment.provider) = true := by
  unfold registry withModelCredentialSettings
  dsimp only
  rw [LegacyModelSetting.hasSlot_slot, LegacyModelSetting.hasSlot_slot]
  cases setting with
  | apiKey => rfl
  | baseUrl => rfl

theorem isSecret_slot (setting : LegacyModelSetting) :
    deployment.registry.isSecret (setting.slot deployment.provider) = setting.isSecret := by
  unfold registry withModelCredentialSettings
  dsimp only
  rw [LegacyModelSetting.hasSlot_slot, LegacyModelSetting.hasSlot_slot]
  cases setting with
  | apiKey => rfl
  | baseUrl => rfl

/-- The write of an accepted value goes to its slot, and reads back; a blank secret
clears the slot. A secret that cannot be sealed is not written. -/
theorem settle_slot (hcipher : deployment.box.cipher.Authentic)
    (nonce : deployment.box.cipher.Nonce) {setting : LegacyModelSetting} {value : String}
    (h : setting.isSecret ∨ Text.trim value = "" ∨ deployment.isUrl (Text.trim value)) :
    (deployment.isSealable ⟨setting, setting.slot deployment.provider⟩ value = true →
      ∃ entry, deployment.registry.settle (.set (setting.slot deployment.provider)
            (Json.quote value) (deployment.sealing nonce (setting.slot deployment.provider)
              (Json.quote value)))
          = .ok ⟨setting.slot deployment.provider, entry⟩
        ∧ (isBlank ⟨setting, setting.slot deployment.provider⟩ value = true → entry = none)
        ∧ (isBlank ⟨setting, setting.slot deployment.provider⟩ value = false →
          ∃ row, entry = some row ∧ deployment.readStoredValue row
            (setting.slot deployment.provider) = .ok (Text.trim value)))
    ∧ (deployment.isSealable ⟨setting, setting.slot deployment.provider⟩ value = false →
      ∃ refusal, deployment.registry.settle (.set (setting.slot deployment.provider)
            (Json.quote value) (deployment.sealing nonce (setting.slot deployment.provider)
              (Json.quote value)))
          = .error refusal) := by
  have hparse := (@parse_slot deployment setting value).trans (if_pos h)
  have hempty : Json.quote (Text.trim value) = Json.quote "" ↔ Text.trim value = "" := by
    constructor
    · intro hquote
      have hread := congrArg Json.unquote hquote
      rw [Json.unquote_quote, Json.unquote_quote] at hread
      exact Option.some.inj hread
    · intro hblank
      rw [hblank]
  have hsealing : deployment.sealing nonce (setting.slot deployment.provider) (Json.quote value)
      = deployment.box.sealSecret nonce (Text.trim value) (setting.slot deployment.provider) := by
    unfold sealing
    rw [hparse]
    dsimp only
    rw [Json.unquote_quote]
    rfl
  unfold SettingsRegistry.settle
  dsimp only
  rw [isManaged_slot, hparse, isSecret_slot, hsealing]
  unfold isSealable isBlank
  dsimp only
  cases hsecret : setting.isSecret with
  | false =>
    refine ⟨fun _ => ⟨_, rfl, nofun, fun _ => ⟨_, rfl, ?_⟩⟩, nofun⟩
    unfold readStoredValue
    dsimp only
    rw [Json.unquote_quote]
  | true =>
    by_cases hblank : Text.trim value = ""
    · rw [hblank]
      exact ⟨fun _ => ⟨none, rfl, fun _ => rfl, nofun⟩, nofun⟩
    · have hsealed := SecretBox.isOk_sealSecret nonce (Text.trim value)
        (setting.slot deployment.provider)
      rw [decide_eq_true hblank, Bool.true_and] at hsealed
      rw [beq_eq_false_iff_ne.mpr hblank, ← hsealed]
      rw [if_neg (show ¬ (!true) = true from Bool.false_ne_true),
        if_neg (show ¬ (!true) = true from Bool.false_ne_true), if_neg (mt hempty.mp hblank)]
      cases hseal : deployment.box.sealSecret nonce (Text.trim value)
          (setting.slot deployment.provider) with
      | error problem => exact ⟨nofun, fun _ => ⟨_, rfl⟩⟩
      | ok envelope =>
        exact ⟨fun _ => ⟨_, rfl, nofun, fun _ => ⟨_, rfl,
          SecretBox.openSecret_sealSecret hcipher hseal⟩⟩, nofun⟩

/-! ## One move -/

theorem movedValue_eq_some :
    deployment.movedValue rows move = some value ↔
      ∃ row, rows.get move.fromKey.key = some row ∧ rows.get move.toKey = none
        ∧ deployment.readStoredValue row move.fromKey.key = .ok value
        ∧ (deployment.registry.parse move.toKey (Json.quote value)).isOk = true := by
  unfold movedValue
  cases rows.get move.fromKey.key with
  | none => simp
  | some row =>
    cases rows.get move.toKey with
    | some occupied => simp
    | none =>
      cases hread : deployment.readStoredValue row move.fromKey.key with
      | error reason => simp [hread]
      | ok read =>
        simp only [Option.isSome_none, Bool.false_eq_true, if_false, Option.some.injEq,
          exists_eq_left', true_and, hread, Except.ok.injEq]
        constructor
        · intro h
          by_cases hparse : (deployment.registry.parse move.toKey (Json.quote read)).isOk = true
          · rw [if_pos hparse] at h
            obtain rfl := Option.some.inj h
            exact ⟨rfl, hparse⟩
          · rw [if_neg hparse] at h
            contradiction
        · rintro ⟨rfl, hparse⟩
          rw [if_pos hparse]

/-- What is not moved is left alone. -/
theorem moveOne_of_none (boot : deployment.Boot) (hrow : rows.get move.fromKey.key = some row)
    (h : deployment.movedValue rows move = none) :
    ∃ outcome, deployment.moveOne boot move row (rows.get move.toKey).isSome
      = pure outcome := by
  unfold movedValue at h
  rw [hrow] at h
  dsimp only at h
  unfold moveOne
  by_cases hoccupied : (rows.get move.toKey).isSome = true
  · rw [if_pos hoccupied]
    exact ⟨_, rfl⟩
  rw [if_neg hoccupied] at h ⊢
  cases hread : deployment.readStoredValue row move.fromKey.key with
  | error reason => exact ⟨_, rfl⟩
  | ok read =>
    rw [hread] at h
    dsimp only at h ⊢
    cases hparse : deployment.registry.parse move.toKey (Json.quote read) with
    | error reason => exact ⟨_, rfl⟩
    | ok parsed =>
      rw [hparse] at h
      contradiction

theorem moveOne_of_some (hrow : rows.get move.fromKey.key = some row)
    (h : deployment.movedValue rows move = some value) :
    deployment.moveOne boot move row (rows.get move.toKey).isSome
      = (do
          deployment.set (boot.nonce move.fromKey) move.fromKey move.toKey value
          dropLegacyRow move.fromKey
          pure ⟨move, .moved⟩) := by
  obtain ⟨row', hrow', hto, hread, hparse⟩ := movedValue_eq_some.mp h
  obtain rfl := Option.some.inj (hrow.symm.trans hrow')
  unfold moveOne
  rw [hto, if_neg (show ¬ (none : Option OverlayEntry).isSome = true from Bool.false_ne_true),
    hread]
  dsimp only
  cases hparsed : deployment.registry.parse move.toKey (Json.quote value) with
  | error reason =>
    rw [hparsed] at hparse
    contradiction
  | ok parsed => rfl

/-- The statements after a write only end a process that is killed. -/
theorem afterWrite_apply (fates : MigrationStatement → Fate) (stored : StoredSettings)
    (setting : LegacyModelSetting) :
    ∃ passed, (∀ state ∈ passed, state = stored) ∧
      afterWrite setting fates stored
        = ⟨if fates (.refresh setting) == .killed || fates (.audit setting) == .killed
            then .killed else .returned (), passed, stored⟩ := by
  have hstatement : ∀ name : MigrationStatement, ∃ passed, (∀ state ∈ passed, state = stored) ∧
      Program.attempt (Program.statement name fun stored : StoredSettings => (stored, ()))
          fates stored
        = ⟨if fates name = .killed then .killed
            else .returned (if (fates name).throws then none else some ()), passed, stored⟩ := by
    intro name
    refine ⟨if (fates name).commits then [stored] else [], fun state hstate => ?_, ?_⟩
    · split_ifs at hstate
      · exact List.mem_singleton.mp hstate
      · exact absurd hstate List.not_mem_nil
    · rw [Program.attempt_statement_apply]
      dsimp only
      rw [ite_self]
  obtain ⟨first, hfirst, hrefresh⟩ := hstatement (.refresh setting)
  obtain ⟨second, hsecond, haudit⟩ := hstatement (.audit setting)
  unfold afterWrite
  by_cases hkilled : fates (.refresh setting) = .killed
  · rw [if_pos hkilled] at hrefresh
    refine ⟨first, hfirst, ?_⟩
    rw [Program.bind_killed hrefresh, hkilled]
    rfl
  rw [if_neg hkilled] at hrefresh
  rw [Program.bind_returned hrefresh, beq_eq_false_iff_ne.mpr hkilled, Bool.false_or]
  by_cases hkilled' : fates (.audit setting) = .killed
  · rw [if_pos hkilled'] at haudit
    refine ⟨first ++ second, fun state hstate =>
      (List.mem_append.mp hstate).elim (hfirst state) (hsecond state), ?_⟩
    rw [Program.bind_killed haudit, hkilled']
    rfl
  · rw [if_neg hkilled'] at haudit
    refine ⟨first ++ (second ++ []), fun state hstate => ?_, ?_⟩
    · rw [List.append_nil] at hstate
      exact (List.mem_append.mp hstate).elim (hfirst state) (hsecond state)
    · rw [Program.bind_returned haudit, beq_eq_false_iff_ne.mpr hkilled']
      rfl

theorem dropLegacyRow_apply (fates : MigrationStatement → Fate) (stored : StoredSettings)
    (setting : LegacyModelSetting) :
    dropLegacyRow setting fates stored
      = ⟨if fates (.dropLegacyRow setting) = .killed then .killed else .returned (),
        if (fates (.dropLegacyRow setting)).commits then [stored.commit ⟨setting.key, none⟩]
          else [],
        if (fates (.dropLegacyRow setting)).commits then stored.commit ⟨setting.key, none⟩
          else stored⟩ := by
  have hstatement := Program.attempt_statement_apply fates stored (.dropLegacyRow setting)
    fun stored : StoredSettings => (stored.commit ⟨setting.key, none⟩, ())
  unfold dropLegacyRow
  by_cases hkilled : fates (.dropLegacyRow setting) = .killed
  · rw [if_pos hkilled] at hstatement ⊢
    exact Program.bind_killed hstatement
  · rw [if_neg hkilled] at hstatement ⊢
    rw [Program.bind_returned hstatement]
    exact congrArg (fun passed => Ending.mk _ passed _) (List.append_nil _)

theorem set_of_error {nonce : deployment.box.cipher.Nonce} {setting : LegacyModelSetting}
    {key : String} {refusal : SettingsRefusal}
    (h : deployment.registry.settle (.set key (Json.quote value)
      (deployment.sealing nonce key (Json.quote value))) = .error refusal) :
    deployment.set nonce setting key value = Program.throw := by
  unfold set
  dsimp only
  rw [h]

theorem set_of_ok {nonce : deployment.box.cipher.Nonce} {setting : LegacyModelSetting}
    {key : String} {write : SettledWrite}
    (h : deployment.registry.settle (.set key (Json.quote value)
      (deployment.sealing nonce key (Json.quote value))) = .ok write) :
    deployment.set nonce setting key value
      = (do
          let changed ← Program.statement (.write setting) fun stored =>
            (stored.commit write, stored.changes write)
          if changed then afterWrite setting else pure ()) := by
  unfold set
  dsimp only
  rw [h]

/-- A write that is settled for a slot. -/
theorem set_apply (fates : MigrationStatement → Fate) (stored : StoredSettings)
    {nonce : deployment.box.cipher.Nonce} (setting : LegacyModelSetting) {key : String}
    {write : SettledWrite}
    (hsettle : deployment.registry.settle (.set key (Json.quote value)
      (deployment.sealing nonce key (Json.quote value))) = .ok write) :
    (fates (.write setting) = .killed →
      deployment.set nonce setting key value fates stored = ⟨.killed, [], stored⟩)
    ∧ ((fates (.write setting)).throws = true →
      ∃ passed after, deployment.set nonce setting key value fates stored
        = ⟨.thrown, passed, after⟩)
    ∧ (fates (.write setting) = .done →
      ∃ passed, (∀ state ∈ passed, state = stored.commit write) ∧
        deployment.set nonce setting key value fates stored
          = ⟨if stored.changes write &&
                (fates (.refresh setting) == .killed || fates (.audit setting) == .killed)
              then .killed else .returned (), passed, stored.commit write⟩) := by
  have hstatement := Program.statement_apply fates stored (.write setting)
    fun stored : StoredSettings => (stored.commit write, stored.changes write)
  rw [set_of_ok hsettle]
  refine ⟨fun hfate => ?_, fun hfate => ?_, fun hfate => ?_⟩
  · rw [hfate] at hstatement
    exact Program.bind_killed hstatement
  · rw [if_pos hfate] at hstatement
    have hne : fates (.write setting) ≠ .killed := by
      intro hkilled
      rw [hkilled] at hfate
      contradiction
    rw [if_neg hne] at hstatement
    exact ⟨_, _, Program.bind_thrown hstatement⟩
  · rw [hfate] at hstatement
    have hdone : Program.statement (.write setting)
          (fun stored : StoredSettings => (stored.commit write, stored.changes write)) fates stored
        = ⟨.returned (stored.changes write), [stored.commit write], stored.commit write⟩ :=
      hstatement
    rw [Program.bind_returned hdone]
    cases hchanges : stored.changes write with
    | false =>
      rw [if_neg Bool.false_ne_true]
      refine ⟨[stored.commit write], fun state hstate => List.mem_singleton.mp hstate, ?_⟩
      rfl
    | true =>
      rw [if_pos rfl]
      obtain ⟨passed, hpassed, hafter⟩ :=
        afterWrite_apply fates (stored.commit write) setting
      rw [hafter]
      refine ⟨[stored.commit write] ++ passed, fun state hstate => ?_, rfl⟩
      obtain rfl | hstate := List.mem_cons.mp hstate
      · rfl
      · exact hpassed state hstate

/-- The stores that a move leads to: a blank value writes nothing, any other is stored
trimmed under the new key, and no other key is touched. -/
structure MovedTo (move : LegacyModelSettingMove) (value : String) (stored written : StoredSettings) :
    Prop where
  frame : ∀ key, key ≠ move.toKey → written.rows.get key = stored.rows.get key
  blank : isBlank move value = true → written = stored
  held : isBlank move value = false → ∃ row, written.rows.get move.toKey = some row ∧
    deployment.readStoredValue row move.toKey = .ok (Text.trim value)

/-- **A move that is not refused**: the value is written, and then its row is dropped;
where the move is cut the process ends. -/
theorem moveOne_run (boot : deployment.Boot) (fates : MigrationStatement → Fate)
    (hcipher : deployment.box.cipher.Authentic)
    (hmove : move ∈ legacyModelSettingMoves deployment.provider)
    (hrow : rows.get move.fromKey.key = some row)
    (hmoved : deployment.movedValue rows move = some value)
    (hfree : stored.rows.get move.toKey = none) :
    (deployment.isSealable move value = false ∨ (fates (.write move.fromKey)).throws = true →
      (deployment.moveOne boot move row (rows.get move.toKey).isSome fates stored).outcome
        = .thrown)
    ∧ (deployment.isSealable move value = true → fates (.write move.fromKey) = .killed →
      deployment.moveOne boot move row (rows.get move.toKey).isSome fates stored
        = ⟨.killed, [], stored⟩)
    ∧ (deployment.isSealable move value = true → fates (.write move.fromKey) = .done →
      ∃ written passed, deployment.MovedTo move value stored written
        ∧ (∀ state ∈ passed, state = written) ∧
        ∃ dropped last,
          deployment.moveOne boot move row (rows.get move.toKey).isSome fates stored
            = ⟨if isCut fates move value then .killed else .returned ⟨move, .moved⟩,
              passed ++ dropped, last⟩
          ∧ (isCut fates move value = false →
            dropped = if (fates (.dropLegacyRow move.fromKey)).commits
              then [written.commit ⟨move.fromKey.key, none⟩] else [])
          ∧ (isCut fates move value = true → dropped = [])
          ∧ last = (dropped.getLast?).getD written) := by
  obtain ⟨row', hrow', hto, -, hparse⟩ := movedValue_eq_some.mp hmoved
  rw [moveOne_of_some hrow hmoved]
  have hslot := eq_of_mem_moves hmove
  have haccepted : move.fromKey.isSecret = true ∨ Text.trim value = "" ∨
      deployment.isUrl (Text.trim value) = true := by
    rw [hslot, parse_slot] at hparse
    by_contra hrefused
    rw [if_neg hrefused] at hparse
    contradiction
  obtain ⟨hsealable, hunsealable⟩ := settle_slot hcipher (boot.nonce move.fromKey) haccepted
  obtain ⟨setting, key⟩ := move
  dsimp only at hslot hsealable hunsealable hfree ⊢
  subst hslot
  refine ⟨?_, fun hseal hfate => ?_, fun hseal hfate => ?_⟩
  · rintro (hseal | hthrows)
    · obtain ⟨refusal, hsettle⟩ := hunsealable hseal
      rw [set_of_error hsettle]
      rfl
    · cases hseal : deployment.isSealable ⟨setting, setting.slot deployment.provider⟩ value with
      | false =>
        obtain ⟨refusal, hsettle⟩ := hunsealable hseal
        rw [set_of_error hsettle]
        rfl
      | true =>
        obtain ⟨entry, hsettle, -⟩ := hsealable hseal
        obtain ⟨passed, after, hset⟩ := (set_apply fates stored setting hsettle).2.1 hthrows
        rw [Program.bind_thrown hset]
  · obtain ⟨entry, hsettle, -⟩ := hsealable hseal
    exact Program.bind_killed ((set_apply fates stored setting hsettle).1 hfate)
  · obtain ⟨entry, hsettle, hblank, hheld⟩ := hsealable hseal
    obtain ⟨passed, hpassed, hset⟩ := (set_apply fates stored setting hsettle).2.2 hfate
    -- only a blank secret changes nothing
    have hchanges : stored.changes ⟨setting.slot deployment.provider, entry⟩
        = !isBlank ⟨setting, setting.slot deployment.provider⟩ value := by
      unfold StoredSettings.changes
      dsimp only
      rw [hfree]
      cases hcase : isBlank ⟨setting, setting.slot deployment.provider⟩ value with
      | true =>
        rw [hblank hcase]
        rfl
      | false =>
        obtain ⟨held, rfl, -⟩ := hheld hcase
        rfl
    have hwritten : deployment.MovedTo ⟨setting, setting.slot deployment.provider⟩ value stored
        (stored.commit ⟨setting.slot deployment.provider, entry⟩) := by
      refine ⟨fun other hother => ?_, fun hcase => ?_, fun hcase => ?_⟩
      · rw [StoredSettings.get_commit, if_neg (Ne.symm hother)]
      · rw [hblank hcase]
        unfold StoredSettings.commit
        dsimp only
        rw [hfree]
        rfl
      · obtain ⟨held, rfl, hread⟩ := hheld hcase
        exact ⟨held, by rw [StoredSettings.get_commit, if_pos rfl], hread⟩
    rw [hchanges] at hset
    refine ⟨_, passed, hwritten, hpassed, ?_⟩
    unfold isCut
    dsimp only
    rw [hfate]
    cases hcut : (!isBlank ⟨setting, setting.slot deployment.provider⟩ value &&
        (fates (.refresh setting) == .killed || fates (.audit setting) == .killed)) with
    | true =>
      rw [hcut, if_pos rfl] at hset
      rw [Program.bind_killed hset]
      refine ⟨[], _, ?_, nofun, fun _ => rfl, rfl⟩
      rw [List.append_nil]
      rfl
    | false =>
      rw [hcut, if_neg Bool.false_ne_true] at hset
      rw [Program.bind_returned hset]
      have hdrop := dropLegacyRow_apply fates
        (stored.commit ⟨setting.slot deployment.provider, entry⟩) setting
      cases hdropped : fates (.dropLegacyRow setting) with
      | killed =>
        rw [hdropped] at hdrop
        rw [Program.bind_killed hdrop]
        exact ⟨[], _, rfl, nofun, fun _ => rfl, rfl⟩
      | done =>
        rw [hdropped] at hdrop
        rw [Program.bind_returned hdrop]
        exact ⟨_, _, rfl, fun _ => rfl, nofun, rfl⟩
      | refused =>
        rw [hdropped] at hdrop
        rw [Program.bind_returned hdrop]
        exact ⟨_, _, rfl, fun _ => rfl, nofun, rfl⟩
      | lost =>
        rw [hdropped] at hdrop
        rw [Program.bind_returned hdrop]
        exact ⟨_, _, rfl, fun _ => rfl, nofun, rfl⟩

/-! ## All moves -/

theorem key_of_settle {key : String} {raw : JsonText} {result : Except String SealedSecret}
    {write : SettledWrite} (h : deployment.registry.settle (.set key raw result) = .ok write) :
    write.key = key := by
  unfold SettingsRegistry.settle at h
  dsimp only at h
  split at h
  · contradiction
  split at h
  · contradiction
  split at h
  · exact congrArg SettledWrite.key (Except.ok.inj h).symm
  split at h
  · exact congrArg SettledWrite.key (Except.ok.inj h).symm
  split at h
  · contradiction
  · exact congrArg SettledWrite.key (Except.ok.inj h).symm

/-- A move leaves the other rows alone. -/
theorem keeps_moveOne {occupied : Bool} {key : String} {entry : Option OverlayEntry}
    (hfrom : key ≠ move.fromKey.key) (hto : key ≠ move.toKey) :
    Program.Keeps (fun stored : StoredSettings => stored.rows.get key = entry)
      (deployment.moveOne boot move row occupied) := by
  have hafter : Program.Keeps (fun stored : StoredSettings => stored.rows.get key = entry)
      (afterWrite move.fromKey) :=
    Program.keeps_bind (Program.keeps_attempt (Program.keeps_statement fun _ h => h)) fun _ =>
      Program.keeps_bind (Program.keeps_attempt (Program.keeps_statement fun _ h => h)) fun _ =>
        Program.keeps_pure
  have hset : ∀ value, Program.Keeps (fun stored : StoredSettings => stored.rows.get key = entry)
      (deployment.set (boot.nonce move.fromKey) move.fromKey move.toKey value) := by
    intro value
    cases hsettle : deployment.registry.settle (.set move.toKey (Json.quote value)
        (deployment.sealing (boot.nonce move.fromKey) move.toKey (Json.quote value))) with
    | error refusal =>
      rw [set_of_error hsettle]
      exact Program.keeps_throw
    | ok write =>
      rw [set_of_ok hsettle]
      refine Program.keeps_bind (Program.keeps_statement fun stored h => ?_) fun changed => ?_
      · show (stored.commit write).rows.get key = entry
        rw [StoredSettings.get_commit, key_of_settle hsettle, if_neg (Ne.symm hto)]
        exact h
      · cases changed with
        | false => exact Program.keeps_pure
        | true => exact hafter
  have hdrop : Program.Keeps (fun stored : StoredSettings => stored.rows.get key = entry)
      (dropLegacyRow move.fromKey) := by
    refine Program.keeps_bind (Program.keeps_attempt
      (Program.keeps_statement fun stored h => ?_)) fun _ => Program.keeps_pure
    show (stored.commit ⟨move.fromKey.key, none⟩).rows.get key = entry
    rw [StoredSettings.get_commit, if_neg (Ne.symm hfrom)]
    exact h
  unfold moveOne
  split_ifs
  · exact Program.keeps_pure
  split
  · exact Program.keeps_pure
  split
  · exact Program.keeps_pure
  · exact Program.keeps_bind (hset _) fun _ => Program.keeps_bind hdrop fun _ =>
      Program.keeps_pure

/-- A property that each of the moves keeps. -/
theorem keeps_moveAll {Inv : StoredSettings → Prop}
    (h : ∀ move ∈ moves, ∀ row, rows.get move.fromKey.key = some row →
      Program.Keeps Inv (deployment.moveOne boot move row (rows.get move.toKey).isSome)) :
    Program.Keeps Inv (deployment.moveAll boot rows moves) := by
  induction moves with
  | nil => exact Program.keeps_pure
  | cons move moves ih =>
    have hrest := ih fun other hother => h other (List.mem_cons_of_mem _ hother)
    unfold moveAll
    cases hrow : rows.get move.fromKey.key with
    | none => exact hrest
    | some row =>
      exact Program.keeps_bind (h move List.mem_cons_self row hrow) fun _ =>
        Program.keeps_bind hrest fun _ => Program.keeps_pure

theorem moveAll_cons (hrow : rows.get move.fromKey.key = some row) :
    deployment.moveAll boot rows (move :: moves)
      = (do
          let outcome ← deployment.moveOne boot move row (rows.get move.toKey).isSome
          let outcomes ← deployment.moveAll boot rows moves
          pure (outcome :: outcomes)) := by
  conv_lhs => unfold moveAll
  rw [hrow]

/-- A run goes on with the moves that are left. -/
theorem moveAll_cons_returned (moves : List LegacyModelSettingMove) {outcome : LegacyModelSettingOutcome}
    {passed : List StoredSettings} {after : StoredSettings}
    (hrow : rows.get move.fromKey.key = some row)
    (h : deployment.moveOne boot move row (rows.get move.toKey).isSome fates stored
      = ⟨.returned outcome, passed, after⟩) :
    ((deployment.moveAll boot rows (move :: moves) fates stored).outcome = .thrown ↔
        (deployment.moveAll boot rows moves fates after).outcome = .thrown)
      ∧ (deployment.moveAll boot rows (move :: moves) fates stored).states
        = passed ++ (deployment.moveAll boot rows moves fates after).states
      ∧ (deployment.moveAll boot rows (move :: moves) fates stored).store
        = (deployment.moveAll boot rows moves fates after).store := by
  rw [moveAll_cons hrow, Program.bind_returned h]
  cases hrest : deployment.moveAll boot rows moves fates after with
  | mk ended states last =>
    cases ended with
    | returned outcomes =>
      rw [Program.bind_returned hrest]
      refine ⟨show Outcome.returned _ = _ ↔ Outcome.returned outcomes = _ from
        iff_of_false nofun nofun, ?_, rfl⟩
      show (passed ++ (states ++ [])) ++ [last] = passed ++ (states ++ [last])
      rw [List.append_nil, List.append_assoc]
    | thrown =>
      rw [Program.bind_thrown hrest]
      exact ⟨Iff.rfl, List.append_assoc _ _ _, rfl⟩
    | killed =>
      rw [Program.bind_killed hrest]
      exact ⟨Iff.rfl, List.append_assoc _ _ _, rfl⟩

/-- Values that could be read before can be read in each of the states. -/
def KeptIn (deployment : ModelDeployment) (moves : List LegacyModelSettingMove)
    (before : StoredSettings) (states : List StoredSettings) : Prop :=
  ∀ move ∈ moves, ∀ value, deployment.HoldsValue before move.fromKey.key value →
    ∀ state ∈ states, deployment.HoldsValue state move.fromKey.key value ∨
      deployment.HoldsValue state move.toKey value

/-- The rows of the moves are those that were found. -/
def Found (rows : KeyMap String OverlayEntry) (moves : List LegacyModelSettingMove)
    (stored : StoredSettings) : Prop :=
  ∀ move ∈ moves, stored.rows.get move.fromKey.key = rows.get move.fromKey.key
    ∧ stored.rows.get move.toKey = rows.get move.toKey

theorem HoldsValue.congr {before after : StoredSettings} {key value : String}
    (h : deployment.HoldsValue before key value)
    (hrow : after.rows.get key = before.rows.get key) : deployment.HoldsValue after key value := by
  unfold HoldsValue at h ⊢
  rw [hrow]
  exact h

/-- The rows of one move are not those of another. -/
theorem keys_apart {other : LegacyModelSettingMove}
    (hmove : move ∈ legacyModelSettingMoves deployment.provider)
    (hother : other ∈ legacyModelSettingMoves deployment.provider)
    (hne : other.fromKey ≠ move.fromKey) :
    (other.fromKey.key ≠ move.fromKey.key ∧ other.fromKey.key ≠ move.toKey)
      ∧ other.toKey ≠ move.fromKey.key ∧ other.toKey ≠ move.toKey := by
  rw [eq_of_mem_moves hmove, eq_of_mem_moves hother]
  exact ⟨⟨fun h => hne (LegacyModelSetting.key_inj h),
      fun h => LegacyModelSetting.slot_ne_key h.symm⟩,
    LegacyModelSetting.slot_ne_key, fun h => hne (LegacyModelSetting.slot_inj h)⟩

/-- The rows of a move stay as the others are made. -/
theorem get_of_mem_states
    (hmoves : ∀ other ∈ move :: moves, other ∈ legacyModelSettingMoves deployment.provider)
    (hapart : ∀ other ∈ moves, other.fromKey ≠ move.fromKey) {key : String}
    (hkey : key = move.fromKey.key ∨ key = move.toKey) {state : StoredSettings}
    (hstate : state ∈ (deployment.moveAll boot rows moves fates stored).states) :
    state.rows.get key = stored.rows.get key := by
  have hkeeps : Program.Keeps
      (fun state : StoredSettings => state.rows.get key = stored.rows.get key)
      (deployment.moveAll boot rows moves) := by
    refine keeps_moveAll fun other hother row _ => ?_
    obtain ⟨⟨hff, hft⟩, htf, htt⟩ := keys_apart (hmoves move List.mem_cons_self)
      (hmoves other (List.mem_cons_of_mem _ hother)) (hapart other hother)
    obtain rfl | rfl := hkey
    · exact keeps_moveOne (Ne.symm hff) (Ne.symm htf)
    · exact keeps_moveOne (Ne.symm hft) (Ne.symm htt)
  exact hkeeps fates stored rfl state hstate

/-- A run ends where a move throws or is cut. -/
theorem moveAll_cons_thrown {passed : List StoredSettings} {after : StoredSettings}
    (hrow : rows.get move.fromKey.key = some row)
    (h : deployment.moveOne boot move row (rows.get move.toKey).isSome fates stored
      = ⟨.thrown, passed, after⟩) :
    deployment.moveAll boot rows (move :: moves) fates stored = ⟨.thrown, passed, after⟩ := by
  rw [moveAll_cons hrow, Program.bind_thrown h]

theorem moveAll_cons_killed {passed : List StoredSettings} {after : StoredSettings}
    (hrow : rows.get move.fromKey.key = some row)
    (h : deployment.moveOne boot move row (rows.get move.toKey).isSome fates stored
      = ⟨.killed, passed, after⟩) :
    deployment.moveAll boot rows (move :: moves) fates stored = ⟨.killed, passed, after⟩ := by
  rw [moveAll_cons hrow, Program.bind_killed h]

/-- The other rows in the states of a move. -/
theorem get_of_mem_states_moveOne
    (hmoves : ∀ other ∈ move :: moves, other ∈ legacyModelSettingMoves deployment.provider)
    (hapart : ∀ other ∈ moves, other.fromKey ≠ move.fromKey) {occupied : Bool}
    {other : LegacyModelSettingMove} (hother : other ∈ moves) {state : StoredSettings}
    (hstate : state ∈ (deployment.moveOne boot move row occupied fates stored).states) :
    state.rows.get other.fromKey.key = stored.rows.get other.fromKey.key
      ∧ state.rows.get other.toKey = stored.rows.get other.toKey := by
  obtain ⟨⟨hff, hft⟩, htf, htt⟩ := keys_apart (hmoves move List.mem_cons_self)
    (hmoves other (List.mem_cons_of_mem _ hother)) (hapart other hother)
  exact ⟨keeps_moveOne hff hft fates stored rfl state hstate,
    keeps_moveOne htf htt fates stored rfl state hstate⟩

/-- What a move that loses nothing leaves to the others. -/
theorem keptIn_cons_iff
    (hmoves : ∀ other ∈ move :: moves, other ∈ legacyModelSettingMoves deployment.provider)
    (hapart : ∀ other ∈ moves, other.fromKey ≠ move.fromKey)
    (hfound : Found rows (move :: moves) stored)
    (hrow : rows.get move.fromKey.key = some row) {outcome : LegacyModelSettingOutcome}
    {passed : List StoredSettings} {after : StoredSettings}
    (hone : deployment.moveOne boot move row (rows.get move.toKey).isSome fates stored
      = ⟨.returned outcome, passed, after⟩)
    (hkept : deployment.KeptIn [move] stored (passed ++ [after])) :
    Found rows moves after ∧
      ((deployment.moveAll boot rows (move :: moves) fates stored).outcome ≠ .thrown
          ∧ deployment.KeptIn (move :: moves) stored
            (deployment.moveAll boot rows (move :: moves) fates stored).states
        ↔ (deployment.moveAll boot rows moves fates after).outcome ≠ .thrown
          ∧ deployment.KeptIn moves after
            (deployment.moveAll boot rows moves fates after).states) := by
  obtain ⟨houtcome, hstates, -⟩ := moveAll_cons_returned moves hrow hone
  have hframe := fun {other : LegacyModelSettingMove} (hother : other ∈ moves)
      {state : StoredSettings} (hstate : state ∈ passed ++ [after]) =>
    get_of_mem_states_moveOne hmoves hapart hother
      (show state ∈ (deployment.moveOne boot move row (rows.get move.toKey).isSome fates
        stored).states by rw [hone]; exact hstate)
  have hafter : after ∈ passed ++ [after] := List.mem_append_right _ List.mem_cons_self
  refine ⟨fun other hother => ?_, and_congr (not_congr houtcome) ?_⟩
  · obtain ⟨hfrom, hto⟩ := hfound other (List.mem_cons_of_mem _ hother)
    obtain ⟨hfrom', hto'⟩ := hframe hother hafter
    exact ⟨hfrom'.trans hfrom, hto'.trans hto⟩
  rw [hstates]
  constructor
  · intro h other hother value hvalue state hstate
    exact h other (List.mem_cons_of_mem _ hother) value
      (hvalue.congr (hframe hother hafter).1.symm) state (List.mem_append_right _ hstate)
  · intro h other hother value hvalue state hstate
    obtain rfl | hother := List.mem_cons.mp hother
    · obtain hstate | hstate := List.mem_append.mp hstate
      · exact hkept _ List.mem_cons_self value hvalue state (List.mem_append_left _ hstate)
      · -- what is left does not touch the two rows
        obtain hheld | hheld := hkept _ List.mem_cons_self value hvalue after hafter
        · exact Or.inl (hheld.congr (get_of_mem_states hmoves hapart (Or.inl rfl) hstate))
        · exact Or.inr (hheld.congr (get_of_mem_states hmoves hapart (Or.inr rfl) hstate))
    · obtain hstate | hstate := List.mem_append.mp hstate
      · exact Or.inl (hvalue.congr (hframe hother (List.mem_append_left _ hstate)).1)
      · exact h other hother value (hvalue.congr (hframe hother hafter).1) state hstate

/-- A run that is killed in its first move has lost nothing of the others. -/
theorem keptIn_cons_killed
    (hmoves : ∀ other ∈ move :: moves, other ∈ legacyModelSettingMoves deployment.provider)
    (hapart : ∀ other ∈ moves, other.fromKey ≠ move.fromKey)
    (hrow : rows.get move.fromKey.key = some row)
    {passed : List StoredSettings} {after : StoredSettings}
    (hone : deployment.moveOne boot move row (rows.get move.toKey).isSome fates stored
      = ⟨.killed, passed, after⟩)
    (hkept : deployment.KeptIn [move] stored (passed ++ [after])) :
    (deployment.moveAll boot rows (move :: moves) fates stored).outcome ≠ .thrown
      ∧ deployment.KeptIn (move :: moves) stored
        (deployment.moveAll boot rows (move :: moves) fates stored).states := by
  rw [moveAll_cons_killed hrow hone]
  refine ⟨nofun, fun other hother value hvalue state hstate => ?_⟩
  obtain rfl | hother := List.mem_cons.mp hother
  · exact hkept _ List.mem_cons_self value hvalue state hstate
  · exact Or.inl (hvalue.congr (get_of_mem_states_moveOne hmoves hapart hother
      (show state ∈ (deployment.moveOne boot move row (rows.get move.toKey).isSome fates
        stored).states by rw [hone]; exact hstate)).1)

/-- In the states of a move that drops no blank credential its value is kept. -/
theorem keptIn_of_movedTo {written : StoredSettings}
    (hmove : move ∈ legacyModelSettingMoves deployment.provider)
    (hfrom : stored.rows.get move.fromKey.key = some row)
    (hread : deployment.readStoredValue row move.fromKey.key = .ok value)
    (hwritten : deployment.MovedTo move value stored written) ⦃states : List StoredSettings⦄
    (hin : ∀ state ∈ states, state = written ∨
      isBlank move value = false ∧ state = written.commit ⟨move.fromKey.key, none⟩) :
    deployment.KeptIn [move] stored states := by
  intro other hother kept hkept state hstate
  rw [List.mem_singleton.mp hother] at hkept ⊢
  cases hblank : isBlank move value with
  | true =>
    obtain rfl | ⟨hnot, -⟩ := hin state hstate
    · rw [hwritten.blank hblank]
      exact Or.inl hkept
    · rw [hblank] at hnot
      contradiction
  | false =>
    obtain ⟨entry, hentry, hentryRead⟩ := hwritten.held hblank
    refine Or.inr ⟨entry, ?_, Text.trim value, hentryRead, ?_⟩
    · obtain rfl | ⟨-, rfl⟩ := hin state hstate
      · exact hentry
      · rw [StoredSettings.get_commit, if_neg, hentry]
        rw [eq_of_mem_moves hmove]
        exact fun h => LegacyModelSetting.slot_ne_key h.symm
    · obtain ⟨row', hrow', read, hread', htrim⟩ := hkept
      obtain rfl := Option.some.inj (hfrom.symm.trans hrow')
      obtain rfl := Except.ok.inj (hread.symm.trans hread')
      rw [Text.trim_trim, htrim]

/-- **A value that is moved**: nothing is lost exactly when its move is carried, and so are
the moves after it if the run comes to them. -/
theorem moveAll_moved_iff (hcipher : deployment.box.cipher.Authentic)
    (hmoves : ∀ other ∈ move :: moves, other ∈ legacyModelSettingMoves deployment.provider)
    (hapart : ∀ other ∈ moves, other.fromKey ≠ move.fromKey)
    (hfound : Found rows (move :: moves) stored)
    (hmoved : deployment.movedValue rows move = some value)
    (hrest : ∀ after, Found rows moves after →
      ((deployment.moveAll boot rows moves fates after).outcome ≠ .thrown
          ∧ deployment.KeptIn moves after (deployment.moveAll boot rows moves fates after).states
        ↔ deployment.allCarried fates rows moves = true)) :
    (deployment.moveAll boot rows (move :: moves) fates stored).outcome ≠ .thrown
        ∧ deployment.KeptIn (move :: moves) stored
          (deployment.moveAll boot rows (move :: moves) fates stored).states
      ↔ (deployment.isCarried fates move value &&
          (isCut fates move value || deployment.allCarried fates rows moves)) = true := by
  have hmove := hmoves move List.mem_cons_self
  obtain ⟨hfrom, hto⟩ := hfound move List.mem_cons_self
  obtain ⟨row, hrow, hfree, hread, -⟩ := movedValue_eq_some.mp hmoved
  rw [hfree] at hto
  rw [hrow] at hfrom
  have hheld : deployment.HoldsValue stored move.fromKey.key value :=
    ⟨row, hfrom, value, hread, rfl⟩
  obtain ⟨hthrows, hkilled, hdone⟩ := moveOne_run boot fates hcipher
    hmove hrow hmoved hto
  unfold isCarried
  -- a credential that cannot be sealed, or a write that is reported as failed
  by_cases hrefused : deployment.isSealable move value = false ∨
      (fates (.write move.fromKey)).throws = true
  · have hthrown := hthrows hrefused
    cases hone : deployment.moveOne boot move row (rows.get move.toKey).isSome fates
        stored with
    | mk outcome passed after =>
      rw [hone] at hthrown
      dsimp only at hthrown
      rw [hthrown] at hone
      rw [moveAll_cons_thrown hrow hone]
      refine iff_of_false (fun h => h.1 rfl) ?_
      obtain hsealable | hthrow := hrefused
      · simp [hsealable]
      · simp [hthrow]
  rw [not_or, Bool.not_eq_false, Bool.not_eq_true] at hrefused
  obtain ⟨hsealable, hthrow⟩ := hrefused
  rw [hsealable, hthrow, Bool.true_and, Bool.not_false, Bool.true_and]
  have hfate : fates (.write move.fromKey) = .killed ∨
      fates (.write move.fromKey) = .done := by
    cases h : fates (.write move.fromKey) with
    | killed => exact Or.inl rfl
    | done => exact Or.inr rfl
    | refused =>
      rw [h] at hthrow
      contradiction
    | lost =>
      rw [h] at hthrow
      contradiction
  obtain hfate | hfate := hfate
  · refine iff_of_true (keptIn_cons_killed hmoves hapart hrow (hkilled hsealable hfate)
      fun other hother kept hkept state hstate => ?_) ?_
    · rw [List.mem_singleton.mp hother] at hkept ⊢
      rw [List.mem_singleton.mp hstate]
      exact Or.inl hkept
    · unfold isCut
      rw [hfate]
      simp
  obtain ⟨written, passed, hwritten, hpassed, dropped, last, hone, hundropped, hcutDropped,
    hlast⟩ := hdone hsealable hfate
  have hmem := keptIn_of_movedTo hmove hfrom hread hwritten
  rw [hfate]
  cases hcut : isCut fates move value with
  | true =>
    obtain rfl := hcutDropped hcut
    rw [hcut, if_pos rfl] at hone
    refine iff_of_true (keptIn_cons_killed hmoves hapart hrow hone
      (hmem fun state hstate => Or.inl ?_)) ?_
    · rw [List.append_nil] at hstate
      obtain hstate | hstate := List.mem_append.mp hstate
      · exact hpassed state hstate
      · rw [List.mem_singleton.mp hstate, hlast]
        rfl
    · rw [Bool.true_or, Bool.and_true]
      unfold isCut at hcut
      rw [hfate] at hcut
      cases hblank : isBlank move value with
      | false => rfl
      | true =>
        rw [hblank] at hcut
        have hkill : fates (.dropLegacyRow move.fromKey) = .killed := by simpa using hcut
        rw [hkill]
        rfl
  | false =>
    rw [hcut, if_neg Bool.false_ne_true] at hone
    have hdropped := hundropped hcut
    rw [Bool.false_or]
    by_cases hlost : isBlank move value = true ∧
        (fates (.dropLegacyRow move.fromKey)).commits = true
    · -- the blank credential is in neither slot
      obtain ⟨hblank, hcommits⟩ := hlost
      rw [if_pos hcommits] at hdropped
      obtain ⟨-, hstates, -⟩ := moveAll_cons_returned moves hrow hone
      refine iff_of_false (fun h => ?_) (by simp [hblank, hcommits])
      have hnowhere := h.2 move List.mem_cons_self value hheld
        (written.commit ⟨move.fromKey.key, none⟩) (by
          rw [hstates, hdropped]
          simp)
      obtain ⟨entry, hentry, -⟩ | ⟨entry, hentry, -⟩ := hnowhere
      · rw [StoredSettings.get_commit, if_pos rfl] at hentry
        contradiction
      · rw [StoredSettings.get_commit, hwritten.blank hblank, if_neg, hto] at hentry
        · contradiction
        · rw [eq_of_mem_moves hmove]
          exact fun h => LegacyModelSetting.slot_ne_key h.symm
    · have hstatesIn : ∀ state ∈ (passed ++ dropped) ++ [last], state = written ∨
          isBlank move value = false ∧
            state = written.commit ⟨move.fromKey.key, none⟩ := by
        have hindropped : ∀ state ∈ dropped, isBlank move value = false ∧
            state = written.commit ⟨move.fromKey.key, none⟩ := by
          intro state hstate
          rw [hdropped] at hstate
          by_cases hcommits : (fates (.dropLegacyRow move.fromKey)).commits = true
          · rw [if_pos hcommits] at hstate
            refine ⟨?_, List.mem_singleton.mp hstate⟩
            rw [← Bool.not_eq_true]
            exact fun hblank => hlost ⟨hblank, hcommits⟩
          · rw [if_neg hcommits] at hstate
            exact absurd hstate List.not_mem_nil
        intro state hstate
        obtain hstate | hstate := List.mem_append.mp hstate
        · obtain hstate | hstate := List.mem_append.mp hstate
          · exact Or.inl (hpassed state hstate)
          · exact Or.inr (hindropped state hstate)
        · rw [List.mem_singleton.mp hstate, hlast]
          cases hend : dropped.getLast? with
          | none => exact Or.inl rfl
          | some final => exact Or.inr (hindropped final (List.mem_of_getLast? hend))
      obtain ⟨hfound', hiff⟩ := keptIn_cons_iff hmoves hapart hfound hrow hone
        (hmem hstatesIn)
      rw [hiff, hrest last hfound']
      have hcarried : (!(isBlank move value && Fate.done == Fate.done &&
          (fates (.dropLegacyRow move.fromKey)).commits)) = true := by
        rw [show (Fate.done == Fate.done) = true from rfl, Bool.and_true,
          Bool.not_eq_true', ← Bool.not_eq_true, Bool.and_eq_true]
        exact hlost
      rw [hcarried, Bool.true_and]


/-- **What a run keeps**: it does not throw and loses nothing exactly when the moves it
comes to are carried. -/
theorem moveAll_iff (boot : deployment.Boot) (fates : MigrationStatement → Fate)
    (rows : KeyMap String OverlayEntry) (hcipher : deployment.box.cipher.Authentic) :
    ∀ (moves : List LegacyModelSettingMove) (stored : StoredSettings),
      (∀ move ∈ moves, move ∈ legacyModelSettingMoves deployment.provider) →
      (moves.map (·.fromKey)).Nodup → Found rows moves stored →
      ((deployment.moveAll boot rows moves fates stored).outcome ≠ .thrown
          ∧ deployment.KeptIn moves stored
            (deployment.moveAll boot rows moves fates stored).states
        ↔ deployment.allCarried fates rows moves = true) := by
  intro moves
  induction moves with
  | nil =>
    intro stored _ _ _
    exact iff_of_true ⟨nofun, fun move hmove => absurd hmove List.not_mem_nil⟩ rfl
  | cons move moves ih =>
    intro stored hmoves hnodup hfound
    have hmove := hmoves move List.mem_cons_self
    obtain ⟨hfrom, hto⟩ := hfound move List.mem_cons_self
    rw [List.map_cons, List.nodup_cons] at hnodup
    have hapart : ∀ other ∈ moves, other.fromKey ≠ move.fromKey := fun other hother heq =>
      hnodup.1 (heq ▸ List.mem_map_of_mem hother)
    have hih := fun after => ih after
      (fun other hother => hmoves other (List.mem_cons_of_mem _ hother)) hnodup.2
    -- the moves that are left, from a state in which the rows of this one are as they were
    have hstay : ∀ states : List StoredSettings,
        (∀ state ∈ states, state.rows.get move.fromKey.key = stored.rows.get move.fromKey.key) →
        (deployment.KeptIn (move :: moves) stored states ↔
          deployment.KeptIn moves stored states) := by
      intro states hsame
      constructor
      · exact fun h other hother => h other (List.mem_cons_of_mem _ hother)
      · intro h other hother
        obtain rfl | hother := List.mem_cons.mp hother
        · exact fun value hvalue state hstate => Or.inl (hvalue.congr (hsame state hstate))
        · exact h other hother
    unfold allCarried
    cases hrow : rows.get move.fromKey.key with
    | none =>
      have hnone : deployment.movedValue rows move = none := by
        unfold movedValue
        rw [hrow]
      have hrun : deployment.moveAll boot rows (move :: moves)
          = deployment.moveAll boot rows moves := by
        conv_lhs => unfold moveAll
        rw [hrow]
      rw [hrun, hnone, hstay _ fun state hstate =>
        get_of_mem_states hmoves hapart (Or.inl rfl) hstate]
      exact hih stored fun other hother => hfound other (List.mem_cons_of_mem _ hother)
    | some row =>
      cases hmoved : deployment.movedValue rows move with
      | none =>
        obtain ⟨outcome, hone⟩ := moveOne_of_none boot hrow hmoved
        obtain ⟨houtcome, hstates, -⟩ := moveAll_cons_returned moves hrow
          (hone.symm ▸ rfl : deployment.moveOne boot move row (rows.get move.toKey).isSome fates
            stored = ⟨.returned outcome, [], stored⟩)
        rw [hstates, List.nil_append, hstay _ fun state hstate =>
          get_of_mem_states hmoves hapart (Or.inl rfl) hstate, ne_eq, houtcome]
        exact hih stored fun other hother => hfound other (List.mem_cons_of_mem _ hother)
      | some value => exact moveAll_moved_iff hcipher hmoves hapart hfound hmoved hih

/-- What is not moved stays, and so does its destination. -/
theorem keeps_of_not_moved
    (hmove : move ∈ legacyModelSettingMoves deployment.provider)
    (h : deployment.movedValue rows move = none) {key : String} {entry : Option OverlayEntry}
    (hkey : key = move.fromKey.key ∨ key = move.toKey) :
    Program.Keeps (fun state : StoredSettings => state.rows.get key = entry)
      (deployment.moveAll boot rows (legacyModelSettingMoves deployment.provider)) := by
  refine keeps_moveAll fun other hother row hrow => ?_
  by_cases hsame : other.fromKey = move.fromKey
  · obtain rfl : other = move := by
      obtain ⟨setting, slot⟩ := other
      obtain ⟨setting', slot'⟩ := move
      obtain rfl : setting = setting' := hsame
      exact congrArg _ ((eq_of_mem_moves hother).trans (eq_of_mem_moves hmove).symm)
    obtain ⟨outcome, hone⟩ := moveOne_of_none boot hrow h
    rw [hone]
    exact Program.keeps_pure
  · obtain ⟨⟨hff, hft⟩, htf, htt⟩ := keys_apart hmove hother hsame
    obtain rfl | rfl := hkey
    · exact keeps_moveOne (Ne.symm hff) (Ne.symm htf)
    · exact keeps_moveOne (Ne.symm hft) (Ne.symm htt)

theorem movedValue_congr {rows' : KeyMap String OverlayEntry}
    (hfrom : rows'.get move.fromKey.key = rows.get move.fromKey.key)
    (hto : rows'.get move.toKey = rows.get move.toKey) :
    deployment.movedValue rows' move = deployment.movedValue rows move := by
  unfold movedValue
  rw [hfrom, hto]

/-- **A run in which nothing fails leaves nothing to move.** -/
theorem movedValue_moveAll_of_done (hcipher : deployment.box.cipher.Authentic)
    (hdone : ∀ statement, fates statement = .done) :
    ∀ (moves : List LegacyModelSettingMove) (stored : StoredSettings),
      (∀ move ∈ moves, move ∈ legacyModelSettingMoves deployment.provider) →
      (moves.map (·.fromKey)).Nodup → Found rows moves stored →
      (deployment.moveAll boot rows moves fates stored).outcome ≠ .thrown →
      ∀ move ∈ moves, deployment.movedValue
        (deployment.moveAll boot rows moves fates stored).store.rows move = none := by
  intro moves
  induction moves with
  | nil => exact fun _ _ _ _ _ move hmove => absurd hmove List.not_mem_nil
  | cons move moves ih =>
    intro stored hmoves hnodup hfound hreturns
    have hmove := hmoves move List.mem_cons_self
    obtain ⟨hfrom, hto⟩ := hfound move List.mem_cons_self
    rw [List.map_cons, List.nodup_cons] at hnodup
    have hapart : ∀ other ∈ moves, other.fromKey ≠ move.fromKey := fun other hother heq =>
      hnodup.1 (heq ▸ List.mem_map_of_mem hother)
    have hih := fun after => ih after
      (fun other hother => hmoves other (List.mem_cons_of_mem _ hother)) hnodup.2
    -- what the rest of the run does to the rows of this move
    have hstays : ∀ after, deployment.movedValue
          (deployment.moveAll boot rows moves fates after).store.rows move
        = deployment.movedValue after.rows move := by
      intro after
      have hstore : (deployment.moveAll boot rows moves fates after).store
          ∈ (deployment.moveAll boot rows moves fates after).states :=
        List.mem_append_right _ List.mem_cons_self
      exact movedValue_congr (get_of_mem_states hmoves hapart (Or.inl rfl) hstore)
        (get_of_mem_states hmoves hapart (Or.inr rfl) hstore)
    have hstart : deployment.movedValue stored.rows move = deployment.movedValue rows move :=
      movedValue_congr hfrom hto
    have hfound' : Found rows moves stored := fun other hother =>
      hfound other (List.mem_cons_of_mem _ hother)
    cases hrow : rows.get move.fromKey.key with
    | none =>
      have hnone : deployment.movedValue rows move = none := by
        unfold movedValue
        rw [hrow]
      have hrun : deployment.moveAll boot rows (move :: moves)
          = deployment.moveAll boot rows moves := by
        conv_lhs => unfold moveAll
        rw [hrow]
      rw [hrun] at hreturns ⊢
      intro other hother
      obtain rfl | hother := List.mem_cons.mp hother
      · rw [hstays, hstart, hnone]
      · exact hih stored hfound' hreturns other hother
    | some row =>
      cases hmoved : deployment.movedValue rows move with
      | none =>
        obtain ⟨outcome, hone⟩ := moveOne_of_none boot hrow hmoved
        obtain ⟨houtcome, -, hstore⟩ := moveAll_cons_returned moves hrow
          (hone.symm ▸ rfl : deployment.moveOne boot move row (rows.get move.toKey).isSome fates
            stored = ⟨.returned outcome, [], stored⟩)
        rw [ne_eq, houtcome] at hreturns
        rw [hstore]
        intro other hother
        obtain rfl | hother := List.mem_cons.mp hother
        · rw [hstays, hstart, hmoved]
        · exact hih stored hfound' hreturns other hother
      | some value =>
        obtain ⟨-, -, hfree, -, -⟩ := movedValue_eq_some.mp hmoved
        obtain ⟨hthrows, -, hwrites⟩ := moveOne_run boot fates hcipher
          hmove hrow hmoved (hto.trans hfree)
        have hsealable : deployment.isSealable move value = true := by
          by_contra hsealable
          have hthrown := hthrows (Or.inl (Bool.not_eq_true _ ▸ hsealable))
          cases hone : deployment.moveOne boot move row (rows.get move.toKey).isSome fates
              stored with
          | mk outcome passed after =>
            rw [hone] at hthrown
            dsimp only at hthrown
            rw [hthrown] at hone
            rw [moveAll_cons_thrown hrow hone] at hreturns
            exact hreturns rfl
        obtain ⟨written, passed, hwritten, -, dropped, last, hone, hdropped, -, hlast⟩ :=
          hwrites hsealable (hdone _)
        have hcut : isCut fates move value = false := by
          unfold isCut
          rw [hdone, hdone, hdone, hdone]
          simp
        rw [hcut, if_neg Bool.false_ne_true] at hone
        have hdropped := hdropped hcut
        rw [hdone, if_pos (show Fate.done.commits = true from rfl)] at hdropped
        rw [hdropped] at hlast
        have hlast : last = written.commit ⟨move.fromKey.key, none⟩ := hlast
        obtain ⟨houtcome, -, hstore⟩ := moveAll_cons_returned moves hrow hone
        rw [ne_eq, houtcome] at hreturns
        have hafter : Found rows moves last := by
          intro other hother
          obtain ⟨hfrom', hto'⟩ := get_of_mem_states_moveOne hmoves hapart hother
            (show last ∈ (deployment.moveOne boot move row (rows.get move.toKey).isSome fates
              stored).states by rw [hone]; exact List.mem_append_right _ List.mem_cons_self)
          exact ⟨hfrom'.trans (hfound' other hother).1, hto'.trans (hfound' other hother).2⟩
        rw [hstore]
        intro other hother
        obtain rfl | hother := List.mem_cons.mp hother
        · rw [hstays]
          unfold movedValue
          rw [hlast, StoredSettings.get_commit, if_pos rfl]
        · exact hih last hafter hreturns other hother

/-! ## The run of a boot -/

/-- The migration reads the rows. -/
def looks (boot : deployment.Boot) (fates : MigrationStatement → Fate) : Bool :=
  boot.wired && boot.overlay == .loaded && fates .findMany == .done

theorem migrate_of_looks (stored : StoredSettings) (h : looks boot fates = true) :
    (deployment.migrate boot fates stored).outcome
        = (deployment.moveAll boot stored.rows (legacyModelSettingMoves deployment.provider)
          fates stored).outcome
      ∧ (deployment.migrate boot fates stored).states
        = stored :: (deployment.moveAll boot stored.rows
          (legacyModelSettingMoves deployment.provider) fates stored).states
      ∧ (deployment.migrate boot fates stored).store
        = (deployment.moveAll boot stored.rows (legacyModelSettingMoves deployment.provider)
          fates stored).store := by
  unfold looks at h
  rw [Bool.and_eq_true, Bool.and_eq_true, beq_iff_eq, beq_iff_eq] at h
  obtain ⟨⟨hwired, hoverlay⟩, hfate⟩ := h
  have hfind : Program.attempt (Program.statement .findMany
        fun stored : StoredSettings => (stored, stored.rows)) fates stored
      = ⟨.returned (some stored.rows), [stored], stored⟩ := by
    rw [Program.attempt_statement_apply, hfate]
    rfl
  unfold migrate
  rw [hwired, if_neg (show ¬ (!true) = true from Bool.false_ne_true),
    if_neg (not_not.mpr hoverlay), Program.bind_returned hfind]
  exact ⟨rfl, rfl, rfl⟩

/-- Where it does not, nothing happens. -/
theorem migrate_of_not_looks (h : looks boot fates = false) :
    (deployment.migrate boot fates stored).outcome ≠ .thrown
      ∧ ∀ state ∈ (deployment.migrate boot fates stored).states, state = stored := by
  unfold migrate
  by_cases hwired : (!boot.wired) = true
  · rw [if_pos hwired]
    exact ⟨nofun, fun state hstate => List.mem_singleton.mp hstate⟩
  rw [if_neg hwired]
  by_cases hoverlay : boot.overlay = .loaded
  · rw [if_neg (not_not.mpr hoverlay)]
    have hfind := Program.attempt_statement_apply fates stored MigrationStatement.findMany
      fun stored : StoredSettings => (stored, stored.rows)
    cases hfate : fates .findMany with
    | done =>
      unfold looks at h
      rw [hoverlay, hfate] at h
      simp at h hwired
      rw [hwired] at h
      contradiction
    | refused =>
      rw [hfate] at hfind
      rw [Program.bind_returned hfind]
      exact ⟨nofun, fun state hstate => List.mem_singleton.mp hstate⟩
    | lost =>
      rw [hfate] at hfind
      rw [Program.bind_returned hfind]
      refine ⟨nofun, fun state hstate => ?_⟩
      obtain hstate | hstate := List.mem_cons.mp hstate
      · exact hstate
      · exact List.mem_singleton.mp hstate
    | killed =>
      rw [hfate] at hfind
      rw [Program.bind_killed hfind]
      exact ⟨nofun, fun state hstate => List.mem_singleton.mp hstate⟩
  · rw [if_pos hoverlay]
    exact ⟨nofun, fun state hstate => List.mem_singleton.mp hstate⟩

/-- A run with nothing to move changes nothing. -/
theorem migrate_of_nothing_moved
    (h : ∀ move ∈ legacyModelSettingMoves deployment.provider,
      deployment.movedValue stored.rows move = none) :
    ∀ state ∈ (deployment.migrate boot fates stored).states, state = stored := by
  cases hlooks : looks boot fates with
  | false => exact (migrate_of_not_looks hlooks).2
  | true =>
    obtain ⟨-, hstates, -⟩ := migrate_of_looks stored hlooks
    have hkeeps : Program.Keeps (fun state : StoredSettings => state = stored)
        (deployment.moveAll boot stored.rows (legacyModelSettingMoves deployment.provider)) := by
      refine keeps_moveAll fun move hmove row hrow => ?_
      obtain ⟨outcome, hone⟩ := moveOne_of_none boot hrow (h move hmove)
      rw [hone]
      exact Program.keeps_pure
    rw [hstates]
    intro state hstate
    obtain hstate | hstate := List.mem_cons.mp hstate
    · exact hstate
    · exact hkeeps fates stored rfl state hstate

/-- The rows of a move that is not made, in the states of a run. -/
theorem get_migrate_of_not_moved
    (hmove : move ∈ legacyModelSettingMoves deployment.provider)
    (h : deployment.movedValue stored.rows move = none) {key : String}
    (hkey : key = move.fromKey.key ∨ key = move.toKey) {state : StoredSettings}
    (hstate : state ∈ (deployment.migrate boot fates stored).states) :
    state.rows.get key = stored.rows.get key := by
  cases hlooks : looks boot fates with
  | false => rw [(migrate_of_not_looks hlooks).2 state hstate]
  | true =>
    rw [(migrate_of_looks stored hlooks).2.1] at hstate
    obtain rfl | hstate := List.mem_cons.mp hstate
    · rfl
    · exact keeps_of_not_moved hmove h hkey fates stored rfl state hstate

/-- The moves are those of two settings. -/
theorem nodup_moves :
    ((legacyModelSettingMoves deployment.provider).map (·.fromKey)).Nodup := by
  show [LegacyModelSetting.apiKey, .baseUrl].Nodup
  decide

/-- **The migration keeps the credentials exactly when each move it comes to is carried**:
a credential that is not blank can be sealed, the write is not reported as failed, and the
row of a blank credential is not dropped. -/
theorem keepsCredentials_iff (hcipher : deployment.box.cipher.Authentic) :
    deployment.KeepsCredentials boot fates stored
      ↔ (looks boot fates = true →
        deployment.allCarried fates stored.rows (legacyModelSettingMoves deployment.provider)
          = true) := by
  have hrun := moveAll_iff boot fates stored.rows hcipher
    (legacyModelSettingMoves deployment.provider) stored (fun _ h => h) nodup_moves
    fun _ _ => ⟨rfl, rfl⟩
  constructor
  · intro h hlooks
    obtain ⟨houtcome, hstates, -⟩ := migrate_of_looks stored hlooks
    refine hrun.mp ⟨houtcome ▸ h.returns, fun move hmove value hvalue state hstate => ?_⟩
    exact h.kept move hmove value hvalue state (hstates ▸ List.mem_cons_of_mem _ hstate)
  · intro h
    refine ⟨?_, ?_, ?_, ?_, ?_⟩
    · cases hlooks : looks boot fates with
      | false => exact (migrate_of_not_looks hlooks).1
      | true =>
        rw [(migrate_of_looks stored hlooks).1]
        exact (hrun.mpr (h hlooks)).1
    · intro move hmove value hvalue state hstate
      cases hlooks : looks boot fates with
      | false =>
        rw [(migrate_of_not_looks hlooks).2 state hstate]
        exact Or.inl hvalue
      | true =>
        rw [(migrate_of_looks stored hlooks).2.1] at hstate
        obtain rfl | hstate := List.mem_cons.mp hstate
        · exact Or.inl hvalue
        · exact (hrun.mpr (h hlooks)).2 move hmove value hvalue state hstate
    · intro move hmove row hrow state hstate
      have hnone : deployment.movedValue stored.rows move = none := by
        rw [Option.eq_none_iff_forall_ne_some]
        intro value hmoved
        obtain ⟨-, -, hfree, -, -⟩ := movedValue_eq_some.mp hmoved
        rw [hrow] at hfree
        contradiction
      exact (get_migrate_of_not_moved hmove hnone (Or.inr rfl) hstate).trans hrow
    · intro move hmove row reason hrow hread state hstate
      have hnone : deployment.movedValue stored.rows move = none := by
        rw [Option.eq_none_iff_forall_ne_some]
        intro value hmoved
        obtain ⟨row', hrow', -, hread', -⟩ := movedValue_eq_some.mp hmoved
        obtain rfl := Option.some.inj (hrow.symm.trans hrow')
        rw [hread] at hread'
        contradiction
      exact (get_migrate_of_not_moved hmove hnone (Or.inl rfl) hstate).trans hrow
    · intro hwired hoverlay hdone hreturns again fates'
      have hlooks : looks boot fates = true := by
        unfold looks
        rw [hwired, hoverlay, hdone]
        rfl
      obtain ⟨houtcome, -, hstore⟩ := migrate_of_looks stored hlooks
      rw [houtcome] at hreturns
      refine migrate_of_nothing_moved fun move hmove => ?_
      rw [hstore]
      exact movedValue_moveAll_of_done hcipher hdone _ stored (fun _ h => h) nodup_moves
        (fun _ _ => ⟨rfl, rfl⟩) hreturns move hmove

end Moves

end ModelDeployment

/-! ## A plain credential -/

/-- A cipher that checks the additional data, and hides nothing. -/
def transparentCipher : Cipher where
  Key := Unit
  encrypt _ _ aad plaintext := aad ++ plaintext
  decrypt _ _ aad ciphertext :=
    if Text.startsWith ciphertext aad then some (Text.slice aad.toList.length ciphertext)
    else none
  ivBytes _ := 12
  tagBytes _ := 16

theorem authentic_transparentCipher : transparentCipher.Authentic := by
  refine ⟨fun _ _ aad plaintext => ?_, fun _ _ _ _ => rfl⟩
  have hstarts : Text.startsWith (aad ++ plaintext) aad = true := by
    rw [Text.startsWith_iff, String.toList_append]
    exact List.prefix_append _ _
  unfold transparentCipher Text.slice
  dsimp only
  rw [if_pos hstarts, String.toList_append, List.drop_left, String.ofList_toList]

/-- Two slots, in a process with or without an encryption key. -/
def anthropicDeployment (key : Except String Unit) : ModelDeployment where
  box := ⟨transparentCipher, key⟩
  isUrl text := Text.startsWith text "https://"
  rest :=
    { isManaged := fun _ => false
      isSecret := fun _ => false
      parse := fun _ raw => .ok raw
      default := fun _ => "null"
      invalidFallback := fun _ => none
      environment := fun _ => none
      openSealed := fun _ _ => .error "" }
  provider := .anthropic

/-- A boot in which the registry is wired and the overlay has been loaded. -/
def plainBoot (key : Except String Unit) : (anthropicDeployment key).Boot where
  wired := true
  overlay := .loaded
  nonce _ := ⟨"AAAAAAAAAAAAAAAA", rfl, by decide⟩

/-- A credential that was inserted by hand. -/
def plainCredential : StoredSettings :=
  ⟨KeyMap.empty.set "supervisor.model.apiKey" (.value (Json.quote "sk-ant-1")), 1⟩

/-- With a key the credential is moved. -/
theorem keepsCredentials_plain :
    (anthropicDeployment (.ok ())).KeepsCredentials (plainBoot (.ok ())) (fun _ => .done)
      plainCredential :=
  (ModelDeployment.keepsCredentials_iff authentic_transparentCipher).mpr
    fun _ => by decide

/-- **Without one it stops the boot**: it can be read, and not sealed. -/
theorem stops_the_boot :
    ¬ (anthropicDeployment (.error "OPIFEX_SETTINGS_ENCRYPTION_KEY is not set")).KeepsCredentials
      (plainBoot _) (fun _ => .done) plainCredential :=
  fun h => h.returns (by decide)

end Opifex
