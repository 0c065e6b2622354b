import Orrery.Keystore.Blob
import Orrery.Foundation.Effect

/-! The key vault of a member (agent/community_member/keystore.py), under one home: the
entries of the OS keychain, the encrypted vault file, the meta file, and a process that
uses them. A file is given by what `json.loads` makes of its text. -/
namespace Orrery.Keystore
open Foundation Json

inductive Backend
  | keyring
  | passphrase
  | device
deriving DecidableEq

def Backend.name : Backend → String
  | .keyring => "keyring"
  | .passphrase => "passphrase"
  | .device => "device"

def Backend.named (text : String) : Option Backend :=
  if text = "keyring" then some .keyring else if text = "passphrase" then some .passphrase
  else if text = "device" then some .device else none

@[simp] theorem Backend.named_name (backend : Backend) : Backend.named backend.name = some backend := by
  cases backend <;> rfl

theorem Backend.name_injective : Function.Injective Backend.name := by
  intro one other
  cases one <;> cases other <;> simp [Backend.name]

theorem Backend.name_of_named {text : String} {backend : Backend} (known : Backend.named text = some backend) :
    backend.name = text := by
  unfold Backend.named at known
  split_ifs at known with first second third
  · cases known
    exact first.symm
  · cases known
    exact second.symm
  · cases known
    exact third.symm

def legacyEncryptedFile : String := "encrypted_file"
def keystoreProbe : String := "_keystore_probe_"
def minPassphrase : ℕ := 10

inductive KeystoreError
  | valueError
  | wrongPassphrase
  | runtimeError
  | typeError
  | attributeError
  | osError
  | eofError
  | keyringError

abbrev File := Option (Option Json)

/-- The keychain, the two files, and the process: the backend it has resolved, the
passphrase it has cached, what the user types at its next prompts, and how often it drew
from `os.urandom`. -/
structure Host where
  entries : String → Option String
  vault : File
  record : File
  backend : Option Backend
  cache : Option String
  typed : List String
  drawn : ℕ

/-- What stays as it is: the settings `COMMUNITY_MEMBER_KEYSTORE` (stripped, in lower case)
and `COMMUNITY_MEMBER_PASSPHRASE`, the digest of the device fingerprint, and whether there
is a terminal. -/
structure Environment extends Hashing where
  parseFloat : List Char → ℚ
  floatRepr : ℚ → List Char
  floats : ReadsBack parseFloat floatRepr
  urandom : ℕ → ℕ → Bytes
  keystore : String
  passphrase : String
  digest : String
  digest_filled : digest ≠ ""
  tty : Bool

abbrev Action := Effect KeystoreError Host

inductive Writing
  | done
  | refused
  | torn
deriving DecidableEq

inductive Probing
  | works
  | refused
  | stranded
deriving DecidableEq

/-- Whether the vault file is read, at first and to verify a passphrase, and how it is
written when its blob is a legacy one. -/
structure Reading where
  opens : Bool
  verifies : Bool
  rewrites : Writing

structure Loading where
  selects : Bool
  probe : Probing
  getPassword : Bool
  vault : Reading

structure Storing extends Loading where
  setPassword : Bool
  vaultWrites : Writing
  metaReads : Bool
  metaWrites : Writing

def writeText (writing : Writing) (save : File → Host → Host) (content : Json) : Action Unit := fun h =>
  match writing with
  | .done => .ok () (save (some (some content)) h)
  | .refused => .error .osError h
  | .torn => .error .osError (save (some none) h)

def Host.withVault (file : File) (h : Host) : Host := { h with vault := file }

def Host.withRecord (file : File) (h : Host) : Host := { h with record := file }

def probeKeyring : Probing → Action Bool
  | .works => do
    modify fun h => { h with entries := Function.update h.entries keystoreProbe none }
    return true
  | .refused => return false
  | .stranded => do
    modify fun h => { h with entries := Function.update h.entries keystoreProbe (some "ok") }
    return false

def readMeta (reads : Bool) : Action Json := fun h =>
  match h.record with
  | none => .ok (.obj []) h
  | some text => if reads then .ok (text.getD (.obj [])) h else .error .osError h

def getField (value : Json) (name : String) : Action (Option Json) :=
  match value with
  | .obj fields => return get fields name
  | _ => Effect.raise .attributeError

def persistedBackend : Option Json → Option Backend
  | some (.str name) => if name = legacyEncryptedFile then some .device else Backend.named name
  | _ => none

section Functions
variable (env : Environment)

def selectedBackend (reads : Bool) : Action (Option Backend) :=
  match Backend.named env.keystore with
  | some backend => return some backend
  | none =>
    if env.keystore = "auto" then return none
    else do
      let preferences ← readMeta reads
      let persisted ← getField preferences "current_backend"
      return persistedBackend persisted

def autoBackend (probe : Probing) : Action Backend := do
  if ← probeKeyring probe then return .keyring
  else return if env.tty then .passphrase else .device

def resolve (reads : Bool) (probe : Probing) : Action Backend := do
  match ← selectedBackend env reads with
  | some backend => return backend
  | none => autoBackend env probe

def currentBackend (reads : Bool) (probe : Probing) : Action Backend := do
  match (← get).backend with
  | some backend => return backend
  | none =>
    let backend ← resolve env reads probe
    modify fun h => { h with backend := some backend }
    return backend

def getpass : Action String := fun h =>
  match h.typed with
  | [] => .error .eofError h
  | answer :: rest => .ok answer { h with typed := rest }

def promptForNewPassphrase : ℕ → Action String
  | 0 => Effect.raise .wrongPassphrase
  | attempts+1 => do
    let first ← getpass
    if first.length < minPassphrase then promptForNewPassphrase attempts
    else
      let confirm ← getpass
      if first ≠ confirm then promptForNewPassphrase attempts else return first

def promptForUnlockPassphrase : Action String := Effect.handle getpass fun _ => Effect.raise .wrongPassphrase

def remember (passphrase : String) : Action String := do
  modify fun h => { h with cache := some passphrase }
  return passphrase

def Host.decrypted (h : Host) (passphrase : String) : Option String :=
  (h.vault.bind id).bind fun payload => decryptValue env.toHashing payload passphrase

def verify (verifies : Bool) (passphrase : String) : Action Bool := fun h =>
  if verifies then .ok (h.decrypted env passphrase).isSome h else .error .osError h

def unlock (verifies : Bool) : ℕ → Action String
  | 0 => Effect.raise .wrongPassphrase
  | attempts+1 => do
    let attempt ← promptForUnlockPassphrase
    if ← verify env verifies attempt then remember attempt else unlock verifies attempts

def environmentPassphrase (verifies : Bool) : Action String := do
  if (← get).vault.isSome then
    if ← verify env verifies env.passphrase then remember env.passphrase else Effect.raise .wrongPassphrase
  else if env.passphrase.length < minPassphrase then Effect.raise .wrongPassphrase
  else remember env.passphrase

def Host.cached (h : Host) : Option String := h.cache.filter (· ≠ "")

def passphraseForBackend (verifies : Bool) : Backend → Action String
  | .device => return env.digest
  | .keyring => Effect.raise .valueError
  | .passphrase => do
    let h ← get
    match h.cached with
    | some cached => return cached
    | none =>
      if env.passphrase ≠ "" then environmentPassphrase env verifies
      else if h.vault.isSome then unlock env verifies 3
      else
        let newPass ← promptForNewPassphrase 3
        remember newPass

def urandom (length : ℕ) : Action Bytes := fun h => .ok (env.urandom h.drawn length) { h with drawn := h.drawn+1 }

def writeVault (writing : Writing) (vault : Dict) (backend : Backend) : Action Unit := do
  let passphrase ← passphraseForBackend env true backend
  let salt ← urandom env saltLength
  let nonce ← urandom env nonceLength
  match encryptValue env.toHashing (String.ofList (dumps env.floatRepr .sorted (.obj vault))) passphrase salt nonce with
  | some payload => writeText writing Host.withVault payload
  | none => Effect.raise .valueError

def vaultOf (plaintext : String) : Option Dict :=
  (loads env.parseFloat plaintext.toList).map fun data => match data with
    | .obj fields => fields
    | _ => []

def readVault (reading : Reading) (backend : Backend) : Action Dict := do
  match (← get).vault with
  | none => return []
  | some text =>
    if reading.opens = false then Effect.raise .osError
    else match text with
      | none => Effect.raise .valueError
      | some payload => do
        let passphrase ← passphraseForBackend env reading.verifies backend
        match (decryptValue env.toHashing payload passphrase).bind (vaultOf env) with
        | none => Effect.raise .valueError
        | some vault =>
          if isLegacyBlob payload then do
            writeVault env reading.rewrites vault backend
            return vault
          else return vault

def noted (fields agents : Dict) (agentId : String) (backend : Backend) : Dict :=
  setItem (setItem fields "agents" (.obj (setItem agents agentId (.obj [("backend",.str backend.name)]))))
    "current_backend" (.str backend.name)

def writeMeta (reads : Bool) (writing : Writing) (agentId : String) (backend : Backend) : Action Unit := do
  match ← readMeta reads with
  | .obj fields => match (get fields "agents").getD (.obj []) with
    | .obj agents => writeText writing Host.withRecord (ordered (.obj (noted fields agents agentId backend)))
    | _ => Effect.raise .typeError
  | _ => Effect.raise .attributeError

def setPassword (works : Bool) (agentId : String) (key : Json) : Action Unit := do
  match key with
  | .str key =>
    if works then modify fun h => { h with entries := Function.update h.entries agentId (some key) }
    else Effect.raise .keyringError
  | _ => Effect.raise .typeError

def storePrivateKey (o : Storing) (agentId : String) (key : Json) : Action Backend := do
  if agentId = "" ∨ key.truthy = false then Effect.raise .valueError
  else do
    let backend ← currentBackend env o.selects o.probe
    if backend = .keyring then setPassword o.setPassword agentId key
    else do
      let vault ← readVault env o.vault backend
      writeVault env o.vaultWrites (setItem vault agentId key) backend
    writeMeta o.metaReads o.metaWrites agentId backend
    return backend

def entry (works : Bool) (agentId : String) : Action (Option Json) := fun h =>
  if works then .ok (((h.entries agentId).filter (· ≠ "")).map .str) h else .error .keyringError h

def loadPrivateKey (o : Loading) (agentId : String) : Action (Option Json) := do
  if agentId = "" then return none
  else do
    let backend ← currentBackend env o.selects o.probe
    if backend = .keyring then entry o.getPassword agentId
    else do
      let vault ← readVault env o.vault backend
      return get vault agentId

end Functions

end Orrery.Keystore
