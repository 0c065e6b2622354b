import Orrery.Foundation.Base64
import Orrery.Foundation.JsonOrder

/-! Text encrypted under a passphrase (agent/community_member/crypto.py): the versioned
blob, and what opens it. -/
namespace Orrery.Keystore
open Foundation Json Base64

abbrev Bytes := List UInt8

/-- `hashlib.pbkdf2_hmac` of a passphrase, a salt and a number of iterations, and
`hmac.new(key,message).digest()`, both with SHA-256. -/
structure Hashing where
  pbkdf2 : String → Bytes → ℕ → Bytes
  hmac : Bytes → Bytes → Bytes

def pbkdf2Iterations : ℕ := 100000
def legacyPbkdf2Iterations : ℕ := 100000
def saltLength : ℕ := 32
def nonceLength : ℕ := 16
def blobVersion : Int := 2
def kdfName : String := "pbkdf2-sha256"
def cipherName : String := "hmac-sha256-etm-v1"
def minKdfIterations : ℕ := 50000
def maxKdfIterations : ℕ := 10000000

def utf8 (text : String) : Bytes := text.toByteArray.data.toList

def decodeUtf8 (bytes : Bytes) : Option String := String.fromUTF8? ⟨bytes.toArray⟩

def counter (n : ℕ) : Bytes := [UInt8.ofNat (n/2^24),UInt8.ofNat (n/2^16),UInt8.ofNat (n/2^8),UInt8.ofNat n]

section Functions
variable (hashing : Hashing)

def deriveKey (passphrase : String) (salt : Bytes) (iterations : ℕ) : Option Bytes :=
  if passphrase = "" then none else some (hashing.pbkdf2 passphrase salt iterations)

def keystreamXor (data encKey nonce : Bytes) : Bytes :=
  data.mapIdx fun i byte => byte ^^^ (hashing.hmac encKey (nonce ++ counter (i/32))).getD (i%32) 0

def blob (iterations : ℕ) (ciphertext salt nonce tag : Bytes) : Dict :=
  [("v",.int blobVersion),("kdf",.obj [("name",.str kdfName),("iterations",.int iterations)]),
    ("cipher",.str cipherName),
    ("ciphertext",.str (b64encode ciphertext)),("salt",.str (b64encode salt)),("nonce",.str (b64encode nonce)),
    ("tag",.str (b64encode tag))]

def encryptValue (plaintext passphrase : String) (salt nonce : Bytes) : Option Json :=
  if plaintext = "" then none else do
    let key ← deriveKey hashing passphrase salt pbkdf2Iterations
    let ciphertext := keystreamXor hashing (utf8 plaintext) (key.take 16) nonce
    let tag := hashing.hmac (key.drop 16) (nonce ++ ciphertext)
    return .obj (blob pbkdf2Iterations ciphertext salt nonce tag)

def isVersion : Json → Bool
  | .int v => v = blobVersion
  | .float v => v = blobVersion
  | _ => false

def blobIterations (encrypted : Dict) : Option ℕ :=
  match get encrypted "v" with
  | none => some legacyPbkdf2Iterations
  | some v =>
    if isVersion v = false ∨ eqStr (get encrypted "cipher") cipherName = false then none
    else match get encrypted "kdf" with
      | some (.obj kdf) =>
        if eqStr (get kdf "name") kdfName then match get kdf "iterations" with
          | some (.int (.ofNat n)) => if minKdfIterations ≤ n ∧ n ≤ maxKdfIterations then some n else none
          | _ => none
        else none
      | _ => none

def isLegacyBlob : Json → Bool
  | .obj encrypted => (get encrypted "v").isNone
  | _ => false

def bytesAt (encrypted : Dict) (name : String) : Option Bytes :=
  match get encrypted name with
  | some (.str text) => (b64decode text).toOption
  | _ => none

def decryptValue (encrypted : Json) (passphrase : String) : Option String :=
  match encrypted with
  | .obj fields => do
    let iterations ← blobIterations fields
    let ciphertext ← bytesAt fields "ciphertext"
    let salt ← bytesAt fields "salt"
    let nonce ← bytesAt fields "nonce"
    let storedTag ← bytesAt fields "tag"
    let key ← deriveKey hashing passphrase salt iterations
    if hashing.hmac (key.drop 16) (nonce ++ ciphertext) = storedTag then
      decodeUtf8 (keystreamXor hashing ciphertext (key.take 16) nonce)
    else none
  | _ => none

end Functions

section RoundTrip
variable {hashing : Hashing} {plaintext passphrase : String} {salt nonce : Bytes} {encrypted : Json}

theorem decodeUtf8_utf8 (text : String) : decodeUtf8 (utf8 text) = some text := by
  have same : (⟨(utf8 text).toArray⟩ : ByteArray) = text.toByteArray := by simp [utf8]
  rw [decodeUtf8,same,String.fromUTF8?,dif_pos text.isValidUTF8]
  rfl

theorem keystreamXor_twice (data encKey nonce : Bytes) :
    keystreamXor hashing (keystreamXor hashing data encKey nonce) encKey nonce = data := by
  apply List.ext_getElem
  · simp [keystreamXor]
  · intro i _ inside
    simp only [keystreamXor,List.getElem_mapIdx,UInt8.xor_assoc,UInt8.xor_self,UInt8.xor_zero]

theorem blobIterations_blob (ciphertext salt nonce tag : Bytes) :
    blobIterations (blob pbkdf2Iterations ciphertext salt nonce tag) = some pbkdf2Iterations := rfl

theorem bytesAt_encoded {fields : Dict} {name : String} {bytes : Bytes}
    (held : get fields name = some (.str (b64encode bytes))) : bytesAt fields name = some bytes := by
  rw [bytesAt,held]
  change (b64decode (b64encode bytes)).toOption = some bytes
  rw [b64decode_b64encode]
  rfl

theorem decrypt_encrypt (made : encryptValue hashing plaintext passphrase salt nonce = some encrypted) :
    decryptValue hashing encrypted passphrase = some plaintext := by
  unfold encryptValue at made
  split at made
  next => cases made
  next =>
    obtain ⟨key,derived,made⟩ := Option.bind_eq_some_iff.mp made
    cases made
    simp only [decryptValue,blobIterations_blob,Option.bind_eq_bind,Option.bind_some]
    rw [@bytesAt_encoded _ "ciphertext" (keystreamXor hashing (utf8 plaintext) (key.take 16) nonce) rfl]
    rw [@bytesAt_encoded _ "salt" salt rfl,@bytesAt_encoded _ "nonce" nonce rfl,@bytesAt_encoded _ "tag" _ rfl]
    simp only [Option.bind_some,derived,if_true,keystreamXor_twice,decodeUtf8_utf8]

theorem encrypted_current (made : encryptValue hashing plaintext passphrase salt nonce = some encrypted) :
    isLegacyBlob encrypted = false := by
  unfold encryptValue at made
  split at made
  next => cases made
  next =>
    obtain ⟨key,_,made⟩ := Option.bind_eq_some_iff.mp made
    cases made
    rfl

theorem encryptValue_some (hashing : Hashing) (filled : plaintext ≠ "") (given : passphrase ≠ "") (salt nonce : Bytes) :
    ∃ encrypted, encryptValue hashing plaintext passphrase salt nonce = some encrypted := by
  rw [encryptValue,if_neg filled,deriveKey,if_neg given]
  exact ⟨_,rfl⟩

theorem decryptValue_given (opened : decryptValue hashing encrypted passphrase = some plaintext) : passphrase ≠ "" := by
  rintro rfl
  unfold decryptValue at opened
  split at opened
  next fields =>
    simp only [Option.bind_eq_bind,Option.bind_eq_some_iff] at opened
    obtain ⟨_,_,_,_,_,_,_,_,_,_,key,derived,_⟩ := opened
    cases derived
  next => cases opened

end RoundTrip
end Orrery.Keystore
