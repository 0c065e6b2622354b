import Orrery.Foundation.Base64
import Orrery.Foundation.JsonText
import Orrery.Chapter.Identity
import Orrery.Chapter.Registration

/-! Secrets at rest (server/secret_sealing.py): the sealed formats, the secrets that the
environment configures, and which of them opens a stored value. -/
namespace Orrery.Chapter
open Foundation Json Base64

def invalidTag : Exc := .other "InvalidTag" ""

/-- PBKDF2 and AES-GCM. What was sealed under another secret is not opened. -/
structure Cipher where
  pbkdf2 : String → Bytes → Nat → Bytes
  encrypt : Bytes → Bytes → String → Bytes
  decrypt : Bytes → Bytes → Bytes → Except Exc String
  decrypt_encrypt : ∀ key nonce text, decrypt key nonce (encrypt key nonce text) = .ok text
  decrypt_other : ∀ kek other salt iters nonce text, other ≠ kek →
    decrypt (pbkdf2 other salt iters) nonce (encrypt (pbkdf2 kek salt iters) nonce text) = .error invalidTag

abbrev Environ := String → Option String

def keySecretEnv : String := "ORRERY_KEY_SECRET"
def previousKeySecretEnv : String := "ORRERY_KEY_SECRET_PREVIOUS"
def requireSealedEnv : String := "ORRERY_REQUIRE_SEALED_SECRETS"

def Environ.setting (environ : Environ) (name : String) : String :=
  String.ofList (strip ((environ name).getD "").toList)

def keyEncryptionSecret (environ : Environ) : String := environ.setting keySecretEnv

def previousKeyEncryptionSecret (environ : Environ) : String := environ.setting previousKeySecretEnv

def trueValues : List String := ["1","true","yes","on"]
def falseValues : List String := ["0","false","no","off"]

def securityFlag (environ : Environ) (name : String) (otherwise : Bool) : Bool :=
  let raw := String.ofList ((environ.setting name).toList.map Char.toLower)
  if raw ∈ trueValues then true else if raw ∈ falseValues then false else otherwise

def sealingRequired (environ : Environ) : Bool := securityFlag environ requireSealedEnv true

def encPrefixV1 : String := "enc.v1:"
def encPrefixV2 : String := "enc.v2:"

def itersByPrefix : List (String × Nat) := [(encPrefixV1,200000),(encPrefixV2,600000)]

def encPrefix : String := encPrefixV2
def pbkdf2Iters : Nat := 600000
def saltLen : Nat := 16
def nonceLen : Nat := 12

structure Entropy where
  salt : Bytes
  nonce : Bytes
  salt_length : salt.length = saltLen
  nonce_length : nonce.length = nonceLen

def isSealed (stored : String) : Bool := itersByPrefix.any fun format => startsWith format.1 stored

def sealingNotConfigured (text : String) : Exc := .other "SealingNotConfigured" text

def requireSealingConfigured (environ : Environ) (subject : String) : Except Exc Unit :=
  if keyEncryptionSecret environ ≠ "" ∨ sealingRequired environ = false then .ok ()
  else .error (sealingNotConfigured
    (s!"{keySecretEnv} is not set, so {subject} would be stored UNENCRYPTED at rest. " ++
      "Anyone with database, dump or backup access could read it. " ++
      s!"Set {keySecretEnv} to a long random value (openssl rand -hex 32) and keep it " ++
      "outside the database. To accept plaintext at rest deliberately — a local test " ++
      "box, or a deployment where the database shares the process's trust boundary — " ++
      s!"set {requireSealedEnv}=false."))

section Sealing
variable (cipher : Cipher)

def sealedText (format : String × Nat) (kek : String) (entropy : Entropy) (plaintext : String) : String :=
  format.1 ++ b64encode (entropy.salt ++ (entropy.nonce ++
    cipher.encrypt (cipher.pbkdf2 kek entropy.salt format.2) entropy.nonce plaintext))

def sealSecret (environ : Environ) (entropy : Entropy) (subject plaintext : String) : Except Exc String :=
  if keyEncryptionSecret environ = "" then do
    requireSealingConfigured environ subject
    return plaintext
  else .ok (sealedText cipher (encPrefix,pbkdf2Iters) (keyEncryptionSecret environ) entropy plaintext)

def unsealWith (stored kek : String) : Except Exc String :=
  match itersByPrefix.find? fun format => startsWith format.1 stored with
  | none => .error (.other "StopIteration" "")
  | some format => do
    let blob ← b64decode (dropStart format.1 stored)
    let salt := blob.take saltLen
    let nonce := (blob.drop saltLen).take nonceLen
    let ct := blob.drop (saltLen+nonceLen)
    cipher.decrypt (cipher.pbkdf2 kek salt format.2) nonce ct

def unsealSecret (environ : Environ) (stored : String) : Except Exc String :=
  if isSealed stored = false then .ok stored
  else if keyEncryptionSecret environ = "" then
    .error (sealingNotConfigured
      (s!"a stored secret is sealed but {keySecretEnv} is not set — cannot decrypt. " ++
        s!"Restore the same {keySecretEnv} the value was sealed with."))
  else
    match unsealWith cipher stored (keyEncryptionSecret environ) with
    | .ok plaintext => .ok plaintext
    | .error e =>
      if e = invalidTag ∧ previousKeyEncryptionSecret environ ≠ "" then
        unsealWith cipher stored (previousKeyEncryptionSecret environ)
      else .error e

def opens (stored kek : String) : Except Exc Bool :=
  match unsealWith cipher stored kek with
  | .ok _ => .ok true
  | .error e => if e = invalidTag then .ok false else .error e

def sealedUnderPreviousSecret (environ : Environ) (stored : String) : Except Exc Bool :=
  if isSealed stored = false then .ok false
  else if keyEncryptionSecret environ = "" ∨ previousKeyEncryptionSecret environ = "" then .ok false
  else do
    if ← opens cipher stored (keyEncryptionSecret environ) then return false
    opens cipher stored (previousKeyEncryptionSecret environ)

def needsMigration (environ : Environ) (stored : String) : Except Exc Bool :=
  if stored = "" ∨ keyEncryptionSecret environ = "" then .ok false
  else if isSealed stored = false then .ok true
  else sealedUnderPreviousSecret cipher environ stored

end Sealing

section AtRest
variable (cipher : Cipher)

def AtRest (secrets : List String) (stored plaintext : String) : Prop :=
  stored = plaintext ∨
    ∃ format ∈ itersByPrefix, ∃ kek ∈ secrets, ∃ entropy, stored = sealedText cipher format kek entropy plaintext

theorem AtRest.mono {cipher : Cipher} {secrets more : List String} {stored plaintext : String}
    (rests : AtRest cipher secrets stored plaintext) (inside : ∀ kek ∈ secrets, kek ∈ more) :
    AtRest cipher more stored plaintext := by
  obtain plain | ⟨format,known,kek,configured,entropy,same⟩ := rests
  · exact .inl plain
  · exact .inr ⟨format,known,kek,inside kek configured,entropy,same⟩

variable {cipher}

theorem formats_colon : ∀ format ∈ itersByPrefix, ':' ∈ format.1.toList := by
  decide

theorem isSealed_b64encode (bytes : Bytes) : isSealed (b64encode bytes) = false := by
  rw [isSealed,List.any_eq_false]
  intro format known starts
  obtain ⟨rest,same⟩ := List.isPrefixOf_iff_prefix.mp starts
  have inside : ':' ∈ (b64encode bytes).toList := by
    rw [← same]
    exact List.mem_append_left rest (formats_colon format known)
  exact (b64encode_plain bytes ':' inside).2 rfl

theorem startsWith_append (start rest : String) : startsWith start (start ++ rest) = true := by
  rw [startsWith,String.toList_append]
  exact List.isPrefixOf_iff_prefix.mpr (List.prefix_append _ _)

theorem dropStart_append (start rest : String) : dropStart start (start ++ rest) = rest := by
  rw [dropStart,String.toList_append,← String.length_toList,List.drop_left,String.ofList_toList]

theorem isSealed_sealedText {format : String × Nat} (known : format ∈ itersByPrefix) (kek : String) (entropy : Entropy)
    (plaintext : String) : isSealed (sealedText cipher format kek entropy plaintext) = true := by
  rw [isSealed,List.any_eq_true]
  exact ⟨format,known,startsWith_append _ _⟩

theorem find_format {format : String × Nat} (known : format ∈ itersByPrefix) (rest : String) :
    itersByPrefix.find? (fun other => startsWith other.1 (format.1 ++ rest)) = some format := by
  have apart : startsWith encPrefixV1 (encPrefixV2 ++ rest) = false := by
    rw [startsWith,String.toList_append]
    rfl
  rw [itersByPrefix,List.mem_cons,List.mem_singleton] at known
  obtain rfl | rfl := known
  · simp only [itersByPrefix,List.find?_cons,startsWith_append]
  · simp only [itersByPrefix,List.find?_cons,startsWith_append,apart]

theorem unsealWith_sealedText {format : String × Nat} (known : format ∈ itersByPrefix) (kek other : String)
    (entropy : Entropy) (plaintext : String) :
    unsealWith cipher (sealedText cipher format kek entropy plaintext) other =
      if other = kek then .ok plaintext else .error invalidTag := by
  rw [unsealWith,sealedText,find_format known]
  dsimp only
  rw [dropStart_append,b64decode_b64encode]
  change cipher.decrypt (cipher.pbkdf2 other (List.take saltLen _) _) (List.take nonceLen (List.drop saltLen _))
    (List.drop (saltLen+nonceLen) _) = _
  rw [← entropy.salt_length,List.take_left,← List.drop_drop,List.drop_left,← entropy.nonce_length,List.take_left,
    List.drop_left]
  split
  next same => rw [same,cipher.decrypt_encrypt]
  next apart => exact cipher.decrypt_other kek other _ _ _ _ apart

theorem unsealSecret_atRest {environ : Environ} {secrets : List String} {stored found : String} {bytes : Bytes}
    (rests : AtRest cipher secrets stored (b64encode bytes)) (opened : unsealSecret cipher environ stored = .ok found) :
    found = b64encode bytes := by
  obtain rfl | ⟨format,known,kek,_,entropy,rfl⟩ := rests
  · rw [unsealSecret,if_pos (isSealed_b64encode bytes)] at opened
    exact (Except.ok.inj opened).symm
  · rw [unsealSecret,isSealed_sealedText known,if_neg (by decide)] at opened
    simp only [unsealWith_sealedText known] at opened
    split at opened
    · cases opened
    split at opened
    next first =>
      split at first
      · rw [← Except.ok.inj opened,Except.ok.inj first]
      · cases first
    next =>
      split at opened
      · split at opened
        · exact (Except.ok.inj opened).symm
        · cases opened
      · cases opened

theorem sealSecret_atRest {environ : Environ} {entropy : Entropy} {subject plaintext stored : String}
    (sealedAs : sealSecret cipher environ entropy subject plaintext = .ok stored) :
    AtRest cipher [keyEncryptionSecret environ] stored plaintext := by
  unfold sealSecret at sealedAs
  split at sealedAs
  · obtain ⟨_,_,same⟩ := bind_success _ _ _ sealedAs
    exact .inl (Except.ok.inj same).symm
  · exact .inr ⟨_,by decide,_,List.mem_singleton_self _,entropy,(Except.ok.inj sealedAs).symm⟩

variable {environ : Environ} {entropy : Entropy} {plaintext : String}

theorem requireSealingConfigured_set (set : keyEncryptionSecret environ ≠ "") (subject : String) :
    requireSealingConfigured environ subject = .ok () := by
  rw [requireSealingConfigured,if_pos (.inl set)]

theorem sealSecret_set (set : keyEncryptionSecret environ ≠ "") (subject : String) :
    sealSecret cipher environ entropy subject plaintext =
      .ok (sealedText cipher (encPrefix,pbkdf2Iters) (keyEncryptionSecret environ) entropy plaintext) := by
  rw [sealSecret,if_neg set]

theorem unsealSecret_sealedText {format : String × Nat} {kek : String} (known : format ∈ itersByPrefix)
    (set : keyEncryptionSecret environ ≠ "")
    (one : keyEncryptionSecret environ = kek ∨ previousKeyEncryptionSecret environ = kek ∧ kek ≠ "")
    (sealing : Entropy) :
    unsealSecret cipher environ (sealedText cipher format kek sealing plaintext) = .ok plaintext := by
  rw [unsealSecret,isSealed_sealedText known,if_neg (by decide),if_neg set]
  simp only [unsealWith_sealedText known]
  by_cases same : keyEncryptionSecret environ = kek
  · rw [if_pos same]
  · obtain now | ⟨previous,some_kek⟩ := one
    · exact absurd now same
    · rw [if_neg same]
      dsimp only
      rw [previous,if_pos ⟨rfl,some_kek⟩,if_pos rfl]

theorem opens_sealedText {format : String × Nat} (known : format ∈ itersByPrefix) (kek other : String)
    (sealing : Entropy) (plaintext : String) :
    opens cipher (sealedText cipher format kek sealing plaintext) other = .ok (decide (other = kek)) := by
  rw [opens,unsealWith_sealedText known]
  by_cases same : other = kek
  · rw [if_pos same,decide_eq_true same]
  · rw [if_neg same,decide_eq_false same]
    exact if_pos rfl

theorem needsMigration_sealedText {format : String × Nat} (known : format ∈ itersByPrefix) (kek : String)
    (set : keyEncryptionSecret environ ≠ "") (sealing : Entropy) (plaintext : String) :
    needsMigration cipher environ (sealedText cipher format kek sealing plaintext) =
      .ok (decide (keyEncryptionSecret environ ≠ kek ∧ previousKeyEncryptionSecret environ = kek ∧ kek ≠ "")) := by
  have some_text : sealedText cipher format kek sealing plaintext ≠ "" := by
    intro empty
    have recognised : isSealed (sealedText cipher format kek sealing plaintext) = true :=
      isSealed_sealedText known kek sealing plaintext
    rw [empty] at recognised
    revert recognised
    decide
  rw [needsMigration,if_neg (not_or.mpr ⟨some_text,set⟩),isSealed_sealedText known,if_neg (by decide),
    sealedUnderPreviousSecret,isSealed_sealedText known,if_neg
      (by decide),opens_sealedText known,opens_sealedText known]
  by_cases unset : previousKeyEncryptionSecret environ = ""
  · rw [if_pos (.inr unset),unset]
    congr 1
    symm
    rw [decide_eq_false_iff_not]
    rintro ⟨_,rfl,other⟩
    exact other rfl
  · rw [if_neg (not_or.mpr ⟨set,unset⟩)]
    by_cases same : keyEncryptionSecret environ = kek
    · simp [same,bind,Except.bind,pure,Except.pure]
    · rw [decide_eq_false same]
      change Except.ok (decide (previousKeyEncryptionSecret environ = kek)) = _
      congr 1
      rw [decide_eq_decide]
      constructor
      · rintro rfl
        exact ⟨same,rfl,unset⟩
      · rintro ⟨_,opening,_⟩
        exact opening

theorem needsMigration_plain (set : keyEncryptionSecret environ ≠ "") {bytes : Bytes} (some_bytes : bytes ≠ []) :
    needsMigration cipher environ (b64encode bytes) = .ok true := by
  have some_text : b64encode bytes ≠ "" := by
    intro empty
    have decoded := b64decode_b64encode bytes
    rw [empty] at decoded
    exact some_bytes (Except.ok.inj decoded).symm
  rw [needsMigration,if_neg (not_or.mpr ⟨some_text,set⟩),if_pos (isSealed_b64encode bytes)]

end AtRest

def charBytes (c : Char) : Bytes :=
  [UInt8.ofNat (c.toNat/65536),UInt8.ofNat (c.toNat/256%256),UInt8.ofNat (c.toNat%256)]

def charsOf : Bytes → List Char
  | a :: b :: c :: rest => Char.ofNat (a.toNat*65536+b.toNat*256+c.toNat) :: charsOf rest
  | _ => []

theorem charsOf_charBytes (text : List Char) : charsOf (text.flatMap charBytes) = text := by
  induction text with
  | nil => rfl
  | cons c text ih =>
    have bound := toNat_lt c
    have whole : c.toNat/65536%256*65536+c.toNat/256%256%256*256+c.toNat%256%256 = c.toNat := by omega
    rw [List.flatMap_cons,charBytes,List.cons_append,List.cons_append,List.cons_append,List.nil_append,charsOf,ih]
    simp only [UInt8.toNat_ofNat',Nat.reducePow]
    rw [whole,Char.ofNat_toNat]

def marked (key : Bytes) (text : Bytes) : Bytes := key.flatMap (fun b => [1,b]) ++ 0 :: text

def opened : Bytes → Bytes → Option Bytes
  | [], 0 :: text => some text
  | k :: key, 1 :: b :: rest => if k = b then opened key rest else none
  | _, _ => none

theorem opened_marked (key text : Bytes) : opened key (marked key text) = some text := by
  induction key with
  | nil => rfl
  | cons k key ih =>
    change opened (k :: key) (1 :: k :: marked key text) = _
    rw [opened,if_pos rfl,ih]

theorem opened_other (key text : Bytes) : ∀ other, other ≠ key → opened other (marked key text) = none := by
  induction key with
  | nil =>
    intro other apart
    cases other with
    | nil => exact absurd rfl apart
    | cons k other => rfl
  | cons k key ih =>
    intro other apart
    change opened other (1 :: k :: marked key text) = _
    cases other with
    | nil => rfl
    | cons first other =>
      rw [opened]
      split
      next same =>
        apply ih
        intro equal
        exact apart (by rw [same,equal])
      next => rfl

def plainCipher : Cipher where
  pbkdf2 kek _ _ := kek.toList.flatMap charBytes
  encrypt key _ text := marked key (text.toList.flatMap charBytes)
  decrypt key _ ct :=
    match opened key ct with
    | some text => .ok (String.ofList (charsOf text))
    | none => .error invalidTag
  decrypt_encrypt key _ text := by
    simp only [opened_marked,charsOf_charBytes,String.ofList_toList]
  decrypt_other kek other _ _ _ text apart := by
    have keys : other.toList.flatMap charBytes ≠ kek.toList.flatMap charBytes := by
      intro same
      have texts := congrArg charsOf same
      rw [charsOf_charBytes,charsOf_charBytes] at texts
      exact apart (String.toList_inj.mp texts)
    simp only [opened_other _ _ _ keys]

end Orrery.Chapter
