import Orrery.Keystore.Blob

/-! Blobs with other bytes (agent/community_member/crypto.py): what `decrypt_value` makes of
them, when the tag covers nonce and ciphertext one after the other. -/
namespace Orrery.Keystore
open Foundation Json Base64

inductive Raised
  | valueError
  | structError
deriving DecidableEq

def Packs (data : Bytes) : Prop := data.length ≤ 32*2^32

instance (data : Bytes) : Decidable (Packs data) := inferInstanceAs (Decidable (_ ≤ _))

section Model
variable (hashing : Hashing)

def encryptRaising (plaintext passphrase : String) (salt nonce : Bytes) : Except Raised Json :=
  match encryptValue hashing plaintext passphrase salt nonce with
  | none => .error .valueError
  | some encrypted => if Packs (utf8 plaintext) then .ok encrypted else .error .structError

def verified (encrypted : Json) (passphrase : String) : Option (Bytes × Bytes × Bytes) :=
  match encrypted with
  | .obj fields => do
    let iterations ← blobIterations fields
    let ciphertext ← bytesAt fields "ciphertext"
    let salt ← bytesAt fields "salt"
    let nonce ← bytesAt fields "nonce"
    let storedTag ← bytesAt fields "tag"
    let key ← deriveKey hashing passphrase salt iterations
    if hashing.hmac (key.drop 16) (nonce ++ ciphertext) = storedTag then some (ciphertext,key,nonce) else none
  | _ => none

def decryptRaising (encrypted : Json) (passphrase : String) : Except Raised String :=
  match verified hashing encrypted passphrase with
  | none => .error .valueError
  | some (ciphertext,key,nonce) =>
    if Packs ciphertext then
      match decodeUtf8 (keystreamXor hashing ciphertext (key.take 16) nonce) with
      | some text => .ok text
      | none => .error .valueError
    else .error .structError

end Model

section Opening
variable {hashing : Hashing} {plaintext passphrase : String} {salt nonce : Bytes} {fields fields' : Dict}

def freshKey (hashing : Hashing) (passphrase : String) (salt : Bytes) : Bytes :=
  hashing.pbkdf2 passphrase salt pbkdf2Iterations

def sealedText (hashing : Hashing) (plaintext passphrase : String) (salt nonce : Bytes) : Bytes :=
  keystreamXor hashing (utf8 plaintext) ((freshKey hashing passphrase salt).take 16) nonce

def sealingTag (hashing : Hashing) (plaintext passphrase : String) (salt nonce : Bytes) : Bytes :=
  hashing.hmac ((freshKey hashing passphrase salt).drop 16) (nonce ++ sealedText hashing plaintext passphrase salt nonce)

theorem encryptValue_blob (filled : plaintext ≠ "") (given : passphrase ≠ "") :
    encryptValue hashing plaintext passphrase salt nonce =
      some (.obj (blob pbkdf2Iterations (sealedText hashing plaintext passphrase salt nonce) salt nonce
        (sealingTag hashing plaintext passphrase salt nonce))) := by
  rw [encryptValue,if_neg filled,deriveKey,if_neg given]
  rfl

theorem encryptRaising_ok (made : encryptRaising hashing plaintext passphrase salt nonce = .ok (.obj fields)) :
    plaintext ≠ "" ∧ passphrase ≠ "" ∧ Packs (utf8 plaintext) ∧
      fields = blob pbkdf2Iterations (sealedText hashing plaintext passphrase salt nonce) salt nonce
        (sealingTag hashing plaintext passphrase salt nonce) := by
  unfold encryptRaising at made
  split at made
  next => cases made
  next encrypted enciphered =>
    split at made
    next packs =>
      cases made
      have filled : plaintext ≠ "" := by
        rintro rfl
        cases enciphered
      have given : passphrase ≠ "" := by
        rintro rfl
        rw [encryptValue,if_neg filled] at enciphered
        cases enciphered
      rw [encryptValue_blob filled given] at enciphered
      exact ⟨filled,given,packs,Json.obj.inj (Option.some.inj enciphered).symm⟩
    next => cases made

/-- Other bytes for the nonce, the ciphertext and the tag, beside the same salt and the same
fields of the version and the derivation of the key. -/
structure Altered (fields fields' : Dict) : Prop where
  same : ∀ name ∈ ["v","kdf","cipher","salt"], get fields' name = get fields name

theorem Altered.keepsIterations (altered : Altered fields fields') : blobIterations fields' = blobIterations fields := by
  unfold blobIterations
  rw [altered.same "v" (by decide),altered.same "kdf" (by decide),altered.same "cipher" (by decide)]

theorem Altered.keepsSalt (altered : Altered fields fields') : bytesAt fields' "salt" = bytesAt fields "salt" := by
  unfold bytesAt
  rw [altered.same "salt" (by decide)]

theorem verified_altered (made : encryptRaising hashing plaintext passphrase salt nonce = .ok (.obj fields))
    (altered : Altered fields fields') {ciphertext' nonce' tag : Bytes}
    (read : bytesAt fields' "ciphertext" = some ciphertext') (nonced : bytesAt fields' "nonce" = some nonce')
    (tagged : bytesAt fields' "tag" = some tag) : verified hashing (.obj fields') passphrase =
      if hashing.hmac ((freshKey hashing passphrase salt).drop 16) (nonce' ++ ciphertext') = tag then
        some (ciphertext',freshKey hashing passphrase salt,nonce') else none := by
  obtain ⟨_,given,_,rfl⟩ := encryptRaising_ok made
  have derived : deriveKey hashing passphrase salt pbkdf2Iterations = some (freshKey hashing passphrase salt) :=
    if_neg given
  have salted : bytesAt fields' "salt" = some salt := altered.keepsSalt.trans (bytesAt_encoded rfl)
  simp only [verified,altered.keepsIterations,blobIterations_blob,salted,read,nonced,tagged,derived,Option.bind_eq_bind,
    Option.bind_some]

theorem verified_unread (unread : bytesAt fields' "ciphertext" = none ∨ bytesAt fields' "nonce" = none ∨
    bytesAt fields' "tag" = none) : verified hashing (.obj fields') passphrase = none := by
  rw [Option.eq_none_iff_forall_not_mem]
  intro opened member
  simp only [verified,Option.bind_eq_bind,Option.mem_def,Option.bind_eq_some_iff] at member
  obtain ⟨_,_,ciphertext,read,_,_,nonce,nonced,tag,tagged,_⟩ := member
  rcases unread with unread | unread | unread
  · cases unread.symm.trans read
  · cases unread.symm.trans nonced
  · cases unread.symm.trans tagged

theorem sealed_bytes (made : encryptRaising hashing plaintext passphrase salt nonce = .ok (.obj fields)) :
    bytesAt fields "ciphertext" = some (sealedText hashing plaintext passphrase salt nonce) ∧
      bytesAt fields "nonce" = some nonce ∧
      bytesAt fields "tag" = some (sealingTag hashing plaintext passphrase salt nonce) := by
  obtain ⟨_,_,_,rfl⟩ := encryptRaising_ok made
  exact ⟨bytesAt_encoded rfl,bytesAt_encoded rfl,bytesAt_encoded rfl⟩

def Keyless (hashing : Hashing) (passphrase : String) (salt : Bytes) (fields fields' : Dict) : Prop :=
  ∀ tag, bytesAt fields' "tag" = some tag → bytesAt fields "tag" = some tag ∨
    ∀ message, hashing.hmac ((freshKey hashing passphrase salt).drop 16) message ≠ tag

/-- The same bytes and the same tag, with the cut between nonce and ciphertext elsewhere, and
what is behind the cut is no text that would be refused, and not the plaintext. -/
def Resplit (hashing : Hashing) (plaintext passphrase : String) (salt : Bytes) (fields fields' : Dict) : Prop :=
  ∃ nonce ciphertext nonce' ciphertext', bytesAt fields "nonce" = some nonce ∧
    bytesAt fields "ciphertext" = some ciphertext ∧ bytesAt fields' "nonce" = some nonce' ∧
    bytesAt fields' "ciphertext" = some ciphertext' ∧ bytesAt fields' "tag" = bytesAt fields "tag" ∧
    nonce' ++ ciphertext' = nonce ++ ciphertext ∧ nonce'.length ≠ nonce.length ∧
    (Packs ciphertext' → ∃ other, other ≠ plaintext ∧
      decodeUtf8 (keystreamXor hashing ciphertext' ((freshKey hashing passphrase salt).take 16) nonce') = some other)

theorem decryptRaising_encrypted (made : encryptRaising hashing plaintext passphrase salt nonce = .ok (.obj fields)) :
    decryptRaising hashing (.obj fields) passphrase = .ok plaintext := by
  obtain ⟨read,nonced,tagged⟩ := sealed_bytes made
  have packs : Packs (sealedText hashing plaintext passphrase salt nonce) := by
    rw [Packs,sealedText,keystreamXor,List.length_mapIdx]
    exact (encryptRaising_ok made).2.2.1
  rw [decryptRaising,verified_altered made ⟨fun _ _ => rfl⟩ read nonced tagged,sealingTag,if_pos rfl]
  dsimp only
  rw [if_pos packs,sealedText,keystreamXor_twice,decodeUtf8_utf8]

theorem opened_iff (ciphertext key nonce : Bytes) (read : verified hashing (.obj fields') passphrase =
    some (ciphertext,key,nonce)) :
    (decryptRaising hashing (.obj fields') passphrase = .error .valueError ∨
      decryptRaising hashing (.obj fields') passphrase = .ok plaintext) ↔
        ¬ (Packs ciphertext → ∃ other, other ≠ plaintext ∧
          decodeUtf8 (keystreamXor hashing ciphertext (key.take 16) nonce) = some other) := by
  rw [decryptRaising,read]
  dsimp only
  by_cases packs : Packs ciphertext
  · rw [if_pos packs]
    cases decodeUtf8 (keystreamXor hashing ciphertext (key.take 16) nonce) with
    | none => simp [packs]
    | some text =>
      by_cases same : text = plaintext
      · simp [packs,same]
      · simp [packs,same]
  · rw [if_neg packs]
    simp [packs]

theorem resplit_iff (made : encryptRaising hashing plaintext passphrase salt nonce = .ok (.obj fields))
    {ciphertext' nonce' : Bytes} (read : bytesAt fields' "ciphertext" = some ciphertext')
    (nonced : bytesAt fields' "nonce" = some nonce') : Resplit hashing plaintext passphrase salt fields fields' ↔
      bytesAt fields' "tag" = some (sealingTag hashing plaintext passphrase salt nonce) ∧
        nonce' ++ ciphertext' = nonce ++ sealedText hashing plaintext passphrase salt nonce ∧
        nonce'.length ≠ nonce.length ∧ (Packs ciphertext' → ∃ other, other ≠ plaintext ∧
          decodeUtf8 (keystreamXor hashing ciphertext' ((freshKey hashing passphrase salt).take 16) nonce') =
            some other) := by
  obtain ⟨own,ownNonce,ownTag⟩ := sealed_bytes made
  rw [← ownTag]
  constructor
  · rintro ⟨n,c,n',c',n_eq,c_eq,n'_eq,c'_eq,rest⟩
    cases ownNonce.symm.trans n_eq
    cases own.symm.trans c_eq
    cases nonced.symm.trans n'_eq
    cases read.symm.trans c'_eq
    exact rest
  · exact fun rest => ⟨_,_,_,_,ownNonce,own,nonced,read,rest⟩

theorem altered_opens_iff (ideal : Function.Injective2 hashing.hmac)
    (made : encryptRaising hashing plaintext passphrase salt nonce = .ok (.obj fields))
    (altered : Altered fields fields') (keyless : Keyless hashing passphrase salt fields fields') :
    (decryptRaising hashing (.obj fields') passphrase = .error .valueError ∨
      decryptRaising hashing (.obj fields') passphrase = .ok plaintext) ↔
        ¬ Resplit hashing plaintext passphrase salt fields fields' := by
  obtain ⟨own,ownNonce,ownTag⟩ := sealed_bytes made
  have refused (closed : verified hashing (.obj fields') passphrase = none) :
      decryptRaising hashing (.obj fields') passphrase = .error .valueError := by
    rw [decryptRaising,closed]
  cases read : bytesAt fields' "ciphertext" with
  | none =>
    refine iff_of_true (Or.inl (refused (verified_unread (Or.inl read)))) ?_
    rintro ⟨_,_,_,_,_,_,_,read',_⟩
    cases read.symm.trans read'
  | some ciphertext' =>
    cases nonced : bytesAt fields' "nonce" with
    | none =>
      refine iff_of_true (Or.inl (refused (verified_unread (Or.inr (Or.inl nonced))))) ?_
      rintro ⟨_,_,_,_,_,_,nonced',_⟩
      cases nonced.symm.trans nonced'
    | some nonce' =>
      rw [resplit_iff made read nonced]
      cases tagged : bytesAt fields' "tag" with
      | none => exact iff_of_true (Or.inl (refused (verified_unread (Or.inr (Or.inr tagged))))) (fun h => nomatch h.1)
      | some tag =>
        have opened := verified_altered made altered read nonced tagged
        by_cases tags : hashing.hmac ((freshKey hashing passphrase salt).drop 16) (nonce' ++ ciphertext') = tag
        · rw [if_pos tags] at opened
          -- the tag is that of the blob, and so are the bytes that it covers
          have known : bytesAt fields "tag" = some tag := (keyless tag tagged).resolve_right fun none => none _ tags
          obtain rfl : tag = sealingTag hashing plaintext passphrase salt nonce :=
            Option.some.inj (known.symm.trans ownTag)
          have covered := (ideal tags).2
          by_cases cut : nonce'.length = nonce.length
          · obtain ⟨rfl,rfl⟩ := List.append_inj covered cut
            refine iff_of_true (Or.inr ?_) (fun h => h.2.2.1 rfl)
            rw [← decryptRaising_encrypted made,decryptRaising,decryptRaising,opened,
              verified_altered made ⟨fun _ _ => rfl⟩ own ownNonce ownTag,sealingTag,if_pos rfl]
          · rw [opened_iff _ _ _ opened]
            simp only [covered,cut,ne_eq,not_false_eq_true,true_and]
        · rw [if_neg tags] at opened
          refine iff_of_true (Or.inl (refused opened)) ?_
          rintro ⟨same,covered,_⟩
          apply tags
          rw [covered]
          exact (Option.some.inj same).symm

theorem encryptRaising_eq (filled : plaintext ≠ "") (given : passphrase ≠ "") :
    encryptRaising hashing plaintext passphrase salt nonce =
      if Packs (utf8 plaintext) then .ok (.obj (blob pbkdf2Iterations
        (sealedText hashing plaintext passphrase salt nonce) salt nonce
        (sealingTag hashing plaintext passphrase salt nonce))) else .error .structError := by
  rw [encryptRaising,encryptValue_blob filled given]

/-- Where HMAC does not collide: a plaintext comes back if the numbers of its blocks fit
their four bytes, and a blob with other bytes is refused, or gives the plaintext, exactly
where no other cut of the same bytes gives another text. -/
theorem decryption_honest_iff (ideal : Function.Injective2 hashing.hmac) (filled : plaintext ≠ "")
    (given : passphrase ≠ "") :
    ((encryptRaising hashing plaintext passphrase salt nonce >>= fun encrypted =>
      decryptRaising hashing encrypted passphrase) = .ok plaintext ↔ Packs (utf8 plaintext)) ∧
    ∀ fields fields', encryptRaising hashing plaintext passphrase salt nonce = .ok (.obj fields) →
      Altered fields fields' → Keyless hashing passphrase salt fields fields' →
        ((decryptRaising hashing (.obj fields') passphrase = .error .valueError ∨
          decryptRaising hashing (.obj fields') passphrase = .ok plaintext) ↔
            ¬ Resplit hashing plaintext passphrase salt fields fields') := by
  refine ⟨?_,fun fields fields' made altered keyless => altered_opens_iff ideal made altered keyless⟩
  have made := @encryptRaising_eq hashing plaintext passphrase salt nonce filled given
  by_cases packs : Packs (utf8 plaintext)
  · rw [if_pos packs] at made
    refine iff_of_true ?_ packs
    rw [made]
    exact decryptRaising_encrypted made
  · rw [if_neg packs] at made
    refine iff_of_false ?_ packs
    rw [made]
    exact nofun

end Opening

section Emptied
variable {hashing : Hashing} {plaintext passphrase : String} {salt nonce : Bytes} {fields : Dict}

def emptied (hashing : Hashing) (plaintext passphrase : String) (salt nonce : Bytes) : Dict :=
  blob pbkdf2Iterations [] salt (nonce ++ sealedText hashing plaintext passphrase salt nonce)
    (sealingTag hashing plaintext passphrase salt nonce)

theorem emptied_altered (made : encryptRaising hashing plaintext passphrase salt nonce = .ok (.obj fields)) :
    Altered fields (emptied hashing plaintext passphrase salt nonce) := by
  obtain ⟨_,_,_,rfl⟩ := encryptRaising_ok made
  constructor
  simp only [List.forall_mem_cons]
  exact ⟨rfl,rfl,rfl,rfl,by simp⟩

theorem emptied_keyless (made : encryptRaising hashing plaintext passphrase salt nonce = .ok (.obj fields)) :
    Keyless hashing passphrase salt fields (emptied hashing plaintext passphrase salt nonce) := by
  intro tag tagged
  have own : bytesAt (emptied hashing plaintext passphrase salt nonce) "tag" =
      some (sealingTag hashing plaintext passphrase salt nonce) := bytesAt_encoded rfl
  exact Or.inl ((sealed_bytes made).2.2.trans (own.symm.trans tagged))

theorem emptied_opens (made : encryptRaising hashing plaintext passphrase salt nonce = .ok (.obj fields)) :
    decryptRaising hashing (.obj (emptied hashing plaintext passphrase salt nonce)) passphrase = .ok "" := by
  have read : bytesAt (emptied hashing plaintext passphrase salt nonce) "ciphertext" = some [] := bytesAt_encoded rfl
  have nonced : bytesAt (emptied hashing plaintext passphrase salt nonce) "nonce" =
      some (nonce ++ sealedText hashing plaintext passphrase salt nonce) := bytesAt_encoded rfl
  have tagged : bytesAt (emptied hashing plaintext passphrase salt nonce) "tag" =
      some (sealingTag hashing plaintext passphrase salt nonce) := bytesAt_encoded rfl
  have nothing : decodeUtf8 (keystreamXor hashing [] ((freshKey hashing passphrase salt).take 16)
      (nonce ++ sealedText hashing plaintext passphrase salt nonce)) = some "" := decodeUtf8_utf8 ""
  rw [decryptRaising,verified_altered made (emptied_altered made) read nonced tagged,sealingTag,List.append_nil,
    if_pos rfl]
  dsimp only
  rw [if_pos (show Packs [] from Nat.zero_le _),nothing]

end Emptied

section Samples

def framed : Bytes → Bytes → Bytes
  | [],message => 0 :: message
  | byte :: key,message => 1 :: byte :: framed key message

theorem framed_injective : Function.Injective2 framed := by
  intro key
  induction key with
  | nil =>
    rintro (_ | ⟨byte,key'⟩) message message' same
    · exact ⟨rfl,(List.cons.inj same).2⟩
    · cases same
  | cons byte key ih =>
    rintro (_ | ⟨byte',key'⟩) message message' same
    · cases same
    · simp only [framed,List.cons.injEq,true_and] at same
      obtain ⟨rfl,same⟩ := same
      obtain ⟨rfl,rfl⟩ := ih same
      exact ⟨rfl,rfl⟩

def framing : Hashing := ⟨fun passphrase salt _ => utf8 passphrase ++ salt,framed⟩

def plainSalt : Bytes := List.replicate 32 7

def plainNonce : Bytes := List.replicate 16 9

theorem hi_sealed : ∃ fields, encryptRaising framing "hi" "pw" plainSalt plainNonce = .ok (.obj fields) := by
  have packs : Packs (utf8 "hi") := by decide
  exact ⟨_,(encryptRaising_eq (by decide) (by decide)).trans (if_pos packs)⟩

theorem decryption_honest_hi : ∃ fields,
    ((decryptRaising framing (.obj (emptied framing "hi" "pw" plainSalt plainNonce)) "pw" = .error .valueError ∨
      decryptRaising framing (.obj (emptied framing "hi" "pw" plainSalt plainNonce)) "pw" = .ok "hi") ↔
        ¬ Resplit framing "hi" "pw" plainSalt fields (emptied framing "hi" "pw" plainSalt plainNonce)) := by
  obtain ⟨fields,made⟩ := hi_sealed
  exact ⟨fields,(decryption_honest_iff framed_injective (by decide) (by decide)).2 fields _ made (emptied_altered made)
    (emptied_keyless made)⟩

/-- The tag is accepted over another cut, and another text comes out. -/
theorem hi_emptied : ∃ fields fields', encryptRaising framing "hi" "pw" plainSalt plainNonce = .ok (.obj fields) ∧
    Altered fields fields' ∧ Keyless framing "pw" plainSalt fields fields' ∧
    ¬ (decryptRaising framing (.obj fields') "pw" = .error .valueError ∨
      decryptRaising framing (.obj fields') "pw" = .ok "hi") := by
  obtain ⟨fields,made⟩ := hi_sealed
  refine ⟨fields,_,made,emptied_altered made,emptied_keyless made,?_⟩
  rw [emptied_opens made]
  simp

end Samples
end Orrery.Keystore
