import Orrery.Chapter.KeyContinuity

/-! What a refused request leaves in the key store: the key of its header, filed before its
signature was looked at. -/
namespace Orrery.Chapter
open Foundation

section Requests
variable (codec : Codec) (keys : AuthKeys) (eligible : String → Bool) (now : Int) (r : SignedRequest) (fresh : Bool)

/-- A well-formed request of an Ed25519 scheme that may bring the first key of its agent
brings one, which did not sign it or has signed its nonce before. -/
structure PinsUnsigned : Prop where
  wellFormed : requestRefusal codec now r = none
  scheme : r.scheme ≠ "hmac-sha256"
  unheld : edKey keys r.agentId = ""
  welcome : (eligible r.agentId || isSelfAuthenticatingPath r.urlPath) = true
  brings : ∃ pubkey, pubkey ≠ "" ∧ extractEd25519PubkeyFromDidKey codec r.didKey = some pubkey ∧
    (ed25519Verify codec r.message r.signature pubkey = false ∨ r.scheme = "ed25519+nonce" ∧ fresh = false)

variable {codec keys eligible now r fresh}

theorem extract_didKey {didKey pubkey : String} (found : extractEd25519PubkeyFromDidKey codec didKey = some pubkey) :
    didKey ≠ "" := by
  rintro rfl
  rw [extractEd25519PubkeyFromDidKey,if_neg (by decide)] at found
  cases found

theorem signatureAnswer_refused {pubkey : String} {tofu : Bool} :
    (signatureAnswer codec r pubkey fresh tofu).1 = false ↔
      ed25519Verify codec r.message r.signature pubkey = false ∨ r.scheme = "ed25519+nonce" ∧ fresh = false := by
  unfold signatureAnswer
  cases verified : ed25519Verify codec r.message r.signature pubkey with
  | false => simp
  | true =>
    by_cases seen : r.scheme = "ed25519+nonce" ∧ fresh = false
    · simp [seen]
    · simp [seen]

theorem storeAgentKey_ne {agentId pubkey : String} (unheld : edKey keys agentId = "") (some_ : pubkey ≠ "") :
    storeAgentKey keys agentId "" "" pubkey ≠ keys := by
  intro same
  have held := congrArg (edKey · agentId) same
  rw [edKey_store,orText,if_neg some_,unheld] at held
  exact some_ held

theorem verifyEd25519_first {pubkey : String} (unheld : edKey keys r.agentId = "")
    (welcome : (eligible r.agentId || isSelfAuthenticatingPath r.urlPath) = true) (some_ : pubkey ≠ "")
    (found : extractEd25519PubkeyFromDidKey codec r.didKey = some pubkey) :
    verifyEd25519 codec keys eligible r fresh =
      (storeAgentKey keys r.agentId "" "" pubkey,signatureAnswer codec r pubkey fresh true) := by
  have stored : storeDidKey codec keys r.agentId r.didKey = some (storeAgentKey keys r.agentId "" "" pubkey) := by
    rw [storeDidKey,found,Option.filter_some,if_pos (by simpa using some_),Option.map_some]
  rw [verifyEd25519,if_pos ⟨unheld,extract_didKey found⟩,if_neg (by simp [welcome]),stored]
  dsimp only
  rw [edKey_store,orText,if_neg some_]

theorem verifyEd25519_cases : (verifyEd25519 codec keys eligible r fresh).1 = keys ∨
    edKey keys r.agentId = "" ∧ (eligible r.agentId || isSelfAuthenticatingPath r.urlPath) = true ∧
      ∃ pubkey, pubkey ≠ "" ∧ extractEd25519PubkeyFromDidKey codec r.didKey = some pubkey := by
  unfold verifyEd25519
  split
  next first =>
    split
    · exact .inl rfl
    next welcome =>
      split
      next filed stored =>
        obtain ⟨pubkey,found,_⟩ := Option.map_eq_some_iff.mp stored
        obtain ⟨extracted,some_⟩ := Option.filter_eq_some_iff.mp found
        exact .inr ⟨first.1,by simpa [or_iff_not_imp_left] using welcome,pubkey,by simpa using some_,extracted⟩
      · exact .inl rfl
  split
  · exact .inl rfl
  split
  · exact .inl rfl
  · exact .inl rfl

/-- A refused request leaves the store as it was, unless it pins a key that did not sign it. -/
theorem refused_traceless_iff (hmac : String → String → String → Except Exc Bool) :
    ((verifyRequest codec hmac keys eligible now r fresh).2.1 = false →
      (verifyRequest codec hmac keys eligible now r fresh).1 = keys) ↔
        ¬PinsUnsigned codec keys eligible now r fresh := by
  constructor
  · rintro traceless ⟨wellFormed,scheme,unheld,welcome,pubkey,some_,found,unsigned⟩
    have answer : verifyRequest codec hmac keys eligible now r fresh =
        (storeAgentKey keys r.agentId "" "" pubkey,signatureAnswer codec r pubkey fresh true) := by
      rw [verifyRequest,wellFormed]
      dsimp only
      rw [if_neg scheme,verifyEd25519_first unheld welcome some_ found]
    rw [answer] at traceless
    exact storeAgentKey_ne unheld some_ (traceless (signatureAnswer_refused.mpr unsigned))
  · intro signed refused
    unfold verifyRequest at refused ⊢
    split at refused
    next => rfl
    next wellFormed =>
      split at refused
      next scheme => rw [if_pos scheme]
      next scheme =>
        rw [if_neg scheme]
        obtain same | ⟨unheld,welcome,pubkey,some_,found⟩ :=
          @verifyEd25519_cases codec keys eligible r fresh
        · exact same
        · rw [verifyEd25519_first unheld welcome some_ found] at refused
          exact absurd ⟨wellFormed,scheme,unheld,welcome,pubkey,some_,found,signatureAnswer_refused.mp refused⟩ signed

end Requests

def forgedRequest : SignedRequest := { annRequest with signature := keyNamed 'b' }

theorem forgedRequest_pins :
    (verifyRequest lengthCodec (fun _ _ _ => .ok false) (fun _ => none) (fun _ => true) 0 forgedRequest true).2 =
        (false,"invalid_signature") ∧
      edKey (verifyRequest lengthCodec (fun _ _ _ => .ok false) (fun _ => none) (fun _ => true) 0 forgedRequest true).1
        "ann" = keyNamed 'a' ∧
      (verifyRequest lengthCodec (fun _ _ _ => .ok false) (fun _ => none) (fun _ => true) 0 forgedRequest true).1 ≠
        fun _ => none := by
  refine ⟨by decide +kernel,by decide +kernel,?_⟩
  intro same
  have held : edKey (verifyRequest lengthCodec (fun _ _ _ => .ok false) (fun _ => none) (fun _ => true) 0
      forgedRequest true).1 "ann" = keyNamed 'a' := by decide +kernel
  rw [same] at held
  exact absurd held (by decide)

end Orrery.Chapter
