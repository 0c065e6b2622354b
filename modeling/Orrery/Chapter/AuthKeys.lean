import Orrery.Chapter.Identity

/-! The key store of the request signatures (server/auth_verify.py), and `verify_request`
with the key that a first signed request leaves in it. -/
namespace Orrery.Chapter
open Foundation Json

structure AgentKey where
  publicKey : String
  signingSecret : String
  ed25519Pubkey : String

abbrev AuthKeys := String → Option AgentKey

def edKey (keys : AuthKeys) (agentId : String) : String := ((keys agentId).map AgentKey.ed25519Pubkey).getD ""

def storeAgentKey (keys : AuthKeys) (agentId publicKey signingSecret ed25519Pubkey : String) : AuthKeys :=
  let existing := (keys agentId).getD ⟨"","",""⟩
  Function.update keys agentId (some {
    publicKey := orText publicKey existing.publicKey
    signingSecret := orText signingSecret existing.signingSecret
    ed25519Pubkey := orText ed25519Pubkey existing.ed25519Pubkey })

def replaceAgentKey (keys : AuthKeys) (agentId newPublicKey : String) : AuthKeys :=
  Function.update keys agentId (some ⟨newPublicKey,"",newPublicKey⟩)

def storeDidKey (codec : Codec) (keys : AuthKeys) (agentId didKey : String) : Option AuthKeys :=
  ((extractEd25519PubkeyFromDidKey codec didKey).filter (· ≠ "")).map fun pubkey =>
    storeAgentKey keys agentId "" "" pubkey

section Entries
variable {keys : AuthKeys} {agentId : String}

@[simp] theorem edKey_replace (newPublicKey : String) :
    edKey (replaceAgentKey keys agentId newPublicKey) agentId = newPublicKey := by
  simp [edKey,replaceAgentKey]

theorem edKey_replace_other {other : String} (apart : other ≠ agentId) (newPublicKey : String) :
    edKey (replaceAgentKey keys agentId newPublicKey) other = edKey keys other := by
  rw [edKey,replaceAgentKey,Function.update_of_ne apart,edKey]

theorem edKey_store (publicKey signingSecret ed25519Pubkey : String) :
    edKey (storeAgentKey keys agentId publicKey signingSecret ed25519Pubkey) agentId =
      orText ed25519Pubkey (edKey keys agentId) := by
  rw [edKey,storeAgentKey,Function.update_self,edKey]
  cases keys agentId <;> rfl

theorem edKey_store_other {other : String} (apart : other ≠ agentId) (publicKey signingSecret ed25519Pubkey : String) :
    edKey (storeAgentKey keys agentId publicKey signingSecret ed25519Pubkey) other = edKey keys other := by
  rw [edKey,storeAgentKey,Function.update_of_ne apart,edKey]

end Entries

/-- The headers of a signed request, what it is about, and whether its path is bound to its
method. -/
structure SignedRequest where
  agentId : String
  signature : String
  timestamp : String
  didKey : String
  nonce : String
  sigScheme : String
  body : String
  method : String
  urlPath : String
  requireMethodBinding : Bool

def methodBoundRequiredMethods : List String := ["POST","PUT","PATCH","DELETE"]
def methodBindingExemptPaths : List String := ["/a2a","/a2a/","/run","/run/"]
def methodBindingExemptPrefixes : List String := ["/a2a/@"]

def isSelfAuthenticatingPath (path : String) : Bool :=
  let bare := String.ofList (path.toList.takeWhile (· ≠ '?'))
  bare ∈ methodBindingExemptPaths || methodBindingExemptPrefixes.any fun start => startsWith start bare

def SignedRequest.methodUpper (r : SignedRequest) : String := String.ofList (r.method.toList.map Char.toUpper)

def SignedRequest.scheme (r : SignedRequest) : String :=
  String.ofList ((orText r.sigScheme "hmac-sha256").toList.map Char.toLower)

def SignedRequest.message (r : SignedRequest) : String :=
  if r.scheme = "ed25519+nonce" then s!"{r.methodUpper}:{r.urlPath}:{r.body}:{r.agentId}:{r.timestamp}:{r.nonce}"
  else s!"{r.body}:{r.agentId}:{r.timestamp}"

section Requests
variable (codec : Codec)

def requestRefusal (now : Int) (r : SignedRequest) : Option String :=
  if r.agentId = "" then some "missing_agent_id"
  else if r.signature = "" then some "missing_signature"
  else if r.timestamp = "" then some "missing_timestamp"
  else if r.scheme ∉ ["hmac-sha256","ed25519","ed25519+nonce"] then some "unknown_sig_scheme"
  else if r.scheme = "ed25519+nonce" ∧ r.nonce = "" then some "missing_nonce"
  else if r.requireMethodBinding ∧ r.methodUpper ∈ methodBoundRequiredMethods ∧ r.scheme ≠ "ed25519+nonce" then
    some "method_binding_required"
  else match codec.parseInt r.timestamp with
  | none => some "invalid_timestamp"
  | some timestamp => if (now-timestamp).natAbs > 300 then some "expired_timestamp" else none

def signatureAnswer (r : SignedRequest) (edPubkey : String) (fresh tofu : Bool) : Bool × String :=
  if ed25519Verify codec r.message r.signature edPubkey then
    if r.scheme = "ed25519+nonce" ∧ fresh = false then (false,"nonce_replay")
    else (true,if tofu then "tofu_accepted" else "verified")
  else (false,"invalid_signature")

def headerPubkey (r : SignedRequest) : String :=
  if r.didKey = "" then "" else (extractEd25519PubkeyFromDidKey codec r.didKey).getD ""

/-- The Ed25519 path: a key from the header is filed before the signature is looked at. -/
def verifyEd25519 (keys : AuthKeys) (eligible : String → Bool) (r : SignedRequest) (fresh : Bool) :
    AuthKeys × Bool × String :=
  if edKey keys r.agentId = "" ∧ r.didKey ≠ "" then
    if !(eligible r.agentId || isSelfAuthenticatingPath r.urlPath) then (keys,false,"no_stored_key")
    else match storeDidKey codec keys r.agentId r.didKey with
    | some filed => (filed,signatureAnswer codec r (edKey filed r.agentId) fresh true)
    | none => (keys,false,"invalid_did_key")
  else if edKey keys r.agentId = "" then (keys,false,"no_stored_key")
  else
    if headerPubkey codec r ≠ "" ∧ headerPubkey codec r ≠ edKey keys r.agentId then (keys,false,"key_mismatch")
    else (keys,signatureAnswer codec r (edKey keys r.agentId) fresh false)

def verifyHmac (hmac : String → String → String → Except Exc Bool) (keys : AuthKeys)
    (r : SignedRequest) : Bool × String :=
  match keys r.agentId with
  | none => (false,"no_stored_key")
  | some stored =>
    if stored.signingSecret = "" then (false,"invalid_signature")
    else match hmac stored.signingSecret r.message r.signature with
    | .ok true => (true,"verified")
    | _ => (false,"invalid_signature")

def verifyRequest (hmac : String → String → String → Except Exc Bool) (keys : AuthKeys) (eligible : String → Bool)
    (now : Int) (r : SignedRequest) (fresh : Bool) : AuthKeys × Bool × String :=
  match requestRefusal codec now r with
  | some reason => (keys,false,reason)
  | none =>
    if r.scheme = "hmac-sha256" then (keys,verifyHmac hmac keys r)
    else verifyEd25519 codec keys eligible r fresh

variable {codec} {hmac : String → String → String → Except Exc Bool} {keys : AuthKeys} {eligible : String → Bool}
  {now : Int} {r : SignedRequest} {fresh : Bool}

theorem storeDidKey_some {agentId didKey : String} {filed : AuthKeys}
    (stored : storeDidKey codec keys agentId didKey = some filed) :
    ∃ pubkey, pubkey ≠ "" ∧ filed = storeAgentKey keys agentId "" "" pubkey := by
  obtain ⟨pubkey,found,rfl⟩ := Option.map_eq_some_iff.mp stored
  exact ⟨pubkey,by simpa using (Option.filter_eq_some_iff.mp found).2,rfl⟩

theorem verifyRequest_keys : (verifyRequest codec hmac keys eligible now r fresh).1 = keys ∨
    edKey keys r.agentId = "" ∧ ∃ pubkey, pubkey ≠ "" ∧
      (verifyRequest codec hmac keys eligible now r fresh).1 = storeAgentKey keys r.agentId "" "" pubkey := by
  unfold verifyRequest
  split
  · exact .inl rfl
  split
  · exact .inl rfl
  unfold verifyEd25519
  split
  next first =>
    split
    · exact .inl rfl
    split
    next filed stored => exact .inr ⟨first.1,storeDidKey_some stored⟩
    · exact .inl rfl
  split
  · exact .inl rfl
  split
  · exact .inl rfl
  · exact .inl rfl

theorem accepted_bound (bound : r.scheme = "ed25519+nonce")
    (accepted : (verifyRequest codec hmac keys eligible now r fresh).2.1 = true) :
    requestRefusal codec now r = none ∧ fresh = true ∧
      edKey (verifyRequest codec hmac keys eligible now r fresh).1 r.agentId ≠ "" ∧
      (headerPubkey codec r = "" ∨
        headerPubkey codec r = edKey (verifyRequest codec hmac keys eligible now r fresh).1 r.agentId) ∧
      ed25519Verify codec r.message r.signature
        (edKey (verifyRequest codec hmac keys eligible now r fresh).1 r.agentId) = true := by
  have signed {key : String} {tofu : Bool} (valid : (signatureAnswer codec r key fresh tofu).1 = true) :
      fresh = true ∧ ed25519Verify codec r.message r.signature key = true := by
    unfold signatureAnswer at valid
    split at valid
    next verified =>
      split at valid
      · cases valid
      next seen =>
        refine ⟨?_,verified⟩
        simpa [bound] using seen
    · cases valid
  unfold verifyRequest at accepted ⊢
  split at accepted
  · cases accepted
  next unrefused =>
    rw [if_neg (by simp [bound])] at accepted ⊢
    refine ⟨unrefused,?_⟩
    unfold verifyEd25519 at accepted ⊢
    split at accepted
    next first =>
      split at accepted
      · cases accepted
      next welcome =>
        split at accepted
        next filed stored =>
          rw [if_pos first,if_neg welcome]
          obtain ⟨pubkey,found,rfl⟩ := Option.map_eq_some_iff.mp stored
          obtain ⟨extracted,some_⟩ := Option.filter_eq_some_iff.mp found
          replace some_ : pubkey ≠ "" := by simpa using some_
          have key : edKey (storeAgentKey keys r.agentId "" "" pubkey) r.agentId = pubkey := by
            rw [edKey_store,orText,if_neg some_]
          have header : headerPubkey codec r = pubkey := by
            rw [headerPubkey,if_neg first.2,extracted,Option.getD_some]
          obtain ⟨unseen,verified⟩ := signed accepted
          have held : edKey (storeAgentKey keys r.agentId "" "" pubkey) r.agentId ≠ "" := by
            rw [key]
            exact some_
          exact ⟨unseen,held,.inr (header.trans key.symm),verified⟩
        · cases accepted
    next known =>
      split at accepted
      · cases accepted
      next held =>
        split at accepted
        · cases accepted
        next agrees =>
          obtain ⟨unseen,verified⟩ := signed accepted
          rw [if_neg known,if_neg held,if_neg agrees]
          refine ⟨unseen,held,?_,verified⟩
          by_cases none_ : headerPubkey codec r = ""
          · exact .inl none_
          · exact .inr (not_not.mp fun differs => agrees ⟨none_,differs⟩)

theorem verifyRequest_held (bound : r.scheme = "ed25519+nonce") (held : edKey keys r.agentId ≠ "")
    (agrees : headerPubkey codec r = "" ∨ headerPubkey codec r = edKey keys r.agentId) :
    ((verifyRequest codec hmac keys eligible now r fresh).2.1 = true ↔
      requestRefusal codec now r = none ∧ ed25519Verify codec r.message r.signature (edKey keys r.agentId) = true ∧
        fresh = true) := by
  unfold verifyRequest
  split
  next reason refused => simp [refused]
  next unrefused =>
    have key : ¬(headerPubkey codec r ≠ "" ∧ headerPubkey codec r ≠ edKey keys r.agentId) := by
      rintro ⟨some_,differs⟩
      exact agrees.elim some_ differs
    rw [if_neg (by simp [bound]),verifyEd25519,if_neg (fun first => held first.1),if_neg held,if_neg key]
    unfold signatureAnswer
    by_cases verified : ed25519Verify codec r.message r.signature (edKey keys r.agentId) = true
    · cases fresh <;> simp [verified,bound,unrefused]
    · simp [verified]

theorem verifyRequest_holds {agentId : String} (held : edKey keys agentId ≠ "") :
    edKey (verifyRequest codec hmac keys eligible now r fresh).1 agentId = edKey keys agentId := by
  obtain same | ⟨none_,pubkey,_,filed⟩ := @verifyRequest_keys codec hmac keys eligible now r fresh
  · rw [same]
  · rw [filed]
    by_cases here : agentId = r.agentId
    · exact absurd none_ (here ▸ held)
    · exact edKey_store_other here "" "" pubkey

end Requests
end Orrery.Chapter
