import Mathlib.Data.Set.Defs
import Orrery.Chapter.ReplayStore

/-! What the signed string of the bound scheme says of a request: the text
`method:url_path:body:agent_id:timestamp:nonce` of `verify_request` and the ways to read
it back. -/
namespace Orrery.Chapter
open Foundation

/-- What a signature of the bound scheme is meant to fix for an agent. -/
@[ext] structure SignedTuple where
  method : String
  urlPath : String
  body : String
  timestamp : String
  nonce : String
deriving DecidableEq

def SignedTuple.canonical (agentId : String) (t : SignedTuple) : String :=
  s!"{t.method}:{t.urlPath}:{t.body}:{agentId}:{t.timestamp}:{t.nonce}"

def SignedRequest.tuple (r : SignedRequest) : SignedTuple :=
  ⟨r.methodUpper,r.urlPath,r.body,r.timestamp,r.nonce⟩

def colons (s : String) : ℕ := s.toList.count ':'

def SignedTuple.SameColons (a b : SignedTuple) : Prop :=
  colons a.method = colons b.method ∧ colons a.urlPath = colons b.urlPath ∧ colons a.timestamp = colons b.timestamp ∧
    colons a.nonce = colons b.nonce

instance (a b : SignedTuple) : Decidable (a.SameColons b) := inferInstanceAs (Decidable (_ ∧ _ ∧ _ ∧ _))

section Fields
variable {α : Type} [DecidableEq α] {mark : α} {a b c d : List α}

theorem split_left (same : a ++ mark :: b = c ++ mark :: d) (count : a.count mark = c.count mark) : a = c ∧ b = d := by
  obtain ⟨rest,rfl,right⟩ | ⟨rest,rfl,right⟩ := List.append_eq_append_iff.mp same
  · cases rest with
    | nil => exact ⟨(List.append_nil a).symm,(List.cons.inj right).2⟩
    | cons first rest =>
      obtain rfl := (List.cons.inj right).1
      simp at count
  · cases rest with
    | nil => exact ⟨List.append_nil c,(List.cons.inj right).2.symm⟩
    | cons first rest =>
      obtain rfl := (List.cons.inj right).1
      simp at count

theorem split_right (same : a ++ mark :: b = c ++ mark :: d) (count : b.count mark = d.count mark) : a = c ∧ b = d := by
  apply split_left same
  have whole := congrArg (List.count mark) same
  simp only [List.count_append,List.count_cons_self] at whole
  omega

end Fields

theorem canonical_toList (agentId : String) (t : SignedTuple) : (t.canonical agentId).toList =
    t.method.toList ++ ':' :: (t.urlPath.toList ++ ':' :: (((t.body.toList ++ ':' :: agentId.toList) ++ ':' ::
      t.timestamp.toList) ++ ':' :: t.nonce.toList)) := by
  simp only [SignedTuple.canonical,String.toList_append,List.append_assoc,List.cons_append]
  rfl

theorem canonical_injective {agentId : String} {a b : SignedTuple} (same : a.canonical agentId = b.canonical agentId)
    (colons_ : a.SameColons b) : a = b := by
  obtain ⟨method,urlPath,timestamp,nonce⟩ := colons_
  have text := congrArg String.toList same
  rw [canonical_toList,canonical_toList] at text
  obtain ⟨methods,text⟩ := split_left text method
  obtain ⟨paths,text⟩ := split_left text urlPath
  obtain ⟨text,nonces⟩ := split_right text nonce
  obtain ⟨text,timestamps⟩ := split_right text timestamp
  have bodies := List.append_cancel_right text
  ext1
  · exact String.toList_inj.mp methods
  · exact String.toList_inj.mp paths
  · exact String.toList_inj.mp bodies
  · exact String.toList_inj.mp timestamps
  · exact String.toList_inj.mp nonces

theorem message_canonical {r : SignedRequest} (bound : r.scheme = "ed25519+nonce") :
    r.message = r.tuple.canonical r.agentId := by
  rw [SignedRequest.message,if_pos bound]
  rfl

/-- What verifies under the key of an agent is the text of a tuple that was signed with it. -/
def SignedOnly (codec : Codec) (key agentId : String) (signed : Set SignedTuple) : Prop :=
  ∀ message signature, ed25519Verify codec message signature key = true →
    ∃ t ∈ signed, t.canonical agentId = message

section Binding
variable {codec : Codec} {hmac : String → String → String → Except Exc Bool} {keys : AuthKeys}
  {eligible : String → Bool} {now : Int} {r : SignedRequest} {fresh : Bool} {signed : Set SignedTuple}

/-- An accepted request carries the text of a signed tuple, and is signed itself exactly
when a tuple with that text has its colons in the same fields. -/
theorem bound_request_iff (bound : r.scheme = "ed25519+nonce")
    (accepted : (verifyRequest codec hmac keys eligible now r fresh).2.1 = true)
    (unforged : SignedOnly codec (edKey (verifyRequest codec hmac keys eligible now r fresh).1 r.agentId) r.agentId
      signed) :
    (∃ t ∈ signed, t.canonical r.agentId = r.message) ∧
      (r.tuple ∈ signed ↔ ∃ t ∈ signed, t.canonical r.agentId = r.message ∧ t.SameColons r.tuple) := by
  obtain ⟨_,_,_,_,verified⟩ := accepted_bound bound accepted
  refine ⟨unforged _ _ verified,?_⟩
  constructor
  · intro inside
    exact ⟨r.tuple,inside,(message_canonical bound).symm,rfl,rfl,rfl,rfl⟩
  · rintro ⟨t,inside,same,colons_⟩
    rw [message_canonical bound] at same
    exact canonical_injective same colons_ ▸ inside

def annTuple : SignedTuple := ⟨"POST","/api/thoughts?tag=a:b","{}","1300","n1"⟩

def annCodec : Codec := { clockCodec with
  nacl := fun key message signature =>
    if key = signature ∧ message = annTuple.canonical "ann" then .valid else .badSignature }

def shiftedRequest : SignedRequest where
  agentId := "ann"
  signature := keyNamed 'a'
  timestamp := "1300"
  didKey := ""
  nonce := "n1"
  sigScheme := "ed25519+nonce"
  body := "b:{}"
  method := "POST"
  urlPath := "/api/thoughts?tag=a"
  requireMethodBinding := true

theorem annCodec_unforged (key : String) : SignedOnly annCodec key "ann" {annTuple} := by
  intro message signature verified
  refine ⟨annTuple,rfl,?_⟩
  unfold ed25519Verify at verified
  split at verified
  · split at verified
    · by_contra other
      simp [annCodec,Ne.symm other] at verified
    · cases verified
  · cases verified

theorem shiftedRequest_accepted : (verifyRequest annCodec (fun _ _ _ => .ok false) annHeld (fun _ => true) 1300
    shiftedRequest true).2.1 = true := by
  have bound : shiftedRequest.scheme = "ed25519+nonce" := by decide
  have held : edKey annHeld shiftedRequest.agentId = keyNamed 'a' := rfl
  have parsed : annCodec.parseInt shiftedRequest.timestamp = some 1300 := rfl
  have unrefused : requestRefusal annCodec 1300 shiftedRequest = none := by
    rw [requestRefusal,bound,parsed]
    simp [shiftedRequest,keyNamed]
  apply (verifyRequest_held bound ?_ (.inl rfl)).mpr ⟨unrefused,?_,rfl⟩
  · rw [held]
    decide
  · rw [held]
    decide

theorem unsigned_tuple_accepted : ¬ ∀ codec hmac keys eligible now r fresh (signed : Set SignedTuple),
    r.scheme = "ed25519+nonce" → (verifyRequest codec hmac keys eligible now r fresh).2.1 = true →
    SignedOnly codec (edKey (verifyRequest codec hmac keys eligible now r fresh).1 r.agentId) r.agentId signed →
    r.tuple ∈ signed := by
  intro always
  have inside := always annCodec _ annHeld _ 1300 shiftedRequest true {annTuple} (by decide) shiftedRequest_accepted
    (annCodec_unforged _)
  have paths := congrArg SignedTuple.urlPath (Set.mem_singleton_iff.mp inside)
  simp [SignedRequest.tuple,shiftedRequest,annTuple] at paths

theorem shiftedRequest_text : ∃ t ∈ ({annTuple} : Set SignedTuple), t.canonical "ann" = shiftedRequest.message :=
  (bound_request_iff (by decide) shiftedRequest_accepted (annCodec_unforged _)).1

end Binding
end Orrery.Chapter
