import Orrery.Merkle
import Orrery.Foundation.HashTreeBinding

/-! What `verify_inclusion` accepts. Digests have 32 bytes, so SHA-256 cannot be
injective; what is asked of it is that the strings the prover and the verifier
have hashed do not collide. -/
namespace Orrery.Merkle
open Foundation

def preimage : HashTree.Input Bytes Bytes → Bytes
  | .empty => []
  | .leaf data => 0x00 :: data
  | .node left right => 0x01 :: (left ++ right)

theorem digest_eq (sha256 : Bytes → Bytes) (x : HashTree.Input Bytes Bytes) :
    (hashes sha256).digest x = sha256 (preimage x) := by
  cases x <;> rfl

/-- SHA-256 as far as it was used: no two of the strings given to it collide. -/
structure CollisionFree (sha256 : Bytes → Bytes) (given : List Bytes) : Prop where
  size : ∀ x, (sha256 x).length = 32
  injective : ∀ x ∈ given, ∀ y ∈ given, sha256 x = sha256 y → x = y

def merkleHashed (sha256 : Bytes → Bytes) (leaves : List Bytes) : List Bytes :=
  (HashTree.inputs (hashes sha256) leaves).map preimage

def replayHashed (sha256 : Bytes → Bytes) : Replay → List Bytes → List Bytes
  | _, [] => []
  | c, p :: proof =>
    (if c.fn = c.sn ∨ c.fn % 2 = 1 then 0x01 :: (p ++ c.r) else 0x01 :: (c.r ++ p)) ::
      replayHashed sha256 (replayStep sha256 c p) proof

def inclusionHashed (sha256 : Bytes → Bytes) (leaf : Bytes) (leafIndex treeSize : Int) (proof : List Bytes) :
    List Bytes :=
  (0x00 :: leaf) :: replayHashed sha256 ⟨leafIndex,treeSize-1,leafHash sha256 leaf⟩ proof

def replaySteps (sha256 : Bytes → Bytes) : Replay → List Bytes → List (Bool × Bytes)
  | _, [] => []
  | c, p :: proof => (decide (c.fn = c.sn ∨ c.fn % 2 = 1),p) :: replaySteps sha256 (replayStep sha256 c p) proof

theorem replay_ascend (sha256 : Bytes → Bytes) (proof : List Bytes) : ∀ c : Replay,
    (proof.foldl (replayStep sha256) c).r = HashTree.ascend (hashes sha256) c.r (replaySteps sha256 c proof) ∧
      replayHashed sha256 c proof =
        (HashTree.ascentInputs (hashes sha256) c.r (replaySteps sha256 c proof)).map preimage := by
  induction proof with
  | nil => intro c; exact ⟨rfl,rfl⟩
  | cons p proof ih =>
    intro c
    obtain ⟨value,hashed⟩ := ih (replayStep sha256 c p)
    have step : (replayStep sha256 c p).r =
        (hashes sha256).digest (HashTree.joined (decide (c.fn = c.sn ∨ c.fn % 2 = 1),p) c.r) := by
      unfold replayStep HashTree.joined
      by_cases turn : c.fn = c.sn ∨ c.fn % 2 = 1 <;> simp [turn,hashes,HashTree.Hashes.digest]
    refine ⟨?_,?_⟩
    · rw [List.foldl_cons,value,step]
      rfl
    · rw [step] at hashed
      simp only [replayHashed,replaySteps,HashTree.ascentInputs,List.map_cons,hashed]
      congr 1
      unfold HashTree.joined
      by_cases turn : c.fn = c.sn ∨ c.fn % 2 = 1 <;> simp [turn,preimage]

def Whole : HashTree.Input Bytes Bytes → Prop
  | .node left right => left.length = 32 ∧ right.length = 32
  | _ => True

def Half : HashTree.Input Bytes Bytes → Prop
  | .node left right => left.length = 32 ∨ right.length = 32
  | _ => True

theorem preimage_inj {x y : HashTree.Input Bytes Bytes} (whole : Whole x) (half : Half y)
    (same : preimage x = preimage y) : x = y := by
  cases x with
  | empty => cases y <;> simp_all [preimage]
  | leaf data => cases y <;> simp_all [preimage]
  | node left right =>
    cases y with
    | empty => simp [preimage] at same
    | leaf data => simp [preimage] at same
    | node left' right' =>
      simp only [preimage,List.cons.injEq,true_and] at same
      simp only [Whole] at whole
      simp only [Half] at half
      have length := congrArg List.length same
      simp only [List.length_append] at length
      obtain ⟨rfl,rfl⟩ := List.append_inj same (by omega)
      rfl

theorem CollisionFree.apart {sha256 : Bytes → Bytes} {given : List Bytes} (free : CollisionFree sha256 given)
    {first second : List (HashTree.Input Bytes Bytes)} (whole : ∀ x ∈ first, Whole x) (half : ∀ y ∈ second, Half y)
    (left : first.map preimage ⊆ given) (right : second.map preimage ⊆ given) :
    HashTree.Apart (hashes sha256) first second := by
  intro x inside y among same
  rw [digest_eq,digest_eq] at same
  exact preimage_inj (whole x inside) (half y among)
    (free.injective _ (left (List.mem_map_of_mem inside)) _ (right (List.mem_map_of_mem among)) same)

section Sizes
variable {sha256 : Bytes → Bytes} (size : ∀ x, (sha256 x).length = 32)
include size

theorem digest_size (x : HashTree.Input Bytes Bytes) : ((hashes sha256).digest x).length = 32 := by
  rw [digest_eq]
  exact size _

theorem root_size (leaves : List Bytes) : (HashTree.root (hashes sha256) leaves).length = 32 := by
  match leaves with
  | [] =>
    rw [HashTree.root]
    exact size _
  | [x] =>
    rw [HashTree.root]
    exact size _
  | x :: y :: rest =>
    rw [HashTree.root]
    exact size _

theorem inputs_whole (leaves : List Bytes) : ∀ x ∈ HashTree.inputs (hashes sha256) leaves, Whole x := by
  induction leaves using HashTree.inputs.induct with
  | case1 =>
    rw [HashTree.inputs]
    simp [Whole]
  | case2 x =>
    rw [HashTree.inputs]
    simp [Whole]
  | case3 x y rest k left right =>
    rw [HashTree.inputs]
    intro z member
    rcases List.mem_cons.mp member with rfl | member
    · exact ⟨root_size size _,root_size size _⟩
    · rcases List.mem_append.mp member with member | member
      · exact left z member
      · exact right z member

theorem ascentInputs_half (steps : List (Bool × Bytes)) : ∀ value : Bytes, value.length = 32 →
    ∀ y ∈ HashTree.ascentInputs (hashes sha256) value steps, Half y := by
  induction steps with
  | nil => intro value _ y member; cases member
  | cons step steps ih =>
    intro value digest y member
    rcases List.mem_cons.mp member with rfl | member
    · unfold HashTree.joined
      split
      next => exact Or.inr digest
      next => exact Or.inl digest
    · exact ih _ (digest_size size _) y member

end Sizes

theorem replaySteps_sides (sha256 : Bytes → Bytes) (proof : List Bytes) : ∀ fn sn value,
    replaySteps sha256 (ofCursor ⟨fn,sn,value⟩) proof = (HashTree.sides proof.length fn sn).zip proof := by
  induction proof with
  | nil => intro fn sn value; rfl
  | cons p proof ih =>
    intro fn sn value
    have guard : ((fn : Int) = sn ∨ (fn : Int) % 2 = 1) ↔ (fn = sn ∨ fn % 2 = 1) := by omega
    rw [replaySteps,replayStep_eq,HashTree.climbStep_onward,ih]
    simp only [ofCursor,guard]
    rfl

/-- An accepted path, of any length, is that of the leaf it is about. -/
theorem verifyInclusion_sound (sha256 : Bytes → Bytes) (leaves : List Bytes) (leaf : Bytes) (i : Nat)
    (proof : List Bytes)
    (free : CollisionFree sha256 (merkleHashed sha256 leaves ++ inclusionHashed sha256 leaf i leaves.length proof))
    (accepted : verifyInclusion sha256 leaf i leaves.length proof (merkleRoot sha256 leaves) = true) :
    i < leaves.length ∧ leaves[i]? = some leaf ∧ inclusionProof sha256 leaves i = .ok proof := by
  unfold verifyInclusion at accepted
  split at accepted
  next => cases accepted
  next below =>
    have index : i < leaves.length := by omega
    have start := start_cursor sha256 leaf index
    rw [start,replay_eq] at accepted
    obtain ⟨last,reached⟩ : (HashTree.climb (hashes sha256) ⟨i,leaves.length-1,(hashes sha256).leaf leaf⟩ proof).sn =
      0 ∧
        (HashTree.climb (hashes sha256) ⟨i,leaves.length-1,(hashes sha256).leaf leaf⟩ proof).value =
          HashTree.root (hashes sha256) leaves := by
      simpa [ofCursor,merkleRoot_eq] using accepted
    have apart : HashTree.Apart (hashes sha256) (HashTree.inputs (hashes sha256) leaves)
        (.leaf leaf :: HashTree.ascentInputs (hashes sha256) ((hashes sha256).leaf leaf)
          ((HashTree.sides proof.length i (leaves.length-1)).zip proof)) := by
      refine free.apart (inputs_whole free.size leaves) ?_ (List.subset_append_left _ _) ?_
      · intro y member
        rcases List.mem_cons.mp member with rfl | member
        · trivial
        · exact ascentInputs_half free.size _ _ (free.size _) y member
      · have hashed := (replay_ascend sha256 proof (ofCursor ⟨i,leaves.length-1,(hashes sha256).leaf leaf⟩)).2
        rw [replaySteps_sides] at hashed
        intro x member
        refine List.mem_append_right _ ?_
        rw [inclusionHashed,start,hashed]
        exact member
    obtain ⟨found,used⟩ := HashTree.climb_sound (hashes sha256) leaves leaf i proof index apart last reached
    refine ⟨index,found,?_⟩
    rw [inclusionProof_eq sha256 _ leaves i rfl index,used]

def head32 (x : Bytes) : Bytes := (x ++ List.replicate 32 0).take 32

theorem head32_size (x : Bytes) : (head32 x).length = 32 := by
  simp [head32]

theorem merkleHashed_pair (sha256 : Bytes → Bytes) (x y : Bytes) : merkleHashed sha256 [x,y] =
    [0x01 :: (leafHash sha256 x ++ leafHash sha256 y),0x00 :: x,0x00 :: y] := by
  have exponent : HashTree.splitExponent 2 = 0 := HashTree.split_unique (by omega) (by omega)
  have first : [x,y].take 1 = [x] := rfl
  simp [merkleHashed,HashTree.inputs,HashTree.root,exponent,preimage,hashes,first]

theorem verifyInclusion_sound_pair :
    verifyInclusion head32 [2] (1 : Nat) (2 : Nat) [leafHash head32 [1]] (merkleRoot head32 [[1],[2]]) = true ∧
      inclusionProof head32 [[1],[2]] (1 : Nat) = .ok [leafHash head32 [1]] := by
  have root : merkleRoot head32 [[1],[2]] = nodeHash head32 (leafHash head32 [1]) (leafHash head32 [2]) := by
    simp [merkleRoot,largestPow2Lt,doubleWhile]
  have accepted : verifyInclusion head32 [2] (1 : Nat) (2 : Nat) [leafHash head32 [1]] (merkleRoot head32 [[1],[2]]) =
      true := by
    rw [root]
    decide +kernel
  refine ⟨accepted,(verifyInclusion_sound head32 [[1],[2]] [2] 1 _ ⟨head32_size,?_⟩ accepted).2.2⟩
  rw [merkleHashed_pair]
  decide +kernel

end Orrery.Merkle
