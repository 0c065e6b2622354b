import Orrery.Foundation.HashTree

/-! The RFC 6962 tree of server/merkle.py, which the member SDK vendors unchanged
in _merkle. SHA-256 is a parameter, so the results hold for every hash function.
Indices and sizes are the integers Python passes around; `% 2` and `/ 2` are its
`& 1` and `>> 1`. -/
namespace Orrery.Merkle
open Foundation

abbrev Bytes := List UInt8

def leafHash (sha256 : Bytes → Bytes) (data : Bytes) : Bytes := sha256 (0x00 :: data)

def nodeHash (sha256 : Bytes → Bytes) (left right : Bytes) : Bytes := sha256 (0x01 :: (left ++ right))

def doubleWhile (n : Nat) : Nat → Nat → Nat
  | 0, k => k
  | fuel+1, k => if k*2 < n then doubleWhile n fuel (k*2) else k

def largestPow2Lt (n : Nat) : Nat := doubleWhile n n 1

private theorem doubleWhile_pow (n : Nat) : ∀ fuel e, 2^e < n → n ≤ 2^e+fuel →
    doubleWhile n fuel (2^e) = 2^HashTree.splitExponent n := by
  intro fuel
  induction fuel with
  | zero => intro e below enough; omega
  | succ fuel ih =>
    intro e below enough
    have double : 2^e*2 = 2^(e+1) := (Nat.pow_succ 2 e).symm
    have pos := Nat.two_pow_pos e
    rw [doubleWhile]
    split
    next more => rw [double]; exact ih (e+1) (by omega) (by omega)
    next done => rw [HashTree.split_unique below (by omega)]

theorem largestPow2Lt_eq {n : Nat} (big : 2 ≤ n) : largestPow2Lt n = 2^HashTree.splitExponent n :=
  doubleWhile_pow n n 0 (by omega) (by omega)

theorem largestPow2Lt_lt {n : Nat} (big : 2 ≤ n) : largestPow2Lt n < n := by
  rw [largestPow2Lt_eq big]
  exact HashTree.split_lt big

theorem largestPow2Lt_pos {n : Nat} (big : 2 ≤ n) : 0 < largestPow2Lt n := by
  rw [largestPow2Lt_eq big]
  exact Nat.two_pow_pos _

def merkleRoot (sha256 : Bytes → Bytes) (leaves : List Bytes) : Bytes :=
  match leaves with
  | [] => sha256 []
  | [x] => leafHash sha256 x
  | x :: y :: rest =>
    let k := largestPow2Lt (x :: y :: rest).length
    nodeHash sha256 (merkleRoot sha256 ((x :: y :: rest).take k)) (merkleRoot sha256 ((x :: y :: rest).drop k))
termination_by leaves.length
decreasing_by
  · have := largestPow2Lt_lt (n := (x :: y :: rest).length) (by simp)
    simp only [List.length_take]
    omega
  · have := largestPow2Lt_pos (n := (x :: y :: rest).length) (by simp)
    simp only [List.length_drop,List.length_cons] at *
    omega

def inclusionProof (sha256 : Bytes → Bytes) (leaves : List Bytes) (m : Int) : Except String (List Bytes) :=
  let n := leaves.length
  if ¬ (0 ≤ m ∧ m < n) then .error s!"leaf index {m} out of range for size {n}"
  else if _one : n = 1 then .ok []
  else if _none : n = 0 then .ok []  -- the range test leaves no index for an empty list
  else
    let k := largestPow2Lt n
    if m < k then do
      let path ← inclusionProof sha256 (leaves.take k) m
      return path ++ [merkleRoot sha256 (leaves.drop k)]
    else do
      let path ← inclusionProof sha256 (leaves.drop k) (m-k)
      return path ++ [merkleRoot sha256 (leaves.take k)]
termination_by leaves.length
decreasing_by
  · have := largestPow2Lt_lt (n := leaves.length) (by omega)
    simp only [List.length_take]
    omega
  · have := largestPow2Lt_pos (n := leaves.length) (by omega)
    simp only [List.length_drop]
    omega

def shiftWhileEven : Nat → Int → Int → Int × Int
  | 0, fn, sn => (fn,sn)
  | fuel+1, fn, sn => if fn ≠ 0 ∧ fn % 2 = 0 then shiftWhileEven fuel (fn/2) (sn/2) else (fn,sn)

structure Replay where
  fn : Int
  sn : Int
  r : Bytes

def replayStep (sha256 : Bytes → Bytes) (c : Replay) (p : Bytes) : Replay :=
  if c.fn = c.sn ∨ c.fn % 2 = 1 then
    let shifted := shiftWhileEven c.fn.natAbs c.fn c.sn
    ⟨shifted.1/2,shifted.2/2,nodeHash sha256 p c.r⟩
  else ⟨c.fn/2,c.sn/2,nodeHash sha256 c.r p⟩

def verifyInclusion (sha256 : Bytes → Bytes) (leaf : Bytes) (leafIndex treeSize : Int)
    (proof : List Bytes) (root : Bytes) : Bool :=
  if leafIndex ≥ treeSize then false
  else
    let c := proof.foldl (replayStep sha256) ⟨leafIndex,treeSize-1,leafHash sha256 leaf⟩
    c.sn == 0 && c.r == root

def hashes (sha256 : Bytes → Bytes) : HashTree.Hashes Bytes Bytes :=
  ⟨sha256 [],leafHash sha256,nodeHash sha256⟩

theorem merkleRoot_eq (sha256 : Bytes → Bytes) (leaves : List Bytes) :
    merkleRoot sha256 leaves = HashTree.root (hashes sha256) leaves := by
  induction leaves using merkleRoot.induct with
  | case1 => simp [merkleRoot,HashTree.root,hashes]
  | case2 x => simp [merkleRoot,HashTree.root,hashes]
  | case3 x y rest k left right =>
    rw [merkleRoot,HashTree.root_split _ _ (by simp),← largestPow2Lt_eq (by simp)]
    change nodeHash sha256 (merkleRoot sha256 (List.take k _)) (merkleRoot sha256 (List.drop k _)) = _
    rw [left,right]
    rfl

theorem inclusionProof_eq (sha256 : Bytes → Bytes) (size : Nat) : ∀ (leaves : List Bytes) (m : Nat),
    leaves.length = size → m < leaves.length →
    inclusionProof sha256 leaves m = .ok (HashTree.path (hashes sha256) leaves m) := by
  induction size using Nat.strong_induction_on with
  | _ size ih =>
    intro leaves m length index
    rw [inclusionProof,if_neg (by simp; omega)]
    by_cases one : leaves.length = 1
    · rw [dif_pos one,HashTree.path_single _ _ _ (by omega)]
    · have big : 2 ≤ leaves.length := by omega
      have below := largestPow2Lt_lt big
      have above := largestPow2Lt_pos big
      rw [dif_neg one,dif_neg (by omega)]
      by_cases left : m < largestPow2Lt leaves.length
      · have first := ih (leaves.take (largestPow2Lt leaves.length)).length (by simp; omega)
          _ m rfl (by simp; omega)
        simp only [Int.ofNat_lt,left,if_true,first]
        rw [HashTree.path_left _ _ _ big (by rw [← largestPow2Lt_eq big]; exact left),
          ← largestPow2Lt_eq big,← merkleRoot_eq]
        rfl
      · have second := ih (leaves.drop (largestPow2Lt leaves.length)).length (by simp; omega)
          _ (m-largestPow2Lt leaves.length) rfl (by simp; omega)
        rw [Int.ofNat_sub (by omega)] at second
        simp only [Int.ofNat_lt,left,if_false,second]
        rw [HashTree.path_right _ _ _ big (by rw [← largestPow2Lt_eq big]; omega),
          ← largestPow2Lt_eq big,← merkleRoot_eq]
        rfl

theorem shiftWhileEven_eq (fuel fn sn : Nat) :
    shiftWhileEven fuel fn sn = (((HashTree.strip fuel fn sn).1 : Int),((HashTree.strip fuel fn sn).2 : Int)) := by
  induction fuel generalizing fn sn with
  | zero => rfl
  | succ fuel ih =>
    have guard : ((fn : Int) ≠ 0 ∧ (fn : Int) % 2 = 0) ↔ (fn ≠ 0 ∧ fn % 2 = 0) := by omega
    rw [shiftWhileEven,HashTree.strip]
    simp only [guard]
    split
    next => exact_mod_cast ih (fn/2) (sn/2)
    next => rfl

def ofCursor (c : HashTree.Cursor Bytes) : Replay := ⟨c.fn,c.sn,c.value⟩

theorem replayStep_eq (sha256 : Bytes → Bytes) (c : HashTree.Cursor Bytes) (p : Bytes) :
    replayStep sha256 (ofCursor c) p = ofCursor (HashTree.climbStep (hashes sha256) c p) := by
  have guard : ((c.fn : Int) = c.sn ∨ (c.fn : Int) % 2 = 1) ↔ (c.fn = c.sn ∨ c.fn % 2 = 1) := by omega
  simp only [replayStep,HashTree.climbStep,ofCursor,guard]
  split
  next => simp [shiftWhileEven_eq,hashes]
  next => simp [hashes]

theorem replay_eq (sha256 : Bytes → Bytes) (proof : List Bytes) (c : HashTree.Cursor Bytes) :
    proof.foldl (replayStep sha256) (ofCursor c) = ofCursor (HashTree.climb (hashes sha256) c proof) := by
  induction proof generalizing c with
  | nil => rfl
  | cons p proof ih =>
    rw [List.foldl_cons,replayStep_eq,ih]
    rfl

theorem start_cursor (sha256 : Bytes → Bytes) (leaf : Bytes) {i n : Nat} (index : i < n) :
    (⟨(i : Int),(n : Int)-1,leafHash sha256 leaf⟩ : Replay) = ofCursor ⟨i,n-1,(hashes sha256).leaf leaf⟩ := by
  simp only [ofCursor,hashes,Replay.mk.injEq,and_true,true_and]
  omega

/-- The prover's audit path is always accepted by the verifier, at every index of
every list and for every hash function. -/
theorem verifyInclusion_inclusionProof (sha256 : Bytes → Bytes) (leaves : List Bytes) (m : Nat)
    (index : m < leaves.length) :
    ∃ proof, inclusionProof sha256 leaves m = .ok proof ∧
      verifyInclusion sha256 (leaves.get ⟨m,index⟩) m leaves.length proof (merkleRoot sha256 leaves) = true := by
  refine ⟨HashTree.path (hashes sha256) leaves m,inclusionProof_eq sha256 _ leaves m rfl index,?_⟩
  rw [verifyInclusion,if_neg (by omega),start_cursor sha256 _ index,replay_eq,HashTree.climb_path _ _ _ index]
  simp [ofCursor,merkleRoot_eq]

/-- Leaf 4 of a five-leaf tree, which is promoted over two levels. -/
theorem verifyInclusion_promoted_leaf :
    4 < [[1],[2],[3],[4],([5] : Bytes)].length ∧
      ∃ proof, inclusionProof id [[1],[2],[3],[4],[5]] (4 : Nat) = .ok proof ∧
        verifyInclusion id [5] (4 : Nat) (5 : Nat) proof (merkleRoot id [[1],[2],[3],[4],[5]]) = true :=
  ⟨by decide,verifyInclusion_inclusionProof id [[1],[2],[3],[4],[5]] 4 (by decide)⟩

end Orrery.Merkle
