import Mathlib.Data.Int.Bitwise
import Orrery.Foundation.HashTreePrefix
import Orrery.Merkle.Soundness

/-! Consistency proofs (server/merkle.py): that an old root is the root of a prefix of
the log a new root commits to. The verifier climbs once and rebuilds both roots. -/
namespace Orrery.Merkle
open Foundation

def subproof (sha256 : Bytes → Bytes) (m : Nat) (leaves : List Bytes) (b : Bool) : List Bytes :=
  let n := leaves.length
  if m = n then if b then [] else [merkleRoot sha256 leaves]
  else if _none : n ≤ 1 then []  -- every call has 0 < m ≤ n
  else
    let k := largestPow2Lt n
    if m ≤ k then subproof sha256 m (leaves.take k) b ++ [merkleRoot sha256 (leaves.drop k)]
    else subproof sha256 (m-k) (leaves.drop k) false ++ [merkleRoot sha256 (leaves.take k)]
termination_by leaves.length
decreasing_by
  · have := largestPow2Lt_lt (n := leaves.length) (by omega)
    simp only [List.length_take]
    omega
  · have := largestPow2Lt_pos (n := leaves.length) (by omega)
    simp only [List.length_drop]
    omega

def consistencyProof (sha256 : Bytes → Bytes) (leaves : List Bytes) (m : Int) : Except String (List Bytes) :=
  let n := leaves.length
  if ¬ (0 < m ∧ m ≤ n) then .error s!"need 0 < m <= n; got m={m}, n={n}"
  else if m = n then .ok []
  else .ok (subproof sha256 m.toNat leaves true)

def shiftWhileOdd : Nat → Int → Int → Int × Int
  | 0, fn, sn => (fn,sn)
  | fuel+1, fn, sn => if fn % 2 = 1 then shiftWhileOdd fuel (fn/2) (sn/2) else (fn,sn)

structure Weave where
  fn : Int
  sn : Int
  fr : Bytes
  sr : Bytes

def weaveStep (sha256 : Bytes → Bytes) (c : Weave) (p : Bytes) : Weave :=
  if c.fn % 2 = 1 ∨ c.fn = c.sn then
    let shifted := shiftWhileEven c.fn.natAbs c.fn c.sn
    ⟨shifted.1/2,shifted.2/2,nodeHash sha256 p c.fr,nodeHash sha256 p c.sr⟩
  else ⟨c.fn/2,c.sn/2,c.fr,nodeHash sha256 c.sr p⟩

def weave (sha256 : Bytes → Bytes) : Weave → List Bytes → Option Weave
  | c, [] => some c
  | c, p :: nodes => if c.sn = 0 then none else weave sha256 (weaveStep sha256 c p) nodes

def consistencyNodes (oldSize : Int) (oldRoot : Bytes) (proof : List Bytes) : List Bytes :=
  if Int.land oldSize (oldSize-1) = 0 then oldRoot :: proof else proof

def consistencyStart (oldSize newSize : Int) (first : Bytes) : Weave :=
  let shifted := shiftWhileOdd (oldSize-1).natAbs (oldSize-1) (newSize-1)
  ⟨shifted.1,shifted.2,first,first⟩

def verifyConsistency (sha256 : Bytes → Bytes) (oldSize newSize : Int) (oldRoot newRoot : Bytes)
    (proof : List Bytes) : Bool :=
  if oldSize > newSize then false
  else if oldSize = newSize then proof.isEmpty && oldRoot == newRoot
  else if oldSize = 0 then proof.isEmpty
  else
    match consistencyNodes oldSize oldRoot proof with
    | [] => false
    | first :: nodes =>
      match weave sha256 (consistencyStart oldSize newSize first) nodes with
      | none => false
      | some c => c.fr == oldRoot && c.sr == newRoot && c.sn == 0

theorem subproof_false (sha256 : Bytes → Bytes) (size : Nat) : ∀ (leaves : List Bytes) (m : Nat),
    leaves.length = size → 0 < m → m ≤ leaves.length →
    subproof sha256 m leaves false = (HashTree.prefixRoute (hashes sha256) leaves m).1 ::
      (HashTree.prefixRoute (hashes sha256) leaves m).2.map Prod.snd := by
  induction size using Nat.strong_induction_on with
  | _ size ih =>
    intro leaves m length positive bound
    rw [subproof]
    by_cases whole : m = leaves.length
    · simp [whole,HashTree.prefixRoute_whole _ leaves _ (Nat.le_refl _),merkleRoot_eq]
    · have big : 2 ≤ leaves.length := by omega
      have exponent := largestPow2Lt_eq big
      have below := largestPow2Lt_lt big
      have above := largestPow2Lt_pos big
      simp only [whole,if_false,dif_neg (show ¬ leaves.length ≤ 1 by omega)]
      by_cases left : m ≤ largestPow2Lt leaves.length
      · have inner := ih _ (by simp; omega) (leaves.take (largestPow2Lt leaves.length)) m rfl positive (by simp; omega)
        rw [if_pos left,inner,HashTree.prefixRoute_left _ leaves m (by omega) positive (by omega),← exponent,
          merkleRoot_eq]
        simp
      · have inner := ih _ (by simp; omega) (leaves.drop (largestPow2Lt leaves.length)) (m-largestPow2Lt leaves.length)
          rfl (by omega) (by simp; omega)
        rw [if_neg left,inner,HashTree.prefixRoute_right _ leaves m (by omega) (by omega),← exponent,merkleRoot_eq]
        simp

theorem subproof_power (sha256 : Bytes → Bytes) (e size : Nat) : ∀ leaves : List Bytes,
    leaves.length = size → 2^e ≤ leaves.length →
    subproof sha256 (2^e) leaves true = (HashTree.prefixRoute (hashes sha256) leaves (2^e)).2.map Prod.snd ∧
      (HashTree.prefixRoute (hashes sha256) leaves (2^e)).1 = HashTree.root (hashes sha256) (leaves.take (2^e)) := by
  induction size using Nat.strong_induction_on with
  | _ size ih =>
    intro leaves length bound
    have positive := Nat.two_pow_pos e
    rw [subproof]
    by_cases whole : 2^e = leaves.length
    · rw [HashTree.prefixRoute_whole _ leaves _ whole.ge,List.take_of_length_le whole.ge]
      simp [whole]
    · have big : 2 ≤ leaves.length := by omega
      have exponent := largestPow2Lt_eq big
      have below := largestPow2Lt_lt big
      -- the split is the largest power of two below the length, so it is no smaller
      have left : 2^e ≤ largestPow2Lt leaves.length := by
        have half := HashTree.le_double_split leaves.length
        have lower : e < HashTree.splitExponent leaves.length+1 :=
          (Nat.pow_lt_pow_iff_right (by omega : 1 < 2)).mp (by rw [Nat.pow_succ]; omega)
        rw [exponent]
        exact Nat.pow_le_pow_right (by omega) (by omega)
      obtain ⟨path,value⟩ := ih _ (by simp; omega) (leaves.take (largestPow2Lt leaves.length)) rfl (by simp; omega)
      rw [List.take_take,Nat.min_eq_left left] at value
      simp only [whole,if_false,dif_neg (show ¬ leaves.length ≤ 1 by omega),if_pos left]
      rw [path,HashTree.prefixRoute_left _ leaves _ (by omega) positive (by omega),← exponent,merkleRoot_eq]
      exact ⟨by simp,value⟩

theorem subproof_other (sha256 : Bytes → Bytes) (m : Nat) (other : ¬ m.isPowerOfTwo) (positive : 0 < m) (size : Nat) :
    ∀ leaves : List Bytes, leaves.length = size → m < leaves.length →
    subproof sha256 m leaves true = (HashTree.prefixRoute (hashes sha256) leaves m).1 ::
      (HashTree.prefixRoute (hashes sha256) leaves m).2.map Prod.snd := by
  induction size using Nat.strong_induction_on with
  | _ size ih =>
    intro leaves length bound
    rw [subproof]
    have big : 2 ≤ leaves.length := by omega
    have exponent := largestPow2Lt_eq big
    have below := largestPow2Lt_lt big
    have above := largestPow2Lt_pos big
    simp only [bound.ne,if_false,dif_neg (show ¬ leaves.length ≤ 1 by omega)]
    by_cases left : m ≤ largestPow2Lt leaves.length
    · have strict : m ≠ largestPow2Lt leaves.length := by
        intro same
        exact other ⟨_,same.trans exponent⟩
      have inner := ih _ (by simp; omega) (leaves.take (largestPow2Lt leaves.length)) rfl (by simp; omega)
      rw [if_pos left,inner,HashTree.prefixRoute_left _ leaves m bound positive (by omega),← exponent,merkleRoot_eq]
      simp
    · have inner := subproof_false sha256 _ (leaves.drop (largestPow2Lt leaves.length)) (m-largestPow2Lt leaves.length)
        rfl (by omega) (by simp; omega)
      rw [if_neg left,inner,HashTree.prefixRoute_right _ leaves m bound (by omega),← exponent,merkleRoot_eq]
      simp

theorem land_pred (m : Nat) (positive : 0 < m) : Int.land m ((m : Int)-1) = 0 ↔ m.isPowerOfTwo := by
  have pred : (m : Int)-1 = (m-1 : Nat) := by omega
  have cast : Int.land (m : Int) ((m-1 : Nat) : Int) = ((m &&& (m-1) : Nat) : Int) := rfl
  rw [pred,cast,Int.natCast_eq_zero]
  exact Nat.and_sub_one_eq_zero_iff_isPowerOfTwo (by omega)

theorem consistencyNodes_subproof (sha256 : Bytes → Bytes) (leaves : List Bytes) (m : Nat) (positive : 0 < m)
    (bound : m < leaves.length) :
    consistencyNodes m (merkleRoot sha256 (leaves.take m)) (subproof sha256 m leaves true) =
      (HashTree.prefixRoute (hashes sha256) leaves m).1 ::
        (HashTree.prefixRoute (hashes sha256) leaves m).2.map Prod.snd := by
  by_cases power : m.isPowerOfTwo
  · rw [consistencyNodes,if_pos ((land_pred m positive).mpr power)]
    obtain ⟨e,rfl⟩ := power
    obtain ⟨path,value⟩ := subproof_power sha256 e _ leaves rfl bound.le
    rw [path,value,merkleRoot_eq]
  · rw [consistencyNodes,if_neg (mt (land_pred m positive).mp power),
      subproof_other sha256 m power positive _ leaves rfl bound]

theorem shiftWhileOdd_eq (fuel fn sn : Nat) :
    shiftWhileOdd fuel fn sn = (((HashTree.shed fuel fn sn).1 : Int),((HashTree.shed fuel fn sn).2 : Int)) := by
  induction fuel generalizing fn sn with
  | zero => rfl
  | succ fuel ih =>
    have guard : (fn : Int) % 2 = 1 ↔ fn % 2 = 1 := by omega
    rw [shiftWhileOdd,HashTree.shed]
    simp only [guard]
    split
    next => exact_mod_cast ih (fn/2) (sn/2)
    next => rfl

theorem consistencyStart_eq (m n : Nat) (positive : 0 < m) (bound : m < n) (first : Bytes) :
    consistencyStart m n first =
      ⟨(HashTree.shed (m-1) (m-1) (n-1)).1,(HashTree.shed (m-1) (m-1) (n-1)).2,first,first⟩ := by
  have smaller : (m : Int)-1 = (m-1 : Nat) := by omega
  have larger : (n : Int)-1 = (n-1 : Nat) := by omega
  rw [consistencyStart,smaller,larger,Int.natAbs_natCast,shiftWhileOdd_eq]

def weaveSteps (fn sn : Nat) (nodes : List Bytes) : List (Bool × Bytes) :=
  (HashTree.sides nodes.length fn sn).zip nodes

theorem weaveStep_eq (sha256 : Bytes → Bytes) (fn sn : Nat) (fr sr p : Bytes) :
    weaveStep sha256 ⟨fn,sn,fr,sr⟩ p = ⟨(HashTree.onward fn sn).1,(HashTree.onward fn sn).2,
      if HashTree.side fn sn then nodeHash sha256 p fr else fr,
      (hashes sha256).digest (HashTree.joined (HashTree.side fn sn,p) sr)⟩ := by
  have guard : ((fn : Int) % 2 = 1 ∨ (fn : Int) = sn) ↔ (fn = sn ∨ fn % 2 = 1) := by omega
  unfold weaveStep HashTree.onward HashTree.side HashTree.joined
  simp only [guard]
  by_cases turn : fn = sn ∨ fn % 2 = 1
  · simp [turn,shiftWhileEven_eq,hashes,HashTree.Hashes.digest]
  · simp [turn,hashes,HashTree.Hashes.digest]

theorem weave_eq (sha256 : Bytes → Bytes) (nodes : List Bytes) : ∀ (fn sn : Nat) (fr sr : Bytes),
    weave sha256 ⟨fn,sn,fr,sr⟩ nodes =
      if ∀ k < nodes.length, (HashTree.onwards k fn sn).2 ≠ 0 then
        some ⟨(HashTree.onwards nodes.length fn sn).1,(HashTree.onwards nodes.length fn sn).2,
          HashTree.ascendRight (hashes sha256) fr (weaveSteps fn sn nodes),
          HashTree.ascend (hashes sha256) sr (weaveSteps fn sn nodes)⟩
      else none := by
  induction nodes with
  | nil => intro fn sn fr sr; simp [weave,HashTree.onwards,HashTree.ascendRight,HashTree.ascend,weaveSteps]
  | cons p nodes ih =>
    intro fn sn fr sr
    have guard : (∀ k < (p :: nodes).length, (HashTree.onwards k fn sn).2 ≠ 0) ↔ sn ≠ 0 ∧ ∀ k < nodes.length,
        (HashTree.onwards k (HashTree.onward fn sn).1 (HashTree.onward fn sn).2).2 ≠ 0 :=
      Nat.forall_lt_succ_left
    rw [weave,weaveStep_eq,ih]
    simp only [guard]
    by_cases zero : sn = 0
    · simp [zero]
    · simp only [zero,ne_eq,not_false_eq_true,true_and,Int.natCast_eq_zero,if_false]
      rfl

theorem walked_weave (sha256 : Bytes → Bytes) {m n : Nat} (positive : 0 < m) (bound : m < n)
    (first : Bytes) (steps : List (Bool × Bytes)) (taken : steps.map Prod.fst = HashTree.prefixTurns n m) :
    weave sha256 (consistencyStart m n first) (steps.map Prod.snd) =
      some ⟨0,0,HashTree.ascendRight (hashes sha256) first steps,HashTree.ascend (hashes sha256) first steps⟩ := by
  obtain ⟨sides,arrived,nonzero⟩ := HashTree.walked_to_top n m positive bound
  have length : (steps.map Prod.snd).length = (HashTree.prefixTurns n m).length := by
    rw [← taken,List.length_map,List.length_map]
  have zipped : weaveSteps (HashTree.shed (m-1) (m-1) (n-1)).1 (HashTree.shed (m-1) (m-1) (n-1)).2
      (steps.map Prod.snd) = steps := by
    rw [weaveSteps,length,sides,← taken,← List.unzip_fst,← List.unzip_snd,List.zip_unzip]
  rw [consistencyStart_eq m n positive bound,weave_eq,zipped,length,if_pos nonzero,arrived]
  rfl

/-- The prover's proof is always accepted, for every prefix of every list and for
every hash function. -/
theorem verifyConsistency_consistencyProof (sha256 : Bytes → Bytes) (leaves : List Bytes) (m : Nat) (positive : 0 < m)
    (bound : m ≤ leaves.length) :
    ∃ proof, consistencyProof sha256 leaves m = .ok proof ∧
      verifyConsistency sha256 m leaves.length (merkleRoot sha256 (leaves.take m)) (merkleRoot sha256 leaves) proof =
        true := by
  have range : ¬ ¬ (0 < (m : Int) ∧ (m : Int) ≤ leaves.length) := by omega
  by_cases whole : m = leaves.length
  · refine ⟨[],by simp [consistencyProof,whole,positive.trans_le bound],?_⟩
    rw [verifyConsistency,if_neg (by omega),if_pos (by omega),List.take_of_length_le whole.ge]
    simp
  · have inside : m < leaves.length := by omega
    refine ⟨subproof sha256 m leaves true,?_,?_⟩
    · rw [consistencyProof,if_neg range,if_neg (by omega),Int.toNat_natCast]
    · obtain ⟨larger,smaller,_,taken⟩ := HashTree.prefixRoute_leads (hashes sha256) _ leaves m rfl positive bound
      rw [verifyConsistency,if_neg (by omega),if_neg (by omega),if_neg (by omega),
        consistencyNodes_subproof sha256 leaves m positive inside]
      simp only [walked_weave sha256 positive inside _ _ taken,larger,smaller,merkleRoot_eq]
      simp

/-- Three of five leaves: the prefix ends inside the tree. -/
theorem verifyConsistency_three_of_five :
    0 < 3 ∧ 3 ≤ [[1],[2],[3],[4],([5] : Bytes)].length ∧
      ∃ proof, consistencyProof id [[1],[2],[3],[4],[5]] (3 : Nat) = .ok proof ∧
        verifyConsistency id (3 : Nat) (5 : Nat) (merkleRoot id [[1],[2],[3]]) (merkleRoot id [[1],[2],[3],[4],[5]])
          proof = true :=
  ⟨by decide,by decide,verifyConsistency_consistencyProof id [[1],[2],[3],[4],[5]] 3 (by decide) (by decide)⟩

def weaveHashed (sha256 : Bytes → Bytes) : Weave → List Bytes → List Bytes
  | _, [] => []
  | c, p :: nodes =>
    if c.sn = 0 then []
    else
      (if c.fn % 2 = 1 ∨ c.fn = c.sn then [0x01 :: (p ++ c.fr),0x01 :: (p ++ c.sr)] else [0x01 :: (c.sr ++ p)]) ++
        weaveHashed sha256 (weaveStep sha256 c p) nodes

def consistencyHashed (sha256 : Bytes → Bytes) (oldSize newSize : Int) (oldRoot : Bytes) (proof : List Bytes) :
    List Bytes :=
  match consistencyNodes oldSize oldRoot proof with
  | [] => []
  | first :: nodes => weaveHashed sha256 (consistencyStart oldSize newSize first) nodes

theorem weaveHashed_ascent (sha256 : Bytes → Bytes) (nodes : List Bytes) : ∀ (fn sn : Nat) (fr sr : Bytes),
    (∀ k < nodes.length, (HashTree.onwards k fn sn).2 ≠ 0) →
    (HashTree.ascentInputs (hashes sha256) sr (weaveSteps fn sn nodes)).map preimage ⊆
      weaveHashed sha256 ⟨fn,sn,fr,sr⟩ nodes := by
  induction nodes with
  | nil => intro fn sn fr sr _; simp [weaveSteps,HashTree.ascentInputs]
  | cons p nodes ih =>
    intro fn sn fr sr nonzero
    have zero : (sn : Int) ≠ 0 := by
      have := nonzero 0 (by simp)
      simpa [HashTree.onwards] using this
    have guard : ((fn : Int) % 2 = 1 ∨ (fn : Int) = sn) ↔ (fn = sn ∨ fn % 2 = 1) := by omega
    have further := ih (HashTree.onward fn sn).1 (HashTree.onward fn sn).2
      (if HashTree.side fn sn then nodeHash sha256 p fr else fr)
      ((hashes sha256).digest (HashTree.joined (HashTree.side fn sn,p) sr))
      (fun k bound => nonzero (k+1) (by simpa using bound))
    rw [weaveHashed,if_neg zero,weaveStep_eq]
    intro x member
    rcases List.mem_cons.mp member with rfl | member
    · refine List.mem_append_left _ ?_
      simp only [guard]
      unfold HashTree.joined HashTree.side
      by_cases turn : fn = sn ∨ fn % 2 = 1 <;> simp [turn,preimage]
    · exact List.mem_append_right _ (further member)

theorem weave_accepted (sha256 : Bytes → Bytes) {m n : Nat} (positive : 0 < m) (bound : m < n) (first : Bytes)
    (nodes : List Bytes) {c : Weave} (woven : weave sha256 (consistencyStart m n first) nodes = some c)
    (last : c.sn = 0) :
    ∃ steps : List (Bool × Bytes), nodes = steps.map Prod.snd ∧ steps.map Prod.fst = HashTree.prefixTurns n m ∧
      (HashTree.ascentInputs (hashes sha256) first steps).map preimage ⊆
        weaveHashed sha256 (consistencyStart m n first) nodes ∧
      c.fr = HashTree.ascendRight (hashes sha256) first steps ∧ c.sr = HashTree.ascend (hashes sha256) first steps := by
  obtain ⟨sides,arrived,nonzero⟩ := HashTree.walked_to_top n m positive bound
  rw [consistencyStart_eq m n positive bound] at woven ⊢
  rw [weave_eq] at woven
  split at woven
  next moving =>
    obtain rfl := Option.some.inj woven
    have last : (HashTree.onwards nodes.length (HashTree.shed (m-1) (m-1) (n-1)).1
        (HashTree.shed (m-1) (m-1) (n-1)).2).2 = 0 := Int.natCast_eq_zero.mp last
    have length : nodes.length = (HashTree.prefixTurns n m).length := by
      rcases Nat.lt_trichotomy nodes.length (HashTree.prefixTurns n m).length with short | same | long
      · exact absurd last (nonzero _ short)
      · exact same
      · exact absurd (congrArg Prod.snd arrived) (moving _ long)
    refine ⟨_,?_,?_,weaveHashed_ascent sha256 nodes _ _ first first moving,rfl,rfl⟩
    · rw [weaveSteps,List.map_snd_zip (by simp)]
    · rw [weaveSteps,List.map_fst_zip (by simp),length,sides]
  next => cases woven

/-- What is accepted against the root of a list is the root of its prefix. -/
theorem verifyConsistency_sound (sha256 : Bytes → Bytes) (leaves : List Bytes) (m : Nat) (positive : 0 < m)
    (bound : m < leaves.length) (oldRoot : Bytes) (proof : List Bytes) (rootSize : oldRoot.length = 32)
    (proofSize : ∀ p ∈ proof, p.length = 32)
    (free : CollisionFree sha256 (merkleHashed sha256 leaves ++
      consistencyHashed sha256 m leaves.length oldRoot proof))
    (accepted : verifyConsistency sha256 m leaves.length oldRoot (merkleRoot sha256 leaves) proof = true) :
    oldRoot = merkleRoot sha256 (leaves.take m) := by
  rw [verifyConsistency,if_neg (by omega),if_neg (by omega),if_neg (by omega)] at accepted
  rw [consistencyHashed] at free
  split at accepted
  next => cases accepted
  next first nodes listed =>
    rw [listed] at free
    have digest : first.length = 32 := by
      have member : first ∈ consistencyNodes m oldRoot proof := by rw [listed]; exact List.mem_cons_self ..
      unfold consistencyNodes at member
      split at member
      next =>
        rcases List.mem_cons.mp member with rfl | member
        · exact rootSize
        · exact proofSize _ member
      next => exact proofSize _ member
    split at accepted
    next => cases accepted
    next c woven =>
      simp only [Bool.and_eq_true,beq_iff_eq] at accepted
      obtain ⟨⟨old,new⟩,last⟩ := accepted
      obtain ⟨steps,_,taken,hashed,smaller,larger⟩ := weave_accepted sha256 positive bound first nodes woven last
      have honest := HashTree.prefixRoute_leads (hashes sha256) _ leaves m rfl positive bound.le
      have apart : HashTree.Apart (hashes sha256)
          (HashTree.ascentInputs (hashes sha256) (HashTree.prefixRoute (hashes sha256) leaves m).1
            (HashTree.prefixRoute (hashes sha256) leaves m).2)
          (HashTree.ascentInputs (hashes sha256) first steps) := by
        refine free.apart ?_ (ascentInputs_half free.size steps first digest) ?_ ?_
        · intro x member
          exact inputs_whole free.size leaves x (honest.inside member)
        · exact List.subset_append_of_subset_left _ (List.map_subset _ honest.inside)
        · exact List.subset_append_of_subset_right _ hashed
      -- both ways end at the new root with the same turns
      obtain ⟨rfl,rfl⟩ := HashTree.ascend_unique (hashes sha256) _ steps _ first (honest.turns.trans taken.symm) apart
        (by rw [honest.larger,← larger,new,merkleRoot_eq])
      rw [← old,smaller,honest.smaller,merkleRoot_eq]

theorem verifyConsistency_sound_pair :
    verifyConsistency head32 (1 : Nat) (2 : Nat) (leafHash head32 [1]) (merkleRoot head32 [[1],[2]])
        [leafHash head32 [2]] = true ∧
      leafHash head32 [1] = merkleRoot head32 [[1]] := by
  have root : merkleRoot head32 [[1],[2]] = nodeHash head32 (leafHash head32 [1]) (leafHash head32 [2]) := by
    simp [merkleRoot,largestPow2Lt,doubleWhile]
  have accepted : verifyConsistency head32 (1 : Nat) (2 : Nat) (leafHash head32 [1]) (merkleRoot head32 [[1],[2]])
      [leafHash head32 [2]] = true := by
    rw [root]
    decide +kernel
  refine ⟨accepted,verifyConsistency_sound head32 [[1],[2]] 1 (by decide) (by decide) _ _ (head32_size _)
    (by decide +kernel) ⟨head32_size,?_⟩ accepted⟩
  rw [merkleHashed_pair]
  decide +kernel

end Orrery.Merkle
