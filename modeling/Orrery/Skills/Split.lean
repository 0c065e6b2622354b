import Mathlib.Algebra.BigOperators.Group.List.Basic
import Mathlib.Data.Int.Order.Basic
import Mathlib.Data.List.Sort
import Mathlib.Data.String.Basic
import Mathlib.Tactic.Ring
import Orrery.Foundation.Json

/-! `compute_split` of server/skill_revenue.py: what each beneficiary of a billed use gets. -/
namespace Orrery.Skills
open Foundation

inductive Role
  | author
  | advisor
  | chapter
deriving DecidableEq

structure Beneficiary where
  did : String
  role : Role
  amountCents : Int
deriving DecidableEq

/-- An exception of `compute_split`: a ValueError, an OverflowError, or one of the two
RuntimeErrors of its last checks. -/
inductive SplitError
  | value (text : String)
  | overflow (text : String)
  | sumMismatch (total grossCents : Int)
  | negativeAmount (rows : List Beneficiary)
deriving DecidableEq

def authorShare : Float := 0.40
def advisorShare : Float := 0.35
def chapterShare : Float := 0.25

def intOfProduct (cents : Int) (share : Float) : Except SplitError Int :=
  if (Float.ofInt cents).isInf then .error (.overflow "int too large to convert to float")
  else if (Float.ofInt cents*share).isNaN then .error (.value "cannot convert float NaN to integer")
  else if (Float.ofInt cents*share).isInf then .error (.overflow "cannot convert float infinity to integer")
  else .ok ((Float.ofInt cents*share).toModel.unpack.toInt 0 0)

def advisorRows (advisorTotalCents : Int) (attestorDids : List String) : List Beneficiary :=
  let base := advisorTotalCents/attestorDids.length
  let remainder := advisorTotalCents-base*attestorDids.length
  (attestorDids.insertionSort (· ≤ ·)).zipIdx.map fun entry =>
    ⟨entry.1,.advisor,base+if (entry.2 : Int) < remainder then 1 else 0⟩

def splitRows (grossCents chapterCents advisorTotalCents : Int) (authorDid : String) (attestorDids : List String)
    (chapterTreasuryDid : String) : List Beneficiary :=
  ⟨authorDid,.author,grossCents-chapterCents-advisorTotalCents⟩ ::
    (advisorRows advisorTotalCents attestorDids ++ [⟨chapterTreasuryDid,.chapter,chapterCents⟩])

def totalCents (rows : List Beneficiary) : Int := (rows.map Beneficiary.amountCents).sum

def checkRows (grossCents : Int) (rows : List Beneficiary) : Except SplitError (List Beneficiary) :=
  if totalCents rows ≠ grossCents then .error (.sumMismatch (totalCents rows) grossCents)
  else if rows.any fun row => row.amountCents < 0 then .error (.negativeAmount rows)
  else .ok rows

def computeSplit (grossCents : Int) (authorDid : String) (attestorDids : List String) (chapterTreasuryDid : String)
    (authorShare advisorShare chapterShare : Float) : Except SplitError (List Beneficiary) :=
  if grossCents ≤ 0 then .error (.value "gross_cents must be positive")
  else if attestorDids.isEmpty then .error (.value "cannot split with zero attestors")
  else if 1e-9 < (authorShare+advisorShare+chapterShare-1.0).abs then .error (.value "shares must sum to 1.0")
  else do
    let chapterCents ← intOfProduct grossCents chapterShare
    let advisorTotalCents ← intOfProduct grossCents advisorShare
    checkRows grossCents (splitRows grossCents chapterCents advisorTotalCents authorDid attestorDids chapterTreasuryDid)

section Rows
variable {grossCents chapterCents advisorTotalCents : Int} {authorDid chapterTreasuryDid : String}
  {attestorDids : List String}
  {rows : List Beneficiary} {authorShare advisorShare chapterShare : Float}

theorem sum_remainder (base : Int) (remainder : ℕ) (dids : List String) : ∀ first : ℕ,
    ((dids.zipIdx first).map fun entry => base+if (entry.2 : Int) < remainder then (1 : Int) else 0).sum =
      base*dids.length+(min (remainder-first) dids.length : ℕ) := by
  induction dids with
  | nil =>
    intro first
    simp
  | cons did dids ih =>
    intro first
    rw [List.zipIdx_cons,List.map_cons,List.sum_cons,ih (first+1),List.length_cons,Nat.cast_add,Nat.cast_one,mul_add,
      mul_one]
    by_cases inside : first < remainder
    · have more : min (remainder-first) (dids.length+1) = min (remainder-(first+1)) dids.length+1 := by omega
      rw [if_pos (by exact_mod_cast inside),more]
      push_cast
      ring
    · have fewer : min (remainder-first) (dids.length+1) = min (remainder-(first+1)) dids.length := by omega
      rw [if_neg (by exact_mod_cast inside),fewer]
      ring

theorem total_advisorRows (some_attestor : attestorDids ≠ []) :
    totalCents (advisorRows advisorTotalCents attestorDids) = advisorTotalCents := by
  have length : (attestorDids.insertionSort (· ≤ ·)).length = attestorDids.length :=
    List.length_insertionSort _ attestorDids
  have positive : 0 < (attestorDids.length : Int) := by exact_mod_cast List.length_pos_iff.mpr some_attestor
  have rest : advisorTotalCents-advisorTotalCents/attestorDids.length*attestorDids.length =
      advisorTotalCents%attestorDids.length := by
    rw [Int.emod_def]
    ring
  have nonneg : 0 ≤ advisorTotalCents%(attestorDids.length : Int) := Int.emod_nonneg _ positive.ne'
  have below : advisorTotalCents%(attestorDids.length : Int) < attestorDids.length := Int.emod_lt_of_pos _ positive
  unfold totalCents advisorRows
  dsimp only
  rw [rest,List.map_map]
  obtain ⟨remainder,same⟩ := Int.eq_ofNat_of_zero_le nonneg
  rw [same] at below ⊢
  have sum := sum_remainder (advisorTotalCents/attestorDids.length) remainder (attestorDids.insertionSort (· ≤ ·)) 0
  rw [length,Nat.sub_zero,min_eq_left (by omega)] at sum
  refine Eq.trans sum ?_
  rw [← same,mul_comm]
  exact Int.mul_ediv_add_emod _ _

theorem total_splitRows (some_attestor : attestorDids ≠ []) :
    totalCents (splitRows grossCents chapterCents advisorTotalCents authorDid attestorDids chapterTreasuryDid) =
      grossCents := by
  have advisors := @total_advisorRows advisorTotalCents attestorDids some_attestor
  unfold totalCents at advisors ⊢
  rw [splitRows,List.map_cons,List.map_append,List.sum_cons,List.sum_append,advisors,List.map_singleton,
    List.sum_singleton]
  ring

theorem computeSplit_ok (split :
    computeSplit grossCents authorDid attestorDids chapterTreasuryDid authorShare advisorShare
    chapterShare = .ok rows) : attestorDids ≠ [] ∧ (∃ chapterCents advisorTotalCents,
      rows = splitRows grossCents chapterCents advisorTotalCents authorDid attestorDids chapterTreasuryDid) ∧
    ∀ row ∈ rows, 0 ≤ row.amountCents := by
  unfold computeSplit at split
  split at split
  · cases split
  split at split
  · cases split
  next some_attestor =>
  split at split
  · cases split
  obtain ⟨chapterCents,_,split⟩ := bind_success _ _ _ split
  obtain ⟨advisorTotalCents,_,split⟩ := bind_success _ _ _ split
  unfold checkRows at split
  split at split
  · cases split
  split at split
  · cases split
  next none_negative =>
  obtain rfl := Except.ok.inj split
  refine ⟨fun same => some_attestor (List.isEmpty_iff.mpr same),⟨chapterCents,advisorTotalCents,rfl⟩,?_⟩
  intro row inside
  by_contra negative
  exact none_negative (List.any_eq_true.mpr ⟨row,inside,decide_eq_true (not_le.mp negative)⟩)

theorem mem_advisorRows {row : Beneficiary} (inside : row ∈ advisorRows advisorTotalCents attestorDids) :
    row.role = .advisor ∧ ∃ extra : Int, 0 ≤ extra ∧ extra ≤ 1 ∧ row.amountCents =
      advisorTotalCents/attestorDids.length+extra := by
  unfold advisorRows at inside
  obtain ⟨entry,_,rfl⟩ := List.mem_map.mp inside
  refine ⟨rfl,_,?_,?_,rfl⟩
  · split
    · exact zero_le_one
    · exact le_rfl
  · split
    · exact le_rfl
    · exact zero_le_one

theorem length_splitRows : (splitRows grossCents chapterCents advisorTotalCents authorDid attestorDids
    chapterTreasuryDid).length =
    attestorDids.length+2 := by
  rw [splitRows,List.length_cons,List.length_append,advisorRows,List.length_map,List.length_zipIdx,
    List.length_insertionSort]
  rfl

theorem advisors_even {row row' : Beneficiary}
    (inside : row ∈ splitRows grossCents chapterCents advisorTotalCents authorDid
      attestorDids chapterTreasuryDid) (inside' : row' ∈ splitRows grossCents chapterCents advisorTotalCents authorDid
      attestorDids chapterTreasuryDid) (advisor : row.role = .advisor) (advisor' : row'.role = .advisor) :
    row.amountCents ≤ row'.amountCents+1 := by
  have among {row : Beneficiary} (inside :
    row ∈ splitRows grossCents chapterCents advisorTotalCents authorDid attestorDids
      chapterTreasuryDid) (advisor : row.role = .advisor) : row ∈ advisorRows advisorTotalCents attestorDids := by
    simp only [splitRows,List.mem_cons,List.mem_append,List.not_mem_nil,or_false] at inside
    obtain rfl | inside | rfl := inside
    · cases advisor
    · exact inside
    · cases advisor
  obtain ⟨_,extra,_,most,amount⟩ := mem_advisorRows (among inside advisor)
  obtain ⟨_,extra',least,_,amount'⟩ := mem_advisorRows (among inside' advisor')
  rw [amount,amount']
  omega

theorem paid_once : ((splitRows grossCents chapterCents advisorTotalCents authorDid attestorDids chapterTreasuryDid).map
    fun row => (row.did,row.role)).Nodup ↔ attestorDids.Nodup := by
  have advisors : (advisorRows advisorTotalCents attestorDids).map (fun row => (row.did,row.role)) =
      (attestorDids.insertionSort (· ≤ ·)).map fun did => (did,Role.advisor) := by
    unfold advisorRows
    rw [List.map_map]
    conv_rhs => rw [← List.zipIdx_map_fst 0 (attestorDids.insertionSort (· ≤ ·)),List.map_map]
    rfl
  have inner : ((attestorDids.insertionSort (· ≤ ·)).map fun did => (did,Role.advisor)).Nodup ↔ attestorDids.Nodup := by
    rw [List.nodup_map_iff fun did did' same => (Prod.mk.inj same).1]
    exact (List.perm_insertionSort ..).nodup_iff
  rw [splitRows,List.map_cons,List.map_append,advisors,List.nodup_cons,List.map_singleton,List.nodup_append]
  rw [inner]
  simp

end Rows

end Orrery.Skills
