import Mathlib.Tactic.Linarith
import Mathlib.Tactic.NormNum
import Orrery.Policy.PeerMerge

/-! The guardrails of the peer merge over exact fractions: how far one cycle moves a value,
and which of the peers' values take part in the mean. -/
namespace Orrery.Policy
open Foundation

section Clamps

@[simp] theorem lt_rat (a b : ℚ) : Numeric.lt a b = decide (a < b) := rfl

@[simp] theorem le_rat (a b : ℚ) : Numeric.le a b = decide (a ≤ b) := rfl

@[simp] theorem abs_rat (a : ℚ) : Numeric.abs a = |a| := rfl

theorem beq_zero (q : ℚ) : (q == (0.0 : ℚ)) = decide (q = 0) := by
  rw [Bool.eq_iff_iff,beq_iff_eq,decide_eq_true_eq]
  norm_num

theorem clampToBaseline_rat (value baseline : ℚ) : clampToBaseline value baseline =
    if value < baseline/2 then baseline/2 else if 2*baseline < value then 2*baseline else value := by
  have low : baseline*baselineMinFraction = baseline/2 := by
    change baseline*(0.5 : ℚ) = baseline/2
    norm_num [div_eq_mul_inv]
  have high : baseline*baselineMaxFraction = 2*baseline := by
    change baseline*(2.0 : ℚ) = 2*baseline
    norm_num [mul_comm]
  rw [clampToBaseline,low,high]
  simp

theorem clampDelta_rat (old new : ℚ) : clampDelta old new =
    if old = 0 then new else if |old|/10 < new-old then old+|old|/10
      else if |old|/10 < old-new then old-|old|/10 else new := by
  have delta : Numeric.abs old*maxDeltaFraction = |old|/10 := by
    change |old| * (0.10 : ℚ) = |old|/10
    norm_num [div_eq_mul_inv]
  rw [clampDelta,delta,beq_zero]
  simp

theorem clampDelta_near {old : ℚ} (moves : old ≠ 0) (new : ℚ) : |clampDelta old new-old| ≤ |old|/10 := by
  have room : 0 ≤ |old|/10 := div_nonneg (abs_nonneg old) (by norm_num)
  rw [clampDelta_rat,if_neg moves]
  split
  next => rw [add_sub_cancel_left,abs_of_nonneg room]
  next below =>
    split
    next => rw [sub_sub_cancel_left,abs_neg,abs_of_nonneg room]
    next above =>
      rw [abs_le]
      constructor <;> linarith

theorem clampToBaseline_within {baseline : ℚ} (positive : 0 < baseline) (value : ℚ) :
    baseline/2 ≤ clampToBaseline value baseline ∧ clampToBaseline value baseline ≤ 2*baseline := by
  rw [clampToBaseline_rat]
  split
  next => constructor <;> linarith
  next above =>
    split
    next => constructor <;> linarith
    next below => constructor <;> linarith

theorem clamped_near_iff {current baseline : ℚ} (positive : 0 < baseline) (raw : ℚ) :
    |clampToBaseline (clampDelta current raw) baseline-current| ≤ |current|/10 ↔
      9/10*current ≤ 2*baseline ∧ baseline/2 ≤ 11/10*current := by
  obtain ⟨low,high⟩ := clampToBaseline_within positive (clampDelta current raw)
  constructor
  · intro near
    obtain ⟨below,above⟩ := abs_le.mp near
    rcases le_or_gt current 0 with negative | some
    · rw [abs_of_nonpos negative] at below above
      constructor <;> linarith
    · rw [abs_of_pos some] at below above
      constructor <;> linarith
  · rintro ⟨under,above⟩
    have some : 0 < current := by linarith
    have band := abs_le.mp (clampDelta_near some.ne' raw)
    rw [abs_of_pos some] at band ⊢
    rw [clampToBaseline_rat,abs_le]
    split
    next => constructor <;> linarith
    next => split <;> constructor <;> linarith

end Clamps

section Merge
variable {weight : PeerSnapshot ℚ → Except Exc ℚ} {key : String} {current baseline : ℚ}
  {snapshots : List (PeerSnapshot ℚ)} {result : MergeResult ℚ}

def entering (key : String) (snapshots : List (PeerSnapshot ℚ)) : List (PeerSnapshot ℚ) :=
  keptSnapshots (madFilter (valuesByPeer (relevantSnapshots key snapshots))).1 (relevantSnapshots key snapshots)

theorem merged (ran : mergePeerSnapshots weight key current baseline snapshots = .ok (some result)) :
    ∃ raw, mergedRaw weight current (entering key snapshots) = .ok (some raw) ∧
      result.newValue = clampToBaseline (clampDelta current raw) baseline := by
  unfold mergePeerSnapshots at ran
  dsimp only at ran
  split at ran
  next => cases ran
  next =>
    split at ran
    next => cases ran
    next =>
      obtain ⟨found,summed,ran⟩ := bind_success _ _ _ ran
      cases found with
      | none => cases ran
      | some raw =>
        dsimp only at ran
        split at ran
        next => cases ran
        next =>
          obtain rfl := Option.some.inj (Except.ok.inj ran)
          exact ⟨raw,summed,rfl⟩

theorem merges {raw final : ℚ} (relevant : minPeersForMerge ≤ (relevantSnapshots key snapshots).length)
    (kept : minPeersForMerge ≤ (madFilter (valuesByPeer (relevantSnapshots key snapshots))).1.length)
    (summed : mergedRaw weight current (entering key snapshots) = .ok (some raw))
    (clamped : clampToBaseline (clampDelta current raw) baseline = final)
    (moved : Numeric.lt (Numeric.abs (final-current)) 1e-9 = false) :
    ∃ result, mergePeerSnapshots weight key current baseline snapshots = .ok (some result) ∧
      result.newValue = final := by
  rw [entering] at summed
  rw [mergePeerSnapshots]
  dsimp only
  rw [if_neg (Nat.not_lt.mpr relevant),if_neg (Nat.not_lt.mpr kept),summed,ok_bind]
  dsimp only
  rw [clamped,if_neg (by simpa using moved)]
  exact ⟨_,rfl,rfl⟩

/-- A cycle's result is within the envelope, and within ten percent of the current value exactly
if that leaves room in the envelope. -/
theorem merged_within (ran : mergePeerSnapshots weight key current baseline snapshots = .ok (some result))
    (positive : 0 < baseline) : baseline/2 ≤ result.newValue ∧ result.newValue ≤ 2*baseline ∧
      (|result.newValue-current| ≤ |current|/10 ↔ 9/10*current ≤ 2*baseline ∧ baseline/2 ≤ 11/10*current) := by
  obtain ⟨raw,_,same⟩ := merged ran
  rw [same]
  obtain ⟨low,high⟩ := clampToBaseline_within positive (clampDelta current raw)
  exact ⟨low,high,clamped_near_iff positive raw⟩

theorem mem_setEntry {d : List (String × ℚ)} {key : String} {value : ℚ} {entry : String × ℚ} :
    entry ∈ setEntry d key value ↔ entry = (key,value) ∨ entry ∈ d ∧ entry.1 ≠ key := by
  unfold setEntry
  split
  next present =>
    obtain ⟨known,inside,same⟩ := List.any_eq_true.mp present
    constructor
    · intro member
      obtain ⟨old,among,rfl⟩ := List.mem_map.mp member
      split
      next => exact .inl rfl
      next apart => exact .inr ⟨among,by simpa using apart⟩
    · rintro (rfl | ⟨among,apart⟩)
      · exact List.mem_map.mpr ⟨known,inside,if_pos same⟩
      · exact List.mem_map.mpr ⟨entry,among,if_neg (by simpa using apart)⟩
  next absent =>
    have other : ∀ old ∈ d, old.1 ≠ key := fun old among same =>
      absent (List.any_eq_true.mpr ⟨old,among,beq_iff_eq.mpr same⟩)
    rw [List.mem_append,List.mem_singleton,or_comm]
    exact or_congr_right ⟨fun among => ⟨among,other entry among⟩,And.left⟩

theorem mem_byPeer (relevant : List (PeerSnapshot ℚ)) : ∀ {d : List (String × ℚ)} {entry : String × ℚ},
    entry ∈ relevant.foldl (fun d s => setEntry d s.chapterId s.value) d →
      entry ∈ d ∨ ∃ s ∈ relevant, entry = (s.chapterId,s.value) := by
  induction relevant with
  | nil => exact .inl
  | cons s relevant ih =>
    intro d entry member
    rcases ih member with before | ⟨t,later,same⟩
    · rcases mem_setEntry.mp before with same | ⟨old,_⟩
      · exact .inr ⟨s,by simp,same⟩
      · exact .inl old
    · exact .inr ⟨t,by simp [later],same⟩

theorem byPeer_mem (relevant : List (PeerSnapshot ℚ)) : ∀ {d : List (String × ℚ)} {id : String},
    (∃ v, (id,v) ∈ d) ∨ (∃ s ∈ relevant, s.chapterId = id) →
      ∃ v, (id,v) ∈ relevant.foldl (fun d s => setEntry d s.chapterId s.value) d := by
  induction relevant with
  | nil => simp
  | cons s relevant ih =>
    intro d id either
    apply ih
    by_cases here : s.chapterId = id
    · exact .inl ⟨s.value,mem_setEntry.mpr (.inl (by rw [here]))⟩
    · rcases either with ⟨v,before⟩ | ⟨t,member,named⟩
      · exact .inl ⟨v,mem_setEntry.mpr (.inr ⟨before,fun same => here same.symm⟩)⟩
      · rcases List.mem_cons.mp member with rfl | later
        · exact absurd named here
        · exact .inr ⟨t,later,named⟩

theorem mem_valuesByPeer {relevant : List (PeerSnapshot ℚ)} {entry : String × ℚ}
    (member : entry ∈ valuesByPeer relevant) : ∃ s ∈ relevant, entry = (s.chapterId,s.value) :=
  (mem_byPeer relevant member).resolve_left List.not_mem_nil

theorem valuesByPeer_mem {relevant : List (PeerSnapshot ℚ)} {s : PeerSnapshot ℚ} (member : s ∈ relevant) :
    ∃ v, (s.chapterId,v) ∈ valuesByPeer relevant := byPeer_mem relevant (.inr ⟨s,member,rfl⟩)

theorem median_constant {values : List ℚ} {v : ℚ} (some : values ≠ []) (constant : ∀ w ∈ values, w = v) :
    median values = v := by
  have moved := List.mergeSort_perm values Numeric.le
  have sorted : values.mergeSort Numeric.le = List.replicate values.length v :=
    List.eq_replicate_iff.mpr ⟨moved.length_eq,fun w inside => constant w (moved.mem_iff.mp inside)⟩
  have length : 0 < values.length := List.length_pos_iff.mpr some
  have entry : ∀ i < values.length, (List.replicate values.length v).getD i 0.0 = v := by
    intro i below
    simp [List.getD_eq_getElem?_getD,below]
  rw [median,sorted,List.length_replicate,entry _ (by omega),entry _ (by omega)]
  split
  · rfl
  · change (v+v)/(2.0 : ℚ) = v
    norm_num

def peerSpread (key : String) (snapshots : List (PeerSnapshot ℚ)) : ℚ × ℚ :=
  spread ((valuesByPeer (relevantSnapshots key snapshots)).map (·.2))

def Near (key : String) (snapshots : List (PeerSnapshot ℚ)) (value : ℚ) : Prop :=
  |value-(peerSpread key snapshots).1| ≤ 3*(peerSpread key snapshots).2

/-- No outlier gets past the filter: the peers are not so much of one mind that their distances
have the median zero, unless all of them are, and a peer whose last value counts has not sent
another before that does not. -/
def NoneHidden (key : String) (snapshots : List (PeerSnapshot ℚ)) : Prop :=
  if (peerSpread key snapshots).2 = 0 then
    ∀ s ∈ relevantSnapshots key snapshots, ∀ t ∈ relevantSnapshots key snapshots, s.value = t.value
  else ∀ s ∈ relevantSnapshots key snapshots, ∀ last,
    (s.chapterId,last) ∈ valuesByPeer (relevantSnapshots key snapshots) → Near key snapshots last →
      Near key snapshots s.value

theorem mem_keptSnapshots {kept : List (String × ℚ)} {relevant : List (PeerSnapshot ℚ)} {s : PeerSnapshot ℚ} :
    s ∈ keptSnapshots kept relevant ↔ s ∈ relevant ∧ ∃ v, (s.chapterId,v) ∈ kept := by
  rw [keptSnapshots,List.mem_filter,List.any_eq_true]
  refine and_congr_right fun _ => ⟨?_,?_⟩
  · rintro ⟨⟨id,v⟩,inside,same⟩
    obtain rfl := beq_iff_eq.mp same
    exact ⟨v,inside⟩
  · rintro ⟨v,inside⟩
    exact ⟨_,inside,beq_self_eq_true _⟩

theorem madFilter_agreed {values : List (String × ℚ)} (agreed : (spread (values.map (·.2))).2 = 0) :
    (madFilter values).1 = values := by
  rw [madFilter]
  split
  next => rfl
  next =>
    dsimp only
    rw [beq_zero,agreed]
    rfl

theorem mem_madFilter {values : List (String × ℚ)} (several : 3 ≤ values.length)
    (apart : (spread (values.map (·.2))).2 ≠ 0) (entry : String × ℚ) :
    entry ∈ (madFilter values).1 ↔ entry ∈ values ∧
      |entry.2-(spread (values.map (·.2))).1| ≤ 3*(spread (values.map (·.2))).2 := by
  have cutoff : (madThreshold : ℚ) = 3 := by
    change (3.0 : ℚ) = 3
    norm_num
  rw [madFilter,if_neg (by omega)]
  dsimp only
  rw [beq_zero,if_neg (by simpa using apart),List.mem_filter,cutoff]
  simp

theorem near_agreed {key : String} {snapshots : List (PeerSnapshot ℚ)} (agreed : (peerSpread key snapshots).2 = 0)
    (value : ℚ) : Near key snapshots value ↔ value = (peerSpread key snapshots).1 := by
  rw [Near,agreed,mul_zero,abs_nonpos_iff,sub_eq_zero]

theorem entering_near_iff (peers : 3 ≤ (valuesByPeer (relevantSnapshots key snapshots)).length) :
    (∀ s ∈ entering key snapshots, Near key snapshots s.value) ↔ NoneHidden key snapshots := by
  unfold NoneHidden
  split
  next agreed =>
    have all : ∀ s, s ∈ entering key snapshots ↔ s ∈ relevantSnapshots key snapshots := by
      intro s
      rw [entering,madFilter_agreed agreed,mem_keptSnapshots]
      exact and_iff_left_of_imp valuesByPeer_mem
    simp only [all,near_agreed agreed]
    constructor
    · intro central s inside t among
      rw [central s inside,central t among]
    · intro same s inside
      symm
      apply median_constant
      · rw [← List.length_pos_iff,List.length_map]
        omega
      · intro v member
        obtain ⟨entry,counted,rfl⟩ := List.mem_map.mp member
        obtain ⟨t,among,rfl⟩ := mem_valuesByPeer counted
        exact same t among s inside
  next apart =>
    have kept : ∀ s, s ∈ entering key snapshots ↔ s ∈ relevantSnapshots key snapshots ∧ ∃ last,
        (s.chapterId,last) ∈ valuesByPeer (relevantSnapshots key snapshots) ∧ Near key snapshots last := by
      intro s
      rw [entering,mem_keptSnapshots]
      exact and_congr_right fun _ => exists_congr fun last => mem_madFilter peers apart (s.chapterId,last)
    constructor
    · exact fun near s inside last counted close => near s ((kept s).mpr ⟨inside,last,counted,close⟩)
    · intro hidden s inside
      obtain ⟨relevant,last,counted,close⟩ := (kept s).mp inside
      exact hidden s relevant last counted close

/-- What is averaged with the own value is near the median of the peers exactly if nothing is
hidden from the filter. -/
theorem merged_near_iff (ran : mergePeerSnapshots weight key current baseline snapshots = .ok (some result))
    (peers : 3 ≤ (valuesByPeer (relevantSnapshots key snapshots)).length) :
    ∃ raw, mergedRaw weight current (entering key snapshots) = .ok (some raw) ∧
      result.newValue = clampToBaseline (clampDelta current raw) baseline ∧
      ((∀ s ∈ entering key snapshots, Near key snapshots s.value) ↔ NoneHidden key snapshots) := by
  obtain ⟨raw,summed,same⟩ := merged ran
  exact ⟨raw,summed,same,entering_near_iff peers⟩

end Merge

section Sample

def snap (chapterId : String) (value : ℚ) : PeerSnapshot ℚ := ⟨chapterId,"k",value,1/2,50,1⟩

def evenly (_ : PeerSnapshot ℚ) : Except Exc ℚ := .ok 1

/-- Three times the baseline is cut to twice of it, by a third at once. -/
theorem lowered_by_a_third : ∃ result,
    mergePeerSnapshots evenly "k" 3 1 [snap "a" 3,snap "b" 3] = .ok (some result) ∧
      ¬ (|result.newValue-3| ≤ |(3 : ℚ)|/10 ∧ 1/2 ≤ result.newValue ∧ result.newValue ≤ 2*1) := by
  have summed : mergedRaw evenly 3 (entering "k" [snap "a" 3,snap "b" 3]) = .ok (some 3) := by decide +kernel
  have cut : clampToBaseline (clampDelta 3 3) 1 = (2 : ℚ) := by decide +kernel
  obtain ⟨result,ran,same⟩ := merges (by decide) (by decide) summed cut (by decide +kernel)
  refine ⟨result,ran,?_⟩
  rw [same]
  decide +kernel

theorem raised_within : ∃ result,
    mergePeerSnapshots evenly "k" 1 1 [snap "a" 3,snap "b" 3] = .ok (some result) ∧
      1/2 ≤ result.newValue ∧ result.newValue ≤ 2*1 ∧
      (|result.newValue-1| ≤ |(1 : ℚ)|/10 ↔ 9/10*1 ≤ (2*1 : ℚ) ∧ 1/2 ≤ (11/10*1 : ℚ)) := by
  have summed : mergedRaw evenly 1 (entering "k" [snap "a" 3,snap "b" 3]) = .ok (some (7/3)) := by decide +kernel
  have capped : clampToBaseline (clampDelta 1 (7/3)) 1 = (11/10 : ℚ) := by decide +kernel
  obtain ⟨result,ran,_⟩ := merges (by decide) (by decide) summed capped (by decide +kernel)
  exact ⟨result,ran,merged_within ran (by decide)⟩

theorem spread_agreed : spread [(1 : ℚ),1,100] = (1,0) := by
  have sorted : List.mergeSort [(1 : ℚ),1,100] Numeric.le = [1,1,100] := List.mergeSort_of_pairwise (by decide)
  have middle : median [(1 : ℚ),1,100] = 1 := by
    rw [median,sorted]
    decide +kernel
  have distances : ([(1 : ℚ),1,100].map fun v => Numeric.abs (v-1)) = [0,0,99] := by decide +kernel
  have ranked : List.mergeSort [(0 : ℚ),0,99] Numeric.le = [0,0,99] := List.mergeSort_of_pairwise (by decide)
  rw [spread,middle,distances,median,ranked]
  decide +kernel

theorem spread_apart : spread [(1 : ℚ),1,3,3] = (2,1) := by
  have sorted : List.mergeSort [(1 : ℚ),1,3,3] Numeric.le = [1,1,3,3] := List.mergeSort_of_pairwise (by decide)
  have middle : median [(1 : ℚ),1,3,3] = 2 := by
    rw [median,sorted]
    decide +kernel
  have distances : ([(1 : ℚ),1,3,3].map fun v => Numeric.abs (v-2)) = [1,1,1,1] := by decide +kernel
  have ranked : List.mergeSort [(1 : ℚ),1,1,1] Numeric.le = [1,1,1,1] := List.mergeSort_of_pairwise (by decide)
  rw [spread,middle,distances,median,ranked]
  decide +kernel

/-- Two of three peers agree, and what the third says is averaged in. -/
theorem outlier_averaged : ∃ result,
    mergePeerSnapshots evenly "k" 1 1 [snap "a" 1,snap "b" 1,snap "c" 100] = .ok (some result) ∧
    3 ≤ (valuesByPeer (relevantSnapshots "k" [snap "a" 1,snap "b" 1,snap "c" 100])).length ∧
    ∃ s ∈ entering "k" [snap "a" 1,snap "b" 1,snap "c" 100],
      ¬ Near "k" [snap "a" 1,snap "b" 1,snap "c" 100] s.value := by
  have spreads : peerSpread "k" [snap "a" 1,snap "b" 1,snap "c" 100] = (1,0) := spread_agreed
  have all : (madFilter (valuesByPeer (relevantSnapshots "k" [snap "a" 1,snap "b" 1,snap "c" 100]))).1 =
      valuesByPeer (relevantSnapshots "k" [snap "a" 1,snap "b" 1,snap "c" 100]) :=
    madFilter_agreed (congrArg Prod.snd spreads)
  have enter : entering "k" [snap "a" 1,snap "b" 1,snap "c" 100] = [snap "a" 1,snap "b" 1,snap "c" 100] := by
    rw [entering,all]
    rfl
  have summed : mergedRaw evenly 1 [snap "a" 1,snap "b" 1,snap "c" 100] = .ok (some (103/4)) := by decide +kernel
  have capped : clampToBaseline (clampDelta 1 (103/4)) 1 = (11/10 : ℚ) := by decide +kernel
  obtain ⟨result,ran,_⟩ := merges (by decide) (by rw [all]; decide) (enter ▸ summed) capped (by decide +kernel)
  refine ⟨result,ran,by decide,snap "c" 100,by simp [enter],?_⟩
  rw [Near,spreads]
  decide +kernel

theorem peers_in_two_camps : ∃ result raw,
    mergePeerSnapshots evenly "k" 1 1 [snap "a" 1,snap "b" 1,snap "c" 3,snap "d" 3] = .ok (some result) ∧
    mergedRaw evenly 1 (entering "k" [snap "a" 1,snap "b" 1,snap "c" 3,snap "d" 3]) = .ok (some raw) ∧
    result.newValue = clampToBaseline (clampDelta 1 raw) 1 ∧
    ((∀ s ∈ entering "k" [snap "a" 1,snap "b" 1,snap "c" 3,snap "d" 3],
      Near "k" [snap "a" 1,snap "b" 1,snap "c" 3,snap "d" 3] s.value) ↔
      NoneHidden "k" [snap "a" 1,snap "b" 1,snap "c" 3,snap "d" 3]) := by
  have spreads : spread ((valuesByPeer (relevantSnapshots "k" [snap "a" 1,snap "b" 1,snap "c" 3,snap "d" 3])).map
    (·.2)) = (2,1) := spread_apart
  have all : (madFilter (valuesByPeer (relevantSnapshots "k" [snap "a" 1,snap "b" 1,snap "c" 3,snap "d" 3]))).1 =
      [("a",1),("b",1),("c",3),("d",3)] := by
    rw [madFilter,if_neg (by decide)]
    dsimp only
    rw [spreads]
    decide +kernel
  have enter : entering "k" [snap "a" 1,snap "b" 1,snap "c" 3,snap "d" 3] =
      [snap "a" 1,snap "b" 1,snap "c" 3,snap "d" 3] := by
    rw [entering,all]
    rfl
  have summed : mergedRaw evenly 1 [snap "a" 1,snap "b" 1,snap "c" 3,snap "d" 3] = .ok (some (9/5)) := by
    decide +kernel
  have capped : clampToBaseline (clampDelta 1 (9/5)) 1 = (11/10 : ℚ) := by decide +kernel
  obtain ⟨result,ran,_⟩ := merges (by decide) (by rw [all]; decide) (enter ▸ summed) capped (by decide +kernel)
  obtain ⟨raw,merged⟩ := merged_near_iff ran (by decide)
  exact ⟨result,raw,ran,merged⟩

end Sample

end Orrery.Policy
