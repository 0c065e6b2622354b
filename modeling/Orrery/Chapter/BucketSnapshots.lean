import Orrery.Chapter.RateQuota
import Orrery.Foundation.Rounding

/-! A snapshot of the request limiter and what is restored from it
(server/rate_limit_persistence.py). Clock readings are exact numbers; stamps cross as
wall-clock seconds, rounded to milliseconds. -/
namespace Orrery.Chapter
open Foundation

def round3 (q : ℚ) : ℚ := roundHalfEven (q*1000)/1000

def snapshotRow (nowMonotonic nowWall window : ℚ) (row : String × List ℚ) : Option (String × List ℚ) :=
  let fresh := row.2.filter (nowMonotonic-window < ·)
  if fresh.isEmpty then none else some (row.1,fresh.map fun t => round3 (nowWall-(nowMonotonic-t)))

def snapshotBuckets (store : OrderedDict String (List ℚ)) (nowMonotonic nowWall window : ℚ) (maxKeys : ℕ) :
    OrderedDict String Json :=
  let live := (store.items.filterMap (snapshotRow nowMonotonic nowWall window)).mergeSort
    fun a b => b.2.length ≤ a.2.length
  OrderedDict.empty.update ((live.take maxKeys).map fun row => (row.1,.arr (row.2.map .float)))

section Rounding

theorem round3_near (q : ℚ) : |round3 q-q| ≤ 1/2000 := by
  have near := abs_le.mp (roundHalfEven_near (q*1000))
  rw [round3,abs_le]
  constructor <;> linarith [near.1,near.2]

end Rounding

section Ages
variable (nowMonotonic nowWall later : ℚ)

def restoredAge (t : ℚ) : ℚ := ageAt (nowWall+later) (round3 (nowWall-(nowMonotonic-t)))

variable {nowMonotonic nowWall later} {t : ℚ}

theorem restoredAge_near (past : t ≤ nowMonotonic) (forward : 0 ≤ later) :
    |restoredAge nowMonotonic nowWall later t-(nowMonotonic-t+later)| ≤ 1/2000 := by
  have near := abs_le.mp (round3_near (nowWall-(nowMonotonic-t)))
  rw [restoredAge,ageAt,abs_le]
  split
  next ahead => constructor <;> linarith [near.1,near.2]
  next => constructor <;> linarith [near.1,near.2]

end Ages

section Restore
variable (nowMonotonic nowWall window later boot : ℚ)

def survivors (stamps : List ℚ) : List ℚ := stamps.filter fun t =>
  restoredAge nowMonotonic nowWall later t < window && nowMonotonic-window < t

def restoredStamps (stamps : List ℚ) : List ℚ :=
  ((survivors nowMonotonic nowWall window later stamps).map
    fun t => boot-restoredAge nowMonotonic nowWall later t).mergeSort (· ≤ ·)

def restoredRow (row : String × List ℚ) : Option (String × List ℚ) :=
  let live := restoredStamps nowMonotonic nowWall window later boot row.2
  if live.isEmpty then none else some (row.1,live)

variable {nowMonotonic nowWall window later boot}

theorem liveStamps_snapshot (stamps : List ℚ) :
    liveStamps boot (nowWall+later) window
      (((stamps.filter (nowMonotonic-window < ·)).map fun t => round3 (nowWall-(nowMonotonic-t))).map some) =
        restoredStamps nowMonotonic nowWall window later boot stamps := by
  have same : (((stamps.filter (nowMonotonic-window < ·)).map fun t => round3 (nowWall-(nowMonotonic-t))).map
      some).reduceOption.map (ageAt (nowWall+later)) =
        (stamps.filter (nowMonotonic-window < ·)).map (restoredAge nowMonotonic nowWall later) := by
    rw [List.reduceOption,List.filterMap_map]
    simp [restoredAge]
  rw [liveStamps,same,List.filter_map,List.map_map,restoredStamps,survivors,← List.filter_filter]
  rfl

theorem mapM_readStamp (stamps : List ℚ) : (stamps.map Json.float).mapM readStamp = .ok (stamps.map some) := by
  induction stamps with
  | nil => rfl
  | cons stamp stamps ih =>
    rw [List.map_cons,List.mapM_cons,ih]
    rfl

theorem restoredStamps_stale {stamps : List ℚ} (stale : stamps.filter (nowMonotonic-window < ·) = []) :
    restoredStamps nowMonotonic nowWall window later boot stamps = [] := by
  rw [restoredStamps,survivors,← List.filter_filter,stale]
  simp

def score (boot nowWall window : ℚ) (made : String × List ℚ) : Option (String × List ℚ) :=
  let live := liveStamps boot nowWall window (made.2.map some)
  if live.isEmpty then none else some (made.1,live)

theorem scoreRow_made (made : String × List ℚ) :
    scoreRow boot nowWall window (made.1,.arr (made.2.map .float)) = .ok (score boot nowWall window made) := by
  change ((made.2.map Json.float).mapM readStamp >>= fun stamps => pure
    (if (liveStamps boot nowWall window stamps).isEmpty then none
      else some (made.1,liveStamps boot nowWall window stamps))) = _
  rw [mapM_readStamp]
  rfl

theorem score_snapshotRow (row : String × List ℚ) :
    (snapshotRow nowMonotonic nowWall window row).bind (score boot (nowWall+later) window) =
      restoredRow nowMonotonic nowWall window later boot row := by
  rw [snapshotRow]
  split
  next stale =>
    rw [restoredRow,restoredStamps_stale (List.isEmpty_iff.mp stale)]
    rfl
  next =>
    rw [Option.bind_some,score]
    dsimp only
    rw [liveStamps_snapshot,restoredRow]

theorem mapM_scoreRow (rows : List (String × List ℚ)) :
    (rows.map fun made => (made.1,Json.arr (made.2.map .float))).mapM (scoreRow boot nowWall window) =
      .ok (rows.map (score boot nowWall window)) := by
  induction rows with
  | nil => rfl
  | cons made rows ih =>
    rw [List.map_cons,List.mapM_cons,scoreRow_made,ih]
    rfl

theorem restoredRow_key {row made : String × List ℚ}
    (found : restoredRow nowMonotonic nowWall window later boot row = some made) : made.1 = row.1 := by
  unfold restoredRow at found
  dsimp only at found
  split at found
  · cases found
  · rw [← Option.some.inj found]

theorem snapshotRow_key {row made : String × List ℚ}
    (found : snapshotRow nowMonotonic nowWall window row = some made) : made.1 = row.1 := by
  unfold snapshotRow at found
  dsimp only at found
  split at found
  · cases found
  · rw [← Option.some.inj found]

theorem filterMap_keys {α β κ : Type} {f : α → Option β} {a : α → κ} {b : β → κ}
    (same : ∀ x y, f x = some y → b y = a x) (items : List α) :
    ((items.filterMap f).map b).Sublist (items.map a) := by
  induction items with
  | nil => exact List.Sublist.slnil
  | cons x items ih =>
    cases made : f x with
    | none =>
      rw [List.filterMap_cons_none made]
      exact ih.cons _
    | some y =>
      rw [List.filterMap_cons_some made,List.map_cons,List.map_cons,same x y made]
      exact ih.cons_cons _

variable {store : OrderedDict String (List ℚ)} {maxKeys keyCap : ℕ}

theorem snapshotBuckets_items (few : store.size ≤ maxKeys) :
    ∃ rows : List (String × List ℚ), rows.Perm (store.items.filterMap (snapshotRow nowMonotonic nowWall window)) ∧
      (snapshotBuckets store nowMonotonic nowWall window maxKeys).items =
        rows.map fun made => (made.1,Json.arr (made.2.map .float)) := by
  let live := store.items.filterMap (snapshotRow nowMonotonic nowWall window)
  have permuted : (live.mergeSort fun a b => b.2.length ≤ a.2.length).Perm live := List.mergeSort_perm _ _
  have all : (live.mergeSort fun a b => b.2.length ≤ a.2.length).take maxKeys =
      live.mergeSort fun a b => b.2.length ≤ a.2.length := by
    apply List.take_of_length_le
    rw [permuted.length_eq]
    exact (List.length_filterMap_le _ _).trans few
  refine ⟨_,permuted,?_⟩
  rw [snapshotBuckets,all]
  apply OrderedDict.update_empty
  rw [List.map_map]
  apply ((permuted.map Prod.fst).nodup_iff).mpr
  exact store.distinct.sublist (filterMap_keys (fun _ _ => snapshotRow_key) store.items)

theorem restored_items (few : store.size ≤ maxKeys) (capped : store.size ≤ keyCap) :
    ∃ restored, restoreBuckets (some (snapshotBuckets store nowMonotonic nowWall window maxKeys)) boot (nowWall+later)
        window keyCap = .ok restored ∧
      restored.items.Perm (store.items.filterMap (restoredRow nowMonotonic nowWall window later boot)) := by
  obtain ⟨rows,permuted,shape⟩ := @snapshotBuckets_items nowMonotonic nowWall window store maxKeys few
  have scored : (rows.map (score boot (nowWall+later) window)).reduceOption.Perm
      (store.items.filterMap (restoredRow nowMonotonic nowWall window later boot)) := by
    rw [List.reduceOption,List.filterMap_map]
    apply (permuted.filterMap _).trans
    rw [List.filterMap_filterMap]
    simp only [Function.comp_apply,id]
    rw [List.filterMap_congr fun row _ => score_snapshotRow row]
  let sorted := (rows.map (score boot (nowWall+later) window)).reduceOption.mergeSort
    fun a b => (newest a.2).getD 0 ≤ (newest b.2).getD 0
  have ordered : sorted.Perm (store.items.filterMap (restoredRow nowMonotonic nowWall window later boot)) :=
    (List.mergeSort_perm _ _).trans scored
  have all : lastOnes keyCap sorted = sorted := by
    have short : sorted.length ≤ keyCap := by
      rw [ordered.length_eq]
      exact (List.length_filterMap_le _ _).trans capped
    rw [lastOnes]
    split
    · rfl
    · rw [Nat.sub_eq_zero_of_le short,List.drop_zero]
  refine ⟨OrderedDict.empty.update sorted,?_,?_⟩
  · rw [restoreBuckets]
    dsimp only
    rw [shape,mapM_scoreRow]
    change Except.ok (OrderedDict.empty.update (lastOnes keyCap sorted)) = _
    rw [all]
  · rw [OrderedDict.update_empty]
    · exact ordered
    · apply ((ordered.map Prod.fst).nodup_iff).mpr
      exact store.distinct.sublist (filterMap_keys (fun _ _ => restoredRow_key) store.items)

end Restore

def stampsOf (store : OrderedDict String (List ℚ)) (key : String) : List ℚ := (store.get? key).getD []

theorem stampsOf_restored {nowMonotonic nowWall window later boot : ℚ} {store restored : OrderedDict String (List ℚ)}
    (items : restored.items.Perm (store.items.filterMap (restoredRow nowMonotonic nowWall window later boot)))
    (key : String) :
    stampsOf restored key = restoredStamps nowMonotonic nowWall window later boot (stampsOf store key) := by
  have rows (live : List ℚ) : restored.get? key = some live ↔
      ∃ stamps, store.get? key = some stamps ∧
        restoredRow nowMonotonic nowWall window later boot (key,stamps) = some (key,live) := by
    rw [OrderedDict.get?_some,items.mem_iff,List.mem_filterMap]
    constructor
    · rintro ⟨⟨other,stamps⟩,inside,made⟩
      obtain rfl : key = other := restoredRow_key made
      exact ⟨stamps,OrderedDict.get?_some.mpr inside,made⟩
    · rintro ⟨stamps,held,made⟩
      exact ⟨(key,stamps),OrderedDict.get?_some.mp held,made⟩
  have row (stamps : List ℚ) : (restoredRow nowMonotonic nowWall window later boot (key,stamps) = none ∧
      restoredStamps nowMonotonic nowWall window later boot stamps = []) ∨
      restoredRow nowMonotonic nowWall window later boot (key,stamps) =
        some (key,restoredStamps nowMonotonic nowWall window later boot stamps) := by
    rw [restoredRow]
    dsimp only
    split
    next stale => exact .inl ⟨rfl,List.isEmpty_iff.mp stale⟩
    next => exact .inr rfl
  have none_ : restoredStamps nowMonotonic nowWall window later boot [] = [] := restoredStamps_stale rfl
  cases after : restored.get? key with
  | some live =>
    obtain ⟨stamps,held,made⟩ := (rows live).mp after
    rw [stampsOf,stampsOf,after,held,Option.getD_some,Option.getD_some]
    obtain ⟨gone,_⟩ | kept := row stamps
    · rw [gone] at made
      cases made
    · rw [kept] at made
      exact (congrArg Prod.snd (Option.some.inj made)).symm
  | none =>
    rw [stampsOf,stampsOf,after,Option.getD_none]
    cases held : store.get? key with
    | none => rw [Option.getD_none,none_]
    | some stamps =>
      rw [Option.getD_some]
      obtain ⟨_,gone⟩ | kept := row stamps
      · exact gone.symm
      · exact absurd ((rows _).mpr ⟨stamps,held,kept⟩) (by simp [after])

section Claims
variable (s : Limiter) (nowMonotonic nowWall window later boot : ℚ) (maxKeys : ℕ)

/-- Of each bucket exactly the stamps come back whose age is below the window at the
restore, each at most half a millisecond off. -/
def ForgetsNothing : Prop := ∃ restored,
  restoreBuckets (some (snapshotBuckets s.store nowMonotonic nowWall window maxKeys)) boot (nowWall+later) window
      rateLimitKeyCap = .ok restored ∧
    ∀ key, ∃ shifted, (stampsOf restored key).Perm shifted ∧
      List.Forall₂ (fun stamp t => |stamp-(boot-(nowMonotonic-t+later))| ≤ 1/2000) shifted
        ((stampsOf s.store key).filter fun t => nowMonotonic-t+later < window)

variable {s nowMonotonic nowWall window later boot maxKeys} {clock : ℚ}

theorem stampsOf_past (live : Tidy s clock) {key : String} {t : ℚ} (inside : t ∈ stampsOf s.store key) : t ≤ clock := by
  rw [stampsOf] at inside
  cases held : s.store.get? key with
  | none => simp [held] at inside
  | some stamps =>
    rw [held,Option.getD_some] at inside
    exact live.past _ (OrderedDict.get?_some.mp held) t inside

theorem survivors_young {stamps : List ℚ} {t : ℚ} (past : t ≤ nowMonotonic) (forward : 0 ≤ later) (inside : t ∈ stamps)
    (young : nowMonotonic-t+later < window-1/2000) : t ∈ survivors nowMonotonic nowWall window later stamps := by
  have near := abs_le.mp (@restoredAge_near nowMonotonic nowWall later t past forward)
  rw [survivors,List.mem_filter]
  refine ⟨inside,?_⟩
  rw [Bool.and_eq_true,decide_eq_true_eq,decide_eq_true_eq]
  constructor <;> linarith [near.2]

theorem survivors_age {stamps : List ℚ} {t : ℚ} (past : t ≤ nowMonotonic) (forward : 0 ≤ later)
    (inside : t ∈ survivors nowMonotonic nowWall window later stamps) :
    t ∈ stamps ∧ nowMonotonic-t < window ∧ nowMonotonic-t+later < window+1/2000 := by
  have near := abs_le.mp (@restoredAge_near nowMonotonic nowWall later t past forward)
  obtain ⟨held,kept⟩ := List.mem_filter.mp inside
  rw [Bool.and_eq_true,decide_eq_true_eq,decide_eq_true_eq] at kept
  exact ⟨held,by linarith [kept.2],by linarith [near.1,kept.1]⟩

theorem mem_restored_keys {restored : OrderedDict String (List ℚ)}
    (items : restored.items.Perm (s.store.items.filterMap (restoredRow nowMonotonic nowWall window later boot)))
    (key : String) : key ∈ restored.keys ↔ stampsOf restored key ≠ [] := by
  cases held : restored.get? key with
  | none => simp [stampsOf,held,OrderedDict.get?_none.mp held]
  | some stamps =>
    have inside := OrderedDict.get?_some.mp held
    obtain ⟨row,_,made⟩ := List.mem_filterMap.mp (items.subset inside)
    have filled : stamps ≠ [] := by
      unfold restoredRow at made
      dsimp only at made
      split at made
      · cases made
      next some_ =>
        obtain rfl := congrArg Prod.snd (Option.some.inj made)
        simpa using some_
    simp [stampsOf,held,filled,OrderedDict.keys,List.mem_map_of_mem inside]

/-- Of each bucket of the limiter exactly the survivors come back, each at most half a
millisecond off; what is half a millisecond younger than the window survives, and nothing
that is so much older. -/
theorem snapshot_restores (live : Tidy s clock) (past : clock ≤ nowMonotonic) (few : s.store.size ≤ maxKeys)
    (forward : 0 ≤ later) : ∃ restored,
    restoreBuckets (some (snapshotBuckets s.store nowMonotonic nowWall window maxKeys)) boot (nowWall+later) window
        rateLimitKeyCap = .ok restored ∧
      ∀ key, (key ∈ restored.keys ↔ survivors nowMonotonic nowWall window later (stampsOf s.store key) ≠ []) ∧
        (stampsOf restored key).Perm ((survivors nowMonotonic nowWall window later (stampsOf s.store key)).map
          fun t => boot-restoredAge nowMonotonic nowWall later t) ∧
        (∀ t ∈ stampsOf s.store key,
          |(boot-restoredAge nowMonotonic nowWall later t)-(boot-(nowMonotonic-t+later))| ≤ 1/2000 ∧
            (nowMonotonic-t+later < window-1/2000 →
              t ∈ survivors nowMonotonic nowWall window later (stampsOf s.store key))) ∧
        ∀ t ∈ survivors nowMonotonic nowWall window later (stampsOf s.store key),
          t ∈ stampsOf s.store key ∧ nowMonotonic-t < window ∧ nowMonotonic-t+later < window+1/2000 := by
  obtain ⟨restored,done,items⟩ :=
    @restored_items nowMonotonic nowWall window later boot s.store maxKeys rateLimitKeyCap few live.bounded
  refine ⟨restored,done,?_⟩
  intro key
  have stamps := stampsOf_restored items key
  have held (t : ℚ) (inside : t ∈ stampsOf s.store key) : t ≤ nowMonotonic := (stampsOf_past live inside).trans past
  have permuted : (stampsOf restored key).Perm ((survivors nowMonotonic nowWall window later
      (stampsOf s.store key)).map fun t => boot-restoredAge nowMonotonic nowWall later t) := by
    rw [stamps,restoredStamps]
    exact List.mergeSort_perm _ _
  refine ⟨?_,permuted,?_,?_⟩
  · rw [mem_restored_keys items,not_iff_not,← List.length_eq_zero_iff,permuted.length_eq,List.length_map,
      List.length_eq_zero_iff]
  · intro t inside
    have near := @restoredAge_near nowMonotonic nowWall later t (held t inside) forward
    refine ⟨?_,survivors_young (held t inside) forward inside⟩
    rwa [sub_sub_sub_cancel_left,abs_sub_comm]
  · intro t inside
    exact survivors_age (held t (List.mem_of_mem_filter inside)) forward inside

end Claims

def nearlyNew : Limiter := ⟨OrderedDict.empty.set "ip" [100-6/10000],0⟩

theorem nearlyNew_items : nearlyNew.store.items = [("ip",[100-6/10000])] := rfl

theorem nearlyNew_tidy : Tidy nearlyNew 100 where
  sorted := by simp [nearlyNew_items]
  filled := by simp [nearlyNew_items]
  past := by norm_num [nearlyNew_items]
  ordered := by simp [nearlyNew_items]
  bounded := by simp [OrderedDict.size,nearlyNew_items,rateLimitKeyCap]

theorem nearlyNew_stamp : (100-6/10000 : ℚ) ∈ stampsOf nearlyNew.store "ip" := by
  have held : nearlyNew.store.get? "ip" = some [100-6/10000] := OrderedDict.get?_set
  simp [stampsOf,held]

theorem nearlyNew_restores : ∃ restored,
    restoreBuckets (some (snapshotBuckets nearlyNew.store 100 1000 60 2000)) 5 (1000+10) 60 rateLimitKeyCap =
        .ok restored ∧
      ∀ key, (key ∈ restored.keys ↔ survivors 100 1000 60 10 (stampsOf nearlyNew.store key) ≠ []) ∧
        (stampsOf restored key).Perm ((survivors 100 1000 60 10 (stampsOf nearlyNew.store key)).map
          fun t => 5-restoredAge 100 1000 10 t) ∧
        (∀ t ∈ stampsOf nearlyNew.store key, |(5-restoredAge 100 1000 10 t)-(5-(100-t+10))| ≤ 1/2000 ∧
          (100-t+10 < 60-1/2000 → t ∈ survivors 100 1000 60 10 (stampsOf nearlyNew.store key))) ∧
        ∀ t ∈ survivors 100 1000 60 10 (stampsOf nearlyNew.store key),
          t ∈ stampsOf nearlyNew.store key ∧ 100-t < 60 ∧ 100-t+10 < 60+1/2000 :=
  snapshot_restores nearlyNew_tidy le_rfl (by simp [OrderedDict.size,nearlyNew_items]) (by norm_num)

/-- It is not restored where the window ends before the next millisecond. -/
theorem nearlyNew_forgotten : Tidy nearlyNew 100 ∧ nearlyNew.store.size ≤ 2000 ∧
    ¬ForgetsNothing nearlyNew 100 1000 60 (599992/10000) 5 2000 := by
  refine ⟨nearlyNew_tidy,by simp [OrderedDict.size,nearlyNew_items],?_⟩
  rintro ⟨restored,done,each⟩
  obtain ⟨other,again,items⟩ := @restored_items 100 1000 60 (599992/10000) 5 nearlyNew.store 2000 rateLimitKeyCap
    (by simp [OrderedDict.size,nearlyNew_items]) nearlyNew_tidy.bounded
  obtain rfl : restored = other := Except.ok.inj (done.symm.trans again)
  have rounded : round3 (1000-(100-(100-6/10000))) = 999999/1000 := by
    norm_num [round3,roundHalfEven]
  have old : ¬restoredAge 100 1000 (599992/10000) (100-6/10000) < 60 := by
    rw [restoredAge,rounded]
    norm_num [ageAt]
  have gone : stampsOf restored "ip" = [] := by
    have held : nearlyNew.store.get? "ip" = some [100-6/10000] := OrderedDict.get?_set
    rw [stampsOf_restored items,stampsOf,held,Option.getD_some,restoredStamps,survivors]
    simp [old]
  obtain ⟨shifted,permuted,near⟩ := each "ip"
  have none_ : shifted = [] := by
    rw [gone] at permuted
    exact permuted.nil_eq.symm
  rw [none_] at near
  have kept : (100-6/10000 : ℚ) ∈ (stampsOf nearlyNew.store "ip").filter
      fun t => 100-t+599992/10000 < 60 := by
    refine List.mem_filter.mpr ⟨nearlyNew_stamp,?_⟩
    norm_num
  rw [List.forall₂_nil_left_iff.mp near] at kept
  exact absurd kept (by simp)

end Orrery.Chapter
