import Mathlib.Algebra.Order.Field.Rat
import Mathlib.Data.List.Pairwise
import Mathlib.Data.List.Sort
import Mathlib.Tactic.Linarith
import Orrery.Foundation.Json
import Orrery.Foundation.OrderedDicts

/-! The request limiter of a chapter (server/chapter_agent.py) and the snapshot it is
restored from (server/rate_limit_persistence.py). Clock readings are exact numbers. -/
namespace Orrery.Chapter
open Foundation

def rateLimitWindow : ℚ := 60

@[irreducible] def rateLimitKeyCap : ℕ := 10000

structure Limiter where
  store : OrderedDict String (List ℚ)
  capacityRejections : ℕ

structure RateCall where
  clientIp : String
  maxRequests : ℕ
  now : ℚ

def newest (requests : List ℚ) : Option ℚ := requests.getLast?

def reclaim (windowStart : ℚ) : List (String × List ℚ) → Bool × List (String × List ℚ)
  | [] => (true,[])
  | oldest :: later =>
    if (oldest :: later).length < rateLimitKeyCap then (true,oldest :: later)
    else if (newest oldest.2).any (windowStart < ·) then (false,oldest :: later)
    else reclaim windowStart later

theorem reclaim_suffix (windowStart : ℚ) (items : List (String × List ℚ)) :
    (reclaim windowStart items).2 <:+ items := by
  induction items with
  | nil => exact List.suffix_rfl
  | cons oldest later ih =>
    rw [reclaim]
    split
    · exact List.suffix_rfl
    split
    · exact List.suffix_rfl
    · exact ih.trans (List.suffix_cons _ _)

def checkRateLimit (s : Limiter) (call : RateCall) : Bool × Limiter :=
  let windowStart := call.now-rateLimitWindow
  match s.store.get? call.clientIp with
  | some held =>
    let requests := held.filter (windowStart < ·)
    if call.maxRequests ≤ requests.length then (false,{ s with store := s.store.set call.clientIp requests })
    else (true,{ s with store := (s.store.set call.clientIp (requests ++ [call.now])).moveToEnd call.clientIp })
  | none =>
    let made := reclaim windowStart s.store.items
    let store := s.store.tailFrom made.2 (reclaim_suffix windowStart s.store.items)
    if made.1 then (true,{ s with store := store.set call.clientIp [call.now] })
    else (false,⟨store,s.capacityRejections+1⟩)

section Restore

def floatBound : ℕ := 2^1024-2^970

def readStamp : Json → Except Exc (Option ℚ)
  | .int i => if floatBound ≤ i.natAbs then .error (.other "OverflowError" "int too large to convert to float")
    else .ok (some i)
  | .float q => .ok (some q)
  | _ => .ok none

def ageAt (nowWall stamp : ℚ) : ℚ := if nowWall-stamp < 0 then 0 else nowWall-stamp

def liveStamps (nowMonotonic nowWall window : ℚ) (stamps : List (Option ℚ)) : List ℚ :=
  let ages := (stamps.reduceOption.map (ageAt nowWall)).filter (· < window)
  (ages.map (nowMonotonic-·)).mergeSort (· ≤ ·)

def scoreRow (nowMonotonic nowWall window : ℚ) (row : String × Json) : Except Exc (Option (String × List ℚ)) :=
  match row.2 with
  | .arr stamps => do
    let live := liveStamps nowMonotonic nowWall window (← stamps.mapM readStamp)
    return if live.isEmpty then none else some (row.1,live)
  | _ => .ok none

def lastOnes {α : Type} (count : ℕ) (items : List α) : List α :=
  if count = 0 then items else items.drop (items.length-count)

def restoreBuckets (persisted : Option (OrderedDict String Json)) (nowMonotonic nowWall window : ℚ) (keyCap : ℕ) :
    Except Exc (OrderedDict String (List ℚ)) :=
  match persisted with
  | none => .ok .empty
  | some rows => do
    let scored := (← rows.items.mapM (scoreRow nowMonotonic nowWall window)).reduceOption
    let sorted := scored.mergeSort fun a b => (newest a.2).getD 0 ≤ (newest b.2).getD 0
    return OrderedDict.empty.update (lastOnes keyCap sorted)

def restoreRateLimitBuckets (s : Limiter) (persisted : OrderedDict String Json) (nowMonotonic nowWall : ℚ) :
    Except Exc Limiter := do
  if persisted.items.isEmpty then return s
  let restored ← restoreBuckets (some persisted) nowMonotonic nowWall rateLimitWindow rateLimitKeyCap
  return { s with store := OrderedDict.empty.update restored.items }

end Restore

def newestOf (requests : List ℚ) : ℚ := (newest requests).getD 0

section Stamps
variable {requests : List ℚ} {stamp bar : ℚ}

theorem newestOf_mem (some_ : requests ≠ []) : newestOf requests ∈ requests := by
  rw [newestOf,newest,List.getLast?_eq_some_getLast some_]
  exact List.getLast_mem some_

theorem le_newestOf (sorted : requests.Pairwise (· ≤ ·)) (inside : stamp ∈ requests) : stamp ≤ newestOf requests := by
  have some_ := List.ne_nil_of_mem inside
  rw [newestOf,newest,List.getLast?_eq_some_getLast some_]
  exact sorted.rel_getLast inside

@[simp] theorem newestOf_append : newestOf (requests ++ [stamp]) = stamp := by simp [newestOf,newest]

theorem newest_any (some_ : requests ≠ []) : (newest requests).any (bar < ·) = decide (bar < newestOf requests) := by
  rw [newestOf,newest,List.getLast?_eq_some_getLast some_]
  rfl

theorem newestOf_filter (sorted : requests.Pairwise (· ≤ ·)) (some_ : requests.filter (bar < ·) ≠ []) :
    newestOf (requests.filter (bar < ·)) = newestOf requests := by
  have kept := newestOf_mem some_
  have inside : newestOf requests ∈ requests.filter (bar < ·) := by
    have above : bar < newestOf (requests.filter (bar < ·)) := by simpa using List.of_mem_filter kept
    have whole := List.mem_of_mem_filter kept
    refine List.mem_filter.mpr ⟨newestOf_mem (List.ne_nil_of_mem whole),?_⟩
    exact decide_eq_true (above.trans_le (le_newestOf sorted whole))
  apply le_antisymm
  · exact le_newestOf sorted (List.mem_of_mem_filter kept)
  · exact le_newestOf (sorted.filter _) inside

end Stamps

/-- The buckets in order of their newest stamp, no two buckets of one key, each with its
stamps in order. -/
structure Tidy (s : Limiter) (clock : ℚ) : Prop where
  sorted : ∀ item ∈ s.store.items, item.2.Pairwise (· ≤ ·)
  filled : ∀ item ∈ s.store.items, item.2 ≠ []
  past : ∀ item ∈ s.store.items, ∀ stamp ∈ item.2, stamp ≤ clock
  ordered : s.store.items.Pairwise fun a b => newestOf a.2 ≤ newestOf b.2
  bounded : s.store.size ≤ rateLimitKeyCap

def bucket (s : Limiter) (key : String) : List ℚ := (s.store.get? key).getD []

section Step
variable {s : Limiter} {clock : ℚ} {call : RateCall} {windowStart : ℚ}

theorem keyCap_pos : 0 < rateLimitKeyCap := by simp [rateLimitKeyCap]

theorem reclaim_room (items : List (String × List ℚ)) (room : (reclaim windowStart items).1 = true) :
    (reclaim windowStart items).2.length < rateLimitKeyCap := by
  induction items with
  | nil => exact keyCap_pos
  | cons oldest later ih =>
    rw [reclaim] at room ⊢
    split at room
    next below => rwa [if_pos below]
    next full =>
      rw [if_neg full]
      split at room
      · cases room
      next dead =>
        rw [if_neg dead]
        exact ih room

theorem reclaim_dead {items : List (String × List ℚ)} (sorted : ∀ item ∈ items, item.2.Pairwise (· ≤ ·))
    (filled : ∀ item ∈ items, item.2 ≠ []) : ∀ item ∈ items,
    item ∈ (reclaim windowStart items).2 ∨ ∀ stamp ∈ item.2, stamp ≤ windowStart := by
  induction items with
  | nil => simp
  | cons oldest later ih =>
    intro item inside
    rw [reclaim]
    split
    · exact .inl inside
    split
    · exact .inl inside
    next dead =>
      obtain rfl | inside := List.mem_cons.mp inside
      · right
        intro stamp held
        rw [newest_any (filled _ (by simp)),decide_eq_true_eq,not_lt] at dead
        exact (le_newestOf (sorted _ (by simp)) held).trans dead
      · exact ih (fun item inside => sorted item (.tail _ inside)) (fun item inside => filled item (.tail _ inside))
          item inside

theorem check_cases (call : RateCall) :
    (∃ held, s.store.get? call.clientIp = some held ∧
      call.maxRequests ≤ (held.filter (call.now-rateLimitWindow < ·)).length ∧
      checkRateLimit s call = (false,{ s with
        store := s.store.set call.clientIp (held.filter (call.now-rateLimitWindow < ·)) })) ∨
    (∃ held, s.store.get? call.clientIp = some held ∧
      (held.filter (call.now-rateLimitWindow < ·)).length < call.maxRequests ∧
      checkRateLimit s call = (true,{ s with
        store := (s.store.set call.clientIp
          (held.filter (call.now-rateLimitWindow < ·) ++ [call.now])).moveToEnd call.clientIp })) ∨
    s.store.get? call.clientIp = none ∧ ∃ made : OrderedDict String (List ℚ),
      made.items = (reclaim (call.now-rateLimitWindow) s.store.items).2 ∧
      ((reclaim (call.now-rateLimitWindow) s.store.items).1 = true ∧
          checkRateLimit s call = (true,{ s with store := made.set call.clientIp [call.now] }) ∨
        (reclaim (call.now-rateLimitWindow) s.store.items).1 = false ∧
          checkRateLimit s call = (false,⟨made,s.capacityRejections+1⟩)) := by
  unfold checkRateLimit
  split
  next held found =>
    by_cases full : call.maxRequests ≤ (held.filter (call.now-rateLimitWindow < ·)).length
    · exact .inl ⟨held,found,full,if_pos full⟩
    · exact .inr (.inl ⟨held,found,not_le.mp full,if_neg full⟩)
  next unseen =>
    refine .inr (.inr ⟨unseen,s.store.tailFrom _ (reclaim_suffix _ s.store.items),rfl,?_⟩)
    cases room : (reclaim (call.now-rateLimitWindow) s.store.items).1 with
    | true => exact .inl ⟨rfl,by simp [room]⟩
    | false => exact .inr ⟨rfl,by simp [room]⟩

theorem Tidy.denied (kept : Tidy s clock) {key : String} {held : List ℚ} (found : s.store.get? key = some held)
    (live : held.filter (windowStart < ·) ≠ []) (n : ℕ) :
    Tidy ⟨s.store.set key (held.filter (windowStart < ·)),n⟩ clock := by
  have inside := OrderedDict.get?_some.mp found
  have known : key ∈ s.store.keys := List.mem_map_of_mem inside
  have replaced : ∀ item ∈ s.store.items,
      newestOf (if item.1 = key then (key,held.filter (windowStart < ·)) else item).2 = newestOf item.2 := by
    rintro ⟨other,requests⟩ at_
    split
    next same =>
      obtain rfl : other = key := same
      obtain rfl : requests = held := OrderedDict.value_eq at_ inside
      exact newestOf_filter (kept.sorted _ inside) live
    next => rfl
  constructor
  · intro item at_
    obtain rfl | ⟨at_,_⟩ := OrderedDict.mem_set.mp at_
    · exact (kept.sorted _ inside).filter _
    · exact kept.sorted item at_
  · intro item at_
    obtain rfl | ⟨at_,_⟩ := OrderedDict.mem_set.mp at_
    · exact live
    · exact kept.filled item at_
  · intro item at_ stamp held
    obtain rfl | ⟨at_,_⟩ := OrderedDict.mem_set.mp at_
    · exact kept.past _ inside stamp (List.mem_of_mem_filter held)
    · exact kept.past item at_ stamp held
  · rw [OrderedDict.set_known known,List.pairwise_map]
    apply kept.ordered.imp_of_mem
    intro a b one two le
    rwa [replaced a one,replaced b two]
  · rw [OrderedDict.size_set_known known]
    exact kept.bounded

theorem Tidy.appended {items : List (String × List ℚ)} {requests : List ℚ} {key : String} {now : ℚ}
    (sorted : ∀ item ∈ items, item.2.Pairwise (· ≤ ·)) (filled : ∀ item ∈ items, item.2 ≠ [])
    (past : ∀ item ∈ items, ∀ stamp ∈ item.2, stamp ≤ now)
    (ordered : items.Pairwise fun a b => newestOf a.2 ≤ newestOf b.2)
    (before : requests.Pairwise (· ≤ ·)) (earlier : ∀ stamp ∈ requests, stamp ≤ now)
    (room : items.length < rateLimitKeyCap) {s : Limiter} (shape : s.store.items = items ++ [(key,requests ++ [now])]) :
    Tidy s now := by
  have added : (requests ++ [now]).Pairwise (· ≤ ·) := by
    rw [List.pairwise_append]
    refine ⟨before,List.pairwise_singleton _ _,?_⟩
    intro stamp inside last at_
    obtain rfl := List.mem_singleton.mp at_
    exact earlier stamp inside
  constructor
  · rw [shape,List.forall_mem_append]
    exact ⟨sorted,by simpa using added⟩
  · rw [shape,List.forall_mem_append]
    exact ⟨filled,by simp⟩
  · rw [shape,List.forall_mem_append]
    refine ⟨past,?_⟩
    intro item at_ stamp held
    obtain rfl := List.mem_singleton.mp at_
    obtain held | held := List.mem_append.mp held
    · exact earlier stamp held
    · exact (List.mem_singleton.mp held).le
  · rw [shape,List.pairwise_append]
    refine ⟨ordered,List.pairwise_singleton _ _,?_⟩
    intro item inside last at_
    obtain rfl := List.mem_singleton.mp at_
    rw [newestOf_append]
    exact past item inside _ (newestOf_mem (filled item inside))
  · rw [OrderedDict.size,shape,List.length_append]
    exact room

theorem Tidy.later (kept : Tidy s clock) {now : ℚ} (le : clock ≤ now) : Tidy s now where
  sorted := kept.sorted
  filled := kept.filled
  past item inside stamp held := (kept.past item inside stamp held).trans le
  ordered := kept.ordered
  bounded := kept.bounded

theorem filter_room {d : OrderedDict String (List ℚ)} {key : String} (known : key ∈ d.keys)
    (bounded : d.size ≤ rateLimitKeyCap) : (d.items.filter (·.1 ≠ key)).length < rateLimitKeyCap := by
  obtain ⟨item,inside,rfl⟩ := List.mem_map.mp known
  have fewer : (d.items.filter (·.1 ≠ item.1)).length < d.items.length := by
    apply lt_of_le_of_ne (List.length_filter_le _ _)
    intro all
    simpa using List.length_filter_eq_length_iff.mp all item inside
  exact fewer.trans_le bounded

theorem check_kept (kept : Tidy s clock) (le : clock ≤ call.now) (positive : 0 < call.maxRequests) :
    Tidy (checkRateLimit s call).2 call.now := by
  replace kept := kept.later le
  obtain ⟨held,found,full,step⟩ | ⟨held,found,below,step⟩ | ⟨unseen,made,left,⟨room,step⟩ | ⟨refused,step⟩⟩ :=
    check_cases (s := s) call
  · rw [step]
    exact kept.denied found (List.ne_nil_of_length_pos (positive.trans_le full)) _
  · rw [step]
    have inside := OrderedDict.get?_some.mp found
    have known : call.clientIp ∈ s.store.keys := List.mem_map_of_mem inside
    have part : s.store.items.filter (·.1 ≠ call.clientIp) ⊆ s.store.items :=
      List.filter_sublist.subset
    apply Tidy.appended (fun item at_ => kept.sorted item (part at_)) (fun item at_ => kept.filled item (part at_))
      (fun item at_ => kept.past item (part at_)) (kept.ordered.filter _) ((kept.sorted _ inside).filter _)
      (fun stamp at_ => kept.past _ inside stamp (List.mem_of_mem_filter at_))
      (filter_room known kept.bounded)
    exact OrderedDict.set_moveToEnd known
  · rw [step]
    have part : made.items <:+ s.store.items := left ▸ reclaim_suffix _ _
    have new : call.clientIp ∉ made.keys := by
      intro known
      exact OrderedDict.get?_none.mp unseen ((part.sublist.map Prod.fst).subset known)
    apply Tidy.appended (fun item at_ => kept.sorted item (part.subset at_))
      (fun item at_ => kept.filled item (part.subset at_)) (fun item at_ => kept.past item (part.subset at_))
      (kept.ordered.sublist part.sublist) List.Pairwise.nil (fun stamp at_ => by cases at_)
      (left ▸ reclaim_room _ room)
    exact OrderedDict.set_new new
  · rw [step]
    have part : made.items <:+ s.store.items := left ▸ reclaim_suffix _ _
    exact {
      sorted := fun item at_ => kept.sorted item (part.subset at_)
      filled := fun item at_ => kept.filled item (part.subset at_)
      past := fun item at_ => kept.past item (part.subset at_)
      ordered := kept.ordered.sublist part.sublist
      bounded := part.length_le.trans kept.bounded }

theorem bucket_check (kept : Tidy s clock) (key : String) {start : ℚ}
    (inWindow : call.now-rateLimitWindow ≤ start) :
    (bucket (checkRateLimit s call).2 key).filter (start < ·) = (bucket s key).filter (start < ·) ++
      if (checkRateLimit s call).1 ∧ call.clientIp = key then [call.now].filter (start < ·) else [] := by
  have twice (held : List ℚ) :
      (held.filter (call.now-rateLimitWindow < ·)).filter (start < ·) = held.filter (start < ·) := by
    rw [List.filter_filter]
    apply List.filter_congr
    intro stamp _
    by_cases above : start < stamp
    · simp [above,inWindow.trans_lt above]
    · simp [above]
  obtain ⟨held,found,full,step⟩ | ⟨held,found,below,step⟩ | ⟨unseen,made,left,out⟩ := check_cases (s := s) call
  · rw [step]
    by_cases same : key = call.clientIp
    · subst same
      simp [bucket,found,twice]
    · simp [bucket,OrderedDict.get?_set_other same]
  · rw [step]
    by_cases same : key = call.clientIp
    · subst same
      simp [bucket,found,twice]
    · simp [bucket,OrderedDict.get?_set_other same,Ne.symm same]
  · -- a bucket that the loop took away has nothing inside the window
    have alike : ((made.get? key).getD []).filter (start < ·) = (bucket s key).filter (start < ·) := by
      have part : made.items <:+ s.store.items := left ▸ reclaim_suffix _ _
      rw [bucket]
      cases held : made.get? key with
      | some requests => rw [OrderedDict.get?_some.mpr (part.subset (OrderedDict.get?_some.mp held))]
      | none =>
        cases before : s.store.get? key with
        | none => rfl
        | some requests =>
          have inside := OrderedDict.get?_some.mp before
          have fate : (key,requests) ∈ (reclaim (call.now-rateLimitWindow) s.store.items).2 ∨
              ∀ stamp ∈ requests, stamp ≤ call.now-rateLimitWindow := reclaim_dead kept.sorted kept.filled _ inside
          obtain stays | dead := fate
          · rw [← left] at stays
            rw [OrderedDict.get?_some.mpr stays] at held
            cases held
          · symm
            simpa using fun stamp at_ => (dead stamp at_).trans inWindow
    obtain ⟨room,step⟩ | ⟨refused,step⟩ := out
    · rw [step]
      by_cases same : key = call.clientIp
      · subst same
        simp [bucket,unseen]
      · rw [← alike]
        simp [bucket,OrderedDict.get?_set_other same,Ne.symm same]
    · rw [step,← alike]
      simp [bucket]

theorem admitted_room (positive : 0 < call.maxRequests) (admitted : (checkRateLimit s call).1 = true) :
    ((bucket s call.clientIp).filter (call.now-rateLimitWindow < ·)).length < call.maxRequests := by
  obtain ⟨held,found,full,step⟩ | ⟨held,found,below,step⟩ | ⟨unseen,_⟩ := check_cases (s := s) call
  · rw [step] at admitted
    cases admitted
  · rwa [bucket,found]
  · rwa [bucket,unseen]

theorem live_stays (kept : Tidy s clock) {key : String} {requests : List ℚ} {stamp : ℚ}
    (inside : (key,requests) ∈ s.store.items) (held : stamp ∈ requests) (live : call.now-rateLimitWindow < stamp) :
    ∃ requests', (key,requests') ∈ (checkRateLimit s call).2.store.items ∧ stamp ∈ requests' := by
  have after : stamp ∈ (bucket (checkRateLimit s call).2 key).filter (call.now-rateLimitWindow < ·) := by
    rw [bucket_check kept key le_rfl,bucket,OrderedDict.get?_some.mpr inside]
    exact List.mem_append_left _ (List.mem_filter.mpr ⟨held,decide_eq_true live⟩)
  rw [bucket] at after
  cases found : (checkRateLimit s call).2.store.get? key with
  | none => simp [found] at after
  | some requests' =>
    rw [found] at after
    exact ⟨requests',OrderedDict.get?_some.mp found,List.mem_of_mem_filter after⟩

theorem known_capacity (known : call.clientIp ∈ s.store.keys) :
    (checkRateLimit s call).2.capacityRejections = s.capacityRejections := by
  obtain ⟨held,found,full,step⟩ | ⟨held,found,below,step⟩ | ⟨unseen,_⟩ := check_cases (s := s) call
  · rw [step]
  · rw [step]
  · exact absurd known (OrderedDict.get?_none.mp unseen)

end Step

end Orrery.Chapter
