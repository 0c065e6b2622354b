import Mathlib.Data.List.ReduceOption
import Orrery.Chapter.RateLimiter
import Orrery.Foundation.Sweeps

/-! What the request limiter keeps over every sequence of calls, from an empty store or
from a restored one. -/
namespace Orrery.Chapter
open Foundation

section Restored
variable {nowMonotonic nowWall window : ℚ}

theorem liveStamps_past (stamps : List (Option ℚ)) : ∀ stamp ∈ liveStamps nowMonotonic nowWall window stamps,
    stamp ≤ nowMonotonic := by
  intro stamp inside
  obtain ⟨age,young,rfl⟩ := List.mem_map.mp (List.mem_mergeSort.mp inside)
  obtain ⟨raw,_,rfl⟩ := List.mem_map.mp (List.mem_of_mem_filter young)
  have nonneg : 0 ≤ ageAt nowWall raw := by
    rw [ageAt]
    split
    · exact le_rfl
    next past => exact not_lt.mp past
  linarith

structure Restored (nowMonotonic : ℚ) (requests : List ℚ) : Prop where
  sorted : requests.Pairwise (· ≤ ·)
  filled : requests ≠ []
  past : ∀ stamp ∈ requests, stamp ≤ nowMonotonic

theorem scoreRow_some {row scored : String × _}
    (read : scoreRow nowMonotonic nowWall window row = .ok (some scored)) :
    scored.1 = row.1 ∧ Restored nowMonotonic scored.2 := by
  unfold scoreRow at read
  split at read
  next stamps =>
    obtain ⟨found,_,made⟩ := bind_success _ _ _ read
    have made := Except.ok.inj made
    split at made
    · cases made
    next some_ =>
      obtain rfl := Option.some.inj made
      exact ⟨rfl,List.pairwise_mergeSort' _ _,by simpa using some_,liveStamps_past found⟩
  · cases read

theorem scored_rows {rows : List (String × Json)} {found : List (Option (String × List ℚ))}
    (reads : Reads (scoreRow nowMonotonic nowWall window) rows found) :
    (found.reduceOption.map Prod.fst).Sublist (rows.map Prod.fst) ∧
      ∀ item ∈ found.reduceOption, Restored nowMonotonic item.2 := by
  induction reads with
  | nil => simp
  | @cons row value rows found here _ ih =>
    cases value with
    | none =>
      rw [List.reduceOption_cons_of_none]
      exact ⟨ih.1.cons _,ih.2⟩
    | some scored =>
      obtain ⟨same,made⟩ := scoreRow_some here
      rw [List.reduceOption_cons_of_some,List.map_cons,List.map_cons,same]
      exact ⟨ih.1.cons_cons _,List.forall_mem_cons.mpr ⟨made,ih.2⟩⟩

theorem lastOnes_suffix {α : Type} (count : ℕ) (items : List α) : lastOnes count items <:+ items := by
  rw [lastOnes]
  split
  · exact List.suffix_rfl
  · exact List.drop_suffix _ _

theorem lastOnes_length {α : Type} {count : ℕ} (some_ : 0 < count) (items : List α) :
    (lastOnes count items).length ≤ count := by
  rw [lastOnes,if_neg some_.ne',List.length_drop]
  omega

theorem restoreBuckets_kept {persisted : Option (OrderedDict String Json)} {restored : OrderedDict String (List ℚ)}
    (done : restoreBuckets persisted nowMonotonic nowWall window rateLimitKeyCap = .ok restored) (n : ℕ) :
    Tidy ⟨restored,n⟩ nowMonotonic := by
  unfold restoreBuckets at done
  split at done
  · obtain rfl := Except.ok.inj done
    exact ⟨by simp [OrderedDict.empty],by simp [OrderedDict.empty],by simp [OrderedDict.empty],List.Pairwise.nil,
      Nat.zero_le _⟩
  next rows =>
    obtain ⟨found,read,made⟩ := bind_success _ _ _ done
    have made := Except.ok.inj made
    obtain ⟨keys,each⟩ := scored_rows (mapM_reads read)
    let sorted := found.reduceOption.mergeSort fun a b => (newest a.2).getD 0 ≤ (newest b.2).getD 0
    have part := lastOnes_suffix rateLimitKeyCap sorted
    have permuted : sorted.Perm found.reduceOption := List.mergeSort_perm _ _
    have distinct : ((lastOnes rateLimitKeyCap sorted).map Prod.fst).Nodup := by
      apply List.Nodup.sublist (part.sublist.map Prod.fst)
      exact (permuted.map Prod.fst).nodup_iff.mpr (rows.distinct.sublist keys)
    have shape : restored.items = lastOnes rateLimitKeyCap sorted := by
      rw [← made]
      exact OrderedDict.update_empty distinct
    have ordered : sorted.Pairwise fun a b => newestOf a.2 ≤ newestOf b.2 := by
      have inOrder : sorted.Pairwise fun a b => decide (newestOf a.2 ≤ newestOf b.2) = true := List.pairwise_mergeSort
        (fun a b c one two => decide_eq_true ((of_decide_eq_true one).trans (of_decide_eq_true two)))
        (fun a b => by simpa using le_total (newestOf a.2) (newestOf b.2)) found.reduceOption
      exact inOrder.imp of_decide_eq_true
    have each : ∀ item ∈ restored.items, Restored nowMonotonic item.2 := by
      intro item inside
      exact each item (permuted.subset (part.subset (shape ▸ inside)))
    constructor
    · exact fun item inside => (each item inside).sorted
    · exact fun item inside => (each item inside).filled
    · exact fun item inside => (each item inside).past
    · exact shape ▸ ordered.sublist part.sublist
    · exact (congrArg List.length shape).trans_le (lastOnes_length keyCap_pos sorted)

end Restored

/-- How a process starts: with no buckets, or with those of a snapshot. -/
inductive Started : Limiter → ℚ → Prop
  | fresh (boot : ℚ) (n : ℕ) : Started ⟨.empty,n⟩ boot
  | restored {boot nowWall : ℚ} {n : ℕ} {persisted : OrderedDict String Json} {s : Limiter}
      (done : restoreRateLimitBuckets ⟨.empty,n⟩ persisted boot nowWall = .ok s) : Started s boot

theorem empty_kept (clock : ℚ) (n : ℕ) : Tidy ⟨.empty,n⟩ clock :=
  ⟨by simp [OrderedDict.empty],by simp [OrderedDict.empty],by simp [OrderedDict.empty],List.Pairwise.nil,Nat.zero_le _⟩

theorem Started.kept {s : Limiter} {boot : ℚ} (started : Started s boot) : Tidy s boot := by
  cases started with
  | fresh boot n => exact empty_kept boot n
  | @restored boot nowWall n persisted s done =>
    unfold restoreRateLimitBuckets at done
    split at done
    · obtain rfl := Except.ok.inj done
      exact empty_kept boot n
    obtain ⟨restored,read,made⟩ := bind_success _ _ _ done
    obtain rfl := Except.ok.inj made
    have kept := restoreBuckets_kept read n
    rw [OrderedDict.update_empty_items]
    exact kept

structure Service where
  limiter : Limiter
  admitted : List RateCall

def serve (r : Service) (call : RateCall) : Service where
  limiter := (checkRateLimit r.limiter call).2
  admitted := if (checkRateLimit r.limiter call).1 then r.admitted ++ [call] else r.admitted

def Service.stamps (r : Service) (key : String) : List ℚ :=
  (r.admitted.filter (·.clientIp = key)).map RateCall.now

structure Counted (r : Service) (clock : ℚ) : Prop where
  kept : Tidy r.limiter clock
  counted : ∀ key start, clock-rateLimitWindow ≤ start →
    ((r.stamps key).filter (start < ·)).length ≤ ((bucket r.limiter key).filter (start < ·)).length

theorem Counted.serve {r : Service} {clock : ℚ} {call : RateCall} (known : Counted r clock) (le : clock ≤ call.now)
    (positive : 0 < call.maxRequests) : Counted (serve r call) call.now where
  kept := check_kept known.kept le positive
  counted := by
    intro key start inWindow
    have before := known.counted key start (by linarith)
    change _ ≤ ((bucket (checkRateLimit r.limiter call).2 key).filter (start < ·)).length
    rw [bucket_check known.kept key inWindow,List.length_append]
    by_cases admitted : (checkRateLimit r.limiter call).1 = true
    · by_cases same : call.clientIp = key
      · simpa [Service.stamps,Chapter.serve,admitted,same] using before
      · simpa [Service.stamps,Chapter.serve,admitted,same] using before
    · simpa [Service.stamps,Chapter.serve,admitted] using before

theorem Counted.later {r : Service} {clock now : ℚ} (known : Counted r clock) (le : clock ≤ now) : Counted r now where
  kept := known.kept.later le
  counted key start inWindow := known.counted key start (by linarith)

theorem Counted.run {final : ℚ} (calls : List RateCall) : ∀ {r : Service} {clock : ℚ}, Counted r clock →
    clock ≤ final → calls.Pairwise (·.now ≤ ·.now) → (∀ call ∈ calls, clock ≤ call.now ∧ call.now ≤ final) →
    (∀ call ∈ calls, 0 < call.maxRequests) → Counted (calls.foldl Chapter.serve r) final := by
  induction calls with
  | nil =>
    intro r clock known le _ _ _
    exact known.later le
  | cons call calls ih =>
    intro r clock known _ inOrder within positive
    obtain ⟨first,inOrder⟩ := List.pairwise_cons.mp inOrder
    obtain ⟨since,until_⟩ := within call (by simp)
    apply ih (known.serve since (positive call (by simp))) until_ inOrder
    · intro later inside
      exact ⟨first later inside,(within later (.tail _ inside)).2⟩
    · exact fun later inside => positive later (.tail _ inside)

theorem Started.counted {start : Limiter} {boot : ℚ} (started : Started start boot) {before : List RateCall}
    {call : RateCall} (inOrder : (before ++ [call]).Pairwise (·.now ≤ ·.now))
    (since : ∀ earlier ∈ before ++ [call], boot ≤ earlier.now)
    (positive : ∀ earlier ∈ before ++ [call], 0 < earlier.maxRequests) :
    Counted (before.foldl serve ⟨start,[]⟩) call.now := by
  obtain ⟨earlier,_,last⟩ := List.pairwise_append.mp inOrder
  have empty : Counted ⟨start,[]⟩ boot := ⟨started.kept,by simp [Service.stamps]⟩
  apply empty.run before (since call (by simp)) earlier
  · exact fun other inside => ⟨since other (by simp [inside]),last other inside call (by simp)⟩
  · exact fun other inside => positive other (by simp [inside])

/-- Whatever was called before, a call is admitted only below its ceiling, there are
never too many buckets, they stay in order, no stamp inside the window is evicted, and a
known key is not refused for capacity. -/
theorem rate_limit_quota {start : Limiter} {boot : ℚ} (started : Started start boot) (before : List RateCall)
    (call : RateCall) (inOrder : (before ++ [call]).Pairwise (·.now ≤ ·.now))
    (since : ∀ earlier ∈ before ++ [call], boot ≤ earlier.now)
    (positive : ∀ earlier ∈ before ++ [call], 0 < earlier.maxRequests) :
    let served := before.foldl serve ⟨start,[]⟩
    let after := (checkRateLimit served.limiter call).2
    ((checkRateLimit served.limiter call).1 = true →
      (served.admitted.filter fun earlier => earlier.clientIp = call.clientIp ∧
        call.now-rateLimitWindow < earlier.now ∧ earlier.now ≤ call.now).length < call.maxRequests) ∧
    (served.limiter.store.size ≤ rateLimitKeyCap ∧ after.store.size ≤ rateLimitKeyCap) ∧
    ((served.limiter.store.items.Pairwise fun a b => newestOf a.2 ≤ newestOf b.2) ∧
      (after.store.items.Pairwise fun a b => newestOf a.2 ≤ newestOf b.2) ∧
      ∀ key requests stamp, (key,requests) ∈ served.limiter.store.items → stamp ∈ requests →
        call.now-rateLimitWindow < stamp → ∃ requests', (key,requests') ∈ after.store.items ∧ stamp ∈ requests') ∧
    (call.clientIp ∈ served.limiter.store.keys → after.capacityRejections = served.limiter.capacityRejections) := by
  intro served after
  have known : Counted served call.now := started.counted inOrder since positive
  have kept := known.kept
  have next : Tidy after call.now := check_kept kept le_rfl (positive call (by simp))
  refine ⟨?_,⟨kept.bounded,next.bounded⟩,⟨kept.ordered,next.ordered,?_⟩,known_capacity⟩
  · intro admitted
    have room := admitted_room (positive call (by simp)) admitted
    have held := known.counted call.clientIp (call.now-rateLimitWindow) le_rfl
    refine lt_of_le_of_lt ?_ (held.trans_lt room)
    rw [Service.stamps,List.filter_map,List.length_map,List.filter_filter]
    apply List.Sublist.length_le
    apply List.monotone_filter_right
    intro other
    simp +contextual
  · intro key requests stamp inside held live
    exact live_stays kept inside held live

theorem second_call_quota :
    (([⟨"10.0.0.1",2,1⟩].foldl serve ⟨⟨.empty,0⟩,[]⟩).admitted.filter fun earlier => earlier.clientIp = "10.0.0.1" ∧
      2-rateLimitWindow < earlier.now ∧ earlier.now ≤ 2).length < 2 :=
  (rate_limit_quota (.fresh 0 0) [⟨"10.0.0.1",2,1⟩] ⟨"10.0.0.1",2,2⟩ (by norm_num) (by norm_num) (by simp)).1
    (by decide +kernel)

end Orrery.Chapter
