import Mathlib.Algebra.BigOperators.Intervals
import Mathlib.Algebra.Order.BigOperators.Group.Finset
import Mathlib.Data.List.AList
import Orrery.Foundation.Keyset
import Orrery.Trust.Record

/-! The scores that are replayed from the ledger (`_replayed_scores_all` of
server/trust_events.py, `replay_scores_all` of infra/init.sql): the aggregate of the database,
or a sum over pages in the order of the ids. -/
namespace Orrery.Trust
open Foundation

structure EventRow where
  id : Option Int
  agentId : Option String
  delta : Option ℚ

structure ScoreRow where
  agentId : Option String
  replayed : Option ℚ

abbrev Scores := AList fun _ : String => ℚ

/-- The two calls of `pg_request`; the second by its place among the responses and by the
greatest id that was read. -/
structure ReplayStore where
  replayScoresAll : Option (List ScoreRow)
  getEvents : ℕ → Int → Option (List EventRow)

section Replay
variable (decimalOf : ℚ → ℚ)

def decimal (value : Option ℚ) : ℚ :=
  match value with
  | some q => if q = 0 then 0 else decimalOf q
  | none => 0

def scoresOf (rows : List ScoreRow) (scores : Scores) : Scores :=
  rows.foldl (fun scores r => match r.agentId with
    | some aid => scores.insert aid (decimal decimalOf r.replayed)
    | none => scores) scores

def replayRow (state : Scores × Int) (r : EventRow) : Scores × Int :=
  (match r.agentId with
    | some aid => state.1.insert aid ((state.1.lookup aid).getD 0+decimal decimalOf r.delta)
    | none => state.1,
  match r.id with
    | some rid => max state.2 rid
    | none => state.2)

def replayPages (getEvents : ℕ → Int → Option (List EventRow)) : ℕ → ℕ → Scores × Int → Except String Scores
  | 0, _, _ => .error "trust_events pagination exceeded its safety bound"
  | left+1, n, state =>
    match getEvents n state.2 with
    | none => .error "trust_events read failed; refusing to compute drift from a partial ledger"
    | some [] => .ok state.1
    | some (r :: page) => replayPages getEvents left (n+1) ((r :: page).foldl (replayRow decimalOf) state)

def replayedScoresAll (pgRequest : Option ReplayStore) : Except String Scores :=
  match pgRequest with
  | none => .error "trust_events.init(...) must be called first"
  | some store =>
    match store.replayScoresAll with
    | some rows => .ok (scoresOf decimalOf rows ∅)
    | none => replayPages decimalOf store.getEvents 1000000 0 (∅,0)

end Replay

structure LedgerEvent extends TrustEvent where
  id : Int

/-- The table: ids of their own from its sequence, and numeric(6,3) deltas. -/
structure Ledger where
  rows : List LedgerEvent
  distinct : (rows.map LedgerEvent.id).Nodup
  positive : ∀ row ∈ rows, 0 < row.id
  numeric : ∀ row ∈ rows, ∃ k : ℤ, |k| < 1000000 ∧ row.delta = k/1000

def LedgerEvent.row (e : LedgerEvent) : EventRow := ⟨some e.id,some e.agentId,some e.delta⟩

def pageSize : ℕ := 1000

section Ledgers
variable (ledger : Ledger) (cap : ℕ → ℕ)

def Ledger.getEvents (n : ℕ) (lastId : Int) : Option (List EventRow) :=
  some ((Keyset.page LedgerEvent.id ledger.rows lastId (min pageSize (cap n))).map LedgerEvent.row)

def deltaSum (agentId : String) (rows : List LedgerEvent) : ℚ :=
  ((rows.filter fun row => row.agentId = agentId).map fun row => row.delta).sum

def Ledger.score (agentId : String) : Option ℚ :=
  if agentId ∈ ledger.rows.map fun row => row.agentId then some (deltaSum agentId ledger.rows) else none

def Ledger.aggregate : List ScoreRow :=
  (ledger.rows.map fun row => row.agentId).dedup.map fun agentId => ⟨some agentId,some (deltaSum agentId ledger.rows)⟩

/-- Fifteen digits survive as a float, and its text has no others. -/
def Exact (decimalOf : ℚ → ℚ) : Prop := ∀ k : ℤ, |k| < 1000000000000000 → decimalOf (k/1000) = k/1000

def room (cap : ℕ → ℕ) (responses first : ℕ) : ℕ := ∑ i ∈ Finset.range responses, min pageSize (cap (first+i))

end Ledgers

def addDelta (scores : Scores) (e : LedgerEvent) : Scores :=
  scores.insert e.agentId ((scores.lookup e.agentId).getD 0+e.delta)

section Sums
variable {decimalOf : ℚ → ℚ} {ledger : Ledger} {cap : ℕ → ℕ}

theorem decimal_exact (exact : Exact decimalOf) {q : ℚ} {k : ℤ} (small : |k| < 1000000000000000) (same : q = k/1000) :
    decimal decimalOf (some q) = q := by
  unfold decimal
  split
  next held =>
    obtain rfl := Option.some.inj held
    split
    next zero => exact zero.symm
    next => rw [same,exact k small]
  next held => cases held

theorem replayRow_event (exact : Exact decimalOf) {e : LedgerEvent} (inside : e ∈ ledger.rows) (scores : Scores)
    (last : Int) : replayRow decimalOf (scores,last) e.row = (addDelta scores e,max last e.id) := by
  obtain ⟨k,small,same⟩ := ledger.numeric e inside
  rw [replayRow,LedgerEvent.row]
  dsimp only
  rw [decimal_exact exact (small.trans (by norm_num)) same]
  rfl

theorem replayRow_page (exact : Exact decimalOf) {page : List LedgerEvent} (inside : ∀ e ∈ page, e ∈ ledger.rows) :
    ∀ (scores : Scores) (last : Int), (page.map LedgerEvent.row).foldl (replayRow decimalOf) (scores,last) =
      (page.foldl addDelta scores,(page.map LedgerEvent.id).foldl max last) := by
  induction page with
  | nil => exact fun _ _ => rfl
  | cons e page ih =>
    intro scores last
    obtain ⟨first,others⟩ := List.forall_mem_cons.mp inside
    rw [List.map_cons,List.foldl_cons,replayRow_event exact first,ih others]
    rfl

theorem deltaSum_cons (agentId : String) (e : LedgerEvent) (rows : List LedgerEvent) :
    deltaSum agentId (e :: rows) = (if e.agentId = agentId then e.delta else 0)+deltaSum agentId rows := by
  rw [deltaSum,List.filter_cons,deltaSum]
  by_cases own : e.agentId = agentId
  · simp [own]
  · simp [own]

theorem deltaSum_absent {agentId : String} {rows : List LedgerEvent} (absent : agentId ∉ rows.map fun row => row.agentId) :
    deltaSum agentId rows = 0 := by
  rw [deltaSum,List.filter_eq_nil_iff.mpr,List.map_nil,List.sum_nil]
  intro row inside same
  exact absent (List.mem_map.mpr ⟨row,inside,of_decide_eq_true same⟩)

theorem lookup_addDelta (agentId : String) (rows : List LedgerEvent) : ∀ scores : Scores,
    (rows.foldl addDelta scores).lookup agentId = if agentId ∈ rows.map fun row => row.agentId then
      some ((scores.lookup agentId).getD 0+deltaSum agentId rows) else scores.lookup agentId := by
  induction rows with
  | nil => exact fun _ => rfl
  | cons e rows ih =>
    intro scores
    rw [List.foldl_cons,ih,deltaSum_cons]
    by_cases own : e.agentId = agentId
    · have here : agentId ∈ (e :: rows).map fun row => row.agentId := List.mem_map.mpr ⟨e,List.mem_cons_self,own⟩
      subst own
      rw [if_pos here,if_pos rfl,addDelta,AList.lookup_insert,Option.getD_some,add_assoc]
      split
      next => rfl
      next absent => rw [deltaSum_absent absent,add_zero]
    · have same : agentId ∈ ((e :: rows).map fun row => row.agentId) ↔ agentId ∈ rows.map fun row => row.agentId := by
        rw [List.map_cons,List.mem_cons,or_iff_right (Ne.symm own)]
      rw [if_neg own,zero_add,addDelta,AList.lookup_insert_ne (Ne.symm own)]
      exact (if_congr same rfl rfl).symm

theorem room_succ (left n : ℕ) : room cap (left+1) n = min pageSize (cap n)+room cap left (n+1) := by
  rw [room,Finset.sum_range_succ',Nat.add_comm,Nat.add_zero,room]
  congr 1
  apply Finset.sum_congr rfl
  intro i _
  rw [Nat.add_right_comm n 1 i,Nat.add_assoc]

theorem replayPages_response (exact : Exact decimalOf) (left n : ℕ) {front rest : List LedgerEvent}
    (scores : Scores) {last : Int} (filled : 0 < cap n)
    (split : Keyset.inOrder LedgerEvent.id ledger.rows = front ++ rest) (read : ∀ e ∈ front, e.id ≤ last)
    (ahead : ∀ e ∈ rest, last < e.id) : replayPages decimalOf (ledger.getEvents cap) (left+1) n (scores,last) =
      if rest = [] then .ok scores else replayPages decimalOf (ledger.getEvents cap) left (n+1)
        ((rest.take (min pageSize (cap n))).foldl addDelta scores,
          ((rest.take (min pageSize (cap n))).map LedgerEvent.id).foldl max last) := by
  rw [replayPages,Ledger.getEvents,Keyset.page_rest ledger.distinct split read ahead]
  cases rest with
  | nil =>
    rw [List.take_nil,if_pos rfl]
    rfl
  | cons e rest =>
    obtain ⟨size,same⟩ : ∃ size, min pageSize (cap n) = size+1 :=
      Nat.exists_eq_succ_of_ne_zero (Nat.pos_iff_ne_zero.mp (lt_min (by decide) filled))
    have inside : ∀ r ∈ (e :: rest).take (size+1), r ∈ ledger.rows := by
      intro r shown
      have listed : r ∈ front ++ e :: rest := List.mem_append_right _ (List.mem_of_mem_take shown)
      rw [← split] at listed
      exact (Keyset.inOrder_perm ledger.rows).mem_iff.mp listed
    rw [same,if_neg (List.cons_ne_nil e rest),← replayRow_page exact inside]
    rfl

theorem replayPages_ledger (exact : Exact decimalOf) (capped : ∀ n, 0 < cap n) (left : ℕ) :
    ∀ (n : ℕ) (front rest : List LedgerEvent) (scores : Scores) (last : Int),
      Keyset.inOrder LedgerEvent.id ledger.rows = front ++ rest → (∀ e ∈ front, e.id ≤ last) →
        (∀ e ∈ rest, last < e.id) → replayPages decimalOf (ledger.getEvents cap) (left+1) n (scores,last) =
          if rest.length ≤ room cap left n then .ok (rest.foldl addDelta scores)
          else .error "trust_events pagination exceeded its safety bound" := by
  induction left with
  | zero =>
    intro n front rest scores last split read ahead
    rw [replayPages_response exact 0 n scores (capped n) split read ahead,room,Finset.sum_range_zero]
    cases rest with
    | nil => rfl
    | cons e rest => rfl
  | succ left ih =>
    intro n front rest scores last split read ahead
    rw [replayPages_response exact (left+1) n scores (capped n) split read ahead]
    obtain ⟨before,after⟩ := Keyset.page_between ledger.distinct split read ahead (min pageSize (cap n))
    rw [ih (n+1) (front ++ rest.take (min pageSize (cap n))) (rest.drop (min pageSize (cap n))) _ _
      (by rw [List.append_assoc,List.take_append_drop,split]) before after]
    rw [← List.foldl_append,List.take_append_drop,List.length_drop,room_succ]
    by_cases ended : rest = []
    · subst ended
      simp
    · rw [if_neg ended]
      exact if_congr (by omega) rfl rfl

theorem replayed_pages (exact : Exact decimalOf) (capped : ∀ n, 0 < cap n) :
    replayedScoresAll decimalOf (some ⟨none,ledger.getEvents cap⟩) =
      if ledger.rows.length ≤ room cap 999999 0 then
        .ok ((Keyset.inOrder LedgerEvent.id ledger.rows).foldl addDelta ∅)
      else .error "trust_events pagination exceeded its safety bound" := by
  have ahead : ∀ e ∈ Keyset.inOrder LedgerEvent.id ledger.rows, 0 < e.id := fun e inside =>
    ledger.positive e ((Keyset.inOrder_perm ledger.rows).mem_iff.mp inside)
  have ran := replayPages_ledger exact capped 999999 0 [] (Keyset.inOrder LedgerEvent.id ledger.rows) ∅ 0
    (List.nil_append _).symm nofun ahead
  rw [(Keyset.inOrder_perm ledger.rows).length_eq] at ran
  exact ran

theorem lookup_inOrder (agentId : String) :
    ((Keyset.inOrder LedgerEvent.id ledger.rows).foldl addDelta ∅).lookup agentId = ledger.score agentId := by
  have perm := @Keyset.inOrder_perm _ _ _ LedgerEvent.id ledger.rows
  have agents : agentId ∈ ((Keyset.inOrder LedgerEvent.id ledger.rows).map fun row => row.agentId) ↔
      agentId ∈ ledger.rows.map fun row => row.agentId := (perm.map _).mem_iff
  have sums : deltaSum agentId (Keyset.inOrder LedgerEvent.id ledger.rows) = deltaSum agentId ledger.rows :=
    ((perm.filter _).map _).sum_eq
  rw [lookup_addDelta,AList.lookup_empty,Option.getD_none,zero_add,sums,Ledger.score]
  exact if_congr agents rfl rfl

theorem deltaSum_digits (agentId : String) {rows : List LedgerEvent} (inside : ∀ e ∈ rows, e ∈ ledger.rows) :
    ∃ k : ℤ, |k| ≤ 999999*rows.length ∧ deltaSum agentId rows = k/1000 := by
  induction rows with
  | nil => exact ⟨0,by simp,by simp [deltaSum]⟩
  | cons e rows ih =>
    obtain ⟨first,others⟩ := List.forall_mem_cons.mp inside
    obtain ⟨k,small,same⟩ := ih others
    obtain ⟨d,digits,delta⟩ := ledger.numeric e first
    rw [deltaSum_cons,same,List.length_cons]
    by_cases own : e.agentId = agentId
    · refine ⟨d+k,?_,?_⟩
      · have triangle := abs_add_le d k
        push_cast
        omega
      · rw [if_pos own,delta]
        push_cast
        ring
    · refine ⟨k,?_,by rw [if_neg own,zero_add]⟩
      push_cast
      omega

theorem room_le (cap : ℕ → ℕ) (responses first : ℕ) : room cap responses first ≤ responses*pageSize := by
  have bound := Finset.sum_le_card_nsmul (Finset.range responses) (fun i => min pageSize (cap (first+i))) pageSize
    fun i _ => min_le_left _ _
  rw [Finset.card_range] at bound
  exact bound

end Sums

section Aggregates
variable {decimalOf : ℚ → ℚ} {ledger : Ledger}

theorem scoresOf_absent {agentId : String} {rows : List ScoreRow} (absent : ∀ r ∈ rows, r.agentId ≠ some agentId) :
    ∀ scores : Scores, (scoresOf decimalOf rows scores).lookup agentId = scores.lookup agentId := by
  induction rows with
  | nil => exact fun _ => rfl
  | cons r rows ih =>
    intro scores
    obtain ⟨first,others⟩ := List.forall_mem_cons.mp absent
    have rest := ih others
    unfold scoresOf at rest ⊢
    rw [List.foldl_cons,rest]
    split
    next aid held => exact AList.lookup_insert_ne fun same => first (held.trans (congrArg some same.symm))
    next => rfl

theorem scoresOf_mem {agentId : String} {value : Option ℚ} {rows : List ScoreRow}
    (distinct : (rows.map ScoreRow.agentId).Nodup) (inside : (⟨some agentId,value⟩ : ScoreRow) ∈ rows) :
    ∀ scores : Scores, (scoresOf decimalOf rows scores).lookup agentId = some (decimal decimalOf value) := by
  induction rows with
  | nil => cases inside
  | cons r rows ih =>
    intro scores
    obtain ⟨fresh,distinct⟩ := List.nodup_cons.mp distinct
    obtain rfl | later := List.mem_cons.mp inside
    · have missing : ∀ r ∈ rows, r.agentId ≠ some agentId := fun r member same =>
        fresh (List.mem_map.mpr ⟨r,member,same⟩)
      have kept := @scoresOf_absent decimalOf agentId rows missing (scores.insert agentId (decimal decimalOf value))
      rw [AList.lookup_insert] at kept
      exact kept
    · exact ih distinct later _

theorem lookup_aggregate (exact : Exact decimalOf) (few : ledger.rows.length ≤ 999999000) {answer : List ScoreRow}
    (aggregated : answer.Perm ledger.aggregate) (agentId : String) :
    (scoresOf decimalOf answer ∅).lookup agentId = ledger.score agentId := by
  have distinct : (answer.map ScoreRow.agentId).Nodup := by
    rw [(aggregated.map ScoreRow.agentId).nodup_iff,Ledger.aggregate,List.map_map]
    exact (List.nodup_dedup _).map (Option.some_injective _)
  unfold Ledger.score
  split
  next present =>
    have inside : (⟨some agentId,some (deltaSum agentId ledger.rows)⟩ : ScoreRow) ∈ answer :=
      aggregated.mem_iff.mpr (List.mem_map.mpr ⟨agentId,List.mem_dedup.mpr present,rfl⟩)
    obtain ⟨k,small,same⟩ := @deltaSum_digits ledger agentId ledger.rows fun _ member => member
    rw [scoresOf_mem distinct inside,decimal_exact exact (by omega) same]
  next absent =>
    rw [scoresOf_absent,AList.lookup_empty]
    intro r member same
    obtain ⟨other,listed,rfl⟩ := List.mem_map.mp (aggregated.mem_iff.mp member)
    obtain rfl := Option.some.inj same
    exact absent (List.mem_dedup.mp listed)

end Aggregates

/-- Whenever the responses before the last that the loop allows may hold the ledger, both paths
give the sum of each agent's deltas; otherwise the loop gives up, and gives no scores. -/
theorem replays_agree (decimalOf : ℚ → ℚ) (exact : Exact decimalOf) (ledger : Ledger) (cap : ℕ → ℕ)
    (capped : ∀ n, 0 < cap n) (answer : List ScoreRow) (aggregated : answer.Perm ledger.aggregate) :
    (ledger.rows.length ≤ room cap 999999 0 → ∃ paged grouped,
      replayedScoresAll decimalOf (some ⟨none,ledger.getEvents cap⟩) = .ok paged ∧
        replayedScoresAll decimalOf (some ⟨some answer,ledger.getEvents cap⟩) = .ok grouped ∧
          ∀ agentId, paged.lookup agentId = ledger.score agentId ∧ grouped.lookup agentId = ledger.score agentId) ∧
      (room cap 999999 0 < ledger.rows.length → replayedScoresAll decimalOf (some ⟨none,ledger.getEvents cap⟩) =
        .error "trust_events pagination exceeded its safety bound") := by
  constructor
  · intro fits
    have few : ledger.rows.length ≤ 999999000 := fits.trans (room_le cap 999999 0)
    exact ⟨_,_,(replayed_pages exact capped).trans (if_pos fits),rfl,fun agentId =>
      ⟨lookup_inOrder agentId,lookup_aggregate exact few aggregated agentId⟩⟩
  · exact fun more => (replayed_pages exact capped).trans (if_neg (Nat.not_le.mpr more))

section Samples

def annLedger (count : ℕ) : Ledger where
  rows := (List.range count).map fun (n : ℕ) => ⟨⟨"ann","intent_response_useful",none,none,1,none,0⟩,(n : Int)+1⟩
  distinct := by
    rw [List.map_map]
    refine List.Nodup.map (fun m n same => ?_) List.nodup_range
    simpa using same
  positive := by
    intro row inside
    obtain ⟨n,_,rfl⟩ := List.mem_map.mp inside
    exact Int.natCast_succ_pos n
  numeric := by
    intro row inside
    obtain ⟨n,_,rfl⟩ := List.mem_map.mp inside
    exact ⟨1000,by norm_num,by norm_num⟩

theorem length_annLedger (count : ℕ) : (annLedger count).rows.length = count := by
  rw [annLedger,List.length_map,List.length_range]

theorem room_one (responses first : ℕ) : room (fun _ => 1) responses first = responses := by
  rw [room,Finset.sum_const,Finset.card_range]
  exact Nat.mul_one responses

theorem two_events_agree : ∃ paged grouped,
    replayedScoresAll id (some ⟨none,(annLedger 2).getEvents fun _ => 1⟩) = .ok paged ∧
      replayedScoresAll id (some ⟨some (annLedger 2).aggregate,(annLedger 2).getEvents fun _ => 1⟩) = .ok grouped ∧
        ∀ agentId, paged.lookup agentId = (annLedger 2).score agentId ∧
          grouped.lookup agentId = (annLedger 2).score agentId := by
  apply (replays_agree id (fun _ _ => rfl) (annLedger 2) (fun _ => 1) (fun _ => Nat.one_pos) (annLedger 2).aggregate
    (.refl _)).1
  rw [length_annLedger,room_one]
  norm_num

/-- A million rows, one in a response. -/
theorem million_given_up : replayedScoresAll id (some ⟨none,(annLedger 1000000).getEvents fun _ => 1⟩) =
    .error "trust_events pagination exceeded its safety bound" := by
  have more : ¬ (annLedger 1000000).rows.length ≤ room (fun _ => 1) 999999 0 := by
    rw [length_annLedger,room_one]
    norm_num
  exact (replayed_pages (fun _ _ => rfl) fun _ => Nat.one_pos).trans (if_neg more)

end Samples

end Orrery.Trust
