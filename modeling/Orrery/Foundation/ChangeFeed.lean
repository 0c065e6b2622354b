import Mathlib.Data.List.TakeWhile
import Mathlib.Data.Set.Insert

/-! Numbered feeds of changes to a set, and a reader who applies them from its own place
on. What matters of a reader is what it will hold once it has read everything there is. -/
namespace Orrery.Foundation.ChangeFeed

inductive Action
  | upsert
  | delete
deriving DecidableEq

structure Delta (ι : Type) where
  seq : Nat
  action : Action
  id : ι
deriving DecidableEq

structure Store (ι : Type) where
  seq : Nat
  deltas : List (Delta ι)

structure Reader (ι : Type) where
  cursor : Nat
  held : List ι

variable {ι : Type}

def Store.add (store : Store ι) (action : Action) (id : ι) : Store ι :=
  ⟨store.seq+1,store.deltas ++ [⟨store.seq+1,action,id⟩]⟩

def Store.since (store : Store ι) (n : Nat) : List (Delta ι) := store.deltas.filter fun delta => n < delta.seq

structure Store.Numbered (store : Store ι) : Prop where
  increasing : store.deltas.Pairwise fun a b => a.seq < b.seq
  given : ∀ delta ∈ store.deltas, delta.seq ≤ store.seq

variable [DecidableEq ι]

def applyDelta (held : List ι) (delta : Delta ι) : List ι :=
  match delta.action with
  | .upsert => if delta.id ∈ held then held else held ++ [delta.id]
  | .delete => held.filter (· ≠ delta.id)

def Reader.read (reader : Reader ι) (store : Store ι) (n : Nat) : Reader ι :=
  let taken := (store.since reader.cursor).take n
  ⟨(taken.getLast?.map Delta.seq).getD reader.cursor,taken.foldl applyDelta reader.held⟩

def Reader.outcome (reader : Reader ι) (store : Store ι) : List ι :=
  (store.since reader.cursor).foldl applyDelta reader.held

def Action.on (action : Action) (id : ι) (held : Set ι) : Set ι :=
  match action with
  | .upsert => insert id held
  | .delete => held \ {id}

omit [DecidableEq ι] in
theorem Store.numbered_empty (seq : Nat) : (⟨seq,[]⟩ : Store ι).Numbered := by
  constructor
  · exact .nil
  · intro delta inside
    cases inside

omit [DecidableEq ι] in
theorem Store.Numbered.add {store : Store ι} (numbered : store.Numbered) (action : Action) (id : ι) :
    (store.add action id).Numbered := by
  constructor
  · rw [Store.add,List.pairwise_append]
    refine ⟨numbered.increasing,List.pairwise_singleton _ _,?_⟩
    intro old before new last
    rw [List.mem_singleton.mp last]
    exact Nat.lt_succ_of_le (numbered.given old before)
  · intro delta inside
    rcases List.mem_append.mp inside with old | last
    · exact Nat.le_succ_of_le (numbered.given delta old)
    · rw [List.mem_singleton.mp last]
      exact Nat.le_refl _

omit [DecidableEq ι] in
theorem Store.since_add {store : Store ι} {n : Nat} (behind : n ≤ store.seq) (action : Action) (id : ι) :
    (store.add action id).since n = store.since n ++ [⟨store.seq+1,action,id⟩] := by
  have new : n < store.seq+1 := Nat.lt_succ_of_le behind
  simp [Store.since,Store.add,List.filter_append,new]

theorem mem_applyDelta (held : List ι) (delta : Delta ι) :
    {x | x ∈ applyDelta held delta} = delta.action.on delta.id {x | x ∈ held} := by
  ext x
  unfold applyDelta
  cases delta.action with
  | upsert =>
    by_cases inside : delta.id ∈ held
    · simp only [inside,if_true,Action.on,Set.mem_ofPred_eq,Set.mem_insert_iff]
      constructor
      · exact Or.inr
      · rintro (rfl | old)
        · exact inside
        · exact old
    · simp [inside,Action.on,or_comm]
  | delete => simp [Action.on]

theorem Reader.outcome_add {reader : Reader ι} {store : Store ι} (behind : reader.cursor ≤ store.seq) (action : Action)
    (id : ι) : {x | x ∈ reader.outcome (store.add action id)} = action.on id {x | x ∈ reader.outcome store} := by
  rw [Reader.outcome,Store.since_add behind,List.foldl_append]
  exact mem_applyDelta _ _

theorem Reader.outcome_behind {reader : Reader ι} {store : Store ι} (read : store.since reader.cursor = []) :
    reader.outcome store = reader.held := by
  rw [Reader.outcome,read]
  rfl

section Reading
variable {reader : Reader ι} {store : Store ι}

theorem Reader.read_cursor (numbered : store.Numbered) (behind : reader.cursor ≤ store.seq) (n : Nat) :
    (reader.read store n).cursor ≤ store.seq := by
  unfold Reader.read
  cases last : ((store.since reader.cursor).take n).getLast? with
  | none => simpa [last] using behind
  | some delta =>
    have inside : delta ∈ store.deltas := by
      have taken := List.mem_of_mem_take (List.mem_of_getLast? last)
      exact (List.mem_filter.mp taken).1
    simpa [last] using numbered.given delta inside

omit [DecidableEq ι] in
theorem filter_after {deltas : List (Delta ι)} (increasing : deltas.Pairwise fun a b => a.seq < b.seq) {n : Nat}
    {last : Delta ι} (taken : (deltas.take n).getLast? = some last) :
    (deltas.filter fun delta => last.seq < delta.seq) = deltas.drop n := by
  have apart := increasing
  rw [← List.take_append_drop n deltas,List.pairwise_append] at apart
  obtain ⟨before,_,across⟩ := apart
  have first : (deltas.take n).filter (fun delta => decide (last.seq < delta.seq)) = [] := by
    rw [List.filter_eq_nil_iff]
    intro delta inside
    obtain ⟨initial,split⟩ := List.getLast?_eq_some_iff.mp taken
    rw [split] at before inside
    rcases List.mem_append.mp inside with earlier | same
    · have below := (List.pairwise_append.mp before).2.2 delta earlier last (List.mem_singleton_self _)
      simpa using below.le
    · rw [List.mem_singleton.mp same]
      simp
  have second : (deltas.drop n).filter (fun delta => decide (last.seq < delta.seq)) = deltas.drop n := by
    rw [List.filter_eq_self]
    intro delta inside
    simpa using across last (List.mem_of_getLast? taken) delta inside
  calc deltas.filter (fun delta => decide (last.seq < delta.seq))
      = (deltas.take n ++ deltas.drop n).filter (fun delta => decide (last.seq < delta.seq)) := by
        rw [List.take_append_drop]
    _ = deltas.drop n := by rw [List.filter_append,first,second,List.nil_append]

theorem since_taken (numbered : store.Numbered) (n : Nat) :
    store.since (reader.read store n).cursor = (store.since reader.cursor).drop n := by
  cases taken : ((store.since reader.cursor).take n).getLast? with
  | none =>
    have still : (reader.read store n).cursor = reader.cursor := by simp [Reader.read,taken]
    have empty := List.getLast?_eq_none_iff.mp taken
    have whole := List.take_append_drop n (store.since reader.cursor)
    rw [empty,List.nil_append] at whole
    rw [still]
    exact whole.symm
  | some last =>
    have moved : (reader.read store n).cursor = last.seq := by simp [Reader.read,taken]
    have sorted : (store.since reader.cursor).Pairwise fun a b => a.seq < b.seq := numbered.increasing.filter _
    have beyond : reader.cursor < last.seq := by
      have inside := List.mem_of_mem_take (List.mem_of_getLast? taken)
      simpa [Store.since] using (List.mem_filter.mp inside).2
    rw [moved,← filter_after sorted taken,Store.since,Store.since,List.filter_filter]
    apply List.filter_congr
    intro delta _
    have same : last.seq < delta.seq ∧ reader.cursor < delta.seq ↔ last.seq < delta.seq := by omega
    rw [← Bool.decide_and,decide_eq_decide]
    exact same.symm

theorem Reader.outcome_read (numbered : store.Numbered) (n : Nat) :
    (reader.read store n).outcome store = reader.outcome store := by
  rw [Reader.outcome,since_taken numbered,Reader.outcome]
  conv_rhs => rw [← List.take_append_drop n (store.since reader.cursor),List.foldl_append]
  rfl

end Reading

end Orrery.Foundation.ChangeFeed
