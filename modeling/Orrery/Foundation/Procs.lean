import Mathlib.Data.List.AList
import Orrery.Foundation.Runs

/-! Programs that wait for the answer of each of their calls, by themselves and side by
side: between two calls of one program, others make theirs. -/
namespace Orrery.Foundation

inductive Proc (Act : Type) (ans : Act → Type) (β : Type)
  | done (result : β)
  | call (act : Act) (resume : ans act → Proc Act ans β)

namespace Proc
variable {Act : Type} {ans : Act → Type} {α β ι : Type}

def bind : Proc Act ans α → (α → Proc Act ans β) → Proc Act ans β
  | .done a, next => next a
  | .call act resume, next => .call act fun answer => (resume answer).bind next

instance : Monad (Proc Act ans) where
  pure := .done
  bind := bind

theorem bind_eq (p : Proc Act ans α) (next : α → Proc Act ans β) : (p >>= next) = p.bind next := rfl

theorem pure_eq (a : α) : (pure a : Proc Act ans α) = .done a := rfl

theorem map_eq (f : α → β) (p : Proc Act ans α) : f <$> p = p.bind fun a => .done (f a) := rfl

def each (body : ι → Proc Act ans α) : List ι → Proc Act ans (List α)
  | [] => .done []
  | i :: rest => (body i).bind fun a => (each body rest).bind fun further => .done (a :: further)

section Answers
variable {σ ε : Type} (exec : ε → (act : Act) → σ → ans act × σ)

def run : (Nat → ε) → Proc Act ans β → σ → β × σ × (Nat → ε)
  | env, .done b, s => (b,s,env)
  | env, .call act resume, s => run (fun n => env (n+1)) (resume (exec (env 0) act s).1) (exec (env 0) act s).2

/-- Every call is an allowed one and the result meets `post`, as long as the calls are
answered in states of `rely`, whatever others do between them. -/
def Along (ok : Act → Prop) (rely : σ → Prop) (post : β → Prop) : Proc Act ans β → Prop
  | .done b => post b
  | .call act resume => ok act ∧ ∀ e s, rely s → Along ok rely post (resume (exec e act s).1)

variable {exec} {ok : Act → Prop} {rely : σ → Prop} {post : β → Prop}

theorem run_done (env : Nat → ε) (b : β) (s : σ) : run exec env (.done b : Proc Act ans β) s = (b,s,env) := rfl

theorem run_bind (p : Proc Act ans α) (next : α → Proc Act ans β) : ∀ (env : Nat → ε) (s : σ),
    run exec env (p.bind next) s =
      run exec (run exec env p s).2.2 (next (run exec env p s).1) (run exec env p s).2.1 := by
  induction p with
  | done a => exact fun _ _ => rfl
  | call act resume ih => exact fun env s => ih (exec (env 0) act s).1 (fun n => env (n+1)) (exec (env 0) act s).2

theorem Along.mono {ok' : Act → Prop} {rely' : σ → Prop} {post' : β → Prop} (acts : ∀ act, ok act → ok' act)
    (states : ∀ s, rely' s → rely s) (results : ∀ b, post b → post' b) {p : Proc Act ans β} :
    Along exec ok rely post p → Along exec ok' rely' post' p := by
  induction p with
  | done b => exact results b
  | call act resume ih =>
    intro along
    exact ⟨acts act along.1,fun e s inside => ih _ (along.2 e s (states s inside))⟩

theorem Along.bind {mid : α → Prop} {p : Proc Act ans α} {next : α → Proc Act ans β} :
    Along exec ok rely mid p → (∀ a, mid a → Along exec ok rely post (next a)) →
      Along exec ok rely post (p.bind next) := by
  induction p with
  | done a => exact fun along further => further a along
  | call act resume ih =>
    intro along further
    exact ⟨along.1,fun e s inside => ih _ (along.2 e s inside) further⟩

theorem Along.each {body : ι → Proc Act ans α} {mid : α → Prop} {items : List ι}
    (along : ∀ i ∈ items, Along exec ok rely mid (body i)) :
    Along exec ok rely (fun results => ∀ a ∈ results, mid a) (each body items) := by
  induction items with
  | nil => exact fun a member => absurd member List.not_mem_nil
  | cons i rest ih =>
    apply Along.bind (along i List.mem_cons_self)
    intro a meets
    apply Along.bind (ih fun j member => along j (List.mem_cons_of_mem _ member))
    intro further all
    exact List.forall_mem_cons.mpr ⟨meets,all⟩

theorem Along.run {p : Proc Act ans β} (keeps : ∀ e act s, ok act → rely s → rely (exec e act s).2) :
    Along exec ok rely post p → ∀ (env : Nat → ε) (s : σ), rely s →
      post (run exec env p s).1 ∧ rely (run exec env p s).2.1 := by
  induction p with
  | done b => exact fun along _ _ inside => ⟨along,inside⟩
  | call act resume ih =>
    intro along env s inside
    exact ih _ (along.2 (env 0) s inside) _ _ (keeps _ _ _ along.1 inside)

end Answers

end Proc

/-- A call that is under way: what was asked for, and what is left of its program. -/
structure Task (Op Act : Type) (ans : Act → Type) (β : Type) where
  op : Op
  rest : Proc Act ans β

inductive Moment (Op Act β : Type)
  | did (act : Act)
  | returned (op : Op) (result : β)

/-- Programs under way over one store, and what has happened, latest first. -/
structure Pool (Op Act : Type) (ans : Act → Type) (β σ : Type) where
  store : σ
  live : AList fun _ : Nat => Task Op Act ans β
  past : List (Moment Op Act β)

inductive Turn (Op ε : Type)
  | start (id : Nat) (op : Op)
  | advance (id : Nat) (e : ε)

namespace Pool
variable {Op Act : Type} {ans : Act → Type} {β σ ε : Type}

def settle (pool : Pool Op Act ans β σ) (id : Nat) (op : Op) : Proc Act ans β → Pool Op Act ans β σ
  | .done b => { pool with live := pool.live.erase id, past := .returned op b :: pool.past }
  | .call act resume => { pool with live := pool.live.insert id ⟨op,.call act resume⟩ }

def after (exec : ε → (act : Act) → σ → ans act × σ) (pool : Pool Op Act ans β σ) (e : ε) (act : Act) :
    Pool Op Act ans β σ :=
  { pool with store := (exec e act pool.store).2, past := .did act :: pool.past }

def step (exec : ε → (act : Act) → σ → ans act × σ) (program : Op → Proc Act ans β) (pool : Pool Op Act ans β σ) :
    Turn Op ε → Option (Pool Op Act ans β σ)
  | .start id op =>
    match pool.live.lookup id with
    | some _ => none
    | none => some (pool.settle id op (program op))
  | .advance id e =>
    match pool.live.lookup id with
    | some ⟨op,.call act resume⟩ => some ((pool.after exec e act).settle id op (resume (exec e act pool.store).1))
    | _ => none

section Steps
variable {exec : ε → (act : Act) → σ → ans act × σ} {program : Op → Proc Act ans β} {pool pool' : Pool Op Act ans β σ}

theorem step_start {id : Nat} {op : Op} (stepped : pool.step exec program (.start id op) = some pool') :
    pool' = pool.settle id op (program op) := by
  rw [step] at stepped
  split at stepped
  next => cases stepped
  next => exact (Option.some.inj stepped).symm

theorem step_fresh {id : Nat} {op : Op} (stepped : pool.step exec program (.start id op) = some pool') :
    pool.live.lookup id = none := by
  rw [step] at stepped
  split at stepped
  next => cases stepped
  next fresh => exact fresh

theorem started_op {id : Nat} {op : Op} {task : Task Op Act ans β}
    (stepped : pool.step exec program (.start id op) = some pool') (live : pool'.live.lookup id = some task) :
    task.op = op := by
  rw [step_start stepped] at live
  cases own : program op with
  | done b =>
    rw [own,settle,AList.lookup_erase] at live
    cases live
  | call act resume =>
    rw [own,settle,AList.lookup_insert] at live
    cases live
    rfl

theorem step_advance {id : Nat} {e : ε} (stepped : pool.step exec program (.advance id e) = some pool') :
    ∃ op act resume, pool.live.lookup id = some ⟨op,.call act resume⟩ ∧
      pool' = (pool.after exec e act).settle id op (resume (exec e act pool.store).1) := by
  rw [step] at stepped
  split at stepped
  next op act resume found => exact ⟨op,act,resume,found,(Option.some.inj stepped).symm⟩
  next => cases stepped

@[simp] theorem settle_store (id : Nat) (op : Op) (p : Proc Act ans β) : (pool.settle id op p).store = pool.store := by
  cases p <;> rfl

theorem settle_other {id other : Nat} (apart : other ≠ id) (op : Op) (p : Proc Act ans β) :
    (pool.settle id op p).live.lookup other = pool.live.lookup other := by
  cases p with
  | done b => exact AList.lookup_erase_ne apart
  | call act resume => exact AList.lookup_insert_ne apart

theorem step_live {id : Nat} {op : Op} {act : Act} {resume : ans act → Proc Act ans β} (e : ε)
    (live : pool.live.lookup id = some ⟨op,.call act resume⟩) : pool.step exec program (.advance id e) =
      some ((pool.after exec e act).settle id op (resume (exec e act pool.store).1)) := by
  rw [step,live]

theorem settle_past (id : Nat) (op : Op) (p : Proc Act ans β) : (pool.settle id op p).past = pool.past ∨
    ∃ b, p = .done b ∧ (pool.settle id op p).past = .returned op b :: pool.past := by
  cases p with
  | done b => exact Or.inr ⟨b,rfl,rfl⟩
  | call act resume => exact Or.inl rfl

theorem settle_live {P : Nat → Task Op Act ans β → Prop} {id : Nat} {op : Op} {p : Proc Act ans β}
    (others : ∀ other task, other ≠ id → pool.live.lookup other = some task → P other task) (own : P id ⟨op,p⟩) :
    ∀ other task, (pool.settle id op p).live.lookup other = some task → P other task := by
  intro other task found
  by_cases here : other = id
  · rw [here] at found
    cases p with
    | done b => simp [settle] at found
    | call act resume =>
      rw [settle,AList.lookup_insert] at found
      cases found
      rw [here]
      exact own
  · apply others other task here
    cases p with
    | done b => rwa [settle,AList.lookup_erase_ne here] at found
    | call act resume => rwa [settle,AList.lookup_insert_ne here] at found

end Steps

end Pool

end Orrery.Foundation
