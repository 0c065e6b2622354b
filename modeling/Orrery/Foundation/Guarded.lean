import Orrery.Foundation.Procs

/-! Programs whose every call is allowed in whatever state the others have moved the
store to since the program last looked at it. -/
namespace Orrery.Foundation

namespace Proc
variable {Act : Type} {ans : Act → Type} {α β σ ε : Type}

/-- Wherever the store may have moved along `le`, the next call is allowed there, and so
are those after it, until the result meets `post`. -/
def Guarded (exec : ε → (act : Act) → σ → ans act × σ) (le : σ → σ → Prop) (ok : Act → σ → Prop) (post : β → σ → Prop) :
    Proc Act ans β → σ → Prop
  | .done b, s => post b s
  | .call act resume, s => ∀ s', le s s' →
      ok act s' ∧ ∀ e, Guarded exec le ok post (resume (exec e act s').1) (exec e act s').2

variable {exec : ε → (act : Act) → σ → ans act × σ} {le : σ → σ → Prop} {ok : Act → σ → Prop} {post : β → σ → Prop}

theorem Guarded.later (trans : ∀ a b c, le a b → le b c → le a c) (stable : ∀ b s s', le s s' → post b s → post b s')
    {p : Proc Act ans β} {s s' : σ} (guarded : Guarded exec le ok post p s) (moved : le s s') :
    Guarded exec le ok post p s' := by
  cases p with
  | done b => exact stable b s s' moved guarded
  | call act resume => exact fun t further => guarded t (trans s s' t moved further)

theorem Guarded.bind {mid : α → σ → Prop} {p : Proc Act ans α} {next : α → Proc Act ans β} : ∀ {s : σ},
    Guarded exec le ok mid p s → (∀ a s', mid a s' → Guarded exec le ok post (next a) s') →
      Guarded exec le ok post (p.bind next) s := by
  induction p with
  | done a => exact fun guarded further => further a _ guarded
  | call act resume ih =>
    intro s guarded further s' moved
    exact ⟨(guarded s' moved).1,fun e => ih _ ((guarded s' moved).2 e) further⟩

end Proc

namespace Pool
variable {Op Act : Type} {ans : Act → Type} {β σ ε : Type} {exec : ε → (act : Act) → σ → ans act × σ}
  {le : σ → σ → Prop} {ok : Act → σ → Prop} {post : β → σ → Prop} {program : Op → Proc Act ans β}
  {pool pool' : Pool Op Act ans β σ}

def AllGuarded (exec : ε → (act : Act) → σ → ans act × σ) (le : σ → σ → Prop) (ok : Act → σ → Prop)
    (post : β → σ → Prop)
    (pool : Pool Op Act ans β σ) : Prop :=
  ∀ id task, pool.live.lookup id = some task → task.rest.Guarded exec le ok post pool.store

theorem AllGuarded.step (refl : ∀ s, le s s) (trans : ∀ a b c, le a b → le b c → le a c)
    (stable : ∀ b s s', le s s' → post b s → post b s') (moves : ∀ e act s, ok act s → le s (exec e act s).2)
    {turn : Turn Op ε} (starts : ∀ op, (program op).Guarded exec le ok post pool.store)
    (all : pool.AllGuarded exec le ok post) (stepped : pool.step exec program turn = some pool') :
    pool'.AllGuarded exec le ok post ∧ (pool'.store = pool.store ∨
      ∃ id e act, turn = .advance id e ∧ ok act pool.store ∧ pool'.store = (exec e act pool.store).2) := by
  cases turn with
  | start id op =>
    obtain rfl := step_start stepped
    rw [AllGuarded,settle_store]
    refine ⟨settle_live ?_ (starts op),.inl rfl⟩
    exact fun other task _ found => all other task found
  | advance id e =>
    obtain ⟨op,act,resume,found,rfl⟩ := step_advance stepped
    have here := all id _ found pool.store (refl _)
    have moved : le pool.store (exec e act pool.store).2 := moves e act pool.store here.1
    rw [AllGuarded,settle_store]
    refine ⟨settle_live ?_ (here.2 e),.inr ⟨id,e,act,rfl,here.1,rfl⟩⟩
    intro other task _ live
    exact (all other task live).later trans stable moved

end Pool

end Orrery.Foundation
