import Orrery.Foundation.Procs

/-! What fits the store of the programs under way on it, and how many of them count. -/
namespace Orrery.Foundation

namespace Proc
variable {Act : Type} {ans : Act → Type} {β σ ε : Type} {exec : ε → (act : Act) → σ → ans act × σ}

theorem run_fit {Good : σ → Prop} {Fit : Proc Act ans β → σ → Prop} {ok : ε → Prop}
    (answered : ∀ e act resume s, ok e → Good s → Fit (.call act resume) s →
      Good (exec e act s).2 ∧ Fit (resume (exec e act s).1) (exec e act s).2) (p : Proc Act ans β) :
    ∀ (env : Nat → ε) (s : σ), (∀ n, ok (env n)) → Good s → Fit p s → Good (run exec env p s).2.1 := by
  induction p with
  | done b => exact fun _ _ _ good _ => good
  | call act resume ih =>
    intro env s fine good fits
    obtain ⟨good',fits'⟩ := answered (env 0) act resume s (fine 0) good fits
    exact ih _ _ _ (fun n => fine (n+1)) good' fits'

def Owes (marked : Act → Prop) (post : β → Prop) : Proc Act ans β → Prop
  | .done b => post b
  | .call act resume => marked act ∨ ∀ answer, Owes marked post (resume answer)

section Owing
variable {α : Type} {marked : Act → Prop} {post : β → Prop}

theorem Owes.bind {next : α → Proc Act ans β} (p : Proc Act ans α) (owes : ∀ a, Owes marked post (next a)) :
    Owes marked post (p.bind next) := by
  induction p with
  | done a => exact owes a
  | call act resume ih => exact Or.inr ih

theorem Owes.map {f : α → β} {p : Proc Act ans α} (owes : Owes marked (fun a => post (f a)) p) :
    Owes marked post (f <$> p) := by
  rw [map_eq]
  induction p with
  | done a => exact owes
  | call act resume ih => exact owes.imp id fun later answer => ih answer (later answer)

end Owing

end Proc

namespace Pool

variable {Op Act : Type} {ans : Act → Type} {β σ ε : Type}

section Fitting
variable (Fit : Op → Proc Act ans β → σ → Prop)

def AllFit (pool : Pool Op Act ans β σ) : Prop :=
  ∀ id task, pool.live.lookup id = some task → Fit task.op task.rest pool.store

variable {Fit} {pool : Pool Op Act ans β σ} {id : Nat} {op : Op} {p : Proc Act ans β} {act : Act}
  {exec : ε → (act : Act) → σ → ans act × σ} {e : ε}

theorem AllFit.opened (s : σ) : AllFit Fit (⟨s,∅,[]⟩ : Pool Op Act ans β σ) := by
  intro id task live
  cases live

theorem AllFit.settle (all : AllFit Fit pool) (own : Fit op p pool.store) : AllFit Fit (pool.settle id op p) := by
  intro other task live
  rw [settle_store]
  exact settle_live (fun other task _ live => all other task live) own other task live

theorem AllFit.advanced (own : Fit op p (exec e act pool.store).2)
    (others : ∀ other task, other ≠ id → pool.live.lookup other = some task →
      Fit task.op task.rest (exec e act pool.store).2) : AllFit Fit ((pool.after exec e act).settle id op p) := by
  have settled : ∀ other task, ((pool.after exec e act).settle id op p).live.lookup other = some task →
      Fit task.op task.rest (exec e act pool.store).2 := settle_live others own
  intro other task live
  rw [settle_store]
  exact settled other task live

end Fitting

end Pool

end Orrery.Foundation
