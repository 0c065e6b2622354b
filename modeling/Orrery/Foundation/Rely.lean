import Orrery.Foundation.UnderWay

/-! Programs among others: what a program relies on between its calls, and what its calls
guarantee to the others. -/
namespace Orrery.Foundation

namespace Proc
variable {Act : Type} {ans : Act → Type} {α β σ ε : Type} (exec : ε → (act : Act) → σ → ans act × σ)
  (rely guar : σ → σ → Prop)

/-- From a state on, with changes of `rely` before each call: every call makes a change of
`guar`, and what is returned meets `post` in the states that follow. -/
def Safe (post : β → σ → Prop) : Proc Act ans β → σ → Prop
  | .done b, s => ∀ s', rely s s' → post b s'
  | .call act resume, s => ∀ e s', rely s s' →
      guar s' (exec e act s').2 ∧ Safe post (resume (exec e act s').1) (exec e act s').2

variable {exec rely guar} {post : β → σ → Prop} {s s' : σ}

theorem Safe.later (trans : ∀ a b c, rely a b → rely b c → rely a c) {p : Proc Act ans β}
    (safe : Safe exec rely guar post p s) (change : rely s s') : Safe exec rely guar post p s' := by
  cases p with
  | done b => exact fun s'' further => safe s'' (trans s s' s'' change further)
  | call act resume => exact fun e s'' further => safe e s'' (trans s s' s'' change further)

theorem Safe.mono {rely' guar' : σ → σ → Prop} {post' : β → σ → Prop} (relies : ∀ a b, rely' a b → rely a b)
    (guarantees : ∀ a b, guar a b → guar' a b) (results : ∀ b s, post b s → post' b s) {p : Proc Act ans β} :
    ∀ {s : σ}, Safe exec rely guar post p s → Safe exec rely' guar' post' p s := by
  induction p with
  | done b => exact fun safe s' change => results b s' (safe s' (relies _ _ change))
  | call act resume ih =>
    intro s safe e s' change
    obtain ⟨guaranteed,rest⟩ := safe e s' (relies s s' change)
    exact ⟨guarantees _ _ guaranteed,ih _ rest⟩

theorem Safe.bind (refl : ∀ s, rely s s) {mid : α → σ → Prop} {p : Proc Act ans α} {next : α → Proc Act ans β} :
    ∀ {s : σ}, Safe exec rely guar mid p s → (∀ a s', mid a s' → Safe exec rely guar post (next a) s') →
      Safe exec rely guar post (p.bind next) s := by
  induction p with
  | done a => exact fun safe further => further a _ (safe _ (refl _))
  | call act resume ih =>
    intro s safe further e s' change
    exact ⟨(safe e s' change).1,ih _ (safe e s' change).2 further⟩

theorem Safe.along {ok : Act → Prop} {ends : β → Prop} (acts : ∀ e act s, ok act → guar s (exec e act s).2)
    (results : ∀ b s, ends b → post b s) {p : Proc Act ans β} :
    ∀ s, Along exec ok (fun _ => True) ends p → Safe exec rely guar post p s := by
  induction p with
  | done b => exact fun _ along s' _ => results b s' along
  | call act resume ih => exact fun _ along e s' _ => ⟨acts e act s' along.1,ih _ _ (along.2 e s' trivial)⟩

end Proc

namespace Pool
variable {Op Act : Type} {ans : Act → Type} {β σ ε : Type} {exec : ε → (act : Act) → σ → ans act × σ}
  {rely guar : Op → σ → σ → Prop} {post : Op → β → σ → Prop} {pool : Pool Op Act ans β σ} {id : Nat} {op : Op}
  {act : Act} {resume : ans act → Proc Act ans β} {e : ε}

abbrev AllSafe (exec : ε → (act : Act) → σ → ans act × σ) (rely guar : Op → σ → σ → Prop) (post : Op → β → σ → Prop)
    (pool : Pool Op Act ans β σ) : Prop :=
  pool.AllFit fun op p s => p.Safe exec (rely op) (guar op) (post op) s

theorem AllSafe.answered (refl : ∀ op s, rely op s s) (trans : ∀ op a b c, rely op a b → rely op b c → rely op a c)
    (all : pool.AllSafe exec rely guar post) (live : pool.live.lookup id = some ⟨op,.call act resume⟩)
    (fits : ∀ other task, other ≠ id → pool.live.lookup other = some task → ∀ s s', guar op s s' → rely task.op s s') :
    guar op pool.store (exec e act pool.store).2 ∧
      ((pool.after exec e act).settle id op (resume (exec e act pool.store).1)).AllSafe exec rely guar post := by
  obtain ⟨guaranteed,own⟩ := all id _ live e pool.store (refl op pool.store)
  refine ⟨guaranteed,AllFit.advanced own fun other task apart live' => ?_⟩
  exact (all other task live').later (trans task.op) (fits other task apart live' _ _ guaranteed)

end Pool

end Orrery.Foundation
