import Orrery.Foundation.Procs

/-! A section of a program that one program at a time is inside of, and that ends, once for
all, in a moment that counts. -/
namespace Orrery.Foundation.Pool

variable {Op Act : Type} {ans : Act → Type} {β σ ε : Type}

section Definitions
variable (pool : Pool Op Act ans β σ)

def Inside (critical : Proc Act ans β → Prop) (id : Nat) : Prop :=
  ∃ task, pool.live.lookup id = some task ∧ critical task.rest

def count (counts : Moment Op Act β → Bool) : Nat := pool.past.countP counts

structure Exclusive (critical : Proc Act ans β → Prop) (counts : Moment Op Act β → Bool) : Prop where
  alone : ∀ one two, pool.Inside critical one → pool.Inside critical two → one = two
  closed : 0 < pool.count counts → ∀ id, ¬ pool.Inside critical id
  once : pool.count counts ≤ 1

end Definitions

variable {pool : Pool Op Act ans β σ} {critical : Proc Act ans β → Prop} {counts : Moment Op Act β → Bool} {id : Nat}
  {op : Op} {p : Proc Act ans β}

theorem Exclusive.opened {s : σ} : (⟨s,∅,[]⟩ : Pool Op Act ans β σ).Exclusive critical counts where
  alone _ _ inside := by
    obtain ⟨_,live,_⟩ := inside
    cases live
  closed counted := absurd counted (Nat.lt_irrefl 0)
  once := Nat.zero_le 1

theorem Inside.settled {other : Nat} (inside : (pool.settle id op p).Inside critical other) :
    other ≠ id ∧ pool.Inside critical other ∨ other = id ∧ critical p := by
  obtain ⟨task,live,within⟩ := inside
  by_cases here : other = id
  · refine .inr ⟨here,?_⟩
    subst here
    cases p with
    | done b => simp [settle] at live
    | call act resume =>
      rw [settle,AList.lookup_insert] at live
      obtain rfl := Option.some.inj live
      exact within
  · refine .inl ⟨here,task,?_,within⟩
    cases p with
    | done b => rwa [settle,AList.lookup_erase_ne here] at live
    | call act resume => rwa [settle,AList.lookup_insert_ne here] at live

theorem Inside.returned {b : β} {other : Nat} (inside : (pool.settle id op (.done b)).Inside critical other) :
    other ≠ id ∧ pool.Inside critical other := by
  obtain ⟨task,live,within⟩ := inside
  by_cases here : other = id
  · subst here
    simp [settle] at live
  · rw [settle,AList.lookup_erase_ne here] at live
    exact ⟨here,task,live,within⟩

theorem Inside.other {other : Nat} (inside : pool.Inside critical other) (apart : other ≠ id) :
    (pool.settle id op p).Inside critical other := by
  obtain ⟨task,live,within⟩ := inside
  refine ⟨task,?_,within⟩
  cases p with
  | done b => rwa [settle,AList.lookup_erase_ne apart]
  | call act resume => rwa [settle,AList.lookup_insert_ne apart]

theorem Inside.own {act : Act} {resume : ans act → Proc Act ans β} (within : critical (.call act resume)) :
    (pool.settle id op (.call act resume)).Inside critical id :=
  ⟨_,AList.lookup_insert _,within⟩

@[simp] theorem count_call {act : Act} {resume : ans act → Proc Act ans β} :
    (pool.settle id op (.call act resume)).count counts = pool.count counts := rfl

theorem count_done {b : β} :
    (pool.settle id op (.done b)).count counts = pool.count counts + if counts (.returned op b) = true then 1 else 0 :=
  List.countP_cons

theorem count_uncounted (uncounted : ∀ b, p = .done b → counts (.returned op b) = false) :
    (pool.settle id op p).count counts = pool.count counts := by
  cases p with
  | done b =>
    rw [count_done,uncounted b rfl]
    rfl
  | call act resume => rfl

section Answered
variable {exec : ε → (act : Act) → σ → ans act × σ} {e : ε} {act : Act}

theorem count_after (silent : ∀ act, counts (.did act) = false) :
    (pool.after exec e act).count counts = pool.count counts := by
  rw [count,after,List.countP_cons,silent]
  rfl

theorem Exclusive.after (silent : ∀ act, counts (.did act) = false) (exclusive : pool.Exclusive critical counts) :
    (pool.after exec e act).Exclusive critical counts where
  alone := exclusive.alone
  closed := by
    rw [count_after silent]
    exact exclusive.closed
  once := by
    rw [count_after silent]
    exact exclusive.once

end Answered

theorem Exclusive.outside (exclusive : pool.Exclusive critical counts) (outer : ¬ critical p)
    (uncounted : ∀ b, p = .done b → counts (.returned op b) = false) :
    (pool.settle id op p).Exclusive critical counts := by
  have back {other : Nat} (inside : (pool.settle id op p).Inside critical other) : pool.Inside critical other := by
    obtain ⟨_,before⟩ | ⟨_,within⟩ := inside.settled
    · exact before
    · exact absurd within outer
  constructor
  · exact fun one two first second => exclusive.alone one two (back first) (back second)
  · rw [count_uncounted uncounted]
    exact fun counted other inside => exclusive.closed counted other (back inside)
  · rw [count_uncounted uncounted]
    exact exclusive.once

theorem Exclusive.within (exclusive : pool.Exclusive critical counts)
    (free : ∀ other, pool.Inside critical other → other = id)
    (open_ : pool.count counts = 0) (unfinished : ∀ b, p ≠ .done b) :
    (pool.settle id op p).Exclusive critical counts := by
  have same : (pool.settle id op p).count counts = pool.count counts :=
    count_uncounted fun b done => absurd done (unfinished b)
  have back {other : Nat} (inside : (pool.settle id op p).Inside critical other) : other = id := by
    obtain ⟨_,before⟩ | ⟨here,_⟩ := inside.settled
    · exact free other before
    · exact here
  constructor
  · exact fun one two first second => (back first).trans (back second).symm
  · rw [same,open_]
    exact fun counted => absurd counted (Nat.lt_irrefl 0)
  · rw [same]
    exact exclusive.once

theorem Exclusive.vacant (exclusive : pool.Exclusive critical counts) (inside : pool.Inside critical id) :
    pool.count counts = 0 := by
  by_contra counted
  exact exclusive.closed (Nat.pos_of_ne_zero counted) id inside

theorem Exclusive.sole (exclusive : pool.Exclusive critical counts) (inside : pool.Inside critical id) (other : Nat)
    (theirs : pool.Inside critical other) : other = id :=
  exclusive.alone other id theirs inside

theorem Exclusive.leave (exclusive : pool.Exclusive critical counts) (inside : pool.Inside critical id) {b : β} :
    (pool.settle id op (.done b)).Exclusive critical counts := by
  have none_ : ∀ other, ¬ (pool.settle id op (.done b)).Inside critical other := by
    intro other held
    obtain ⟨apart,before⟩ := held.returned
    exact apart (exclusive.alone other id before inside)
  constructor
  · exact fun one two first _ => absurd first (none_ one)
  · exact fun _ other => none_ other
  · rw [count_done,exclusive.vacant inside]
    split
    · exact Nat.le_refl 1
    · exact Nat.zero_le 1

end Orrery.Foundation.Pool
