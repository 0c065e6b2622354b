import Mathlib.Algebra.Order.BigOperators.Group.List

/-! Amounts that are entered one after another, each below what is left of a cap in the
window of time that ends where it is entered. -/
namespace Orrery.Foundation.Windows

variable {ε τ M : Type} [LinearOrder τ] [AddCommMonoid M] [PartialOrder M] [IsOrderedAddMonoid M]

section Definitions
variable (time : ε → τ) (amount : ε → M)

def enteredSince (first : τ) (log : List ε) : M := ((log.filter fun e => first ≤ time e).map amount).sum

def enteredWithin (first last : τ) (log : List ε) : M :=
  ((log.filter fun e => first ≤ time e ∧ time e ≤ last).map amount).sum

inductive Fitted (since : τ → τ) (cap : M) : List ε → Prop
  | nil : Fitted since cap []
  | entered {log : List ε} {e : ε} (before : Fitted since cap log)
      (fits : amount e + enteredSince time amount (since (time e)) log ≤ cap) : Fitted since cap (log ++ [e])

end Definitions

variable {time : ε → τ} {amount : ε → M} {since : τ → τ} {cap : M} {log : List ε}

theorem sum_sublist {some all : List ε} (sublist : some.Sublist all) (nonneg : ∀ e ∈ all, 0 ≤ amount e) :
    (some.map amount).sum ≤ (all.map amount).sum := by
  apply (sublist.map amount).sum_le_sum
  intro value inside
  obtain ⟨e,member,rfl⟩ := List.mem_map.mp inside
  exact nonneg e member

theorem enteredSince_anti {first later : τ} (le : first ≤ later) (nonneg : ∀ e ∈ log, 0 ≤ amount e) :
    enteredSince time amount later log ≤ enteredSince time amount first log := by
  apply sum_sublist
  · apply List.monotone_filter_right
    intro e
    simpa using le.trans
  · exact fun e inside => nonneg e (List.mem_of_mem_filter inside)

theorem enteredWithin_le (first last : τ) (nonneg : ∀ e ∈ log, 0 ≤ amount e) :
    enteredWithin time amount first last log ≤ enteredSince time amount first log := by
  apply sum_sublist
  · apply List.monotone_filter_right
    intro e
    simp +contextual
  · exact fun e inside => nonneg e (List.mem_of_mem_filter inside)

omit [PartialOrder M] [IsOrderedAddMonoid M] in
theorem enteredWithin_concat (first last : τ) (e : ε) : enteredWithin time amount first last (log ++ [e]) =
    enteredWithin time amount first last log + if first ≤ time e ∧ time e ≤ last then amount e else 0 := by
  unfold enteredWithin
  by_cases inside : first ≤ time e ∧ time e ≤ last
  · simp [List.filter_append,inside]
  · simp only [List.filter_append,List.filter_singleton]
    simp [inside]

theorem Fitted.within (fitted : Fitted time amount since cap log) (mono : Monotone since) (room : 0 ≤ cap)
    (nonneg : ∀ e ∈ log, 0 ≤ amount e) (t : τ) : enteredWithin time amount (since t) t log ≤ cap := by
  induction fitted with
  | nil => simpa [enteredWithin] using room
  | @entered log e before fits ih =>
    have earlier : ∀ e ∈ log, 0 ≤ amount e := fun e inside => nonneg e (List.mem_append_left _ inside)
    rw [enteredWithin_concat]
    split
    next inside =>
      have counted : enteredWithin time amount (since t) t log ≤ enteredSince time amount (since (time e)) log :=
        (enteredWithin_le _ _ earlier).trans (enteredSince_anti (mono inside.2) earlier)
      calc enteredWithin time amount (since t) t log + amount e
          ≤ enteredSince time amount (since (time e)) log + amount e := add_le_add_left counted _
        _ = amount e + enteredSince time amount (since (time e)) log := add_comm _ _
        _ ≤ cap := fits
    next => simpa using ih earlier

end Orrery.Foundation.Windows
