import Mathlib.Logic.Relation

/-! Programs with a state and exceptions, where an exception keeps the state it was
raised in. A program keeps a relation when its final state, whether it returned or
raised, is related to its initial one. -/
namespace Orrery.Foundation

abbrev Effect := EStateM

namespace Effect
variable {ε σ α β : Type}

def final : EStateM.Result ε σ α → σ
  | .ok _ s => s
  | .error _ s => s

@[simp] theorem final_ok (a : α) (s : σ) : final (EStateM.Result.ok a s : EStateM.Result ε σ α) = s := rfl

@[simp] theorem final_error (e : ε) (s : σ) : final (EStateM.Result.error e s : EStateM.Result ε σ α) = s := rfl

/-- `m`, then what follows its result, or the handler of its exception in the state it
was raised in; exceptions of what follows are not handled. -/
def attempt (m : Effect ε σ α) (next : α → Effect ε σ β) (handler : ε → Effect ε σ β) : Effect ε σ β := fun s =>
  match m s with
  | .ok a t => next a t
  | .error e t => handler e t

def handle (m : Effect ε σ α) (handler : ε → Effect ε σ α) : Effect ε σ α := attempt m pure handler

def raise (e : ε) : Effect ε σ α := fun s => .error e s

theorem bind_apply (m : Effect ε σ α) (next : α → Effect ε σ β) (s : σ) :
    (m >>= next) s = match m s with
      | .ok a t => next a t
      | .error e t => .error e t := by
  change EStateM.bind m next s = _
  unfold EStateM.bind
  cases m s <;> rfl

@[simp] theorem pure_apply (a : α) (s : σ) : (pure a : Effect ε σ α) s = .ok a s := rfl

@[simp] theorem get_apply (s : σ) : (get : Effect ε σ σ) s = .ok s s := rfl

@[simp] theorem modify_apply (f : σ → σ) (s : σ) : (modify f : Effect ε σ Unit) s = .ok () (f s) := rfl

@[simp] theorem raise_apply (e : ε) (s : σ) : (raise e : Effect ε σ α) s = .error e s := rfl

theorem bind_ok (m : Effect ε σ α) (next : α → Effect ε σ β) (s u : σ) (b : β) :
    (m >>= next) s = .ok b u ↔ ∃ a t, m s = .ok a t ∧ next a t = .ok b u := by
  rw [bind_apply]
  constructor
  · intro run
    cases first : m s with
    | ok a t =>
      rw [first] at run
      exact ⟨a,t,rfl,run⟩
    | error e t =>
      rw [first] at run
      cases run
  · intro premise
    obtain ⟨a,t,first,second⟩ := premise
    rw [first]
    exact second

def Keeps (R : σ → σ → Prop) (m : Effect ε σ α) : Prop := ∀ s, R s (final (m s))

section Rules
variable {R : σ → σ → Prop} [IsPreorder σ R]

theorem keeps_pure (a : α) : Keeps R (pure a : Effect ε σ α) := fun s => refl_of R s

theorem keeps_raise (e : ε) : Keeps R (raise e : Effect ε σ α) := fun s => refl_of R s

theorem keeps_get : Keeps R (get : Effect ε σ σ) := fun s => refl_of R s

theorem keeps_attempt {m : Effect ε σ α} {next : α → Effect ε σ β} {handler : ε → Effect ε σ β} (body : Keeps R m)
    (rest : ∀ a, Keeps R (next a)) (rescue : ∀ e, Keeps R (handler e)) : Keeps R (attempt m next handler) := by
  intro s
  have step := body s
  unfold attempt
  cases run : m s with
  | ok a t =>
    rw [run] at step
    exact trans_of R step (rest a t)
  | error e t =>
    rw [run] at step
    exact trans_of R step (rescue e t)

theorem keeps_bind {m : Effect ε σ α} {next : α → Effect ε σ β} (first : Keeps R m)
    (second : ∀ a, Keeps R (next a)) : Keeps R (m >>= next) := by
  have split : (m >>= next) = attempt m next raise := by
    funext s
    rw [bind_apply]
    unfold attempt
    cases m s <;> rfl
  rw [split]
  exact keeps_attempt first second keeps_raise

end Rules

def Raises (P : ε → Prop) (m : Effect ε σ α) : Prop := ∀ s e t, m s = .error e t → P e

section Exceptions
variable {P : ε → Prop}

theorem raises_pure (a : α) : Raises P (pure a : Effect ε σ α) := by
  intro s e t run
  cases run

theorem raises_bind {m : Effect ε σ α} {next : α → Effect ε σ β} (first : Raises P m)
    (second : ∀ a, Raises P (next a)) : Raises P (m >>= next) := by
  intro s e t run
  rw [bind_apply] at run
  cases head : m s with
  | ok a u =>
    rw [head] at run
    exact second a u e t run
  | error e' u =>
    rw [head] at run
    cases run
    exact first s e t head

end Exceptions
end Effect
end Orrery.Foundation
