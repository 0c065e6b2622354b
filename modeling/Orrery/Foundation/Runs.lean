/-! Runs of a system whose steps are chosen from outside. A move that is not possible
in a state is not made there. -/
namespace Orrery.Foundation.Runs

variable {σ α : Type}

/-- The states of the runs whose every move is allowed where it is made. -/
inductive Reached (step : σ → α → Option σ) (allowed : σ → α → Prop) (start : σ) : σ → Prop
  | start : Reached step allowed start start
  | step {s s' : σ} {move : α} (before : Reached step allowed start s) (ok : allowed s move)
      (next : step s move = some s') : Reached step allowed start s'

def Free : σ → α → Prop := fun _ _ => True

section Invariants
variable {step : σ → α → Option σ} {allowed : σ → α → Prop} {start : σ}

theorem Reached.invariant {P : σ → Prop} {s : σ} (run : Reached step allowed start s) (initially : P start)
    (keeps : ∀ s move s', P s → allowed s move → step s move = some s' → P s') : P s := by
  induction run with
  | start => exact initially
  | step _ ok next ih => exact keeps _ _ _ ih ok next

theorem Reached.weaken {loose : σ → α → Prop} {s : σ} (run : Reached step allowed start s)
    (weaker : ∀ s move, allowed s move → loose s move) : Reached step loose start s := by
  induction run with
  | start => exact .start
  | step _ ok next ih => exact .step ih (weaker _ _ ok) next

end Invariants

def walk (step : σ → α → Option σ) (check : σ → α → Bool) : List α → σ → Option σ
  | [], s => some s
  | move :: moves, s => if check s move then (step s move).bind (walk step check moves) else none

theorem reached_walk {step : σ → α → Option σ} {allowed : σ → α → Prop} {check : σ → α → Bool}
    (sound : ∀ s move, check s move = true → allowed s move) {start : σ} (moves : List α) : ∀ {s s' : σ},
    Reached step allowed start s → walk step check moves s = some s' → Reached step allowed start s' := by
  induction moves with
  | nil =>
    intro s s' run walked
    cases walked
    exact run
  | cons move moves ih =>
    intro s s' run walked
    rw [walk] at walked
    split at walked
    next checked =>
      obtain ⟨next,stepped,walked⟩ := Option.bind_eq_some_iff.mp walked
      exact ih (.step run (sound s move checked) stepped) walked
    next => cases walked

theorem always_iff {step : σ → α → σ} {I P : σ → Prop} {Q : σ → α → Prop} (keeps : ∀ s move, I s → I (step s move))
    (precisely : ∀ s move, I s → P s → (P (step s move) ↔ Q s move)) (moves : List α) : ∀ s, I s → P s →
    ((∀ k, P ((moves.take k).foldl step s)) ↔
      ∀ (k : Nat) move, moves[k]? = some move → Q ((moves.take k).foldl step s) move) := by
  induction moves with
  | nil =>
    intro s _ holds
    simpa using holds
  | cons first moves ih =>
    intro s inside holds
    have further : P (step s first) → ((∀ k, P ((moves.take k).foldl step (step s first))) ↔
        ∀ (k : Nat) move, moves[k]? = some move → Q ((moves.take k).foldl step (step s first)) move) :=
      ih (step s first) (keeps s first inside)
    constructor
    · intro always k move found
      have next : P (step s first) := by simpa using always 1
      cases k with
      | zero =>
        obtain rfl : first = move := by simpa using found
        exact (precisely s first inside holds).mp next
      | succ k => exact (further next).mp (fun k => always (k+1)) k move (by simpa using found)
    · intro meets k
      have next := (precisely s first inside holds).mpr (meets 0 first rfl)
      cases k with
      | zero => exact holds
      | succ k => exact (further next).mpr (fun k move found => meets (k+1) move (by simpa using found)) k

end Orrery.Foundation.Runs
