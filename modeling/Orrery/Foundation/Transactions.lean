import Orrery.Foundation.Procs

/-! Transactions side by side over one store, at read committed: a statement reads what is
committed and what its own transaction has written, a write waits for the locks of the
others, and a statement that fails takes its whole transaction with it. -/
namespace Orrery.Foundation

structure Txn (Op Act : Type) (ans : Act → Type) (β ω : Type) where
  op : Op
  rest : Proc Act ans β
  writes : List ω

inductive TxnEvent (Op Act β : Type)
  | ran (id : Nat) (act : Act)
  | committed (id : Nat) (op : Op) (result : β)
deriving DecidableEq

structure Transactions (Op Act : Type) (ans : Act → Type) (β σ ω : Type) where
  store : σ
  live : AList fun _ : Nat => Txn Op Act ans β ω
  next : Nat
  past : List (TxnEvent Op Act β)

inductive TxnMove (Op ε : Type)
  | begin (op : Op)
  | run (id : Nat) (e : ε)
  | commit (id : Nat)
  | abort (id : Nat)

structure Engine (Act : Type) (ans : Act → Type) (σ ω κ ε : Type) where
  exec : ε → (act : Act) → σ → Option (ans act × List ω)
  put : σ → ω → σ
  lock : ω → Option κ

namespace Engine
variable {Op Act : Type} {ans : Act → Type} {β σ ω κ ε : Type} (engine : Engine Act ans σ ω κ ε)

def view (s : σ) (writes : List ω) : σ := writes.foldl engine.put s

def solo (env : Nat → ε) : Proc Act ans β → σ → List ω → Option (β × σ)
  | .done b, s, writes => some (b,engine.view s writes)
  | .call act resume, s, writes =>
    (engine.exec (env 0) act (engine.view s writes)).bind fun answer =>
      solo (fun n => env (n+1)) (resume answer.1) s (writes ++ answer.2)

theorem solo_call {env : Nat → ε} {act : Act} {resume : ans act → Proc Act ans β} {s : σ} {writes new : List ω}
    {answer : ans act} (ran : engine.exec (env 0) act (engine.view s writes) = some (answer,new)) :
    engine.solo env (.call act resume) s writes =
      engine.solo (fun n => env (n+1)) (resume answer) s (writes ++ new) := by
  rw [solo,ran]
  rfl

def Separate (one two : List ω) : Prop := ∀ w ∈ one, ∀ w' ∈ two, ∀ k, engine.lock w = some k → engine.lock w' ≠ some k

theorem Separate.symm {engine : Engine Act ans σ ω κ ε} {one two : List ω} (separate : engine.Separate one two) :
    engine.Separate two one :=
  fun w' inside' w inside k locks' locks => separate w inside w' inside' k locks locks'

theorem Separate.append {engine : Engine Act ans σ ω κ ε} {one two three : List ω} (first : engine.Separate one two)
    (second : engine.Separate one three) : engine.Separate one (two ++ three) := by
  intro w inside w' inside'
  obtain here | there := List.mem_append.mp inside'
  · exact first w inside w' here
  · exact second w inside w' there

variable [DecidableEq κ]

def conflict (w w' : ω) : Bool := (engine.lock w).any fun k => engine.lock w' = some k

def blocked (state : Transactions Op Act ans β σ ω) (id : Nat) (new : List ω) : Bool :=
  state.live.entries.any fun entry => decide (entry.1 ≠ id) &&
    entry.2.writes.any fun w => new.any fun w' => engine.conflict w w'

/-- A transaction begins under a new number; runs its next statement, which waits where
another holds its lock; commits when no statement is left; or is broken off. -/
def step (program : Op → Proc Act ans β) (state : Transactions Op Act ans β σ ω) :
    TxnMove Op ε → Option (Transactions Op Act ans β σ ω)
  | .begin op => some { state with live := state.live.insert state.next ⟨op,program op,[]⟩, next := state.next+1 }
  | .run id e =>
    match state.live.lookup id with
    | some ⟨op,.call act resume,writes⟩ =>
      match engine.exec e act (engine.view state.store writes) with
      | none => some { state with live := state.live.erase id }
      | some (answer,new) =>
        if engine.blocked state id new then none
        else some { state with
          live := state.live.insert id ⟨op,resume answer,writes ++ new⟩
          past := .ran id act :: state.past }
    | _ => none
  | .commit id =>
    match state.live.lookup id with
    | some ⟨op,.done b,writes⟩ => some
        { state with
          store := engine.view state.store writes
          live := state.live.erase id
          past := .committed id op b :: state.past }
    | _ => none
  | .abort id => if state.live.lookup id = none then none else some { state with live := state.live.erase id }

section Steps
variable {engine} {program : Op → Proc Act ans β} {state state' : Transactions Op Act ans β σ ω} {id : Nat}

theorem step_run {e : ε} (stepped : engine.step program state (.run id e) = some state') :
    state' = { state with live := state.live.erase id } ∨ ∃ op act resume writes answer new,
      state.live.lookup id = some ⟨op,.call act resume,writes⟩ ∧
      engine.exec e act (engine.view state.store writes) = some (answer,new) ∧ engine.blocked state id new = false ∧
      state' = { state with
        live := state.live.insert id ⟨op,resume answer,writes ++ new⟩
        past := .ran id act :: state.past } := by
  rw [step] at stepped
  split at stepped
  next op act resume writes live =>
    split at stepped
    next => exact .inl (Option.some.inj stepped).symm
    next answer new ran =>
      split at stepped
      next => cases stepped
      next free =>
        exact .inr ⟨op,act,resume,writes,answer,new,live,ran,(Bool.not_eq_true _).mp free,(Option.some.inj stepped).symm⟩
  next => cases stepped

theorem step_commit (stepped : engine.step program state (.commit id : TxnMove Op ε) = some state') :
    ∃ op b writes, state.live.lookup id = some ⟨op,.done b,writes⟩ ∧ state' =
      { state with
        store := engine.view state.store writes
        live := state.live.erase id
        past := .committed id op b :: state.past } := by
  rw [step] at stepped
  split at stepped
  next op b writes live => exact ⟨op,b,writes,live,(Option.some.inj stepped).symm⟩
  next => cases stepped

theorem step_abort (stepped : engine.step program state (.abort id : TxnMove Op ε) = some state') :
    state' = { state with live := state.live.erase id } := by
  rw [step] at stepped
  split at stepped
  · cases stepped
  · exact (Option.some.inj stepped).symm

theorem separate_of_not_blocked {new : List ω} (free : engine.blocked state id new = false) {other : Nat}
    {t : Txn Op Act ans β ω} (live : state.live.lookup other = some t) (apart : other ≠ id) :
    engine.Separate t.writes new := by
  intro w inside w' fresh k locks locks'
  have entry : (⟨other,t⟩ : Sigma fun _ : Nat => Txn Op Act ans β ω) ∈ state.live.entries := AList.mem_lookup_iff.mp live
  have conflict : engine.conflict w w' = true := by
    rw [Engine.conflict,locks]
    exact decide_eq_true locks'
  have held : engine.blocked state id new = true := by
    rw [blocked,List.any_eq_true]
    refine ⟨_,entry,?_⟩
    rw [Bool.and_eq_true]
    exact ⟨decide_eq_true apart,List.any_eq_true.mpr ⟨w,inside,List.any_eq_true.mpr ⟨w',fresh,conflict⟩⟩⟩
  cases free.symm.trans held

end Steps

end Engine

def TxnEvent.id {Op Act β : Type} : TxnEvent Op Act β → Nat
  | .ran id _ => id
  | .committed id _ _ => id

namespace Transactions
variable {Op Act : Type} {ans : Act → Type} {β σ ω κ ε : Type}

def opened (s : σ) : Transactions Op Act ans β σ ω := ⟨s,∅,0,[]⟩

structure Discipline (engine : Engine Act ans σ ω κ ε) (program : Op → Proc Act ans β)
    (allowed : Transactions Op Act ans β σ ω → TxnMove Op ε → Prop) (Good : σ → List (TxnEvent Op Act β) → Prop)
    (Phase : σ → List (TxnEvent Op Act β) → Nat → Txn Op Act ans β ω → Prop) : Prop where
  begins : ∀ s past id op, (∀ event ∈ past, event.id ≠ id) → Phase s past id ⟨op,program op,[]⟩
  runs : ∀ (state : Transactions Op Act ans β σ ω) id e op act resume writes answer new, allowed state (.run id e) →
    state.live.lookup id = some ⟨op,.call act resume,writes⟩ → Good state.store state.past →
    Phase state.store state.past id ⟨op,.call act resume,writes⟩ →
    engine.exec e act (engine.view state.store writes) = some (answer,new) →
      Good state.store (.ran id act :: state.past) ∧
        Phase state.store (.ran id act :: state.past) id ⟨op,resume answer,writes ++ new⟩
  heard : ∀ s past id t other act, other ≠ id → Phase s past id t → Phase s (.ran other act :: past) id t
  commits : ∀ (state : Transactions Op Act ans β σ ω) id op b writes, allowed state (.commit id) →
    state.live.lookup id = some ⟨op,.done b,writes⟩ → Good state.store state.past →
    Phase state.store state.past id ⟨op,.done b,writes⟩ →
      Good (engine.view state.store writes) (.committed id op b :: state.past)
  kept : ∀ (state : Transactions Op Act ans β σ ω) id op b writes other t, allowed state (.commit id) →
    state.live.lookup id = some ⟨op,.done b,writes⟩ → Phase state.store state.past id ⟨op,.done b,writes⟩ →
    state.live.lookup other = some t → Phase state.store state.past other t → other ≠ id →
    engine.Separate writes t.writes → Good state.store state.past →
      Phase (engine.view state.store writes) (.committed id op b :: state.past) other t

structure Disciplined (engine : Engine Act ans σ ω κ ε) (Good : σ → List (TxnEvent Op Act β) → Prop)
    (Phase : σ → List (TxnEvent Op Act β) → Nat → Txn Op Act ans β ω → Prop)
    (state : Transactions Op Act ans β σ ω) : Prop where
  numbered : ∀ id t, state.live.lookup id = some t → id < state.next
  recorded : ∀ event ∈ state.past, event.id < state.next
  separate : ∀ one two t t', one ≠ two → state.live.lookup one = some t → state.live.lookup two = some t' →
    engine.Separate t.writes t'.writes
  good : Good state.store state.past
  phase : ∀ id t, state.live.lookup id = some t → Phase state.store state.past id t

section Steps
variable {engine : Engine Act ans σ ω κ ε} {program : Op → Proc Act ans β}
  {allowed : Transactions Op Act ans β σ ω → TxnMove Op ε → Prop} {Good : σ → List (TxnEvent Op Act β) → Prop}
  {Phase : σ → List (TxnEvent Op Act β) → Nat → Txn Op Act ans β ω → Prop} {state state' : Transactions Op Act ans β σ ω}

theorem lookup_erase_some {live : AList fun _ : Nat => Txn Op Act ans β ω} {id other : Nat} {t : Txn Op Act ans β ω}
    (found : (live.erase id).lookup other = some t) : other ≠ id ∧ live.lookup other = some t := by
  by_cases here : other = id
  · rw [here,AList.lookup_erase] at found
    cases found
  · rw [AList.lookup_erase_ne here] at found
    exact ⟨here,found⟩

theorem lookup_insert_some {live : AList fun _ : Nat => Txn Op Act ans β ω} {id other : Nat} {t new : Txn Op Act ans β ω}
    (found : (live.insert id new).lookup other = some t) :
    other = id ∧ t = new ∨ other ≠ id ∧ live.lookup other = some t := by
  by_cases here : other = id
  · rw [here,AList.lookup_insert] at found
    exact .inl ⟨here,(Option.some.inj found).symm⟩
  · rw [AList.lookup_insert_ne here] at found
    exact .inr ⟨here,found⟩

theorem Disciplined.dropped (disciplined : Disciplined engine Good Phase state) (id : Nat) :
    Disciplined engine Good Phase { state with live := state.live.erase id } where
  numbered other t found := disciplined.numbered other t (lookup_erase_some found).2
  recorded := disciplined.recorded
  separate one two t t' apart first second :=
    disciplined.separate one two t t' apart (lookup_erase_some first).2 (lookup_erase_some second).2
  good := disciplined.good
  phase other t found := disciplined.phase other t (lookup_erase_some found).2

theorem Disciplined.begin (discipline : Discipline engine program allowed Good Phase)
    (disciplined : Disciplined engine Good Phase state) (op : Op) : Disciplined engine Good Phase
      { state with live := state.live.insert state.next ⟨op,program op,[]⟩, next := state.next+1 } where
  numbered id t found := by
    obtain ⟨rfl,_⟩ | ⟨_,before⟩ := lookup_insert_some found
    · exact Nat.lt_succ_self _
    · exact Nat.lt_succ_of_lt (disciplined.numbered id t before)
  recorded event inside := Nat.lt_succ_of_lt (disciplined.recorded event inside)
  separate one two t t' apart first second := by
    obtain ⟨_,rfl⟩ | ⟨_,before⟩ := lookup_insert_some first
    · exact fun w inside => absurd inside List.not_mem_nil
    obtain ⟨_,rfl⟩ | ⟨_,before'⟩ := lookup_insert_some second
    · exact fun _ _ w inside => absurd inside List.not_mem_nil
    · exact disciplined.separate one two t t' apart before before'
  good := disciplined.good
  phase id t found := by
    obtain ⟨rfl,rfl⟩ | ⟨_,before⟩ := lookup_insert_some found
    · exact discipline.begins _ _ _ op fun event inside => Nat.ne_of_lt (disciplined.recorded event inside)
    · exact disciplined.phase id t before

section Waiting
variable [DecidableEq κ]

theorem Disciplined.run (discipline : Discipline engine program allowed Good Phase)
    (disciplined : Disciplined engine Good Phase state) {id : Nat} {e : ε} (ok : allowed state (.run id e))
    {op : Op} {act : Act} {resume : ans act → Proc Act ans β} {writes new : List ω} {answer : ans act}
    (live : state.live.lookup id = some ⟨op,.call act resume,writes⟩)
    (ran : engine.exec e act (engine.view state.store writes) = some (answer,new))
    (free : engine.blocked state id new = false) : Disciplined engine Good Phase
      { state with live := state.live.insert id ⟨op,resume answer,writes ++ new⟩, past := .ran id act :: state.past } := by
  have next := discipline.runs state id e op act resume writes answer new ok live disciplined.good
    (disciplined.phase id _ live) ran
  have apart {other : Nat} {t : Txn Op Act ans β ω} (away : other ≠ id) (found : state.live.lookup other = some t) :
      engine.Separate t.writes (writes ++ new) :=
    (disciplined.separate other id t _ away found live).append (Engine.separate_of_not_blocked free found away)
  constructor
  · intro other t found
    obtain ⟨rfl,_⟩ | ⟨_,before⟩ := lookup_insert_some found
    · exact disciplined.numbered _ _ live
    · exact disciplined.numbered other t before
  · intro event inside
    obtain rfl | before := List.mem_cons.mp inside
    · exact disciplined.numbered _ _ live
    · exact disciplined.recorded event before
  · intro one two t t' away first second
    obtain ⟨rfl,rfl⟩ | ⟨here,before⟩ := lookup_insert_some first
    · obtain ⟨rfl,_⟩ | ⟨there,before'⟩ := lookup_insert_some second
      · exact absurd rfl away
      · exact (apart there before').symm
    · obtain ⟨_,rfl⟩ | ⟨there,before'⟩ := lookup_insert_some second
      · exact apart here before
      · exact disciplined.separate one two t t' away before before'
  · exact next.1
  · intro other t found
    obtain ⟨rfl,rfl⟩ | ⟨away,before⟩ := lookup_insert_some found
    · exact next.2
    · exact discipline.heard _ _ other t id act (Ne.symm away) (disciplined.phase other t before)

end Waiting

theorem Disciplined.commit (discipline : Discipline engine program allowed Good Phase)
    (disciplined : Disciplined engine Good Phase state) {id : Nat} (ok : allowed state (.commit id)) {op : Op} {b : β}
    {writes : List ω} (live : state.live.lookup id = some ⟨op,.done b,writes⟩) : Disciplined engine Good Phase
      { state with
        store := engine.view state.store writes
        live := state.live.erase id
        past := .committed id op b :: state.past } where
  numbered other t found := disciplined.numbered other t (lookup_erase_some found).2
  recorded event inside := by
    obtain rfl | before := List.mem_cons.mp inside
    · exact disciplined.numbered _ _ live
    · exact disciplined.recorded event before
  separate one two t t' apart first second :=
    disciplined.separate one two t t' apart (lookup_erase_some first).2 (lookup_erase_some second).2
  good := discipline.commits state id op b writes ok live disciplined.good (disciplined.phase id _ live)
  phase other t found := by
    obtain ⟨apart,before⟩ := lookup_erase_some found
    exact discipline.kept state id op b writes other t ok live (disciplined.phase id _ live) before
      (disciplined.phase other t before) apart (disciplined.separate id other _ t (Ne.symm apart) live before) disciplined.good

section Runs
variable [DecidableEq κ]

theorem Disciplined.step (discipline : Discipline engine program allowed Good Phase) {move : TxnMove Op ε}
    (disciplined : Disciplined engine Good Phase state) (ok : allowed state move)
    (stepped : engine.step program state move = some state') : Disciplined engine Good Phase state' := by
  cases move with
  | begin op =>
    obtain rfl := Option.some.inj stepped
    exact disciplined.begin discipline op
  | run id e =>
    obtain rfl | ⟨op,act,resume,writes,answer,new,live,ran,free,rfl⟩ := Engine.step_run stepped
    · exact disciplined.dropped id
    · exact disciplined.run discipline ok live ran free
  | commit id =>
    obtain ⟨op,b,writes,live,rfl⟩ := Engine.step_commit stepped
    exact disciplined.commit discipline ok live
  | abort id =>
    obtain rfl := Engine.step_abort stepped
    exact disciplined.dropped id

theorem Disciplined.reached (discipline : Discipline engine program allowed Good Phase) {s : σ} (good : Good s [])
    (run : Runs.Reached (engine.step program) allowed (opened s) state) : Disciplined engine Good Phase state := by
  induction run with
  | start =>
    refine ⟨?_,?_,?_,good,?_⟩
    · exact fun _ _ found => by cases found
    · exact fun _ inside => absurd inside List.not_mem_nil
    · exact fun _ _ _ _ _ found => by cases found
    · exact fun _ _ found => by cases found
  | step _ ok next ih => exact ih.step discipline ok next

theorem solo_reached {start : Transactions Op Act ans β σ ω} {id : Nat} {op : Op} {b : β} {s : σ} (p : Proc Act ans β) :
    ∀ (env : Nat → ε) (writes : List ω) (state : Transactions Op Act ans β σ ω),
    Runs.Reached (engine.step program) Runs.Free start state → state.live.lookup id = some ⟨op,p,writes⟩ →
    (∀ other t, state.live.lookup other = some t → other = id) → engine.solo env p state.store writes = some (b,s) →
      ∃ state', Runs.Reached (engine.step program) Runs.Free start state' ∧ state'.store = s ∧
        ∀ other, state'.live.lookup other = none := by
  induction p with
  | done result =>
    intro env writes state run live alone solo
    obtain ⟨rfl,rfl⟩ := Prod.mk.inj (Option.some.inj solo)
    have stepped : engine.step program state (.commit id : TxnMove Op ε) = some
        { state with
          store := engine.view state.store writes
          live := state.live.erase id
          past := .committed id op result :: state.past } := by
      rw [Engine.step,live]
    refine ⟨_,.step run trivial stepped,rfl,fun other => ?_⟩
    cases found : (state.live.erase id).lookup other with
    | none => rfl
    | some t =>
      obtain ⟨apart,before⟩ := lookup_erase_some found
      exact absurd (alone other t before) apart
  | call act resume ih =>
    intro env writes state run live alone solo
    obtain ⟨⟨answer,new⟩,ran,solo⟩ := Option.bind_eq_some_iff.mp solo
    have free : engine.blocked state id new = false := by
      rw [Engine.blocked,List.any_eq_false]
      rintro ⟨other,t⟩ inside held
      rw [Bool.and_eq_true] at held
      exact of_decide_eq_true held.1 (alone other t (AList.mem_lookup_iff.mpr inside))
    have stepped : engine.step program state (.run id (env 0)) = some
        { state with
          live := state.live.insert id ⟨op,resume answer,writes ++ new⟩
          past := .ran id act :: state.past } := by
      rw [Engine.step,live]
      simp only [ran,free,Bool.false_eq_true,if_false]
    refine ih answer _ _ _ (.step run trivial stepped) (AList.lookup_insert _) ?_ solo
    intro other t found
    obtain ⟨here,_⟩ | ⟨_,before⟩ := lookup_insert_some found
    · exact here
    · exact alone other t before

theorem solo_begun {start : Transactions Op Act ans β σ ω} {op : Op} {b : β} {s : σ} {env : Nat → ε}
    (run : Runs.Reached (engine.step program) Runs.Free start state) (idle : ∀ id, state.live.lookup id = none)
    (solo : engine.solo env (program op) state.store [] = some (b,s)) :
    ∃ state', Runs.Reached (engine.step program) Runs.Free start state' ∧ state'.store = s ∧
      ∀ other, state'.live.lookup other = none := by
  have stepped : engine.step program state (.begin op : TxnMove Op ε) = some
      { state with live := state.live.insert state.next ⟨op,program op,[]⟩, next := state.next+1 } := rfl
  refine solo_reached (program op) env [] _ (.step run trivial stepped) (AList.lookup_insert _) ?_ solo
  intro other t found
  obtain ⟨here,_⟩ | ⟨_,before⟩ := lookup_insert_some found
  · exact here
  · cases (idle other).symm.trans before

end Runs

end Steps
end Transactions

end Orrery.Foundation
