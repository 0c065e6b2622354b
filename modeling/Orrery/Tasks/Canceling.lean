import Orrery.Tasks.Ownership

/-! A canceled task (community_member/a2a_rpc.py): it stays so exactly if no send of it,
accepted before, still waits for its tool or for the reader of its stream. -/
namespace Orrery.Tasks
open Foundation Json Runs

section Runs
variable {env : RpcEnv} {taskId : String} {calls calls' : Calls}

/-- What is left of a call goes on with a send only if that has been its last act. -/
def Ordered (_ : Request) (p : Program Outcome) (_ : Store) : Prop := ∃ current, Chained (fun _ => True) current p

theorem Chained.mono {α : Type} {own own' : Act → Prop} (weaker : ∀ act, own act → own' act) {p : Program α} :
    ∀ {current : Option Send}, Chained own current p → Chained own' current p := by
  induction p with
  | done a => exact fun _ => trivial
  | call act resume ih =>
    intro current chained
    exact ⟨weaker act chained.1,chained.2.1,fun answer => ih answer (chained.2.2 answer)⟩

theorem ordered_turn (all : calls.AllFit Ordered) {move : Turn Request Chance}
    (stepped : turn env calls move = some calls') : calls'.AllFit Ordered := by
  cases move with
  | start id request =>
    obtain rfl := Pool.step_start stepped
    exact all.settle ⟨none,(serve_chained env request).mono fun _ _ => trivial⟩
  | advance id e =>
    obtain ⟨request,act,resume,live,rfl⟩ := Pool.step_advance stepped
    obtain ⟨current,-,-,rest⟩ := all id _ live
    exact Pool.AllFit.advanced ⟨_,rest _⟩ fun other task _ live' => all other task live'

def Calm (taskId : String) (p : Program Outcome) : Prop :=
  ∀ act resume, p = .call act resume → ¬ act.Continues taskId

def Quiet (taskId : String) (calls : Calls) : Prop := calls.AllFit fun _ p _ => Calm taskId p

def NoSend (taskId : String) (calls : Calls) : Turn Request Chance → Prop
  | .start _ _ => True
  | .advance id _ => ∀ request act resume, calls.live.lookup id = some ⟨request,.call act resume⟩ → ¬ act.Accepts taskId

theorem calm_of_chained {own : Act → Prop} {current : Option Send} {p : Program Outcome}
    (chained : Chained own current p) (apart : ∀ send, current = some send → send.creation.taskId ≠ taskId) :
    Calm taskId p := by
  rintro act resume rfl ⟨goes,send,sends,named⟩
  exact apart send ((chained.2.1 goes).trans sends) named

theorem quiet_turn (all : calls.AllFit Ordered) (quiet : Quiet taskId calls) {move : Turn Request Chance}
    (unsent : NoSend taskId calls move) (stepped : turn env calls move = some calls') : Quiet taskId calls' := by
  cases move with
  | start id request =>
    obtain rfl := Pool.step_start stepped
    exact quiet.settle (calm_of_chained (serve_chained env request) fun send own => nomatch own)
  | advance id e =>
    obtain ⟨request,act,resume,live,rfl⟩ := Pool.step_advance stepped
    obtain ⟨current,-,-,rest⟩ := all id _ live
    refine Pool.AllFit.advanced (calm_of_chained (rest _) ?_) fun other task _ live' => quiet other task live'
    intro send onwards named
    have sends : act.send = some send := onwards_some onwards
    cases act with
    | accept own =>
      cases sends
      exact unsent request _ resume live named
    | cancel own caller => cases sends
    | get own => cases sends
    | _ => exact quiet id _ live _ resume rfl ⟨rfl,send,sends,named⟩

theorem canceled_turn (quiet : Quiet taskId calls) {move : Turn Request Chance} (unsent : NoSend taskId calls move)
    {t : Task} (found : calls.store.tasks taskId = some t) (canceled : t.status.state = .canceled)
    (stepped : turn env calls move = some calls') : calls'.store.tasks taskId = some t := by
  cases move with
  | start id request =>
    obtain rfl := Pool.step_start stepped
    rwa [Pool.settle_store]
  | advance id e =>
    obtain ⟨request,act,resume,live,rfl⟩ := Pool.step_advance stepped
    rw [Pool.settle_store]
    by_contra changed
    have rewritten : (exec env.toStoreEnv e act calls.store).2.tasks taskId ≠ calls.store.tasks taskId :=
      fun same => changed (same.trans found)
    obtain ⟨t',rewrites⟩ := exec_row rewritten
    cases rewrites.writes with
    | accepted send named _ => exact unsent request _ resume live named
    | continued _ goes => exact quiet id _ live act resume rfl goes
    | canceled caller own found' _ going =>
      cases found.symm.trans found'
      simp [Task.terminal,canceled] at going

theorem continues_moves {act : Act} (goes : act.Continues taskId) {s : Store} {t : Task}
    (found : s.tasks taskId = some t) {e : Chance} (reads : e.closed = false) {rawResult : String}
    (answers : e.dispatched = .ok rawResult) :
    ∃ t', (exec env.toStoreEnv e act s).2.tasks taskId = some t' ∧ t'.status.state ≠ .canceled := by
  obtain ⟨goes,send,sends,rfl⟩ := goes
  cases act with
  | work own =>
    cases sends
    simp [exec,reads,change,transition,found,Task.moved]
  | ask own =>
    cases sends
    simp [exec,reads,change,transition,found,Task.moved]
  | finish own tool =>
    cases sends
    simp [exec,reads,finishSend,answers,change,transition,found,Task.moved]
  | accept own => cases goes
  | cancel own caller => cases goes
  | get own => cases goes

theorem cancelTask_task {e : Chance} {s : Store} {caller : Option CallerIdentity} {t : Task}
    (answered : (cancelTask env.toStoreEnv e s (.str taskId) caller).1 = .task t) :
    (cancelTask env.toStoreEnv e s (.str taskId) caller).2.tasks taskId = some t := by
  unfold cancelTask at answered ⊢
  cases found : s.tasks taskId with
  | none =>
    simp only [lookup,found] at answered
    cases answered
  | some existing =>
    simp only [lookup,found] at answered ⊢
    by_cases permitted : creatorPermits existing caller = false
    · rw [if_pos permitted] at answered
      cases answered
    · rw [if_neg permitted] at answered ⊢
      cases done : cancel env.toStoreEnv s taskId e.now with
      | none =>
        rw [done] at answered
        cases answered
      | some result =>
        obtain ⟨task,s'⟩ := result
        rw [done] at answered
        cases answered
        obtain ⟨old,same,⟨-,rfl,rfl⟩ | ⟨-,rfl,rfl⟩⟩ := cancel_some done
        · exact same
        · exact put_own ..

theorem continued_moves {id : Nat} {request : Request} {act : Act} {resume : Answer → Program Outcome} {t : Task}
    (live : calls.live.lookup id = some ⟨request,.call act resume⟩) (goes : act.Continues taskId)
    (found : calls.store.tasks taskId = some t) : ∃ later, Reached (turn env) (NoSend taskId) calls later ∧
      ∃ t', later.store.tasks taskId = some t' ∧ t'.status.state ≠ .canceled := by
  let e : Chance := ⟨"","","",.ok "",false⟩
  have stepped : turn env calls (.advance id e) = _ := Pool.step_live e live
  have unsent : NoSend taskId calls (.advance id e) := by
    intro request' act' resume' live' accepts
    cases live.symm.trans live'
    obtain ⟨goes,-⟩ := goes
    cases act with
    | accept send => cases goes
    | _ => exact accepts
  obtain ⟨t',found',moved⟩ : ∃ t', (exec env.toStoreEnv e act calls.store).2.tasks taskId = some t' ∧
    t'.status.state ≠ .canceled := continues_moves goes found rfl rfl
  exact ⟨_,.step .start unsent stepped,t',by rwa [Pool.settle_store],moved⟩

/-- Once a cancel has answered with a canceled task, the task is left alone by all turns
that accept no further send of it, exactly if no accepted send of it was under way. -/
theorem canceled_stays (env : RpcEnv) {store : Store} {before : Calls} {id : Nat} {e : Chance} {request : Request}
    {caller : Option CallerIdentity} {resume : Answer → Program Outcome} {t : Task}
    (run : Reached (turn env) Free ⟨store,∅,[]⟩ before)
    (canceling : before.live.lookup id = some ⟨request,.call (.cancel (.str taskId) caller) resume⟩)
    (stepped : turn env before (.advance id e) = some calls)
    (answered : (exec env.toStoreEnv e (.cancel (.str taskId) caller) before.store).1 = .task t)
    (canceled : t.status.state = .canceled) :
    (∀ later, Reached (turn env) (NoSend taskId) calls later → later.store.tasks taskId = some t) ↔
      Quiet taskId before := by
  have ordered : before.AllFit Ordered := by
    apply run.invariant (P := fun calls => calls.AllFit Ordered)
    · exact Pool.AllFit.opened store
    · exact fun s move s' all _ stepped => ordered_turn all stepped
  have ordered' := ordered_turn ordered stepped
  have unsent : NoSend taskId before (.advance id e) := by
    intro request' act resume' live
    cases canceling.symm.trans live
    exact fun accepts => accepts
  obtain ⟨_,_,_,live,same⟩ := Pool.step_advance stepped
  cases canceling.symm.trans live
  have found : calls.store.tasks taskId = some t := by
    rw [same,Pool.settle_store]
    exact cancelTask_task answered
  constructor
  · intro stays other call live' act resume' own goes
    have apart : other ≠ id := by
      rintro rfl
      cases live'.symm.trans canceling
      cases own
      cases goes.1
    obtain ⟨request',p⟩ := call
    obtain rfl : p = .call act resume' := own
    have waits : calls.live.lookup other = some ⟨request',.call act resume'⟩ := by
      rw [same,Pool.settle_other apart]
      exact live'
    obtain ⟨later,further,t',found',moved⟩ : ∃ later, Reached (turn env) (NoSend taskId) calls later ∧
      ∃ t', later.store.tasks taskId = some t' ∧ t'.status.state ≠ .canceled := continued_moves waits goes found
    obtain rfl := Option.some.inj (found'.symm.trans (stays later further))
    exact moved canceled
  · intro quiet later further
    have kept : later.AllFit Ordered ∧ Quiet taskId later ∧ later.store.tasks taskId = some t := by
      apply further.invariant (P := fun calls => calls.AllFit Ordered ∧ Quiet taskId calls ∧
        calls.store.tasks taskId = some t)
      · exact ⟨ordered',quiet_turn ordered quiet unsent stepped,found⟩
      · rintro s move s' ⟨all,quiet,found⟩ unsent stepped
        have found' := canceled_turn quiet unsent found canceled stepped
        exact ⟨ordered_turn all stepped,quiet_turn all quiet unsent stepped,found'⟩
    exact kept.2.2

end Runs

section Samples

def cancels (calls : Calls) : Bool :=
  match calls.live.lookup 1 with
  | some ⟨_,.call (.cancel (.str taskId) caller) _⟩ =>
    match (exec plainRpc.toStoreEnv plainChance (.cancel (.str taskId) caller) calls.store).1 with
    | .task t => taskId = "t1" && t.status.state = .canceled
    | _ => false
  | _ => false

theorem cancels_spec {calls : Calls} (checked : cancels calls = true) : ∃ request caller resume t,
    calls.live.lookup 1 = some ⟨request,.call (.cancel (.str "t1") caller) resume⟩ ∧
      (exec plainRpc.toStoreEnv plainChance (.cancel (.str "t1") caller) calls.store).1 = .task t ∧
      t.status.state = .canceled := by
  unfold cancels at checked
  split at checked
  next request taskId caller resume live =>
    split at checked
    next t answered =>
      simp only [Bool.and_eq_true,decide_eq_true_eq] at checked
      obtain ⟨rfl,canceled⟩ := checked
      exact ⟨request,caller,resume,t,live,answered,canceled⟩
    next => cases checked
  next => cases checked

def quietCheck (calls : Calls) : Bool :=
  calls.live.entries.all fun entry =>
    match entry.2.rest with
    | .call act _ => !(act.continues && act.send.map (fun send => send.creation.taskId) = some "t1")
    | .done _ => true

theorem quiet_of_check {calls : Calls} (checked : quietCheck calls = true) : Quiet "t1" calls := by
  rintro id call live act resume own ⟨goes,send,sends,named⟩
  have checked := List.all_eq_true.mp checked ⟨id,call⟩ (AList.mem_lookup_iff.mp live)
  simp only [own] at checked
  simp [goes,sends,named] at checked

def unsent (calls : Calls) : Turn Request Chance → Bool
  | .start _ _ => true
  | .advance id _ =>
    match calls.live.lookup id with
    | some ⟨_,.call (.accept send) _⟩ => send.creation.taskId ≠ "t1"
    | _ => true

theorem noSend_of_check (calls : Calls) (move : Turn Request Chance) (checked : unsent calls move = true) :
    NoSend "t1" calls move := by
  cases move with
  | start id request => trivial
  | advance id e =>
    intro request act resume live accepts
    rw [unsent,live] at checked
    cases act with
    | accept send => simp [show send.creation.taskId = "t1" from accepts] at checked
    | _ => exact accepts

def anything (_ : Calls) (_ : Turn Request Chance) : Bool := true

def sending : List (Turn Request Chance) := [.start 0 (bySelf "tasks/send" 'v'),.advance 0 plainChance]

def leaving : Turn Request Chance := .advance 0 { plainChance with closed := true }

def canceling : Turn Request Chance := .start 1 (bySelf "tasks/cancel" 'v')

/-- The caller of the send has gone away before the task is canceled. -/
theorem left_canceled : ∃ before calls : Calls, turn plainRpc before (.advance 1 plainChance) = some calls ∧
    ∃ t, t.status.state = .canceled ∧
      ∀ later, Reached (turn plainRpc) (NoSend "t1") calls later → later.store.tasks "t1" = some t := by
  have walked : ((walk (turn plainRpc) anything (sending ++ [leaving,canceling]) noCalls).bind fun before =>
      (turn plainRpc before (.advance 1 plainChance)).map fun _ => (cancels before,quietCheck before)) =
      some (true,true) := by
    decide +kernel
  obtain ⟨before,walked,further⟩ := Option.bind_eq_some_iff.mp walked
  obtain ⟨calls,stepped,seen⟩ := Option.map_eq_some_iff.mp further
  obtain ⟨canceled,quiet⟩ := Prod.mk.inj seen
  obtain ⟨request,caller,resume,t,live,answered,state⟩ := cancels_spec canceled
  have run : Reached (turn plainRpc) Free noCalls before := reached_walk (fun _ _ _ => trivial) _ .start walked
  exact ⟨before,calls,stepped,t,state,
    (canceled_stays plainRpc run live stepped answered state).mpr (quiet_of_check quiet)⟩

def outcomeOf (calls : Calls) : Option (TaskState × Nat) :=
  (calls.store.tasks "t1").map fun t => (t.status.state,t.artifacts.length)

/-- The tool that is running when the task is canceled completes it. -/
theorem canceled_completes : ∃ before calls later : Calls, Reached (turn plainRpc) Free noCalls before ∧
    cancels before = true ∧ turn plainRpc before (.advance 1 plainChance) = some calls ∧
    outcomeOf calls = some (.canceled,0) ∧ Reached (turn plainRpc) (NoSend "t1") calls later ∧
    outcomeOf later = some (.completed,1) := by
  have walked : ((walk (turn plainRpc) anything (sending ++ [canceling]) noCalls).bind fun before =>
      (turn plainRpc before (.advance 1 plainChance)).bind fun calls =>
        (walk (turn plainRpc) unsent [.advance 0 plainChance] calls).map fun later =>
          (cancels before,outcomeOf calls,outcomeOf later)) =
      some (true,some (.canceled,0),some (.completed,1)) := by
    decide +kernel
  obtain ⟨before,walked,further⟩ := Option.bind_eq_some_iff.mp walked
  obtain ⟨calls,stepped,further⟩ := Option.bind_eq_some_iff.mp further
  obtain ⟨later,walked',seen⟩ := Option.map_eq_some_iff.mp further
  obtain ⟨canceled,first,second⟩ : cancels before = _ ∧ outcomeOf calls = _ ∧ outcomeOf later = _ := by
    simpa only [Prod.mk.injEq] using seen
  exact ⟨before,calls,later,reached_walk (fun _ _ _ => trivial) _ .start walked,canceled,stepped,first,
    reached_walk noSend_of_check _ .start walked',second⟩

end Samples

end Orrery.Tasks
