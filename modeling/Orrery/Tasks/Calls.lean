import Orrery.Tasks.Rpc

/-! What the calls of an agent may do to its tasks: which acts follow one another in a
call, and what an act does to the row of a task. -/
namespace Orrery.Tasks
open Foundation Json

section Acts

def Act.send : Act → Option Send
  | .accept send | .work send | .ask send | .finish send _ => some send
  | _ => none

def Act.continues : Act → Bool
  | .work _ | .ask _ | .finish _ _ => true
  | _ => false

def Act.Continues (taskId : String) (act : Act) : Prop :=
  act.continues = true ∧ ∃ send, act.send = some send ∧ send.creation.taskId = taskId

def Act.Accepts (taskId : String) : Act → Prop
  | .accept send => send.creation.taskId = taskId
  | _ => False

def Act.By (caller : Option CallerIdentity) : Act → Prop
  | .accept send | .work send | .ask send | .finish send _ => caller ≠ none ∧ send.caller = caller ∧
    send.creation.creatorDidKey = (caller.map CallerIdentity.didKey).filter (· ≠ "")
  | .cancel _ own => caller ≠ none ∧ own = caller
  | .get _ => True

def Answer.onwards : Answer → Option Send → Option Send
  | .task _, send | .finished _ _ _, send => send
  | _, _ => none

theorem onwards_some {answer : Answer} {current : Option Send} {send : Send}
    (goes : answer.onwards current = some send) : current = some send := by
  cases answer <;> first | exact goes | cases goes

def Chained {α : Type} (own : Act → Prop) : Option Send → Program α → Prop
  | _, .done _ => True
  | current, .call act resume => own act ∧ (act.continues = true → current = act.send) ∧
    ∀ answer, Chained own (answer.onwards act.send) (resume answer)

variable {α β : Type} {own : Act → Prop} {current : Option Send}

theorem Chained.map {f : α → β} {p : Program α} : ∀ {current : Option Send}, Chained own current p →
    Chained own current (f <$> p) := by
  induction p with
  | done a => exact fun _ => trivial
  | call act resume ih =>
    intro current chained
    exact ⟨chained.1,chained.2.1,fun answer => ih answer (chained.2.2 answer)⟩

theorem Chained.perform {act : Act} {next : Answer → Program α} (mine : own act)
    (follows : act.continues = true → current = act.send)
    (rest : ∀ answer, Chained own (answer.onwards act.send) (next answer)) :
    Chained own current (perform act >>= next) :=
  ⟨mine,follows,rest⟩

theorem chained_done (a : α) : Chained own current (pure a : Program α) := trivial

end Acts

section Programs
variable {env : RpcEnv} {request : Request} {id : Json} {params : Dict} {caller : Option CallerIdentity}

theorem readSend_ok {roleText : String} {send : Send} (read : readSend env request params caller roleText = .ok send) :
    send.caller = caller ∧ send.creation.creatorDidKey = (caller.map CallerIdentity.didKey).filter (· ≠ "") := by
  unfold readSend at read
  split at read
  next =>
    split at read
    next => cases read
    next =>
      split at read
      next => cases read
      next =>
        cases read
        exact ⟨rfl,rfl⟩
  next => cases read

theorem tasksSend_chained (given : caller ≠ none) :
    Chained (Act.By caller) none (tasksSend env request id params caller) := by
  unfold tasksSend
  split
  next => trivial
  next send read =>
    have mine := readSend_ok read
    apply Chained.perform ⟨given,mine⟩ Bool.noConfusion
    intro accepted
    cases accepted with
    | task kept =>
      cases send.tool with
      | none => exact chained_done _
      | some call =>
        dsimp only
        apply Chained.perform ⟨given,mine⟩ fun _ => rfl
        intro answer
        cases answer <;> exact chained_done _
    | _ => exact chained_done _

theorem streamSend_chained (given : caller ≠ none) :
    Chained (Act.By caller) none (streamSend env request id params caller) := by
  unfold streamSend
  split
  next => trivial
  next send read =>
    have mine := readSend_ok read
    apply Chained.perform ⟨given,mine⟩ Bool.noConfusion
    intro accepted
    cases accepted with
    | task submitted =>
      dsimp only
      apply Chained.perform ⟨given,mine⟩ fun _ => rfl
      intro started
      cases started with
      | task working =>
        dsimp only
        cases send.tool with
        | none =>
          dsimp only
          apply Chained.perform ⟨given,mine⟩ fun _ => rfl
          intro asked
          cases asked <;> exact chained_done _
        | some call =>
          dsimp only
          apply Chained.perform ⟨given,mine⟩ fun _ => rfl
          intro finished
          cases finished with
          | finished artifact outcome task => cases outcome <;> exact chained_done _
          | _ => exact chained_done _
      | _ => exact chained_done _
    | _ => exact chained_done _

theorem handle_chained : Chained (Act.By caller) none (handle env request caller) := by
  unfold handle
  split
  next => trivial
  next req _ =>
    dsimp only
    split
    next => trivial
    next admitted =>
      have given (required : requiresCaller (canonicalMethod req.method) = true) : caller ≠ none :=
        fun none => admitted ⟨none,required⟩
      split
      next method => exact tasksSend_chained (given (by rw [method]; rfl))
      split
      next =>
        unfold tasksGet
        split
        next => trivial
        next => exact Chained.perform trivial Bool.noConfusion fun answer => chained_done _
      split
      next method =>
        unfold tasksCancel
        split
        next => trivial
        next =>
          refine Chained.perform ⟨given (by rw [method]; rfl),rfl⟩ Bool.noConfusion ?_
          exact fun answer => chained_done _
      split
      next => trivial
      split <;> trivial

theorem stream_chained : Chained (Act.By caller) none (stream env request caller) := by
  unfold stream
  split
  next => trivial
  next req _ =>
    dsimp only
    split
    next => trivial
    next admitted =>
      split
      next method => exact streamSend_chained fun none => admitted ⟨none,by rw [method]; rfl⟩
      split
      next =>
        unfold streamResubscribe
        split
        next => trivial
        next =>
          apply Chained.perform trivial Bool.noConfusion
          intro answer
          cases answer <;> exact chained_done _
      next => trivial

def callerOf (env : RpcEnv) (request : Request) : Option CallerIdentity :=
  match verifyCaller env.toCallerEnv request.headers request.body request.now with
  | .ok caller => caller
  | .error _ => none

theorem serve_chained (env : RpcEnv) (request : Request) :
    Chained (Act.By (callerOf env request)) none (serve env request) := by
  rw [serve,callerOf]
  cases verifyCaller env.toCallerEnv request.headers request.body request.now with
  | error e => trivial
  | ok caller =>
    dsimp only
    by_cases streamed : request.streamed = true
    · rw [if_pos streamed]
      exact stream_chained.map
    · rw [if_neg streamed]
      exact handle_chained.map

end Programs

section Effects
variable {env : StoreEnv} {e : Chance} {s : Store} {act : Act} {send : Send} {taskId : String}

inductive Writes (s : Store) (taskId : String) : Act → Prop
  | accepted (send : Send) (named : send.creation.taskId = taskId)
      (permitted : ∀ t, s.tasks taskId = some t → creatorPermits t send.caller = true) : Writes s taskId (.accept send)
  | continued (act : Act) (goes : act.Continues taskId) : Writes s taskId act
  | canceled (caller : Option CallerIdentity) (t : Task) (found : s.tasks taskId = some t)
      (permitted : creatorPermits t caller = true) (live : t.terminal = false) :
    Writes s taskId (.cancel (.str taskId) caller)

structure Rewrites (s s' : Store) (taskId : String) (act : Act) (task : Task) : Prop where
  writes : Writes s taskId act
  tasks : s'.tasks = Function.update s.tasks taskId (some task)
  kept : ∀ t, s.tasks taskId = some t → task.creatorDidKey = t.creatorDidKey
  made : s.tasks taskId = none → ∃ send, act = .accept send ∧ task.creatorDidKey = send.creation.creatorDidKey

theorem change_cases (env : StoreEnv) (e : Chance) (s : Store) (taskId : String) (newState : TaskState)
    (artifact : Option Artifact) (reply : Option Message) (answer : Task → Answer) :
    (change env e s taskId newState artifact reply answer).2 = s ∧
        (∃ raised, (change env e s taskId newState artifact reply answer).1 = .raised raised) ∨
      ∃ old, s.tasks taskId = some old ∧ change env e s taskId newState artifact reply answer =
        (answer (old.moved newState artifact reply e.now),
          s.put env taskId (old.moved newState artifact reply e.now)) := by
  unfold change
  split
  next task s' moved =>
    obtain ⟨old,found,rfl,rfl⟩ := transition_ok moved
    exact Or.inr ⟨old,found,rfl⟩
  next raised _ => exact Or.inl ⟨rfl,raised,rfl⟩

theorem change_rewrites (goes : act.Continues taskId) (newState : TaskState) (artifact : Option Artifact)
    (reply : Option Message) (answer : Task → Answer) :
    (change env e s taskId newState artifact reply answer).2 = s ∨
      ∃ task, Rewrites s (change env e s taskId newState artifact reply answer).2 taskId act task := by
  rcases change_cases env e s taskId newState artifact reply answer with ⟨same,-⟩ | ⟨old,found,run⟩
  · exact Or.inl same
  · rw [run]
    refine Or.inr ⟨_,.continued act goes,rfl,?_,?_⟩
    · intro t here
      cases found.symm.trans here
      rfl
    · intro none
      cases found.symm.trans none

theorem acceptSend_cases (env : StoreEnv) (e : Chance) (s : Store) (send : Send) :
    (acceptSend env e s send).2 = s ∧ (∀ own, (acceptSend env e s send).1.onwards own = none) ∨
      ∃ task, Rewrites s (acceptSend env e s send).2 send.creation.taskId (.accept send) task := by
  unfold acceptSend
  split
  next => exact Or.inl ⟨rfl,fun _ => rfl⟩
  next passes =>
    have permitted : ∀ t, s.tasks send.creation.taskId = some t → creatorPermits t send.caller = true := by
      intro t found
      simpa [found] using passes
    split
    next => exact Or.inl ⟨rfl,fun _ => rfl⟩
    next task s' created =>
      obtain ⟨rfl,source⟩ := create_ok created
      have creator : (∀ t, s.tasks send.creation.taskId = some t → task.creatorDidKey = t.creatorDidKey) ∧
          (s.tasks send.creation.taskId = none → task.creatorDidKey = send.creation.creatorDidKey) := by
        rcases source with ⟨old,found,rfl⟩ | ⟨free,fresh⟩
        · refine ⟨fun t here => ?_,fun none => (nomatch found.symm.trans none)⟩
          cases found.symm.trans here
          rfl
        · obtain ⟨_,_,_,rfl⟩ := Creation.task_ok fresh
          exact ⟨fun t here => (nomatch free.symm.trans here),fun _ => rfl⟩
      right
      split
      next =>
        rcases change_cases env e (s.put env send.creation.taskId task) send.creation.taskId
          .inputRequired none (some (agentReply e refineText)) .task with failed | ⟨old,found,run⟩
        · obtain ⟨raised,failed⟩ := failed.2
          simp [change,transition] at failed
        · obtain rfl : task = old := by simpa using found
          rw [run]
          refine ⟨task.moved .inputRequired none (some (agentReply e refineText)) e.now,.accepted send rfl permitted,
            ?_,creator.1,fun free => ⟨send,rfl,creator.2 free⟩⟩
          simp
      next => exact ⟨task,.accepted send rfl permitted,rfl,creator.1,fun free => ⟨send,rfl,creator.2 free⟩⟩

theorem cancelTask_cases (s : Store) (named : Json) (caller : Option CallerIdentity) :
    (cancelTask env e s named caller).2 = s ∨
      ∃ taskId task, Rewrites s (cancelTask env e s named caller).2 taskId (.cancel named caller) task := by
  unfold cancelTask
  split
  next => exact Or.inl rfl
  next => exact Or.inl rfl
  next existing found =>
    split
    next => exact Or.inl rfl
    next permitted =>
      split
      next taskId =>
        have here : s.tasks taskId = some existing := Except.ok.inj found
        split
        next task s' done =>
          obtain ⟨old,same,⟨-,-,rfl⟩ | ⟨live,rfl,rfl⟩⟩ := cancel_some done
          · exact Or.inl rfl
          · obtain rfl : existing = old := Option.some.inj (here.symm.trans same)
            refine Or.inr ⟨taskId,_,.canceled caller existing here (by simpa using permitted) live,rfl,?_,?_⟩
            · intro t own
              cases here.symm.trans own
              rfl
            · intro none
              cases here.symm.trans none
        next => exact Or.inl rfl
      next => exact Or.inl rfl

theorem exec_cases (env : StoreEnv) (e : Chance) (act : Act) (s : Store) : (exec env e act s).2 = s ∨
    ∃ taskId task, Rewrites s (exec env e act s).2 taskId act task := by
  cases act with
  | accept send => exact (acceptSend_cases env e s send).imp And.left fun found => ⟨_,found⟩
  | work send =>
    rw [exec]
    split
    · exact Or.inl rfl
    · exact (change_rewrites ⟨rfl,send,rfl,rfl⟩ _ _ _ _).imp id fun found => ⟨_,found⟩
  | ask send =>
    rw [exec]
    split
    · exact Or.inl rfl
    · exact (change_rewrites ⟨rfl,send,rfl,rfl⟩ _ _ _ _).imp id fun found => ⟨_,found⟩
  | finish send tool =>
    rw [exec]
    split
    · exact Or.inl rfl
    · unfold finishSend
      split
      · exact (change_rewrites ⟨rfl,send,rfl,rfl⟩ _ _ _ _).imp id fun found => ⟨_,found⟩
      · exact (change_rewrites ⟨rfl,send,rfl,rfl⟩ _ _ _ _).imp id fun found => ⟨_,found⟩
  | cancel named caller => exact cancelTask_cases s named caller
  | get named =>
    rw [exec]
    split <;> exact Or.inl rfl

theorem exec_row (changed : (exec env e act s).2.tasks taskId ≠ s.tasks taskId) :
    ∃ task, Rewrites s (exec env e act s).2 taskId act task := by
  rcases exec_cases env e act s with same | ⟨own,task,rewrites⟩
  · exact absurd (by rw [same]) changed
  · obtain rfl : taskId = own := by
      by_contra other
      rw [rewrites.tasks,Function.update_of_ne other] at changed
      exact changed rfl
    exact ⟨task,rewrites⟩

end Effects

end Orrery.Tasks
