import Orrery.Foundation.Rely
import Orrery.Tasks.Ownership

/-! What a call over JSON-RPC is answered with: the response dictionaries of
community_member/a2a_rpc.py, and the calls that an exception leaves instead. -/
namespace Orrery.Tasks
open Foundation Json

section Dumps

def whole (fields : List (String × Option Json)) : Dict := fields.map fun field => (field.1,field.2.getD .null)

def Message.dumpWhole (message : Message) : Json :=
  .obj (whole [("role",some (.str message.role.text)),("parts",some (.arr (message.parts.map Part.dump))),
    ("messageId",some (.str message.messageId)),("contextId",message.contextId.map .str),
    ("taskId",message.taskId.map .str)])

def Artifact.dumpWhole (artifact : Artifact) : Json :=
  .obj (whole [("artifactId",some (.str artifact.artifactId)),("name",artifact.name.map .str),
    ("description",artifact.description.map .str),("parts",some (.arr (artifact.parts.map Part.dump))),
    ("index",some (.int artifact.index)),("append",some (.bool artifact.append)),
    ("lastChunk",some (.bool artifact.lastChunk))])

def TaskStatus.dumpWhole (status : TaskStatus) : Json :=
  .obj (whole [("state",some (.str status.state.text)),("message",status.message.map Message.dumpWhole),
    ("timestamp",status.timestamp.map .str)])

def Task.dumpWhole (task : Task) : Json :=
  .obj (whole [("id",some (.str task.id)),("sessionId",task.sessionId.map .str),("contextId",task.contextId.map .str),
    ("creatorDidKey",task.creatorDidKey.map .str),("status",some task.status.dumpWhole),
    ("artifacts",some (.arr (task.artifacts.map Artifact.dumpWhole))),
    ("history",some (.arr (task.history.map Message.dumpWhole))),("metadata",task.metadata.map .obj)])

end Dumps

section Responses

def optional : Json → Option Json
  | .null => none
  | value => some value

def rpcResponse (id : Json) (result error : Option Json) : Dict :=
  present [("jsonrpc",some (.str "2.0")),("id",optional id),("result",result),("error",error)]

def rpcOk (id result : Json) : Dict := rpcResponse id (some result) none

def rpcError (id : Json) (code : Int) (message : String) (data : Option Json) : Dict :=
  rpcResponse id none (some (.obj (present [("code",some (.int code)),("message",some (.str message)),("data",data)])))

def Reply.response (census : Dict) : Reply → Option Dict
  | .error id code message data => some (rpcError id code message (data.map Task.dumpWhole))
  | .ok id task => some (rpcOk id task.dump)
  | .result id value => some (rpcOk id value)
  | .census id => some (rpcOk id (.obj census))
  | .raised _ | .closed => none

def Reply.Answers (census : Dict) (reply : Reply) : Prop :=
  ∃ response, reply.response census = some response ∧
    Xor ((get response "result").isSome = true) ((get response "error").isSome = true)

variable {census : Dict}

theorem rpcResponse_fields (id : Json) (result error : Option Json) :
    get (rpcResponse id result error) "result" = result ∧ get (rpcResponse id result error) "error" = error := by
  unfold rpcResponse present
  cases optional id <;> cases result <;> cases error <;> exact ⟨rfl,rfl⟩

theorem rpcOk_one (id result : Json) : Xor ((get (rpcOk id result) "result").isSome = true)
    ((get (rpcOk id result) "error").isSome = true) := by
  obtain ⟨given,none⟩ := rpcResponse_fields id (some result) none
  rw [rpcOk,given,none]
  exact Or.inl ⟨rfl,Bool.noConfusion⟩

theorem rpcError_one (id : Json) (code : Int) (message : String) (data : Option Json) :
    Xor ((get (rpcError id code message data) "result").isSome = true)
      ((get (rpcError id code message data) "error").isSome = true) := by
  rw [rpcError,(rpcResponse_fields id none _).1,(rpcResponse_fields id none _).2]
  exact Or.inr ⟨rfl,Bool.noConfusion⟩

theorem answers_error (id : Json) (code : Int) (message : String) (data : Option Task) :
    (Reply.error id code message data).Answers census := ⟨_,rfl,rpcError_one ..⟩

theorem answers_ok (id : Json) (task : Task) : (Reply.ok id task).Answers census := ⟨_,rfl,rpcOk_one ..⟩

theorem answers_result (id value : Json) : (Reply.result id value).Answers census := ⟨_,rfl,rpcOk_one ..⟩

theorem answers_census (id : Json) : (Reply.census id).Answers census := ⟨_,rfl,rpcOk_one ..⟩

theorem raised_unanswered (e : Exc) : ¬ (Reply.raised e).Answers census := by
  rintro ⟨response,none,_⟩
  cases none

theorem toolReply_answers (id : Json) (tool : String) (task : Task) (outcome : Except Exc String) :
    (toolReply id tool task outcome).Answers census := by
  cases outcome with
  | ok _ => exact answers_ok ..
  | error e => cases e <;> exact answers_error ..

end Responses

section Acts
variable {env : StoreEnv} {e : Chance} {s s' : Store} {send : Send}

def Keeps (s s' : Store) : Prop := ∀ taskId, (s.tasks taskId).isSome = true → (s'.tasks taskId).isSome = true

theorem exec_keeps (act : Act) : Keeps s (exec env e act s).2 := by
  intro taskId here
  rcases exec_cases env e act s with same | ⟨own,task,rewrites⟩
  · rwa [same]
  · rw [rewrites.tasks]
    by_cases written : taskId = own
    · rw [written,Function.update_self]
      rfl
    · rwa [Function.update_of_ne written]

def Creation.Typed (c : Creation) : Prop :=
  (optionalText c.sessionId).isSome = true ∧ (optionalDict c.metadata).isSome = true

theorem Creation.task_error {c : Creation} (untyped : ¬ c.Typed) (now : String) :
    c.task env now = .error (env.invalidTask c.sessionId c.metadata) := by
  unfold Creation.task
  split
  next text dict => exact absurd ⟨by rw [text]; rfl,by rw [dict]; rfl⟩ untyped
  next => rfl

theorem Creation.task_typed {c : Creation} (typed : c.Typed) (now : String) : ∃ task, c.task env now = .ok task := by
  obtain ⟨session,text⟩ := Option.isSome_iff_exists.mp typed.1
  obtain ⟨metadata,dict⟩ := Option.isSome_iff_exists.mp typed.2
  exact ⟨_,by rw [Creation.task,text,dict]⟩

theorem change_known {taskId : String} (here : (s.tasks taskId).isSome = true) (newState : TaskState)
    (artifact : Option Artifact) (reply : Option Message) (answer : Task → Answer) :
    ∃ task, (change env e s taskId newState artifact reply answer).1 = answer task := by
  obtain ⟨task,found⟩ := Option.isSome_iff_exists.mp here
  exact ⟨task.moved newState artifact reply e.now,by simp only [change,transition,found]⟩

theorem finishSend_known {taskId tool : String} (here : (s.tasks taskId).isSome = true) :
    ∃ artifact outcome task, (finishSend env e s taskId tool).1 = .finished artifact outcome task := by
  unfold finishSend
  split
  · obtain ⟨task,moved⟩ := change_known (e := e) here _ _ _ _
    exact ⟨_,_,task,moved⟩
  · obtain ⟨task,moved⟩ := change_known (e := e) here _ _ _ _
    exact ⟨_,_,task,moved⟩

theorem create_known (fine : (s.tasks send.creation.taskId).isSome = true ∨ send.creation.Typed) (now : String) :
    ∃ task, create env s send.creation now = .ok (task,s.put env send.creation.taskId task) := by
  unfold create
  split
  next task _ => exact ⟨_,rfl⟩
  next free =>
    rw [free] at fine
    obtain ⟨task,made⟩ := Creation.task_typed (fine.resolve_left Bool.noConfusion) now
    exact ⟨task,by rw [made]; rfl⟩

theorem acceptSend_typed (fine : (s.tasks send.creation.taskId).isSome = true ∨ send.creation.Typed) :
    (acceptSend env e s send).1 = .refused ∨ (∃ task, (acceptSend env e s send).1 = .task task) ∧
      ((acceptSend env e s send).2.tasks send.creation.taskId).isSome = true := by
  unfold acceptSend
  split
  next => exact Or.inl rfl
  next =>
    obtain ⟨task,created⟩ := create_known fine e.now
    have here : ((s.put env send.creation.taskId task).tasks send.creation.taskId).isSome = true := by
      rw [put_own]
      rfl
    rw [created]
    dsimp only
    right
    split
    next =>
      rcases change_cases env e (s.put env send.creation.taskId task) send.creation.taskId .inputRequired none
        (some (agentReply e refineText)) .task with failed | ⟨old,_,run⟩
      · obtain ⟨asked,moved⟩ := change_known (e := e) here .inputRequired none
          (some (agentReply e refineText)) .task
        exact ⟨⟨asked,moved⟩,by rwa [failed.1]⟩
      · rw [run]
        refine ⟨⟨_,rfl⟩,?_⟩
        rw [put_own]
        rfl
    next => exact ⟨⟨task,rfl⟩,here⟩

theorem acceptSend_untyped (free : s.tasks send.creation.taskId = none) (untyped : ¬ send.creation.Typed) :
    ∃ raised, (acceptSend env e s send).1 = .raised raised := by
  refine ⟨env.invalidTask send.creation.sessionId send.creation.metadata,?_⟩
  simp only [acceptSend,create,free,Creation.task_error untyped,bind,Except.bind,Option.any_none,Bool.false_eq_true,
    if_false]

end Acts

section Programs
variable (env : RpcEnv)

def execOpen (e : Chance) : Act → Store → Answer × Store := exec env.toStoreEnv { e with closed := false }

/-- However its acts turn out, and whatever others do to the store between them, the
program returns a response. -/
def Responds (census : Dict) (p : Program Reply) (s : Store) : Prop :=
  p.Safe (execOpen env) Keeps Keeps (fun reply _ => reply.Answers census) s

/-- What the request brings to its method does not make the handler raise. -/
structure Served (request : Request) (caller : Option CallerIdentity) (s : Store) (req : RpcRequest) : Prop where
  send : canonicalMethod req.method = "tasks/send" → ∀ sent, readSend env request (paramsOf req.params) caller
    "message.role must be 'user' for tasks/send" = .ok sent →
      (s.tasks sent.creation.taskId).isSome = true ∨ sent.creation.Typed
  named : canonicalMethod req.method = "tasks/get" ∨ canonicalMethod req.method = "tasks/cancel" →
    ∀ taskId, namedTask (paramsOf req.params) = some taskId → ∃ key, hashKey taskId = .ok key
  receipt : canonicalMethod req.method = "nanda/cosignReceipt" → ∀ receipt cosign,
    get (paramsOf req.params) "receipt" = some (.obj receipt) → env.cosigner = some cosign →
      ∃ entry, cosign receipt = .ok entry

def Passes (caller : Option CallerIdentity) (req : RpcRequest) : Prop :=
  ¬ (caller = none ∧ requiresCaller (canonicalMethod req.method) = true)

variable {env} {request : Request} {caller : Option CallerIdentity} {census : Dict} {s : Store} {id : Json}
  {params : Dict} {req : RpcRequest}

theorem Keeps.refl (s : Store) : Keeps s s := fun _ here => here

theorem responds_done {reply : Reply} : Responds env census (.done reply) s ↔ reply.Answers census :=
  ⟨fun safe => safe s (Keeps.refl s),fun answers _ _ => answers⟩

theorem responds_perform {act : Act} {next : Answer → Program Reply}
    (goes : ∀ e s', Keeps s s' → Responds env census (next (execOpen env e act s').1) (execOpen env e act s').2) :
    Responds env census (perform act >>= next) s :=
  fun e s' change => ⟨exec_keeps act,goes e s' change⟩

theorem responds_answer {act : Act} {next : Answer → Program Reply}
    (safe : Responds env census (perform act >>= next) s) (e : Chance) :
    Responds env census (next (execOpen env e act s).1) (execOpen env e act s).2 :=
  (safe e s (Keeps.refl s)).2

def someChance : Chance := ⟨"","","",.ok "",false⟩

theorem tasksSend_responds : Responds env census (tasksSend env request id params caller) s ↔
    ∀ sent, readSend env request params caller "message.role must be 'user' for tasks/send" = .ok sent →
      (s.tasks sent.creation.taskId).isSome = true ∨ sent.creation.Typed := by
  unfold tasksSend
  cases read : readSend env request params caller "message.role must be 'user' for tasks/send" with
  | error text => exact ⟨fun _ _ absent => (nomatch absent),fun _ => responds_done.mpr (answers_error ..)⟩
  | ok send =>
    constructor
    · intro safe sent same
      cases same
      by_contra bad
      obtain ⟨free,untyped⟩ := not_or.mp bad
      rw [Option.not_isSome_iff_eq_none] at free
      obtain ⟨raised,fails⟩ := acceptSend_untyped (e := { someChance with closed := false })
        free untyped
      have after := responds_answer safe someChance
      rw [execOpen,exec,fails] at after
      exact raised_unanswered raised (responds_done.mp after)
    · intro fine
      apply responds_perform
      intro e s' kept
      have fine' := (fine send rfl).imp_left (kept _)
      rcases acceptSend_typed (e := { e with closed := false }) fine' with
        refused | ⟨⟨task,accepted⟩,here⟩
      · rw [execOpen,exec,refused]
        exact responds_done.mpr (answers_error ..)
      · rw [execOpen,exec,accepted]
        cases send.tool with
        | none => exact responds_done.mpr (answers_ok ..)
        | some call =>
          apply responds_perform
          intro e' s'' kept'
          obtain ⟨artifact,outcome,task',finished⟩ := finishSend_known
            (e := { e' with closed := false }) (kept' _ here)
          rw [execOpen,exec,if_neg Bool.noConfusion,finished]
          exact responds_done.mpr (toolReply_answers ..)

theorem lookup_hashed {taskId : Json} (hashed : ∃ key, hashKey taskId = .ok key) : ∃ task, lookup s taskId = .ok task := by
  cases taskId with
  | str text => exact ⟨_,rfl⟩
  | arr | obj =>
    obtain ⟨key,absent⟩ := hashed
    cases absent
  | _ => exact ⟨none,rfl⟩

theorem lookup_unhashed {taskId : Json} (unhashed : ¬ ∃ key, hashKey taskId = .ok key) :
    ∃ raised, lookup s taskId = .error raised := by
  cases taskId with
  | arr | obj => exact ⟨_,rfl⟩
  | _ => exact absurd ⟨_,rfl⟩ unhashed

theorem tasksGet_responds : Responds env census (tasksGet env id params) s ↔
    ∀ taskId, namedTask params = some taskId → ∃ key, hashKey taskId = .ok key := by
  unfold tasksGet
  cases namedTask params with
  | none => exact ⟨fun _ _ absent => (nomatch absent),fun _ => responds_done.mpr (answers_error ..)⟩
  | some taskId =>
    constructor
    · rintro safe _ ⟨⟩
      by_contra unhashed
      obtain ⟨raised,fails⟩ := lookup_unhashed (s := s) unhashed
      have after := responds_answer safe someChance
      simp only [execOpen,exec,fails] at after
      exact raised_unanswered raised (responds_done.mp after)
    · intro hashed
      apply responds_perform
      intro e s' _
      obtain ⟨found,looked⟩ := lookup_hashed (s := s') (hashed taskId rfl)
      simp only [execOpen,exec,looked]
      cases found with
      | none => exact responds_done.mpr (answers_error ..)
      | some task => exact responds_done.mpr (answers_ok ..)

theorem cancelTask_hashed {taskId : Json} {e : Chance} {env : StoreEnv} (hashed : ∃ key, hashKey taskId = .ok key) :
    (cancelTask env e s taskId caller).1 = .refused ∨ (cancelTask env e s taskId caller).1 = .absent ∨
      ∃ task, (cancelTask env e s taskId caller).1 = .task task := by
  obtain ⟨found,looked⟩ := lookup_hashed (s := s) hashed
  unfold cancelTask
  rw [looked]
  cases found with
  | none => exact Or.inr (Or.inl rfl)
  | some existing =>
    dsimp only
    split
    next => exact Or.inl rfl
    next =>
      right
      split
      next text =>
        split
        next task _ _ => exact Or.inr ⟨task,rfl⟩
        next => exact Or.inl rfl
      next => exact Or.inl rfl

theorem tasksCancel_responds : Responds env census (tasksCancel env id params caller) s ↔
    ∀ taskId, namedTask params = some taskId → ∃ key, hashKey taskId = .ok key := by
  unfold tasksCancel
  cases namedTask params with
  | none => exact ⟨fun _ _ absent => (nomatch absent),fun _ => responds_done.mpr (answers_error ..)⟩
  | some taskId =>
    constructor
    · rintro safe _ ⟨⟩
      by_contra unhashed
      obtain ⟨raised,fails⟩ := lookup_unhashed (s := s) unhashed
      have after := responds_answer safe someChance
      simp only [execOpen,exec,cancelTask,fails] at after
      exact raised_unanswered raised (responds_done.mp after)
    · intro hashed
      apply responds_perform
      intro e s' _
      rw [execOpen,exec]
      rcases cancelTask_hashed (s := s') (e := { e with closed := false })
        (hashed taskId rfl) with refused | absent | ⟨task,canceled⟩
      · rw [refused]
        exact responds_done.mpr (answers_error ..)
      · rw [absent]
        exact responds_done.mpr (answers_error ..)
      · rw [canceled]
        exact responds_done.mpr (answers_ok ..)

theorem cosignReceipt_answers : (cosignReceipt env id params).Answers census ↔
    ∀ receipt cosign, get params "receipt" = some (.obj receipt) → env.cosigner = some cosign →
      ∃ entry, cosign receipt = .ok entry := by
  unfold cosignReceipt
  constructor
  · intro answers receipt cosign given own
    rw [given,own] at answers
    cases signed : cosign receipt with
    | ok entry => exact ⟨entry,rfl⟩
    | error e =>
      simp only [signed] at answers
      exact absurd answers (raised_unanswered e)
  · intro signs
    split
    next receipt cosign given own =>
      obtain ⟨entry,signed⟩ := signs receipt cosign given own
      rw [signed]
      exact answers_result ..
    next => exact answers_result ..
    next => exact answers_error ..

theorem served_else (send : canonicalMethod req.method ≠ "tasks/send") (get : canonicalMethod req.method ≠ "tasks/get")
    (cancel : canonicalMethod req.method ≠ "tasks/cancel")
    (cosign : canonicalMethod req.method ≠ "nanda/cosignReceipt") : Served env request caller s req :=
  ⟨fun own => absurd own send,fun own => absurd own (not_or.mpr ⟨get,cancel⟩),fun own => absurd own cosign⟩

theorem handle_passed (parsed : env.validateRequest request.content = .ok req) (passes : Passes caller req) :
    Responds env census (handle env request caller) s ↔ Served env request caller s req := by
  unfold handle
  rw [parsed]
  dsimp only
  rw [if_neg passes]
  split
  next send =>
    rw [tasksSend_responds]
    refine ⟨fun fine => ⟨fun _ => fine,fun own => ?_,fun own => ?_⟩,fun served => served.send send⟩
    · rw [send] at own
      exact absurd own (by decide)
    · rw [send] at own
      exact absurd own (by decide)
  next send =>
    split
    next got =>
      rw [tasksGet_responds]
      refine ⟨fun fine => ⟨fun own => absurd own send,fun _ => fine,fun own => ?_⟩,fun served => served.named (Or.inl got)⟩
      rw [got] at own
      exact absurd own (by decide)
    next got =>
      split
      next cancel =>
        rw [tasksCancel_responds]
        refine ⟨fun fine => ⟨fun own => absurd own send,fun _ => fine,fun own => ?_⟩,fun served =>
          served.named (Or.inr cancel)⟩
        rw [cancel] at own
        exact absurd own (by decide)
      next cancel =>
        split
        next cosign =>
          rw [responds_done,cosignReceipt_answers]
          exact ⟨fun fine => ⟨fun own => absurd own send,fun own => absurd own (not_or.mpr ⟨got,cancel⟩),fun _ => fine⟩,
            fun served => served.receipt cosign⟩
        next cosign =>
          have served : Served env request caller s req := served_else send got cancel cosign
          split
          · exact ⟨fun _ => served,fun _ => responds_done.mpr (answers_census _)⟩
          · exact ⟨fun _ => served,fun _ => responds_done.mpr (answers_error ..)⟩

/-- The handler returns a response, whatever the tool does and others do meanwhile, exactly
when its method does not raise on what the request brings: an id that cannot be hashed, a
new task whose session or metadata have another type, a receipt that cannot be co-signed. -/
theorem handle_responds (env : RpcEnv) (request : Request) (caller : Option CallerIdentity) (census : Dict) (s : Store) :
    Responds env census (handle env request caller) s ↔
      ∀ req, env.validateRequest request.content = .ok req → Passes caller req → Served env request caller s req := by
  cases parsed : env.validateRequest request.content with
  | error e =>
    refine ⟨fun _ _ absent => (nomatch absent),fun _ => ?_⟩
    rw [handle,parsed]
    exact responds_done.mpr (answers_error ..)
  | ok req =>
    by_cases passes : Passes caller req
    · rw [handle_passed parsed passes]
      refine ⟨?_,fun served => served req rfl passes⟩
      rintro served _ ⟨⟩ _
      exact served
    · refine ⟨?_,fun _ => ?_⟩
      · rintro _ _ ⟨⟩ admitted
        exact absurd admitted passes
      · rw [handle,parsed]
        dsimp only
        rw [if_pos (not_not.mp passes)]
        exact responds_done.mpr (answers_error ..)

def unhashableGet : Request where
  headers := []
  body := ""
  content := .obj [("method",.str "tasks/get"),("params",.obj [("id",.obj [("a",.int 1)])])]
  now := 0
  streamed := false
  mintedTask := "minted"
  mintedContext := "minted"

theorem unhashableGet_raises : ¬ Responds plainRpc [] (handle plainRpc unhashableGet none) ⟨fun _ => none,[]⟩ := by
  have parsed : plainRpc.validateRequest unhashableGet.content =
      .ok ⟨.null,"tasks/get",.obj [("id",.obj [("a",.int 1)])]⟩ := rfl
  rw [handle_passed parsed (fun refused => absurd refused.2 (by decide))]
  intro served
  obtain ⟨key,hashed⟩ := served.named (Or.inl rfl) (.obj [("a",.int 1)]) rfl
  cases hashed

end Programs

end Orrery.Tasks
