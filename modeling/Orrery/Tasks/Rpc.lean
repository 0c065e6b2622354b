import Orrery.Foundation.UnderWay
import Orrery.Tasks.Callers
import Orrery.Tasks.Store

/-! Calls of an agent over JSON-RPC (community_member/a2a_rpc.py). A call runs by itself up
to the tool it has called or the frame it hands out, and others run before it goes on;
each of these stretches is one act on the store. -/
namespace Orrery.Tasks
open Foundation Json

structure RpcRequest where
  id : Json
  method : String
  params : Json

/-- `validateRequest` and `validateMessage` are the models of the request and of a
message, and `cosigner` witnesses receipts, where there is one. -/
structure RpcEnv extends CallerEnv, StoreEnv where
  validateRequest : Json → Except Exc RpcRequest
  validateMessage : Json → Except Exc Message
  cosigner : Option (Dict → Except Exc Json)

/-- What arrives over HTTP, whether it is answered as a stream, and the ids that are
minted for it. -/
structure Request where
  headers : List (String × String)
  body : String
  content : Json
  now : ℚ
  streamed : Bool
  mintedTask : String
  mintedContext : String

def errorInvalidRequest : Int := -32600
def errorMethodNotFound : Int := -32601
def errorInvalidParams : Int := -32602
def errorTaskNotFound : Int := -32001
def errorToolNotFound : Int := -32002
def errorToolFailed : Int := -32003
def errorCallerRequired : Int := -32004
def errorNotTaskCreator : Int := -32005

def openMethodsPhrase : String := "tasks/get, tasks/resubscribe"

def notCreatorMessage (taskId : String) : String :=
  s!"task {taskId} was created by a different caller. Ownership is the key that created the " ++
  "task: continuing it or cancelling it requires signing as that key. It is the creating KEY, " ++
  s!"not a known or trusted party — this runtime holds no registry of peers. Reads ({openMethodsPhrase}) " ++
  "remain open."

def callerRequiredMessage (method : String) : String :=
  s!"{method} requires a verified caller: sign the request body with Ed25519 and send " ++
  "X-Agent-ID, X-Agent-Signature, X-Agent-Timestamp and X-Agent-DID-Key. Signing proves " ++
  "possession of the key you present, which makes the write attributable; it is not an " ++
  s!"allowlist and any well-formed key verifies. Reads ({openMethodsPhrase}) and both " ++
  "agent-card paths remain open."

def canonicalMethod (method : String) : String :=
  if method = "message/send" then "tasks/send"
  else if method = "message/stream" then "tasks/sendSubscribe"
  else method

def creatorPermits (task : Task) (caller : Option CallerIdentity) : Bool :=
  match task.creatorDidKey.filter (· ≠ "") with
  | none => true
  | some creator => caller.any fun c => c.didKey = creator

def extractToolCall : List Part → Option (String × Dict)
  | [] => none
  | .data fields :: rest =>
    match get fields "tool", (get fields "args").getD (.obj []) with
    | some (.str tool), .obj args => if tool = "" then extractToolCall rest else some (tool,args)
    | _, _ => extractToolCall rest
  | _ :: rest => extractToolCall rest

structure Send where
  streamed : Bool
  caller : Option CallerIdentity
  creation : Creation
  tool : Option (String × Dict)

inductive Act
  | accept (send : Send)
  | work (send : Send)
  | ask (send : Send)
  | finish (send : Send) (tool : String)
  | cancel (taskId : Json) (caller : Option CallerIdentity)
  | get (taskId : Json)

inductive Answer
  | task (task : Task)
  | finished (artifact : Artifact) (outcome : Except Exc String) (task : Task)
  | refused
  | absent
  | raised (e : Exc)
  | closed

/-- What decides an act: the clock, the ids it mints, the outcome of the tool and whether
the stream has been closed meanwhile. -/
structure Chance where
  now : String
  messageId : String
  artifactId : String
  dispatched : Except Exc String
  closed : Bool

def agentReply (e : Chance) (text : String) : Message := ⟨.agent,[.text text],e.messageId,none,none⟩

def refineText : String :=
  "Send a DataPart with \x7btool: <name>, args: \x7b...\x7d\x7d to invoke " ++
    "an agent tool. Free-text routing lands in a future sprint."

def refineStreamText : String := "Send a DataPart with \x7btool, args\x7d to invoke a tool."

def toolArtifact (e : Chance) (tool rawResult : String) : Artifact where
  artifactId := e.artifactId
  name := some ("tool-result:" ++ tool)
  parts := [.data [("tool",.str tool),("result",.str rawResult)]]
  lastChunk := true

section Execution
variable (env : StoreEnv)

def change (e : Chance) (s : Store) (taskId : String) (newState : TaskState) (artifact : Option Artifact)
    (reply : Option Message) (answer : Task → Answer) : Answer × Store :=
  match transition env s taskId newState artifact reply e.now with
  | .ok (task,s') => (answer task,s')
  | .error raised => (.raised raised,s)

def acceptSend (e : Chance) (s : Store) (send : Send) : Answer × Store :=
  if (s.tasks send.creation.taskId).any fun existing => !creatorPermits existing send.caller then (.refused,s)
  else match create env s send.creation e.now with
    | .error raised => (.raised raised,s)
    | .ok (task,s') =>
      -- a call that is not streamed asks for another message before anybody else runs
      if send.streamed = false ∧ send.tool.isNone then
        change env e s' send.creation.taskId .inputRequired none (some (agentReply e refineText)) .task
      else (.task task,s')

def finishSend (e : Chance) (s : Store) (taskId tool : String) : Answer × Store :=
  match e.dispatched with
  | .ok rawResult =>
    let artifact := toolArtifact e tool rawResult
    change env e s taskId .completed (some artifact) (some (agentReply e s!"Invoked {tool}."))
      (.finished artifact (.ok rawResult))
  | .error raised =>
    let text := match raised with
      | .keyError _ => s!"Unknown tool: {tool}"
      | _ => s!"Tool execution failed: {raised.text}"
    change env e s taskId .failed none (some (agentReply e text)) (.finished (toolArtifact e tool "") (.error raised))

def lookup (s : Store) : Json → Except Exc (Option Task)
  | .str taskId => .ok (s.tasks taskId)
  | other => do
    let _ ← hashKey other
    return none

def cancelTask (e : Chance) (s : Store) (taskId : Json) (caller : Option CallerIdentity) : Answer × Store :=
  match lookup s taskId with
  | .error raised => (.raised raised,s)
  | .ok none => (.absent,s)
  | .ok (some existing) =>
    if creatorPermits existing caller = false then (.refused,s)
    else match taskId with
      | .str id =>
        match cancel env s id e.now with
        | some (task,s') => (.task task,s')
        | none => (.absent,s)
      | _ => (.absent,s)

def exec (e : Chance) : Act → Store → Answer × Store
  | .accept send, s => acceptSend env e s send
  | .work send, s => if e.closed then (.closed,s) else change env e s send.creation.taskId .working none none .task
  | .ask send, s =>
    if e.closed then (.closed,s)
    else change env e s send.creation.taskId .inputRequired none (some (agentReply e refineStreamText)) .task
  | .finish send tool, s => if e.closed then (.closed,s) else finishSend env e s send.creation.taskId tool
  | .cancel taskId caller, s => cancelTask env e s taskId caller
  | .get taskId, s =>
    match lookup s taskId with
    | .error raised => (.raised raised,s)
    | .ok none => (.absent,s)
    | .ok (some task) => (.task task,s)

end Execution

abbrev Program := Proc Act fun _ => Answer

def perform (act : Act) : Program Answer := .call act .done

inductive Reply
  | error (id : Json) (code : Int) (message : String) (data : Option Task)
  | ok (id : Json) (task : Task)
  | result (id : Json) (value : Json)
  | census (id : Json)
  | raised (e : Exc)
  | closed

inductive Frame
  | reply (reply : Reply)
  | status (id : Json) (task : Task) (final : Bool)
  | artifact (id : Json) (task : Task) (artifact : Artifact)

inductive Outcome
  | response (reply : Reply)
  | stream (frames : List Frame)

section Programs
variable (env : RpcEnv)

def resolveTaskId (params : Dict) (incoming : Message) (minted : String) : String :=
  match (get params "id").filter Json.truthy, incoming.taskId.filter (· ≠ "") with
  | some supplied, _ => env.str supplied
  | none, some taskId => taskId
  | none, none => minted

def resolveContextId (params : Dict) (incoming : Message) (minted : String) : String :=
  match incoming.contextId.filter (· ≠ ""), (get params "sessionId").filter Json.truthy with
  | some contextId, _ => contextId
  | none, some sessionId => env.str sessionId
  | none, none => minted

/-- The send that the parameters ask for, or the text of the refusal. -/
def readSend (request : Request) (params : Dict) (caller : Option CallerIdentity) (roleText : String) :
    Except String Send :=
  match get params "message" with
  | some (.obj raw) =>
    match env.validateMessage (.obj raw) with
    | .error e => .error s!"Invalid message: {e.text}"
    | .ok incoming =>
      if incoming.role ≠ .user then .error roleText
      else .ok {
        streamed := request.streamed
        caller := caller
        creation := {
          taskId := resolveTaskId env params incoming request.mintedTask
          sessionId := (get params "sessionId").getD .null
          initialMessage := incoming
          metadata := (get params "metadata").getD .null
          contextId := resolveContextId env params incoming request.mintedContext
          creatorDidKey := (caller.map CallerIdentity.didKey).filter (· ≠ "") }
        tool := extractToolCall incoming.parts }
  | _ => .error "Missing required param: message"

def Answer.otherwise (id : Json) (taskId : String) : Answer → Reply
  | .refused => .error id errorNotTaskCreator (notCreatorMessage taskId) none
  | .absent => .error id errorTaskNotFound ("Task not found: " ++ taskId) none
  | .raised e => .raised e
  | .closed => .closed
  | .task kept | .finished _ _ kept => .ok id kept

def toolReply (id : Json) (tool : String) (task : Task) : Except Exc String → Reply
  | .ok _ => .ok id task
  | .error (.keyError _) => .error id errorToolNotFound s!"Unknown tool: {tool}" (some task)
  | .error e => .error id errorToolFailed s!"Tool execution failed: {e.text}" (some task)

def tasksSend (request : Request) (id : Json) (params : Dict) (caller : Option CallerIdentity) : Program Reply :=
  match readSend env request params caller "message.role must be 'user' for tasks/send" with
  | .error text => .done (.error id errorInvalidParams text none)
  | .ok send => do
    let accepted ← perform (.accept send)
    match accepted, send.tool with
    | .task _, some (tool,_) =>
      let answer ← perform (.finish send tool)
      match answer with
      | .finished _ outcome task => return toolReply id tool task outcome
      | other => return other.otherwise id send.creation.taskId
    | other, _ => return other.otherwise id send.creation.taskId

def namedTask (params : Dict) : Option Json := (get params "id").filter Json.truthy

def tasksGet (id : Json) (params : Dict) : Program Reply :=
  match namedTask params with
  | none => .done (.error id errorInvalidParams "Missing required param: id" none)
  | some taskId => do
    let answer ← perform (.get taskId)
    return answer.otherwise id (env.str taskId)

def tasksCancel (id : Json) (params : Dict) (caller : Option CallerIdentity) : Program Reply :=
  match namedTask params with
  | none => .done (.error id errorInvalidParams "Missing required param: id" none)
  | some taskId => do
    let answer ← perform (.cancel taskId caller)
    return answer.otherwise id (env.str taskId)

def cosignReceipt (id : Json) (params : Dict) : Reply :=
  match get params "receipt", env.cosigner with
  | some (.obj receipt), some cosign =>
    match cosign receipt with
    | .ok entry => .result id (.obj [("witness",entry)])
    | .error e => .raised e
  | some (.obj _), none => .result id (.obj [("witness",.null)])
  | _, _ => .error id errorInvalidParams "Missing or invalid param: receipt" none

def streamSend (request : Request) (id : Json) (params : Dict) (caller : Option CallerIdentity) :
    Program (List Frame) :=
  match readSend env request params caller "message.role must be 'user'" with
  | .error text => .done [.reply (.error id errorInvalidParams text none)]
  | .ok send => do
    let taskId := send.creation.taskId
    let accepted ← perform (.accept send)
    match accepted with
    | .task submitted => do
      let started ← perform (.work send)
      match started with
      | .task working => do
        let frames := [Frame.status id submitted false,.status id working false]
        match send.tool with
        | none => do
          let asked ← perform (.ask send)
          match asked with
          | .task task => return frames ++ [.status id task true]
          | other => return frames ++ [.reply (other.otherwise id taskId)]
        | some (tool,_) => do
          let finished ← perform (.finish send tool)
          match finished with
          | .finished artifact (.ok _) task => return frames ++ [.artifact id task artifact,.status id task true]
          | .finished _ (.error _) task => return frames ++ [.status id task true]
          | other => return frames ++ [.reply (other.otherwise id taskId)]
      | other => return [.status id submitted false,.reply (other.otherwise id taskId)]
    | other => return [.reply (other.otherwise id taskId)]

def streamResubscribe (id : Json) (params : Dict) : Program (List Frame) :=
  match namedTask params with
  | none => .done [.reply (.error id errorInvalidParams "Missing required param: id" none)]
  | some taskId => do
    let answer ← perform (.get taskId)
    match answer with
    | .task task =>
      let final := task.terminal || task.status.state = .inputRequired
      return task.artifacts.map (Frame.artifact id task) ++ [.status id task final]
    | other => return [.reply (other.otherwise id (env.str taskId))]

def paramsOf : Json → Dict
  | .obj params => params
  | _ => []

def handle (request : Request) (caller : Option CallerIdentity) : Program Reply :=
  match env.validateRequest request.content with
  | .error e => .done (.error .null errorInvalidRequest s!"Invalid JSON-RPC envelope: {e.text}" none)
  | .ok req =>
    let method := canonicalMethod req.method
    let params := paramsOf req.params
    if caller = none ∧ requiresCaller method = true then
      .done (.error req.id errorCallerRequired (callerRequiredMessage req.method) none)
    else if method = "tasks/send" then tasksSend env request req.id params caller
    else if method = "tasks/get" then tasksGet env req.id params
    else if method = "tasks/cancel" then tasksCancel env req.id params caller
    else if method = "nanda/cosignReceipt" then .done (cosignReceipt env req.id params)
    else if method = "nanda/legacyTaskCensus" then .done (.census req.id)
    else .done (.error req.id errorMethodNotFound s!"Unknown method: {req.method}" none)

def stream (request : Request) (caller : Option CallerIdentity) : Program (List Frame) :=
  match env.validateRequest request.content with
  | .error e => .done [.reply (.error .null errorInvalidRequest s!"Invalid JSON-RPC envelope: {e.text}" none)]
  | .ok req =>
    let method := canonicalMethod req.method
    let params := paramsOf req.params
    if caller = none ∧ requiresCaller method = true then
      .done [.reply (.error req.id errorCallerRequired (callerRequiredMessage req.method) none)]
    else if method = "tasks/sendSubscribe" then streamSend env request req.id params caller
    else if method = "tasks/resubscribe" then streamResubscribe env req.id params
    else .done [.reply (.error req.id errorMethodNotFound s!"Unknown streaming method: {req.method}" none)]

def serve (request : Request) : Program Outcome :=
  match verifyCaller env.toCallerEnv request.headers request.body request.now with
  | .error e => .done (.response (.raised e))
  | .ok caller =>
    if request.streamed then .stream <$> stream env request caller else .response <$> handle env request caller

end Programs

abbrev Calls := Pool Request Act (fun _ => Answer) Outcome Store

def turn (env : RpcEnv) (calls : Calls) : Turn Request Chance → Option Calls :=
  calls.step (exec env.toStoreEnv) (serve env)

end Orrery.Tasks
