import Mathlib.Logic.Function.Basic
import Orrery.Foundation.JsonLines

/-! The task store of an agent (community_member/a2a_models.py, task_store.py): tasks by
their ids in memory, and a file to which a line is appended for every change. Reading a
task out of a line again is a parameter. -/
namespace Orrery.Tasks
open Foundation Json

inductive TaskState
  | submitted
  | working
  | inputRequired
  | completed
  | canceled
  | failed
deriving DecidableEq

def TaskState.text : TaskState → String
  | .submitted => "submitted"
  | .working => "working"
  | .inputRequired => "input-required"
  | .completed => "completed"
  | .canceled => "canceled"
  | .failed => "failed"

inductive Role
  | user
  | agent
deriving DecidableEq

def Role.text : Role → String
  | .user => "user"
  | .agent => "agent"

inductive Part
  | text (text : String)
  | data (data : Dict)
  | file (file : Dict)

structure Message where
  role : Role
  parts : List Part
  messageId : String
  contextId : Option String := none
  taskId : Option String := none

structure Artifact where
  artifactId : String
  name : Option String
  description : Option String := none
  parts : List Part
  index : Int := 0
  append : Bool := false
  lastChunk : Bool := false

structure TaskStatus where
  state : TaskState
  message : Option Message
  timestamp : Option String

structure Task where
  id : String
  sessionId : Option String
  contextId : Option String
  creatorDidKey : Option String
  status : TaskStatus
  artifacts : List Artifact
  history : List Message
  metadata : Option Dict

section Dumps

def present (fields : List (String × Option Json)) : Dict := fields.filterMap fun field => field.2.map (field.1,·)

def Part.dump : Part → Json
  | .text content => .obj [("type",.str "text"),("text",.str content)]
  | .data content => .obj [("type",.str "data"),("data",.obj content)]
  | .file content => .obj [("type",.str "file"),("file",.obj content)]

def Message.dump (message : Message) : Json :=
  .obj (present [("role",some (.str message.role.text)),("parts",some (.arr (message.parts.map Part.dump))),
    ("messageId",some (.str message.messageId)),("contextId",message.contextId.map .str),
    ("taskId",message.taskId.map .str)])

def Artifact.dump (artifact : Artifact) : Json :=
  .obj (present [("artifactId",some (.str artifact.artifactId)),("name",artifact.name.map .str),
    ("description",artifact.description.map .str),("parts",some (.arr (artifact.parts.map Part.dump))),
    ("index",some (.int artifact.index)),("append",some (.bool artifact.append)),
    ("lastChunk",some (.bool artifact.lastChunk))])

def TaskStatus.dump (status : TaskStatus) : Json :=
  .obj (present [("state",some (.str status.state.text)),("message",status.message.map Message.dump),
    ("timestamp",status.timestamp.map .str)])

def Task.dump (task : Task) : Json :=
  .obj (present [("id",some (.str task.id)),("sessionId",task.sessionId.map .str),("contextId",task.contextId.map .str),
    ("creatorDidKey",task.creatorDidKey.map .str),("status",some task.status.dump),
    ("artifacts",some (.arr (task.artifacts.map Artifact.dump))),
    ("history",some (.arr (task.history.map Message.dump))),("metadata",task.metadata.map .obj)])

end Dumps

/-- `modelValidate` is `Task.model_validate`, and `invalidTask` what a task raises whose
session or metadata have another type. -/
structure StoreEnv where
  parseFloat : List Char → ℚ
  floatRepr : ℚ → List Char
  modelValidate : Json → Option Task
  invalidTask : Json → Json → Exc

structure Store where
  tasks : String → Option Task
  file : List Char

def compact : Layout := ⟨[','],[':'],false⟩

structure Creation where
  taskId : String
  sessionId : Json
  initialMessage : Message
  metadata : Json
  contextId : String
  creatorDidKey : Option String

def optionalText : Json → Option (Option String)
  | .null => some none
  | .str text => some (some text)
  | _ => none

def optionalDict : Json → Option (Option Dict)
  | .null => some none
  | .obj fields => some (some fields)
  | _ => none

def Task.continued (task : Task) (message : Message) (now : String) : Task :=
  { task with history := task.history ++ [message], status := ⟨.working,none,some now⟩ }

def Task.moved (task : Task) (newState : TaskState) (artifact : Option Artifact) (agentReply : Option Message)
    (now : String) : Task :=
  { task with
    status := ⟨newState,agentReply,some now⟩
    artifacts := task.artifacts ++ artifact.toList
    history := task.history ++ agentReply.toList }

def Task.terminal (task : Task) : Bool := task.status.state ∈ [.completed,.canceled,.failed]

section Operations
variable (env : StoreEnv)

def Store.put (s : Store) (taskId : String) (task : Task) : Store where
  tasks := Function.update s.tasks taskId (some task)
  file := s.file ++ JsonLines.writeLine env.floatRepr compact task.dump

def Creation.task (c : Creation) (now : String) : Except Exc Task :=
  match optionalText c.sessionId, optionalDict c.metadata with
  | some sessionId, some metadata =>
    .ok ⟨c.taskId,sessionId,some c.contextId,c.creatorDidKey,⟨.submitted,none,some now⟩,[],[c.initialMessage],metadata⟩
  | _, _ => .error (env.invalidTask c.sessionId c.metadata)

def create (s : Store) (c : Creation) (now : String) : Except Exc (Task × Store) :=
  match s.tasks c.taskId with
  | some task =>
    let continued := task.continued c.initialMessage now
    .ok (continued,s.put env c.taskId continued)
  | none => do
    let task ← c.task env now
    return (task,s.put env c.taskId task)

def transition (s : Store) (taskId : String) (newState : TaskState) (artifact : Option Artifact)
    (agentReply : Option Message) (now : String) : Except Exc (Task × Store) :=
  match s.tasks taskId with
  | none => .error (.keyError taskId)
  | some task =>
    let moved := task.moved newState artifact agentReply now
    .ok (moved,s.put env taskId moved)

def cancel (s : Store) (taskId : String) (now : String) : Option (Task × Store) :=
  match s.tasks taskId with
  | none => none
  | some task =>
    if task.terminal then some (task,s)
    else
      let moved := task.moved .canceled none none now
      some (moved,s.put env taskId moved)

end Operations

section Lemmas
variable {env : StoreEnv} {s s' : Store} {taskId : String} {task : Task}

@[simp] theorem put_tasks (s : Store) (taskId : String) (task : Task) :
    (s.put env taskId task).tasks = Function.update s.tasks taskId (some task) := rfl

theorem put_own (s : Store) (taskId : String) (task : Task) : (s.put env taskId task).tasks taskId = some task := by
  simp

theorem Creation.task_ok {c : Creation} {now : String} (made : c.task env now = .ok task) :
    ∃ sessionId metadata, optionalDict c.metadata = some metadata ∧
      task = ⟨c.taskId,sessionId,some c.contextId,c.creatorDidKey,⟨.submitted,none,some now⟩,[],[c.initialMessage],
        metadata⟩ := by
  unfold Creation.task at made
  split at made
  next sessionId metadata _ typed =>
    cases made
    exact ⟨sessionId,metadata,typed,rfl⟩
  next => cases made

theorem create_ok {c : Creation} {now : String} (created : create env s c now = .ok (task,s')) :
    s' = s.put env c.taskId task ∧ ((∃ old, s.tasks c.taskId = some old ∧ task = old.continued c.initialMessage now) ∨
      s.tasks c.taskId = none ∧ c.task env now = .ok task) := by
  unfold create at created
  split at created
  next old found =>
    cases created
    exact ⟨rfl,Or.inl ⟨old,found,rfl⟩⟩
  next free =>
    obtain ⟨made,fresh,created⟩ := bind_success _ _ _ created
    cases created
    exact ⟨rfl,Or.inr ⟨free,fresh⟩⟩

theorem transition_ok {newState : TaskState} {artifact : Option Artifact} {agentReply : Option Message} {now : String}
    (moved : transition env s taskId newState artifact agentReply now = .ok (task,s')) :
    ∃ old, s.tasks taskId = some old ∧ task = old.moved newState artifact agentReply now ∧
      s' = s.put env taskId task := by
  unfold transition at moved
  split at moved
  next => cases moved
  next old found =>
    cases moved
    exact ⟨old,found,rfl,rfl⟩

theorem cancel_some {now : String} (done : cancel env s taskId now = some (task,s')) :
    ∃ old, s.tasks taskId = some old ∧ (old.terminal = true ∧ task = old ∧ s' = s ∨
      old.terminal = false ∧ task = old.moved .canceled none none now ∧ s' = s.put env taskId task) := by
  unfold cancel at done
  split at done
  next => cases done
  next old found =>
    split at done
    next terminal =>
      cases done
      exact ⟨task,found,Or.inl ⟨terminal,rfl,rfl⟩⟩
    next live =>
      cases done
      exact ⟨old,found,Or.inr ⟨by simpa using live,rfl,rfl⟩⟩

end Lemmas

end Orrery.Tasks
