import Orrery.Tasks.Store

/-! The records of tasks: what is dumped is a value as JSON holds it, and a reader of its
fields has the task back. -/
namespace Orrery.Tasks
open Foundation Json

section Present

theorem present_cons (field : String × Option Json) (rest : List (String × Option Json)) :
    present (field :: rest) = (field.2.map (field.1,·)).toList ++ present rest := by
  rw [present,List.filterMap_cons]
  cases field.2 <;> rfl

theorem present_keys (fields : List (String × Option Json)) :
    ((present fields).map Prod.fst).Sublist (fields.map Prod.fst) := by
  induction fields with
  | nil => exact .slnil
  | cons field rest ih =>
    obtain ⟨key,value⟩ := field
    rw [present_cons]
    cases value with
    | none => exact ih.cons key
    | some v => exact ih.cons_cons key

theorem mem_present {fields : List (String × Option Json)} {key : String} {v : Json} :
    (key,v) ∈ present fields ↔ (key,some v) ∈ fields := by
  simp only [present,List.mem_filterMap,Option.map_eq_some_iff,Prod.mk.injEq]
  constructor
  · rintro ⟨⟨key',value⟩,inside,w,rfl,rfl,rfl⟩
    exact inside
  · exact fun inside => ⟨_,inside,v,rfl,rfl,rfl⟩

@[simp] theorem get_present_nil (key : String) : get (present []) key = none := rfl

@[simp] theorem get_present_cons (field : String × Option Json) (rest : List (String × Option Json)) (key : String) :
    get (present (field :: rest)) key =
      if field.1 = key then field.2.or (get (present rest) key) else get (present rest) key := by
  rw [present_cons,get_append]
  cases field.2 with
  | none => simp [Json.get]
  | some v =>
    by_cases same : field.1 = key
    · simp [Json.get,same]
    · simp [Json.get,same]

variable {parseFloat : List Char → ℚ} {floatRepr : ℚ → List Char}

theorem proper_present {fields : List (String × Option Json)} (distinct : (fields.map Prod.fst).Nodup)
    (proper : ∀ field ∈ fields, ∀ v ∈ field.2, Proper parseFloat floatRepr v) :
    Proper parseFloat floatRepr (.obj (present fields)) := by
  refine ⟨(present_keys fields).nodup distinct,(properFields_iff _).mpr ?_⟩
  rintro ⟨key,v⟩ inside
  exact proper _ (mem_present.mp inside) v rfl

end Present

section Held
variable (env : StoreEnv)

def Part.Held : Part → Prop
  | .text _ => True
  | .data content | .file content => Proper env.parseFloat env.floatRepr (.obj content)

def Message.Held (message : Message) : Prop := ∀ part ∈ message.parts, part.Held env

def Artifact.Held (artifact : Artifact) : Prop := ∀ part ∈ artifact.parts, part.Held env

structure Task.Held (task : Task) : Prop where
  message : ∀ message ∈ task.status.message, message.Held env
  artifacts : ∀ artifact ∈ task.artifacts, artifact.Held env
  history : ∀ message ∈ task.history, message.Held env
  metadata : ∀ metadata ∈ task.metadata, Proper env.parseFloat env.floatRepr (.obj metadata)

variable {env}

theorem Part.proper {part : Part} (held : part.Held env) : Proper env.parseFloat env.floatRepr part.dump := by
  cases part with
  | text content => exact ⟨by simp,by simp [ProperFields,Proper]⟩
  | data content => exact ⟨by simp,trivial,held,trivial⟩
  | file content => exact ⟨by simp,trivial,held,trivial⟩

theorem properItems_map {α : Type} {values : List α} {dump : α → Json}
    (each : ∀ v ∈ values, Proper env.parseFloat env.floatRepr (dump v)) :
    ProperItems env.parseFloat env.floatRepr (values.map dump) :=
  (properItems_iff _).mpr (List.forall_mem_map.mpr each)

theorem Message.proper {message : Message} (held : message.Held env) :
    Proper env.parseFloat env.floatRepr message.dump := by
  have parts := properItems_map fun part inside => Part.proper (held part inside)
  refine proper_present (by simp) ?_
  simpa [Proper] using parts

theorem Artifact.proper {artifact : Artifact} (held : artifact.Held env) :
    Proper env.parseFloat env.floatRepr artifact.dump := by
  have parts := properItems_map fun part inside => Part.proper (held part inside)
  refine proper_present (by simp) ?_
  simpa [Proper] using parts

theorem TaskStatus.proper {status : TaskStatus} (held : ∀ message ∈ status.message, message.Held env) :
    Proper env.parseFloat env.floatRepr status.dump := by
  have reply : ∀ message ∈ status.message, Proper env.parseFloat env.floatRepr message.dump :=
    fun message sent => Message.proper (held message sent)
  refine proper_present (by simp) ?_
  simpa [Proper] using reply

theorem Task.proper {task : Task} (held : task.Held env) : Proper env.parseFloat env.floatRepr task.dump := by
  have status := TaskStatus.proper held.message
  have artifacts := properItems_map fun artifact inside => Artifact.proper (held.artifacts artifact inside)
  have history := properItems_map fun message inside => Message.proper (held.history message inside)
  refine proper_present (by simp) ?_
  simpa [Proper] using ⟨status,artifacts,history,held.metadata⟩

end Held

section Reading

def textOf : Json → Option String
  | .str text => some text
  | _ => none

@[simp] theorem textOf_str (text : String) : textOf (.str text) = some text := rfl

def intOf : Json → Option Int
  | .int i => some i
  | _ => none

@[simp] theorem intOf_int (i : Int) : intOf (.int i) = some i := rfl

def boolOf : Json → Option Bool
  | .bool b => some b
  | _ => none

@[simp] theorem boolOf_bool (b : Bool) : boolOf (.bool b) = some b := rfl

def listOf {α : Type} (read : Json → Option α) : Json → Option (List α)
  | .arr values => values.mapM read
  | _ => none

def optionalOf {α : Type} (read : Json → Option α) : Option Json → Option (Option α)
  | none => some none
  | some v => (read v).map some

def TaskState.read (name : String) : Option TaskState :=
  [TaskState.submitted,.working,.inputRequired,.completed,.canceled,.failed].find? fun state => state.text == name

def Role.read (name : String) : Option Role := [Role.user,.agent].find? fun role => role.text == name

def Part.read : Json → Option Part
  | .obj d =>
    match get d "type", get d "text", get d "data", get d "file" with
    | some (.str "text"), some (.str content), _, _ => some (.text content)
    | some (.str "data"), _, some (.obj content), _ => some (.data content)
    | some (.str "file"), _, _, some (.obj content) => some (.file content)
    | _, _, _, _ => none
  | _ => none

def Message.read : Json → Option Message
  | .obj d => do
    let role ← Role.read (← textOf (← get d "role"))
    let parts ← listOf Part.read (← get d "parts")
    let messageId ← textOf (← get d "messageId")
    let contextId ← optionalOf textOf (get d "contextId")
    let taskId ← optionalOf textOf (get d "taskId")
    return ⟨role,parts,messageId,contextId,taskId⟩
  | _ => none

def Artifact.read : Json → Option Artifact
  | .obj d => do
    let artifactId ← textOf (← get d "artifactId")
    let name ← optionalOf textOf (get d "name")
    let description ← optionalOf textOf (get d "description")
    let parts ← listOf Part.read (← get d "parts")
    let index ← intOf (← get d "index")
    let append ← boolOf (← get d "append")
    let lastChunk ← boolOf (← get d "lastChunk")
    return ⟨artifactId,name,description,parts,index,append,lastChunk⟩
  | _ => none

def TaskStatus.read : Json → Option TaskStatus
  | .obj d => do
    let state ← TaskState.read (← textOf (← get d "state"))
    let message ← optionalOf Message.read (get d "message")
    let timestamp ← optionalOf textOf (get d "timestamp")
    return ⟨state,message,timestamp⟩
  | _ => none

def dictOf : Json → Option Dict
  | .obj d => some d
  | _ => none

@[simp] theorem dictOf_obj (d : Dict) : dictOf (.obj d) = some d := rfl

def Task.read : Json → Option Task
  | .obj d => do
    let id ← textOf (← get d "id")
    let sessionId ← optionalOf textOf (get d "sessionId")
    let contextId ← optionalOf textOf (get d "contextId")
    let creatorDidKey ← optionalOf textOf (get d "creatorDidKey")
    let status ← TaskStatus.read (← get d "status")
    let artifacts ← listOf Artifact.read (← get d "artifacts")
    let history ← listOf Message.read (← get d "history")
    let metadata ← optionalOf dictOf (get d "metadata")
    return ⟨id,sessionId,contextId,creatorDidKey,status,artifacts,history,metadata⟩
  | _ => none

theorem listOf_map {α : Type} {read : Json → Option α} {dump : α → Json} (reads : ∀ v, read (dump v) = some v)
    (values : List α) : listOf read (.arr (values.map dump)) = some values := by
  rw [listOf]
  induction values with
  | nil => rfl
  | cons v values ih =>
    rw [List.map_cons,List.mapM_cons,reads,ih]
    rfl

theorem optionalOf_map {α : Type} {read : Json → Option α} {dump : α → Json} (reads : ∀ v, read (dump v) = some v)
    (value : Option α) : optionalOf read (value.map dump) = some value := by
  cases value with
  | none => rfl
  | some v => exact congrArg (Option.map some) (reads v)

theorem Role.read_text (role : Role) : Role.read role.text = some role := by cases role <;> decide

theorem TaskState.read_text (state : TaskState) : TaskState.read state.text = some state := by cases state <;> decide

theorem Part.read_dump (part : Part) : Part.read part.dump = some part := by
  cases part <;> simp [Part.dump,Part.read,Json.get]

theorem Message.read_dump (message : Message) : Message.read message.dump = some message := by
  have parts := listOf_map Part.read_dump message.parts
  have contextId := optionalOf_map textOf_str message.contextId
  have taskId := optionalOf_map textOf_str message.taskId
  simp [Message.dump,Message.read,Role.read_text,parts,contextId,taskId]

theorem Artifact.read_dump (artifact : Artifact) : Artifact.read artifact.dump = some artifact := by
  have parts := listOf_map Part.read_dump artifact.parts
  have name := optionalOf_map textOf_str artifact.name
  have description := optionalOf_map textOf_str artifact.description
  simp [Artifact.dump,Artifact.read,parts,name,description]

theorem TaskStatus.read_dump (status : TaskStatus) : TaskStatus.read status.dump = some status := by
  have message := optionalOf_map Message.read_dump status.message
  have timestamp := optionalOf_map textOf_str status.timestamp
  simp [TaskStatus.dump,TaskStatus.read,TaskState.read_text,message,timestamp]

theorem Task.read_dump (task : Task) : Task.read task.dump = some task := by
  have artifacts := listOf_map Artifact.read_dump task.artifacts
  have history := listOf_map Message.read_dump task.history
  have metadata := optionalOf_map dictOf_obj task.metadata
  simp [Task.dump,Task.read,TaskStatus.read_dump,artifacts,history,metadata,optionalOf_map textOf_str]

end Reading

end Orrery.Tasks
