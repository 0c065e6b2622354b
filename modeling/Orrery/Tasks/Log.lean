import Orrery.Foundation.JsonBalance
import Orrery.Foundation.Runs
import Orrery.Tasks.Records

/-! The task log over crashes (community_member/task_store.py): what a restart makes of the
file is each task as it was last written, as long as no record is appended to a line that
was cut off. -/
namespace Orrery.Tasks
open Foundation Json JsonLines Runs

def textLines (line : List Char) : List Char → List (List Char)
  | [] => if line.isEmpty then [] else [line]
  | c :: rest =>
    if c = '\r' ∧ rest.head? = some '\n' then textLines line rest
    else if c = '\n' ∨ c = '\r' then line :: textLines [] rest
    else textLines (line ++ [c]) rest

inductive Op
  | create (c : Creation)
  | transition (taskId : String) (newState : TaskState) (artifact : Option Artifact) (agentReply : Option Message)
  | cancel (taskId : String)

section Log
variable (env : StoreEnv)

def loadLine (tasks : String → Option Task) (line : List Char) : String → Option Task :=
  if (strip line).isEmpty then tasks
  else
    match (loads env.parseFloat (strip line)).bind env.modelValidate with
    | some task => Function.update tasks task.id (some task)
    | none => tasks

def load (file : List Char) : String → Option Task := (textLines [] file).foldl (loadLine env) fun _ => none

def applyOp (s : Store) (now : String) : Op → Option (Task × Store)
  | .create c => (create env s c now).toOption
  | .transition taskId newState artifact agentReply =>
    (transition env s taskId newState artifact agentReply now).toOption
  | .cancel taskId => cancel env s taskId now

/-- A store, with the tasks as their records were written, the last one first. -/
structure Journal where
  store : Store
  written : List Task

def Journal.opened : Journal := ⟨⟨fun _ => none,[]⟩,[]⟩

inductive Move
  | did (op : Op) (now : String)
  | crashed (op : Op) (now : String) (cut : Nat)
  | restarted

def recordText (task : Task) : List Char := dumps env.floatRepr compact task.dump

def Journal.restart (s : Journal) : Journal := { s with store.tasks := load env s.store.file }

/-- In a crash so many characters of the record are on disk; then the process starts again. -/
def step (s : Journal) : Move → Option Journal
  | .did op now => do
    let (task,store) ← applyOp env s.store now op
    return ⟨store,if store.file = s.store.file then s.written else task :: s.written⟩
  | .crashed op now cut => do
    let (task,store) ← applyOp env s.store now op
    let record := store.file.drop s.store.file.length
    return Journal.restart env ⟨⟨store.tasks,s.store.file ++ record.take cut⟩,
      if record ≠ [] ∧ (recordText env task).length ≤ cut then task :: s.written else s.written⟩
  | .restarted => some (s.restart env)

def latest (written : List Task) (taskId : String) : Option Task := written.find? (·.id == taskId)

def Op.Held : Op → Prop
  | .create c => c.initialMessage.Held env ∧ Proper env.parseFloat env.floatRepr c.metadata
  | .transition _ _ artifact agentReply =>
    (∀ added ∈ artifact, added.Held env) ∧ ∀ reply ∈ agentReply, reply.Held env
  | .cancel _ => True

def Move.Held : Move → Prop
  | .did op _ | .crashed op _ _ => op.Held env
  | .restarted => True

def LineEnded (file : List Char) : Prop := ∀ c ∈ file.getLast?, c = '\n'

/-- What is given to the store are Python values, and where the file grows, its last line
was ended. -/
def allowed (s : Journal) (move : Move) : Prop :=
  move.Held env ∧ ∀ s', step env s move = some s' → s'.store.file ≠ s.store.file → LineEnded s.store.file

/-- The text of a float is printable ASCII, and a task validates from what it dumps to. -/
structure StoreEnv.Faithful : Prop where
  floats : ∀ q, Plain (env.floatRepr q)
  validates : ∀ task, task.Held env → env.modelValidate task.dump = some task

end Log

section Lines
variable {env : StoreEnv}

theorem textLines_newline (line rest : List Char) : textLines line ('\n' :: rest) = line :: textLines [] rest := by
  simp [textLines]

theorem textLines_visible {c : Char} (visible : 32 ≤ c.toNat) (line rest : List Char) :
    textLines line (c :: rest) = textLines (line ++ [c]) rest := by
  have newline : c ≠ '\n' := by rintro rfl; exact absurd visible (by decide)
  have back : c ≠ '\r' := by rintro rfl; exact absurd visible (by decide)
  simp [textLines,newline,back]

theorem textLines_line {text : List Char} (plain : Plain text) (rest : List Char) : ∀ line,
    textLines line (text ++ '\n' :: rest) = (line ++ text) :: textLines [] rest := by
  induction text with
  | nil =>
    intro line
    rw [List.append_nil]
    exact textLines_newline line rest
  | cons c text ih =>
    intro line
    rw [List.cons_append,textLines_visible (plain c List.mem_cons_self).1,
      ih fun d inside => plain d (List.mem_cons_of_mem c inside)]
    simp

theorem textLines_rest {text : List Char} (plain : Plain text) : ∀ line, line ++ text ≠ [] →
    textLines line text = [line ++ text] := by
  induction text with
  | nil =>
    intro line filled
    rw [textLines,if_neg (by simpa using filled),List.append_nil]
  | cons c text ih =>
    intro line filled
    rw [textLines_visible (plain c List.mem_cons_self).1,
      ih (fun d inside => plain d (List.mem_cons_of_mem c inside)) _ (by simp)]
    simp

def recordLines (env : StoreEnv) : List Task → List Char
  | [] => []
  | task :: older => recordLines env older ++ writeLine env.floatRepr compact task.dump

theorem plain_record (faithful : env.Faithful) (task : Task) : Plain (recordText env task) :=
  plain_dumps faithful.floats (plain_of rfl) (plain_of rfl) task.dump

theorem textLines_records (faithful : env.Faithful) (written : List Task) : ∀ rest,
    textLines [] (recordLines env written ++ rest) =
      written.reverse.map (recordText env) ++ textLines [] rest := by
  induction written with
  | nil => exact fun _ => rfl
  | cons task older ih =>
    intro rest
    have line := textLines_line (plain_record faithful task) rest []
    rw [recordText,List.nil_append] at line
    rw [recordLines,writeLine,List.append_assoc,List.append_assoc,List.singleton_append,ih,line]
    simp [recordText]

theorem recordText_closed (env : StoreEnv) (task : Task) : ∃ body, recordText env task = '\x7b' :: (body ++ ['\x7d']) :=
  ⟨_,dumps_obj rfl _⟩

theorem compact_readable : compact.Readable := ⟨⟨[],rfl,by simp⟩,⟨[],rfl,by simp⟩⟩

theorem loads_record {task : Task} (held : task.Held env) :
    loads env.parseFloat (recordText env task) = some task.dump :=
  loads_dumps_unsorted compact_readable rfl task.dump (Task.proper held)

theorem loadLine_record (faithful : env.Faithful) {task : Task} (held : task.Held env) (tasks : String → Option Task) :
    loadLine env tasks (recordText env task) = Function.update tasks task.id (some task) := by
  obtain ⟨body,closed⟩ := recordText_closed env task
  have whole : strip (recordText env task) = recordText env task := by
    rw [closed]
    exact strip_closed (by decide) (by decide)
  have filled : ¬ (recordText env task).isEmpty = true := by simp [closed]
  rw [loadLine,whole,if_neg filled,loads_record held,Option.bind_some,faithful.validates task held]

theorem loadLine_cut {task : Task} (held : task.Held env) {cut more : List Char}
    (split : cut ++ more = recordText env task) (started : cut ≠ []) (short : more ≠ []) (tasks : String → Option Task) :
    loadLine env tasks cut = tasks := by
  obtain ⟨body,closed⟩ := recordText_closed env task
  have read := loads_record held
  rw [closed] at split read
  obtain ⟨c,rest,rfl⟩ := List.exists_cons_of_ne_nil started
  obtain ⟨rfl,_⟩ := List.cons.inj split
  obtain ⟨front,back,stripped,rfl⟩ := strip_front (c := '\x7b') (by decide) rest
  have further : ('\x7b' :: front) ++ (back ++ more) = '\x7b' :: (body ++ ['\x7d']) := by simpa using split
  have unread := loads_cut read further (by simp) (by simp [short])
  rw [loadLine,stripped,unread]
  rfl

theorem latest_cons (task : Task) (older : List Task) :
    latest (task :: older) = Function.update (latest older) task.id (some task) := by
  funext taskId
  by_cases same : taskId = task.id
  · simp [latest,same]
  · have other : (task.id == taskId) = false := by simpa using Ne.symm same
    simp [latest,same,other]

theorem load_records (faithful : env.Faithful) {written : List Task} (held : ∀ task ∈ written, task.Held env) :
    (written.reverse.map (recordText env)).foldl (loadLine env) (fun _ => none) = latest written := by
  induction written with
  | nil => rfl
  | cons task older ih =>
    have before := ih fun other inside => held other (List.mem_cons_of_mem task inside)
    rw [List.reverse_cons,List.map_append,List.foldl_append,before,latest_cons]
    exact loadLine_record faithful (held task List.mem_cons_self) _

/-- The file holds these records, and perhaps the start of another one on its last line. -/
inductive Holds (env : StoreEnv) : List Char → List Task → Prop
  | ended (written : List Task) : Holds env (recordLines env written) written
  | cut (written : List Task) (task : Task) (held : task.Held env) {cut more : List Char}
    (split : cut ++ more = recordText env task) (started : cut ≠ []) (short : more ≠ []) :
    Holds env (recordLines env written ++ cut) written
  | whole (written : List Task) (task : Task) :
    Holds env (recordLines env written ++ recordText env task) (task :: written)

theorem load_holds (faithful : env.Faithful) {file : List Char} {written : List Task} (holds : Holds env file written)
    (held : ∀ task ∈ written, task.Held env) : load env file = latest written := by
  cases holds with
  | ended =>
    have lines := textLines_records faithful written []
    rw [List.append_nil] at lines
    rw [load,lines,List.foldl_append,load_records faithful held]
    rfl
  | @cut _ task own cut more split started short =>
    have plain : Plain (cut ++ more) := split ▸ plain_record faithful task
    have tail := textLines_rest (fun c inside => plain c (List.mem_append_left more inside)) [] (by simpa using started)
    rw [List.nil_append] at tail
    rw [load,textLines_records faithful,tail,List.foldl_append,load_records faithful held]
    exact loadLine_cut own split started short _
  | whole older task =>
    obtain ⟨body,closed⟩ := recordText_closed env task
    have tail := textLines_rest (plain_record faithful task) [] (by simp [closed])
    have records := load_records faithful held
    rw [List.reverse_cons,List.map_append] at records
    rw [load,textLines_records faithful,tail]
    exact records

theorem not_lineEnded {older text : List Char} (plain : Plain text) (filled : text ≠ []) :
    ¬ LineEnded (older ++ text) := by
  intro ended
  obtain ⟨c,last⟩ := Option.isSome_iff_exists.mp (List.getLast?_isSome.mpr filled)
  have newline := ended c (by rw [List.getLast?_append_of_ne_nil older filled,last]; rfl)
  obtain rfl := newline
  exact absurd (plain _ (List.mem_of_getLast? last)).1 (by decide)

theorem holds_ended (faithful : env.Faithful) {file : List Char} {written : List Task} (holds : Holds env file written)
    (ended : LineEnded file) : file = recordLines env written := by
  cases holds with
  | ended => rfl
  | @cut _ task own cut more split started short =>
    have plain : Plain (cut ++ more) := split ▸ plain_record faithful task
    exact absurd ended (not_lineEnded (fun c inside => plain c (List.mem_append_left more inside)) started)
  | whole older task =>
    obtain ⟨body,closed⟩ := recordText_closed env task
    exact absurd ended (not_lineEnded (plain_record faithful task) (by simp [closed]))

theorem holds_take (written : List Task) {task : Task} (held : task.Held env) (cut : Nat) :
    Holds env (recordLines env written ++ (writeLine env.floatRepr compact task.dump).take cut)
      (if (recordText env task).length ≤ cut then task :: written else written) := by
  have line : writeLine env.floatRepr compact task.dump = recordText env task ++ ['\n'] := rfl
  obtain ⟨body,closed⟩ := recordText_closed env task
  rcases Nat.lt_trichotomy cut (recordText env task).length with short | same | long
  · rw [if_neg (by omega),line,List.take_append_of_le_length short.le]
    rcases Nat.eq_zero_or_pos cut with rfl | started
    · rw [List.take_zero,List.append_nil]
      exact .ended written
    · refine .cut written task held (List.take_append_drop cut _) ?_ ?_
      · simp [closed,Nat.ne_of_gt started]
      · simpa using short
  · rw [if_pos same.ge,line,same,List.take_left]
    exact .whole written task
  · have all : (recordText env task ++ ['\n']).take cut = recordText env task ++ ['\n'] :=
      List.take_of_length_le (by simp only [List.length_append,List.length_singleton]; omega)
    rw [if_pos long.le,line,all]
    exact .ended (task :: written)

end Lines

section Steps
variable {env : StoreEnv} {s s' : Journal}

structure Intact (env : StoreEnv) (s : Journal) : Prop where
  held : ∀ task ∈ s.written, task.Held env
  tasks : s.store.tasks = latest s.written
  holds : Holds env s.store.file s.written

theorem latest_mem {written : List Task} {taskId : String} {task : Task} (found : latest written taskId = some task) :
    task ∈ written ∧ task.id = taskId :=
  ⟨List.mem_of_find?_eq_some found,by simpa using List.find?_some found⟩

theorem held_continued {task : Task} (held : task.Held env) {message : Message} (sent : message.Held env)
    (now : String) : (task.continued message now).Held env where
  message := by simp [Task.continued]
  artifacts := held.artifacts
  history := by
    intro other inside
    rcases List.mem_append.mp inside with old | new
    · exact held.history other old
    · exact List.mem_singleton.mp new ▸ sent
  metadata := held.metadata

theorem held_moved {task : Task} (held : task.Held env) {artifact : Option Artifact} {agentReply : Option Message}
    (added : ∀ added ∈ artifact, added.Held env) (reply : ∀ reply ∈ agentReply, reply.Held env) (newState : TaskState)
    (now : String) : (task.moved newState artifact agentReply now).Held env where
  message := reply
  artifacts := by
    intro other inside
    rcases List.mem_append.mp inside with old | new
    · exact held.artifacts other old
    · exact added other (by simpa using new)
  history := by
    intro other inside
    rcases List.mem_append.mp inside with old | new
    · exact held.history other old
    · exact reply other (by simpa using new)
  metadata := held.metadata

theorem held_created {c : Creation} {now : String} {task : Task} (data : (Op.create c).Held env)
    (made : c.task env now = .ok task) : task.Held env := by
  obtain ⟨sessionId,metadata,typed,rfl⟩ := Creation.task_ok made
  refine ⟨by simp,by simp,by simpa using data.1,?_⟩
  rintro fields rfl
  have proper := data.2
  unfold optionalDict at typed
  split at typed
  next => cases typed
  next same => cases typed; exact same ▸ proper
  next => cases typed

theorem Intact.kept (intact : Intact env s) {taskId : String} {task : Task} (found : s.store.tasks taskId = some task) :
    task.Held env ∧ task.id = taskId := by
  rw [intact.tasks] at found
  exact ⟨intact.held task (latest_mem found).1,(latest_mem found).2⟩

theorem toOption_some {ε α : Type} {result : Except ε α} {value : α} (ok : result.toOption = some value) :
    result = .ok value := by
  cases result with
  | error e => cases ok
  | ok found => cases ok; rfl

theorem applyOp_some (intact : Intact env s) {op : Op} (data : op.Held env) {now : String} {task : Task} {store : Store}
    (done : applyOp env s.store now op = some (task,store)) :
    store = s.store ∨ store = s.store.put env task.id task ∧ task.Held env := by
  cases op with
  | create c =>
    obtain ⟨rfl,source⟩ := create_ok (toOption_some done)
    right
    rcases source with ⟨old,found,rfl⟩ | ⟨_,made⟩
    · obtain ⟨held,named⟩ := intact.kept found
      exact ⟨by rw [← named]; rfl,held_continued held data.1 now⟩
    · have held := held_created data made
      obtain ⟨_,_,_,rfl⟩ := Creation.task_ok made
      exact ⟨rfl,held⟩
  | transition taskId newState artifact agentReply =>
    obtain ⟨old,found,rfl,rfl⟩ := transition_ok (toOption_some done)
    obtain ⟨held,rfl⟩ := intact.kept found
    exact Or.inr ⟨rfl,held_moved held data.1 data.2 newState now⟩
  | cancel taskId =>
    obtain ⟨old,found,⟨_,rfl,rfl⟩ | ⟨_,rfl,rfl⟩⟩ := cancel_some done
    · exact Or.inl rfl
    · obtain ⟨held,rfl⟩ := intact.kept found
      exact Or.inr ⟨rfl,held_moved held (by simp) (by simp) .canceled now⟩

theorem Intact.restart (faithful : env.Faithful) {store : Store} {written : List Task}
    (held : ∀ task ∈ written, task.Held env) (holds : Holds env store.file written) :
    Intact env (Journal.restart env ⟨store,written⟩) :=
  ⟨held,load_holds faithful holds held,holds⟩

theorem writeLine_ne_nil (task : Task) : writeLine env.floatRepr compact task.dump ≠ [] := by simp [writeLine]

theorem Intact.step (faithful : env.Faithful) (intact : Intact env s) {move : Move} (ok : allowed env s move)
    (next : step env s move = some s') : Intact env s' := by
  obtain ⟨data,ended⟩ := ok
  have further := ended s' next
  cases move with
  | restarted =>
    cases next
    exact .restart faithful intact.held intact.holds
  | did op now =>
    obtain ⟨⟨task,store⟩,done,next⟩ := Option.bind_eq_some_iff.mp next
    cases next
    rcases applyOp_some intact data done with rfl | ⟨rfl,held⟩
    · simpa using intact
    · have appended : (s.store.put env task.id task).file ≠ s.store.file := by
        simpa [Store.put] using writeLine_ne_nil task
      have lines := holds_ended faithful intact.holds (further appended)
      refine ⟨?_,?_,?_⟩
      · simpa [appended] using ⟨held,intact.held⟩
      · simp only [appended,if_false,put_tasks,latest_cons,intact.tasks]
      · have file : (s.store.put env task.id task).file = recordLines env (task :: s.written) := by
          rw [recordLines,← lines]
          rfl
        rw [if_neg appended,file]
        exact .ended (task :: s.written)
  | crashed op now cut =>
    obtain ⟨⟨task,store⟩,done,next⟩ := Option.bind_eq_some_iff.mp next
    cases next
    rcases applyOp_some intact data done with rfl | ⟨rfl,held⟩
    · apply Intact.restart faithful
      · simpa using intact.held
      · simpa using intact.holds
    · have record : (s.store.put env task.id task).file.drop s.store.file.length =
          writeLine env.floatRepr compact task.dump := List.drop_left
      simp only [record,ne_eq,writeLine_ne_nil,not_false_eq_true,true_and] at further ⊢
      apply Intact.restart faithful
      · split
        next => exact List.forall_mem_cons.mpr ⟨held,intact.held⟩
        next => exact intact.held
      · by_cases grown : s.store.file ++ (writeLine env.floatRepr compact task.dump).take cut = s.store.file
        · obtain ⟨body,closed⟩ := recordText_closed env task
          have nothing : cut = 0 := by simpa [writeLine_ne_nil] using grown
          rw [grown,if_neg (by simp [nothing,closed])]
          exact intact.holds
        · rw [holds_ended faithful intact.holds (further grown)]
          exact holds_take s.written held cut

/-- After any crashes, what a restart makes of the file is each task as its last record on
disk has it, and so are the tasks in memory. -/
theorem log_survives (faithful : env.Faithful) (run : Reached (step env) (allowed env) Journal.opened s) :
    (s.restart env).store.tasks = latest s.written ∧ s.store.tasks = latest s.written := by
  have intact : Intact env s := by
    refine run.invariant ?_ fun _ _ _ kept ok next => kept.step faithful ok next
    exact ⟨by simp [Journal.opened],rfl,.ended []⟩
  exact ⟨load_holds faithful intact.holds intact.held,intact.tasks⟩

end Steps

section Samples

def plainStore : StoreEnv := ⟨fun _ => 0,fun _ => ['0','.','0'],Task.read,fun _ _ => .other "ValidationError" ""⟩

def asks (taskId : String) : Op := .create ⟨taskId,.null,⟨.user,[.text "hi"],"m",none,none⟩,.null,"c",none⟩

def Part.isText : Part → Bool
  | .text _ => true
  | _ => false

def Op.isText : Op → Bool
  | .create ⟨_,_,message,.null,_,_⟩ => message.parts.all Part.isText
  | _ => false

def Move.isText : Move → Bool
  | .did op _ | .crashed op _ _ => op.isText
  | .restarted => true

theorem plain_faithful : plainStore.Faithful := ⟨fun _ => plain_of rfl,fun task _ => Task.read_dump task⟩

theorem held_of_text {move : Move} (plain : move.isText = true) : move.Held plainStore := by
  have create {op : Op} (plain : op.isText = true) : op.Held plainStore := by
    unfold Op.isText at plain
    split at plain
    next message _ _ =>
      refine ⟨fun part inside => ?_,trivial⟩
      have content := List.all_eq_true.mp plain part inside
      cases part with
      | text _ => trivial
      | data _ => cases content
      | file _ => cases content
    next => cases plain
  cases move with
  | did op now => exact create plain
  | crashed op now cut => exact create plain
  | restarted => trivial

def fresh (s : Journal) (move : Move) : Bool := move.isText && s.store.file.getLast?.getD '\n' == '\n'

theorem allowed_fresh (s : Journal) (move : Move) (ok : fresh s move = true) : allowed plainStore s move := by
  rw [fresh,Bool.and_eq_true,beq_iff_eq] at ok
  refine ⟨held_of_text ok.1,fun _ _ _ c last => ?_⟩
  simpa [Option.mem_def.mp last] using ok.2

def ids (tasks : String → Option Task) : List String := ["a","b","c"].filter fun taskId => (tasks taskId).isSome

def torn : List Move := [.did (asks "a") "t",.crashed (asks "b") "t" 9]

theorem torn_log_survives : ∃ s, Reached (step plainStore) (allowed plainStore) Journal.opened s ∧
    ids (latest s.written) = ["a"] ∧
    ((s.restart plainStore).store.tasks = latest s.written ∧ s.store.tasks = latest s.written) := by
  have walked : (walk (step plainStore) fresh torn Journal.opened).map (fun s => ids (latest s.written)) =
      some ["a"] := by
    decide +kernel
  obtain ⟨s,arrived,kept⟩ := Option.map_eq_some_iff.mp walked
  have run := reached_walk allowed_fresh torn .start arrived
  exact ⟨s,run,kept,log_survives plain_faithful run⟩

/-- The task that is created after the crash is gone after the next restart. -/
theorem joined_record_lost : plainStore.Faithful ∧
    ¬ ∀ s, Reached (step plainStore) (fun _ move => move.Held plainStore) Journal.opened s →
      (s.restart plainStore).store.tasks = latest s.written := by
  refine ⟨plain_faithful,fun survives => ?_⟩
  have walked : (walk (step plainStore) (fun _ move => move.isText) (torn ++ [.did (asks "c") "t"]) Journal.opened).map
      (fun s => (ids (s.restart plainStore).store.tasks,ids (latest s.written))) = some (["a"],["a","c"]) := by
    decide +kernel
  obtain ⟨s,arrived,lost⟩ := Option.map_eq_some_iff.mp walked
  rw [survives s (reached_walk (fun _ _ => held_of_text) _ .start arrived)] at lost
  have same := (Prod.mk.inj lost).1.symm.trans (Prod.mk.inj lost).2
  exact absurd same (by decide)

end Samples

end Orrery.Tasks
