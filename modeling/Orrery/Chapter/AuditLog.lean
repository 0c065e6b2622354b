import Mathlib.Data.List.ReduceOption
import Orrery.Foundation.Chains
import Orrery.Foundation.Runs
import Orrery.Chapter.PgStore

/-! The chapter's audit log (server/chapter_audit.py) under concurrent calls of `record`.
The SELECT of the latest row, the reading of the clock and the INSERT are three steps of
a call, and steps of other calls may lie between them. -/
namespace Orrery.Chapter
open Foundation Json Chains

/-- The digest, the texts of times and floats, and what Postgres gives back for a `jsonb`
value. The clock counts its readings, and no reading repeats. -/
structure AuditEnv where
  sha256 : List Char → String
  sha256_digit : ∀ text, ∃ c rest, (sha256 text).toList = c :: rest ∧ c ≠ '\x7b' ∧ c ≠ '['
  floatRepr : ℚ → List Char
  parseFloat : List Char → ℚ
  jsonb : Json → Json
  isoformat : Nat → String
  isoformat_digit : ∀ time, ∃ c rest, (isoformat time).toList = c :: rest ∧ c ≠ '\x7b' ∧ c ≠ '['
  clock : Nat → Nat
  clock_increasing : StrictMono clock

structure AuditCall where
  actorAgentId : Option String
  action : String
  targetType : Option String
  targetId : Option String
  outcome : String
  detail : Option Dict

structure AuditRow where
  chapterId : String
  actorAgentId : Option String
  action : String
  targetType : Option String
  targetId : Option String
  outcome : String
  detail : Dict
  occurredAt : Nat
  prevSha256 : Option String
  eventSha256 : String

def maxDetailBytes : Nat := 32*1024
def validOutcomes : List String := ["denied","fail","ok"]
def maxActionLen : Nat := 64

def optionalText : Option String → Json
  | none => .null
  | some s => .str s

def orElse (found : Option Json) (other : Json) : Json :=
  match found with
  | some value => if value.truthy then value else other
  | none => other

theorem orElse_obj (fields : Dict) : orElse (some (.obj fields)) (.obj []) = .obj fields := by
  cases fields <;> rfl

section Log
variable (env : AuditEnv) (chapterId : String)

def canonicalEvent (event : Dict) : List Char :=
  dumps env.floatRepr .canonical (.obj [("chapter_id",(get event "chapter_id").getD .null),
    ("actor_agent_id",(get event "actor_agent_id").getD .null),("action",(get event "action").getD .null),
    ("target_type",(get event "target_type").getD .null),("target_id",(get event "target_id").getD .null),
    ("outcome",(get event "outcome").getD .null),("detail",orElse (get event "detail") (.obj [])),
    ("occurred_at",(get event "occurred_at").getD .null),
    ("prev_sha256",orElse (get event "prev_sha256") (.str ""))])

def sha256Of (event : Dict) : String := env.sha256 (canonicalEvent env event)

def auditValidate (action outcome : String) (detail : Dict) : Except Exc Unit :=
  if action = "" then .error (.valueError "action is required")
  else if action.length > maxActionLen then .error (.valueError s!"action too long (max {maxActionLen})")
  else if outcome ∉ validOutcomes then .error (.valueError "outcome must be one of ['denied', 'fail', 'ok']")
  else if (dumps env.floatRepr .plain (.obj detail)).length > maxDetailBytes then
    .error (.valueError s!"detail too large (max {maxDetailBytes} bytes)")
  else .ok ()

def clipped (limit : Nat) (text : Option String) : Option String :=
  let cut := String.ofList ((text.getD "").toList.take limit)
  if cut = "" then none else some cut

def AuditRow.event (r : AuditRow) : Dict :=
  [("chapter_id",.str r.chapterId),("actor_agent_id",optionalText r.actorAgentId),("action",.str r.action),
    ("target_type",optionalText r.targetType),("target_id",optionalText r.targetId),("outcome",.str r.outcome),
    ("detail",.obj r.detail),("occurred_at",.str (env.isoformat r.occurredAt)),("prev_sha256",
      optionalText r.prevSha256)]

def AuditCall.row (call : AuditCall) (prevHash : String) (time : Nat) : AuditRow :=
  let bare : AuditRow := {
    chapterId := chapterId
    actorAgentId := call.actorAgentId
    action := String.ofList (call.action.toList.take maxActionLen)
    targetType := clipped 64 call.targetType
    targetId := clipped 128 call.targetId
    outcome := call.outcome
    detail := call.detail.getD []
    occurredAt := time
    prevSha256 := if prevHash = "" then none else some prevHash
    eventSha256 := "" }
  { bare with eventSha256 := sha256Of env (bare.event env) }

def byTime (rows : List AuditRow) : List AuditRow := rows.insertionSort fun a b => a.occurredAt ≤ b.occurredAt

def prevHash (rows : List AuditRow) : String := ((byTime rows).getLast?.map (·.eventSha256)).getD ""

def AuditRow.readBack (r : AuditRow) : Dict :=
  [("chapter_id",rowText env.parseFloat r.chapterId),("actor_agent_id",rowColumn env.parseFloat r.actorAgentId),
    ("action",rowText env.parseFloat r.action),("target_type",rowColumn env.parseFloat r.targetType),
    ("target_id",rowColumn env.parseFloat r.targetId),("outcome",rowText env.parseFloat r.outcome),
    ("detail",env.jsonb (.obj r.detail)),("prev_sha256",rowColumn env.parseFloat r.prevSha256),
    ("event_sha256",rowText env.parseFloat r.eventSha256),
    ("occurred_at",rowText env.parseFloat (env.isoformat r.occurredAt))]

def brokenAt (r : Dict) (length index : Nat) (rest : Dict) : Except Exc Dict := do
  return [("ok",.bool false),("length",.int length),("first_broken_at",← item r "occurred_at"),
    ("broken_index",.int index)] ++ rest

def rederived (prev : Json) (r : Dict) : Except Exc Dict := do
  let previous := orElse (get r "prev_sha256") prev
  return [("chapter_id",← item r "chapter_id"),("actor_agent_id",(get r "actor_agent_id").getD .null),
    ("action",← item r "action"),("target_type",(get r "target_type").getD .null),
    ("target_id",(get r "target_id").getD .null),("outcome",← item r "outcome"),
    ("detail",orElse (get r "detail") (.obj [])),("occurred_at",← item r "occurred_at"),
    ("prev_sha256",if previous.truthy then previous else .null)]

def verifyRows (length : Nat) : Nat → Json → List Dict → Except Exc Dict
  | _, _, [] => .ok [("ok",.bool true),("length",.int length)]
  | index, prev, r :: rest => do
    let expected := sha256Of env (← rederived prev r)
    let actual ← item r "event_sha256"
    if !eqStr (some actual) expected then
      brokenAt r length index [("expected_sha256",.str expected),("actual_sha256",actual)]
    else if !pyEq (orElse (get r "prev_sha256") (.str "")) (orElse (some prev) (.str "")) then
      brokenAt r length index [("reason",.str "prev_sha256 does not match chain"),("expected_prev",prev),
        ("actual_prev",(get r "prev_sha256").getD .null)]
    else verifyRows length (index+1) actual rest

def verifyChain (rows : List AuditRow) : Except Exc Dict :=
  let read := ((byTime rows).take 5000).map (AuditRow.readBack env)
  verifyRows env read.length 0 (.str "") read

/-- Where a call stands after its SELECT, and after its reading of the clock. `seen` is
how many rows the table had at the SELECT. -/
inductive AuditPoint
  | fetched (call : AuditCall) (prevHash : String) (seen : Nat)
  | built (row : AuditRow) (seen : Nat)

def AuditPoint.seen : AuditPoint → Nat
  | .fetched _ _ seen | .built _ seen => seen

/-- The chapter's rows in the order of their insertion, how often the clock was read,
and the calls of `record` that have not returned. -/
structure AuditLog where
  rows : List AuditRow
  readings : Nat
  calls : Nat → Option AuditPoint

def AuditLog.empty : AuditLog := ⟨[],0,fun _ => none⟩

inductive AuditMove
  | fetch (c : Nat) (call : AuditCall)
  | stamp (c : Nat)
  | insert (c : Nat)

def AuditLog.step (log : AuditLog) : AuditMove → Option AuditLog
  | .fetch c call =>
    match log.calls c, auditValidate env call.action call.outcome (call.detail.getD []) with
    | none, .ok _ =>
      some { log with calls := Function.update log.calls c (some (.fetched call (prevHash log.rows) log.rows.length)) }
    | _, _ => none
  | .stamp c =>
    match log.calls c with
    | some (.fetched call prevHash seen) =>
      let row := call.row env chapterId prevHash (env.clock log.readings)
      some { log with readings := log.readings+1, calls := Function.update log.calls c (some (.built row seen)) }
    | _ => none
  | .insert c =>
    match log.calls c with
    | some (.built row _) => some { log with rows := log.rows ++ [row], calls := Function.update log.calls c none }
    | _ => none

def AuditRow.texts (r : AuditRow) : List String :=
  [r.chapterId,r.action,r.outcome] ++ [r.actorAgentId,r.targetType,r.targetId].reduceOption

/-- What Postgres and `_rows` give back for the row is what was written: no text of it is
the text of a JSON object or list, and the detail renders as before. -/
structure AuditRow.ReadsBack (r : AuditRow) : Prop where
  texts : ∀ s ∈ r.texts, rowText env.parseFloat s = .str s
  detail : dumps env.floatRepr .canonical (orElse (some (env.jsonb (.obj r.detail))) (.obj [])) =
    dumps env.floatRepr .canonical (.obj r.detail)

def Undivided (log : AuditLog) : AuditMove → Prop
  | .fetch _ call => (call.row env chapterId "" 0).ReadsBack env
  | .stamp _ => True
  | .insert c => ∀ point, log.calls c = some point → point.seen = log.rows.length

theorem ne_empty_of_starts {s : String} {c : Char} {rest : List Char} (starts : s.toList = c :: rest) : s ≠ "" := by
  rintro rfl
  cases starts

structure AuditRow.Written (r : AuditRow) : Prop where
  hashed : r.eventSha256 = sha256Of env (r.event env)
  reads : r.ReadsBack env
  previous : ∀ h, r.prevSha256 = some h → h ≠ "" ∧ rowText env.parseFloat h = .str h

def AuditRow.back (r : AuditRow) : String := r.prevSha256.getD ""

theorem row_written {call : AuditCall} (reads : (call.row env chapterId "" 0).ReadsBack env) {previous : String}
    (plain : previous = "" ∨ rowText env.parseFloat previous = .str previous) (time : Nat) :
    (call.row env chapterId previous time).Written env ∧ (call.row env chapterId previous time).back = previous := by
  refine ⟨⟨rfl,⟨reads.texts,reads.detail⟩,?_⟩,?_⟩
  · intro h stored
    by_cases empty : previous = ""
    · simp [AuditCall.row,empty] at stored
    · have same : previous = h := by simpa [AuditCall.row,empty] using stored
      subst same
      exact ⟨empty,plain.resolve_left empty⟩
  · by_cases empty : previous = "" <;> simp [AuditRow.back,AuditCall.row,empty]

variable {env}

theorem AuditRow.Written.text {r : AuditRow} (written : r.Written env) {s : String} (inside : s ∈ r.texts) :
    rowText env.parseFloat s = .str s := written.reads.texts s inside

theorem AuditRow.Written.column {r : AuditRow} (written : r.Written env) {s : Option String}
    (inside : ∀ text, s = some text → text ∈ r.texts) : rowColumn env.parseFloat s = optionalText s := by
  cases s with
  | none => rfl
  | some text => exact written.text (inside text rfl)

theorem readBack_written {r : AuditRow} (written : r.Written env) :
    r.readBack env = [("chapter_id",.str r.chapterId),("actor_agent_id",optionalText r.actorAgentId),
      ("action",.str r.action),("target_type",optionalText r.targetType),("target_id",optionalText r.targetId),
      ("outcome",.str r.outcome),("detail",env.jsonb (.obj r.detail)),("prev_sha256",optionalText r.prevSha256),
      ("event_sha256",.str r.eventSha256),("occurred_at",.str (env.isoformat r.occurredAt))] := by
  have chapter := written.text (s := r.chapterId) (by simp [AuditRow.texts])
  have action := written.text (s := r.action) (by simp [AuditRow.texts])
  have outcome := written.text (s := r.outcome) (by simp [AuditRow.texts])
  have actor := written.column (s :=
    r.actorAgentId) (by intro text same; simp [AuditRow.texts,same,List.reduceOption_mem_iff])
  have kind := written.column (s :=
    r.targetType) (by intro text same; simp [AuditRow.texts,same,List.reduceOption_mem_iff])
  have target := written.column (s :=
    r.targetId) (by intro text same; simp [AuditRow.texts,same,List.reduceOption_mem_iff])
  have time : rowText env.parseFloat (env.isoformat r.occurredAt) = .str (env.isoformat r.occurredAt) := by
    obtain ⟨c,rest,starts,brace,bracket⟩ := env.isoformat_digit r.occurredAt
    exact rowText_plain starts brace bracket
  have hash : rowText env.parseFloat r.eventSha256 = .str r.eventSha256 := by
    obtain ⟨c,rest,starts,brace,bracket⟩ := env.sha256_digit (canonicalEvent env (r.event env))
    exact rowText_plain (by rw [written.hashed]; exact starts) brace bracket
  have previous : rowColumn env.parseFloat r.prevSha256 = optionalText r.prevSha256 := by
    cases stored : r.prevSha256 with
    | none => rfl
    | some h => exact (written.previous h stored).2
  rw [AuditRow.readBack,chapter,action,outcome,actor,kind,target,time,hash,previous]

theorem previous_kept {r : AuditRow} (written : r.Written env) :
    (let previous := orElse (some (optionalText r.prevSha256)) (.str r.back)
      if previous.truthy then previous else .null) = optionalText r.prevSha256 := by
  cases stored : r.prevSha256 with
  | none => simp [orElse,optionalText,truthy,AuditRow.back,stored]
  | some h => simp [orElse,optionalText,truthy,(written.previous h stored).1]

def AuditRow.eventRead (env : AuditEnv) (r : AuditRow) : Dict :=
  [("chapter_id",.str r.chapterId),("actor_agent_id",optionalText r.actorAgentId),("action",.str r.action),
    ("target_type",optionalText r.targetType),("target_id",optionalText r.targetId),("outcome",.str r.outcome),
    ("detail",orElse (some (env.jsonb (.obj r.detail))) (.obj [])),
    ("occurred_at",.str (env.isoformat r.occurredAt)),("prev_sha256",optionalText r.prevSha256)]

theorem rederived_written {r : AuditRow} (written : r.Written env) :
    rederived (.str r.back) (r.readBack env) = .ok (r.eventRead env) := by
  rw [readBack_written written]
  have kept := previous_kept written
  simp only at kept
  simp [rederived,item,get_cons,bind,Except.bind,pure,Except.pure,AuditRow.eventRead,kept]

theorem canonical_eventRead {r : AuditRow} (written : r.Written env) :
    canonicalEvent env (r.eventRead env) = canonicalEvent env (r.event env) := by
  have twice (value : Json) : orElse (some (orElse (some value) (.obj []))) (.obj []) =
      orElse (some value) (.obj []) := by
    simp only [orElse]
    split <;> simp_all
  have detail := written.reads.detail
  simp only [canonicalEvent,AuditRow.eventRead,AuditRow.event,get_cons]
  simp [dumps,dumpsFields,twice,orElse_obj,detail]

theorem sha256Of_eventRead {r : AuditRow} (written : r.Written env) : sha256Of env (r.eventRead env) =
    r.eventSha256 := by
  rw [written.hashed,sha256Of,sha256Of,canonical_eventRead written]

theorem orElse_str (s : String) : orElse (some (.str s)) (.str "") = .str s := by
  by_cases empty : s = "" <;> simp [orElse,truthy,empty]

theorem orElse_back (r : AuditRow) : orElse (some (optionalText r.prevSha256)) (.str "") = .str r.back := by
  cases stored : r.prevSha256 with
  | none => simp [orElse,optionalText,truthy,AuditRow.back,stored]
  | some h => simp [optionalText,orElse_str,AuditRow.back,stored]

theorem verifyRows_cons {r : AuditRow} (written : r.Written env) (length index : Nat) (rest : List Dict) :
    verifyRows env length index (.str r.back) (r.readBack env :: rest) =
      verifyRows env length (index+1) (.str r.eventSha256) rest := by
  have hash : item (r.readBack env) "event_sha256" = .ok (.str r.eventSha256) := by
    rw [readBack_written written]
    simp [item,get_cons]
  have previous : get (r.readBack env) "prev_sha256" = some (optionalText r.prevSha256) := by
    rw [readBack_written written]
    simp [get_cons]
  rw [verifyRows,rederived_written written,hash,previous,orElse_back,orElse_str]
  simp [bind,Except.bind,sha256Of_eventRead written,eqStr,pyEq,hashKey]

theorem verifyRows_linked (length : Nat) {rows : List AuditRow} : ∀ (index : Nat) {previous : Option AuditRow},
    (∀ r ∈ rows, r.Written env) → Linked (RefersBack (·.eventSha256) AuditRow.back "") previous rows →
    verifyRows env length index (.str ((previous.map (·.eventSha256)).getD "")) (rows.map (AuditRow.readBack env)) =
      .ok [("ok",.bool true),("length",.int length)] := by
  induction rows with
  | nil =>
    intro _ _ _ _
    rfl
  | cons r rows ih =>
    intro index previous written linked
    have refers : r.back = (previous.map (·.eventSha256)).getD "" := linked.1
    rw [← refers,List.map_cons,verifyRows_cons (written r (List.mem_cons_self ..))]
    exact ih (index+1) (fun r inside => written r (List.mem_cons_of_mem _ inside)) linked.2

def reportsOk : Except Exc Dict → Bool
  | .ok report => (get report "ok").any truthy
  | .error _ => false

theorem brokenAt_reports {r : AuditRow} (length index : Nat) (rest : Dict) :
    reportsOk (brokenAt (r.readBack env) length index rest) = false := by
  have time : item (r.readBack env) "occurred_at" = .ok (rowText env.parseFloat (env.isoformat r.occurredAt)) := by
    simp [AuditRow.readBack,item,get_cons]
  rw [brokenAt,time]
  simp [bind,Except.bind,pure,Except.pure,reportsOk,get_cons,truthy]

theorem verifyRows_astray {r : AuditRow} (written : r.Written env) {prev : String} (astray : r.back ≠ prev)
    (length index : Nat) (rest : List Dict) :
    reportsOk (verifyRows env length index (.str prev) (r.readBack env :: rest)) = false := by
  have hash : item (r.readBack env) "event_sha256" = .ok (.str r.eventSha256) := by
    rw [readBack_written written]
    simp [item,get_cons]
  have previous : get (r.readBack env) "prev_sha256" = some (optionalText r.prevSha256) := by
    rw [readBack_written written]
    simp [get_cons]
  have apart : pyEq (.str r.back) (.str prev) = false := by simpa [pyEq,hashKey] using astray
  rw [verifyRows]
  cases derived : rederived (.str prev) (r.readBack env) with
  | error e => rfl
  | ok event =>
    rw [hash,previous,orElse_back,orElse_str,apart]
    simp only [bind,Except.bind]
    split
    next => exact brokenAt_reports ..
    next => exact brokenAt_reports ..

def tip (rows : List AuditRow) : String := (rows.getLast?.map (·.eventSha256)).getD ""

/-- The row comes after these rows: it refers to the last of them and is later than all. -/
def Follows (rows : List AuditRow) (row : AuditRow) : Prop :=
  row.back = tip rows ∧ ∀ r ∈ rows, r.occurredAt < row.occurredAt

variable (env)

def AuditLog.Read (log : AuditLog) (time : Nat) : Prop := ∃ k < log.readings, time = env.clock k

def Standing (log : AuditLog) : AuditPoint → Prop
  | .fetched call prevHash seen => seen ≤ log.rows.length ∧ (call.row env chapterId "" 0).ReadsBack env ∧
    (prevHash = "" ∨ rowText env.parseFloat prevHash = .str prevHash) ∧
    (seen = log.rows.length → prevHash = tip log.rows)
  | .built row seen => seen ≤ log.rows.length ∧ row.Written env ∧ log.Read env row.occurredAt ∧
    (seen = log.rows.length → Follows log.rows row)

structure Unforked (log : AuditLog) : Prop where
  linked : Linked (RefersBack (·.eventSha256) AuditRow.back "") none log.rows
  increasing : log.rows.Pairwise fun a b => a.occurredAt < b.occurredAt
  read : ∀ r ∈ log.rows, log.Read env r.occurredAt
  written : ∀ r ∈ log.rows, r.Written env
  standing : ∀ c point, log.calls c = some point → Standing env chapterId log point

variable {env chapterId}

theorem byTime_increasing {rows : List AuditRow} (increasing : rows.Pairwise fun a b => a.occurredAt < b.occurredAt) :
    byTime rows = rows := (increasing.imp fun earlier => Nat.le_of_lt earlier).insertionSort_eq

theorem tip_plain {rows : List AuditRow} (written : ∀ r ∈ rows, r.Written env) :
    tip rows = "" ∨ rowText env.parseFloat (tip rows) = .str (tip rows) := by
  unfold tip
  cases last : rows.getLast? with
  | none => exact Or.inl rfl
  | some r =>
    obtain ⟨c,rest,starts,brace,bracket⟩ := env.sha256_digit (canonicalEvent env (r.event env))
    have hashed := (written r (List.mem_of_getLast? last)).hashed
    have same : r.eventSha256.toList = c :: rest := by
      rw [hashed]
      exact starts
    exact Or.inr (rowText_plain same brace bracket)

theorem Unforked.verified {log : AuditLog} (unforked : Unforked env chapterId log) :
    verifyChain env log.rows = .ok [("ok",.bool true),("length",.int (log.rows.take 5000).length)] := by
  rw [verifyChain,byTime_increasing unforked.increasing,List.length_map]
  have linked := linked_take 5000 unforked.linked
  exact verifyRows_linked _ 0 (fun r inside => unforked.written r (List.mem_of_mem_take inside)) linked

theorem Standing.later {log : AuditLog} {point : AuditPoint} (standing : Standing env chapterId log point)
    (row : AuditRow) (calls : Nat → Option AuditPoint) :
    Standing env chapterId { log with rows := log.rows ++ [row], calls := calls } point := by
  have longer : (log.rows ++ [row]).length = log.rows.length+1 := by simp
  -- the call has seen fewer rows than there are now, so nothing is asked of what it read
  cases point with
  | fetched call prevHash seen =>
    obtain ⟨bound,reads,plain,_⟩ := standing
    refine ⟨by simp only [longer]; omega,reads,plain,fun all => ?_⟩
    simp only [longer] at all
    omega
  | built row seen =>
    obtain ⟨bound,written,read,_⟩ := standing
    refine ⟨by simp only [longer]; omega,written,read,fun all => ?_⟩
    simp only [longer] at all
    omega

theorem Standing.stamped {log : AuditLog} {point : AuditPoint} (standing : Standing env chapterId log point)
    (calls : Nat → Option AuditPoint) :
    Standing env chapterId { log with readings := log.readings+1, calls := calls } point := by
  cases point with
  | fetched call prevHash seen => exact standing
  | built row seen =>
    obtain ⟨bound,written,⟨k,before,same⟩,follows⟩ := standing
    exact ⟨bound,written,⟨k,Nat.lt_succ_of_lt before,same⟩,follows⟩

theorem standing_update {log : AuditLog} {P : AuditPoint → Prop} {c : Nat} {next : Option AuditPoint}
    (others : ∀ c point, log.calls c = some point → P point) (own : ∀ point, next = some point → P point) :
    ∀ d point, Function.update log.calls c next d = some point → P point := by
  intro d point found
  by_cases same : d = c
  · subst same
    rw [Function.update_self] at found
    exact own point found
  · rw [Function.update_of_ne same] at found
    exact others d point found

theorem Unforked.fetch {log : AuditLog} (unforked : Unforked env chapterId log) (c : Nat) {call : AuditCall}
    (reads : (call.row env chapterId "" 0).ReadsBack env) :
    Unforked env chapterId { log with
      calls := Function.update log.calls c (some (.fetched call (prevHash log.rows) log.rows.length)) } where
  linked := unforked.linked
  increasing := unforked.increasing
  read := unforked.read
  written := unforked.written
  standing := by
    have latest : prevHash log.rows = tip log.rows := by rw [prevHash,byTime_increasing unforked.increasing,tip]
    refine standing_update unforked.standing ?_
    intro point same
    cases same
    refine ⟨Nat.le_refl _,reads,?_,fun _ => latest⟩
    rw [latest]
    exact tip_plain unforked.written

theorem AuditLog.Read.lt {log : AuditLog} {time : Nat} (read : log.Read env time) : time < env.clock log.readings := by
  obtain ⟨k,before,rfl⟩ := read
  exact env.clock_increasing before

theorem Unforked.stamp {log : AuditLog} (unforked : Unforked env chapterId log) {c : Nat} {call : AuditCall}
    {previous : String} {seen : Nat} (stands : log.calls c = some (.fetched call previous seen)) :
    Unforked env chapterId { log with
      readings := log.readings+1
      calls := Function.update log.calls c
        (some (.built (call.row env chapterId previous (env.clock log.readings)) seen)) } := by
  obtain ⟨bound,reads,plain,current⟩ := unforked.standing c _ stands
  obtain ⟨written,back⟩ := row_written env chapterId reads plain (env.clock log.readings)
  refine ⟨unforked.linked,unforked.increasing,?_,unforked.written,?_⟩
  · intro r inside
    obtain ⟨k,before,same⟩ := unforked.read r inside
    exact ⟨k,Nat.lt_succ_of_lt before,same⟩
  · refine standing_update (fun d point found => (unforked.standing d point found).stamped _) ?_
    intro point same
    cases same
    refine ⟨bound,written,⟨log.readings,Nat.lt_succ_self _,rfl⟩,fun all => ⟨?_,?_⟩⟩
    · rw [back,current all]
    · intro r inside
      exact (unforked.read r inside).lt

theorem Unforked.insert {log : AuditLog} (unforked : Unforked env chapterId log) {c : Nat} {row : AuditRow} {seen : Nat}
    (stands : log.calls c = some (.built row seen)) (all : seen = log.rows.length) :
    Unforked env chapterId { log with rows := log.rows ++ [row], calls := Function.update log.calls c none } := by
  obtain ⟨bound,written,read,follows⟩ := unforked.standing c _ stands
  obtain ⟨back,later⟩ := follows all
  have refers : RefersBack (·.eventSha256) AuditRow.back "" (log.rows.getLast?.or none) row := by
    rw [Option.or_none]
    exact back
  refine ⟨linked_append unforked.linked refers,?_,?_,?_,?_⟩
  · rw [List.pairwise_append]
    exact ⟨unforked.increasing,List.pairwise_singleton _ _,by simpa using later⟩
  · intro r inside
    rcases List.mem_append.mp inside with old | new
    · exact unforked.read r old
    · rw [List.mem_singleton.mp new]
      exact read
  · intro r inside
    rcases List.mem_append.mp inside with old | new
    · exact unforked.written r old
    · rw [List.mem_singleton.mp new]
      exact written
  · refine standing_update (fun d point found => (unforked.standing d point found).later row _) ?_
    intro point absent
    cases absent

theorem Unforked.step {log log' : AuditLog} {move : AuditMove} (unforked : Unforked env chapterId log)
    (undivided : Undivided env chapterId log move) (stepped : log.step env chapterId move = some log') :
    Unforked env chapterId log' := by
  cases move with
  | fetch c call =>
    rw [AuditLog.step] at stepped
    split at stepped
    next =>
      cases stepped
      exact unforked.fetch c undivided
    next => cases stepped
  | stamp c =>
    rw [AuditLog.step] at stepped
    split at stepped
    next call previous seen stands =>
      cases stepped
      exact unforked.stamp stands
    next => cases stepped
  | insert c =>
    rw [AuditLog.step] at stepped
    split at stepped
    next row seen stands =>
      cases stepped
      exact unforked.insert stands (undivided _ stands)
    next => cases stepped

theorem unforked_empty : Unforked env chapterId .empty where
  linked := trivial
  increasing := List.Pairwise.nil
  read := fun _ absent => absurd absent List.not_mem_nil
  written := fun _ absent => absurd absent List.not_mem_nil
  standing := by
    intro c point absent
    cases absent

/-- In every interleaving in which no row is inserted between the SELECT and the INSERT
of a call, and the rows read back as they were written, the verification reports ok. -/
theorem verifyChain_reached (env : AuditEnv) (chapterId : String) (log : AuditLog)
    (run : Runs.Reached (AuditLog.step env chapterId) (Undivided env chapterId) .empty log) :
    reportsOk (verifyChain env log.rows) = true := by
  have unforked : Unforked env chapterId log :=
    run.invariant unforked_empty fun _ _ _ unforked undivided stepped => unforked.step undivided stepped
  rw [unforked.verified]
  rfl

/-- A digest that hides nothing and a store that keeps JSON as it is. -/
def sampleEnv : AuditEnv where
  sha256 text := String.ofList ('h' :: text)
  sha256_digit text := ⟨'h',text,by simp,by decide,by decide⟩
  floatRepr _ := ['0']
  parseFloat _ := 0
  jsonb value := value
  isoformat time := String.ofList ('2' :: (toString time).toList)
  isoformat_digit time := ⟨'2',(toString time).toList,by simp,by decide,by decide⟩
  clock k := k
  clock_increasing := strictMono_id

def sampleCall (action : String) : AuditCall := ⟨some "leader",action,some "member",none,"ok",none⟩

def plainTexts (r : AuditRow) : Bool := r.texts.all fun s => s.toList.head?.all fun c => c != '\x7b' && c != '['

def sampleCheck (log : AuditLog) : AuditMove → Bool
  | .fetch _ call => plainTexts (call.row sampleEnv "acme" "" 0)
  | .stamp _ => true
  | .insert c => (log.calls c).all fun point => point.seen == log.rows.length

theorem rowText_head {parseFloat : List Char → ℚ} {s : String}
    (plain : s.toList.head?.all (fun c => c != '\x7b' && c != '[') = true) : rowText parseFloat s = .str s := by
  cases starts : s.toList with
  | nil =>
    unfold rowText
    rw [starts]
  | cons c rest =>
    rw [starts] at plain
    have apart : c ≠ '\x7b' ∧ c ≠ '[' := by simpa using plain
    exact rowText_plain starts apart.1 apart.2

theorem sampleCheck_undivided (log : AuditLog) (move : AuditMove) (checked : sampleCheck log move = true) :
    Undivided sampleEnv "acme" log move := by
  cases move with
  | fetch c call =>
    refine ⟨fun s inside => rowText_head (List.all_eq_true.mp checked s inside),?_⟩
    exact congrArg (dumps _ _) (orElse_obj _)
  | stamp c => trivial
  | insert c =>
    intro point stands
    rw [sampleCheck,stands] at checked
    simpa using checked

def inTurn : List AuditMove :=
  [.fetch 0 (sampleCall "a"),.stamp 0,.insert 0,.fetch 1 (sampleCall "b"),.stamp 1,.insert 1]

theorem verifyChain_inTurn : ∃ log, Runs.Reached (AuditLog.step sampleEnv "acme")
    (Undivided sampleEnv "acme") .empty log ∧
    log.rows.length = 2 ∧ reportsOk (verifyChain sampleEnv log.rows) = true := by
  have walked : (Runs.walk (AuditLog.step sampleEnv "acme") sampleCheck inTurn .empty).map (·.rows.length) =
      some 2 := by
    decide +kernel
  obtain ⟨log,ended,rows⟩ := Option.map_eq_some_iff.mp walked
  have run := Runs.reached_walk sampleCheck_undivided inTurn .start ended
  exact ⟨log,run,rows,verifyChain_reached sampleEnv "acme" log run⟩

def atOnce : List AuditMove :=
  [.fetch 0 (sampleCall "a"),.stamp 0,.fetch 1 (sampleCall "b"),.stamp 1,.insert 0,.insert 1]

def firstRow : AuditRow := (sampleCall "a").row sampleEnv "acme" "" 0
def secondRow : AuditRow := (sampleCall "b").row sampleEnv "acme" "" 1

theorem sampleRow_written (action : String) (time : Nat)
    (plain : plainTexts ((sampleCall action).row sampleEnv "acme" "" 0) = true) :
    ((sampleCall action).row sampleEnv "acme" "" time).Written sampleEnv :=
  (row_written sampleEnv "acme" (sampleCheck_undivided .empty (.fetch 0 (sampleCall action)) plain) (Or.inl rfl) time).1

theorem atOnce_forks : ∃ log, Runs.Reached (AuditLog.step sampleEnv "acme") Runs.Free .empty log ∧
    reportsOk (verifyChain sampleEnv log.rows) = false := by
  have walked : (Runs.walk (AuditLog.step sampleEnv "acme") (fun _ _ => true) atOnce .empty).map (·.rows) =
      some [firstRow,secondRow] := by rfl
  obtain ⟨log,ended,rows⟩ := Option.map_eq_some_iff.mp walked
  refine ⟨log,Runs.reached_walk (fun _ _ _ => trivial) atOnce .start ended,?_⟩
  have first : firstRow.Written sampleEnv := sampleRow_written "a" 0 (by decide +kernel)
  have second : secondRow.Written sampleEnv := sampleRow_written "b" 1 (by decide +kernel)
  have ordered : byTime [firstRow,secondRow] =
      [firstRow,secondRow] := byTime_increasing (by simp [firstRow,secondRow,AuditCall.row])
  have astray : secondRow.back ≠ firstRow.eventSha256 := by
    obtain ⟨c,rest,starts,_⟩ := sampleEnv.sha256_digit (canonicalEvent sampleEnv (firstRow.event sampleEnv))
    have hashed : firstRow.eventSha256.toList = c :: rest := by
      rw [first.hashed]
      exact starts
    exact (ne_empty_of_starts hashed).symm
  rw [rows,verifyChain,ordered]
  exact (congrArg reportsOk (verifyRows_cons first ..)).trans (verifyRows_astray second astray ..)

end Log
end Orrery.Chapter
