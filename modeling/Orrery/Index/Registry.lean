import Mathlib.Data.List.AList
import Orrery.Foundation.Effect
import Orrery.Foundation.Runs
import Orrery.Index.AttestationGate

/-! The write surface of the lean index (index/main.py). Each handler works on one
connection to the database, whose `with` block commits at its end and goes back to the
last commit on an exception. -/
namespace Orrery.Index
open Foundation Json Chapter

/-- The database: the documents by id, and the did:keys that ids are pinned to. -/
structure Row where
  doc : Dict
  updatedAt : ℚ

structure Pin where
  did : String
  pinnedAt : ℚ

structure Tables where
  agents : AList (fun _ : String => Row)
  didPins : AList (fun _ : String => Pin)

structure Service where
  tables : Tables
  writeTimes : List (String × List ℚ)

def Service.empty : Service := ⟨⟨∅,∅⟩,[]⟩

structure Refusal where
  status : Nat
  detail : String

def Refusal.internal (e : Exc) : Refusal := ⟨500,e.text⟩

structure Settings where
  writeToken : String
  writeOpen : Bool
  gate : Bool
  maxBodyBytes : Int
  maxRecords : Int
  rateMax : Int
  rateWindowS : ℚ
  maxRateKeys : Int

/-- The headers by their names in lower case, the chunks of the body, and the time. -/
structure Request where
  headers : String → Option String
  client : Option String
  chunks : List Bytes
  now : ℚ

structure IndexEnv extends GateEnv where
  loads : Bytes → Except Exc Json
  loads_distinct : ∀ raw fields, loads raw = .ok (.obj fields) → (fields.map Prod.fst).Nodup

def strip (s : String) : String := String.ofList (JsonLines.strip s.toList)

section Guards
variable (env : IndexEnv) (settings : Settings) (request : Request)

def presentedToken : String :=
  let auth := (request.headers "authorization").getD ""
  if startsWith "bearer " (String.ofList (auth.toList.map Char.toLower)) then strip (dropStart "bearer " auth)
  else (request.headers "x-index-token").getD ""

def checkWriteToken : Except Refusal Unit :=
  if settings.writeToken = "" then
    if settings.writeOpen then .ok ()
    else .error ⟨503,"INDEX_WRITE_TOKEN is not set, so this index cannot authenticate writes. " ++
      "Set it, or set INDEX_WRITE_OPEN=true to deliberately accept unauthenticated " ++
      "writes (tamper-drill posture)."⟩
  else if presentedToken request = settings.writeToken then .ok ()
  else .error ⟨401,"write token required"⟩

def sweepWriteTimes (cutoff : ℚ) (times : List (String × List ℚ)) : List (String × List ℚ) :=
  (times.map fun bucket => (bucket.1,bucket.2.dropWhile (· < cutoff))).filter fun bucket => !bucket.2.isEmpty

def setBucket (times : List (String × List ℚ)) (key : String) (bucket : List ℚ) : List (String × List ℚ) :=
  times.map fun entry => if entry.1 = key then (key,bucket) else entry

/-- The windows after the request, and whether the limit refuses it. -/
def checkRate (times : List (String × List ℚ)) : List (String × List ℚ) × Bool :=
  let key := request.client.getD "unknown"
  let cutoff := request.now-settings.rateWindowS
  let slide (times : List (String × List ℚ)) (bucket : List ℚ) :=
    let bucket := bucket.dropWhile (· < cutoff)
    if bucket.length ≥ settings.rateMax then (setBucket times key bucket,true)
    else (setBucket times key (bucket ++ [request.now]),false)
  match times.find? (fun bucket => bucket.1 = key) with
  | some bucket => slide times bucket.2
  | none =>
    let swept := if times.length ≥ settings.maxRateKeys then sweepWriteTimes cutoff times else times
    if swept.length ≥ settings.maxRateKeys then (swept,true) else slide (swept ++ [(key,[])]) []

def isDigitText (s : String) : Bool :=
  s ≠ "" && s.toList.all fun c => c.isDigit || c = '²' || c = '³' || c = '¹'

def intOfDigits (s : String) : Except Exc Int :=
  if s.toList.all Char.isDigit ∧ s.length ≤ 4300 then .ok (s.toList.foldl (fun n c => 10*n+(c.toNat-48)) 0)
  else .error (.valueError "invalid literal for int() with base 10")

def tooLarge : Refusal := ⟨413,"request body too large"⟩

def readChunks (limit : Int) (total : Nat) : List Bytes → Except Refusal Bytes
  | [] => .ok []
  | chunk :: rest =>
    if total+chunk.length > limit then .error tooLarge
    else (readChunks limit (total+chunk.length) rest).map (chunk ++ ·)

def contentLengthAllowed : Except Refusal Unit :=
  match request.headers "content-length" with
  | some declared =>
    if isDigitText declared then
      match intOfDigits declared with
      | .error e => .error (.internal e)
      | .ok length => if length > settings.maxBodyBytes then .error tooLarge else .ok ()
    else .ok ()
  | none => .ok ()

def readCappedJson : Except Refusal Json := do
  contentLengthAllowed settings request
  let raw ← readChunks settings.maxBodyBytes 0 request.chunks
  if raw.isEmpty then return .null
  else match env.loads raw with
  | .ok body => return body
  | .error e => throw (if isValueError e then ⟨400,"invalid JSON body"⟩ else .internal e)

end Guards

structure Conn where
  durable : Tables
  working : Tables

def withDb {α : Type} (block : Effect Refusal Conn α) : Effect Refusal Service α := fun s =>
  match block ⟨s.tables,s.tables⟩ with
  | .ok a conn => .ok a { s with tables := conn.working }
  | .error refusal conn => .error refusal { s with tables := conn.durable }

def commit : Effect Refusal Conn Unit := modify fun conn => { conn with durable := conn.working }

def execute (statement : Tables → Tables) : Effect Refusal Conn Unit :=
  modify fun conn => { conn with working := statement conn.working }

def refuse {σ α : Type} (status : Nat) (detail : String) : Effect Refusal σ α := Effect.raise ⟨status,detail⟩

def Tables.pin (tables : Tables) (agentId did : String) (now : ℚ) : Tables :=
  match tables.didPins.lookup agentId with
  | some _ => tables
  | none => { tables with didPins := tables.didPins.insert agentId ⟨did,now⟩ }

def Tables.store (tables : Tables) (agentId : String) (doc : Dict) (now : ℚ) : Tables :=
  { tables with agents := tables.agents.insert agentId ⟨doc,now⟩ }

def Tables.delete (tables : Tables) (agentId : String) : Tables :=
  { tables with agents := tables.agents.erase agentId }

def Tables.pinnedDid (tables : Tables) (agentId : String) : Option String :=
  (tables.didPins.lookup agentId).map Pin.did

def Tables.count (tables : Tables) : Int := tables.agents.entries.length

def update (doc body : Dict) : Dict := body.foldl (fun doc item => setItem doc item.1 item.2) doc

def mergedDoc (agentId : String) (existing : Option Dict) (body : Dict) : Dict :=
  let doc := match existing with
    | some doc => if doc.isEmpty then [("agent_id",.str agentId)] else doc
    | none => [("agent_id",.str agentId)]
  setItem (update doc body) "agent_id" (.str agentId)

section Handlers
variable (env : IndexEnv) (settings : Settings)

def gateWrite (agentId : String) (body : Dict) (now : ℚ) : Effect Refusal Conn Unit := do
  if settings.gate then
    let conn ← get
    match evaluateWrite env.toGateEnv agentId body (conn.working.pinnedDid agentId) now with
    | .error e => Effect.raise (.internal e)
    | .ok decision =>
      if decision.allowed then
        match decision.pinDid with
        | some did =>
          execute fun tables => tables.pin agentId did now
          commit
        | none => pure ()
      else refuse 403 ("attestation gate: " ++ decision.reason)

def storeDoc (agentId : String) (doc : Dict) (now : ℚ) : Effect Refusal Conn Unit := do
  execute fun tables => tables.store agentId doc now
  commit

def registerRecord (agentId : String) (body : Dict) (now : ℚ) : Effect Refusal Conn Unit := do
  gateWrite env settings agentId body now
  let conn ← get
  if (conn.working.agents.lookup agentId).isSome then refuse 409 "agent_id already registered"
  else if conn.working.count ≥ settings.maxRecords then refuse 507 "registry at capacity"
  else storeDoc agentId body now

def updateRecord (agentId : String) (body : Dict) (now : ℚ) : Effect Refusal Conn Unit := do
  gateWrite env settings agentId body now
  let conn ← get
  let existing := (conn.working.agents.lookup agentId).map Row.doc
  if existing.isNone ∧ conn.working.count ≥ settings.maxRecords then refuse 507 "registry at capacity"
  else storeDoc agentId (mergedDoc agentId existing body) now

def deleteRecord (agentId : String) : Effect Refusal Conn Unit := do
  let conn ← get
  if (conn.working.agents.lookup agentId).isNone then refuse 404 "Agent not found"
  else
    execute fun tables => tables.delete agentId
    commit

def checkCaller (request : Request) : Effect Refusal Service Unit := fun s =>
  match checkWriteToken settings request with
  | .error refusal => .error refusal s
  | .ok _ =>
    let (times,limited) := checkRate settings request s.writeTimes
    if limited then .error ⟨429,"write rate limit exceeded"⟩ { s with writeTimes := times }
    else .ok () { s with writeTimes := times }

def readBody (request : Request) : Effect Refusal Service Json := fun s =>
  match readCappedJson env settings request with
  | .error refusal => .error refusal s
  | .ok body => .ok body s

def receive (request : Request) : Effect Refusal Service Json := do
  checkCaller settings request
  readBody env settings request

def bodyAgentId (body : Dict) : String :=
  let value := field body "agent_id"
  strip (if value.truthy then env.str value else "")

def registerAgent (request : Request) : Effect Refusal Service String := do
  match ← receive env settings request with
  | .obj body =>
    if bodyAgentId env body = "" then refuse 400 "agent_id required"
    else
      withDb (registerRecord env settings (bodyAgentId env body) body request.now)
      return bodyAgentId env body
  | _ => refuse 400 "agent_id required"

def updateAgent (agentId : String) (request : Request) : Effect Refusal Service String := do
  match ← receive env settings request with
  | .obj body =>
    withDb (updateRecord env settings agentId body request.now)
    return agentId
  | _ => refuse 400 "object body required"

def deleteAgent (agentId : String) (request : Request) : Effect Refusal Service String := do
  checkCaller settings request
  withDb (deleteRecord agentId)
  return agentId

inductive Write
  | post (request : Request)
  | put (agentId : String) (request : Request)
  | delete (agentId : String) (request : Request)

def handle : Write → Effect Refusal Service String
  | .post request => registerAgent env settings request
  | .put agentId request => updateAgent env settings agentId request
  | .delete agentId request => deleteAgent settings agentId request

end Handlers

section Outcomes
variable (env : IndexEnv) (settings : Settings)

def arriving (s : Service) (request : Request) : Option Json :=
  match receive env settings request s with
  | .ok body _ => some body
  | .error _ _ => none

def Tables.admission (tables : Tables) (agentId : String) (body : Dict) (now : ℚ) : Option Decision :=
  match evaluateWrite env.toGateEnv agentId body (tables.pinnedDid agentId) now with
  | .ok decision => if decision.allowed then some decision else none
  | .error _ => none

def Tables.gated (tables : Tables) (agentId : String) (now : ℚ) (decision : Decision) : Tables :=
  match decision.pinDid with
  | some did => tables.pin agentId did now
  | none => tables

/-- A write with a body, up to the gate, and whether a check behind the gate refuses it. -/
structure Entry where
  agentId : String
  body : Dict
  now : ℚ
  blocked : Bool
  doc : Dict

def entry (s : Service) : Write → Option Entry
  | .post request =>
    match arriving env settings s request with
    | some (.obj body) =>
      let agentId := bodyAgentId env body
      if agentId = "" then none
      else some ⟨agentId,body,request.now,
        (s.tables.agents.lookup agentId).isSome || s.tables.count ≥ settings.maxRecords,
        body⟩
    | _ => none
  | .put agentId request =>
    match arriving env settings s request with
    | some (.obj body) =>
      let existing := (s.tables.agents.lookup agentId).map Row.doc
      some ⟨agentId,body,request.now,existing.isNone && s.tables.count ≥ settings.maxRecords,
        mergedDoc agentId existing body⟩
    | _ => none
  | .delete _ _ => none

variable {env settings} {s : Service} {write : Write} {tables : Tables} {agentId : String} {body : Dict} {now : ℚ}
  {decision : Decision} {e : Entry}

def Refused (env : IndexEnv) (settings : Settings) (s : Service) (write : Write) (tables : Tables) : Prop :=
  ∃ refusal s', handle env settings write s = .error refusal s' ∧ s'.tables = tables

def Accepted (env : IndexEnv) (settings : Settings) (s : Service) (write : Write) (tables : Tables) : Prop :=
  ∃ answer s', handle env settings write s = .ok answer s' ∧ s'.tables = tables

@[simp] theorem pin_agents (tables : Tables) (agentId did : String) (now : ℚ) :
    (tables.pin agentId did now).agents = tables.agents := by
  unfold Tables.pin
  split <;> rfl

@[simp] theorem gated_agents (tables : Tables) (agentId : String) (now : ℚ) (decision : Decision) :
    (tables.gated agentId now decision).agents = tables.agents := by
  unfold Tables.gated
  split
  next => exact pin_agents _ _ _ _
  next => rfl

@[simp] theorem gated_count (tables : Tables) (agentId : String) (now : ℚ) (decision : Decision) :
    (tables.gated agentId now decision).count = tables.count := by
  rw [Tables.count,gated_agents]
  rfl

theorem gateWrite_admitted (on : settings.gate = true)
    (passed : tables.admission env agentId body now = some decision) :
    gateWrite env settings agentId body now ⟨tables,tables⟩ =
      .ok () ⟨tables.gated agentId now decision,tables.gated agentId now decision⟩ := by
  unfold Tables.admission at passed
  split at passed
  next evaluated =>
    obtain ⟨allowed,same⟩ := Option.ite_none_right_eq_some.mp passed
    cases same
    rw [gateWrite,if_pos on,Effect.bind_apply,Effect.get_apply]
    dsimp only
    rw [evaluated]
    dsimp only
    rw [if_pos allowed]
    unfold Tables.gated
    cases decision.pinDid with
    | some did => rfl
    | none => rfl
  next => cases passed

theorem gateWrite_refused (on : settings.gate = true) (stopped : tables.admission env agentId body now = none) :
    ∃ refusal, gateWrite env settings agentId body now ⟨tables,tables⟩ = .error refusal ⟨tables,tables⟩ := by
  rw [gateWrite,if_pos on,Effect.bind_apply,Effect.get_apply]
  dsimp only
  unfold Tables.admission at stopped
  split at stopped
  next decision evaluated =>
    have refused : ¬ decision.allowed = true := by
      intro allowed
      rw [if_pos allowed] at stopped
      cases stopped
    rw [evaluated]
    dsimp only
    rw [if_neg refused]
    exact ⟨_,rfl⟩
  next evaluated =>
    rw [evaluated]
    exact ⟨_,rfl⟩

def Settled (tables : Tables) (result : EStateM.Result Refusal Conn Unit) : Prop :=
  result = .ok () ⟨tables,tables⟩

def Stopped (tables : Tables) (result : EStateM.Result Refusal Conn Unit) : Prop :=
  ∃ refusal, result = .error refusal ⟨tables,tables⟩

theorem withDb_settled {block : Effect Refusal Conn Unit} (settled : Settled tables (block ⟨s.tables,s.tables⟩)) :
    withDb block s = .ok () { s with tables := tables } := by
  unfold withDb
  rw [settled]

theorem withDb_stopped {block : Effect Refusal Conn Unit} (stopped : Stopped tables (block ⟨s.tables,s.tables⟩)) :
    ∃ refusal, withDb block s = .error refusal { s with tables := tables } := by
  obtain ⟨refusal,same⟩ := stopped
  refine ⟨refusal,?_⟩
  unfold withDb
  rw [same]

theorem registerRecord_refused (on : settings.gate = true) (stopped : tables.admission env agentId body now = none) :
    Stopped tables (registerRecord env settings agentId body now ⟨tables,tables⟩) := by
  obtain ⟨refusal,same⟩ := gateWrite_refused on stopped
  exact ⟨refusal,by rw [registerRecord,Effect.bind_apply,same]⟩

theorem updateRecord_refused (on : settings.gate = true) (stopped : tables.admission env agentId body now = none) :
    Stopped tables (updateRecord env settings agentId body now ⟨tables,tables⟩) := by
  obtain ⟨refusal,same⟩ := gateWrite_refused on stopped
  exact ⟨refusal,by rw [updateRecord,Effect.bind_apply,same]⟩

theorem registerRecord_blocked (on : settings.gate = true)
    (passed : tables.admission env agentId body now = some decision)
    (blocked : ((tables.agents.lookup agentId).isSome || tables.count ≥ settings.maxRecords) = true) :
    Stopped (tables.gated agentId now decision) (registerRecord env settings agentId body now ⟨tables,tables⟩) := by
  rw [registerRecord,Effect.bind_apply,gateWrite_admitted on passed]
  dsimp only
  rw [Effect.bind_apply,Effect.get_apply]
  dsimp only
  rw [gated_agents,gated_count]
  split
  next => exact ⟨_,rfl⟩
  next absent =>
    have full : tables.count ≥ settings.maxRecords := by simpa [absent] using blocked
    rw [if_pos full]
    exact ⟨_,rfl⟩

theorem registerRecord_stored (on : settings.gate = true)
    (passed : tables.admission env agentId body now = some decision)
    (free : ((tables.agents.lookup agentId).isSome || tables.count ≥ settings.maxRecords) = false) :
    Settled ((tables.gated agentId now decision).store agentId body now)
      (registerRecord env settings agentId body now ⟨tables,tables⟩) := by
  obtain ⟨absent,room⟩ := Bool.or_eq_false_iff.mp free
  rw [registerRecord,Effect.bind_apply,gateWrite_admitted on passed]
  dsimp only
  rw [Effect.bind_apply,Effect.get_apply]
  dsimp only
  rw [gated_agents,gated_count,if_neg (by rw [absent]; decide),if_neg (of_decide_eq_false room)]
  rfl

theorem updateRecord_blocked (on : settings.gate = true)
    (passed : tables.admission env agentId body now = some decision)
    (blocked : (((tables.agents.lookup agentId).map Row.doc).isNone && tables.count ≥ settings.maxRecords) = true) :
    Stopped (tables.gated agentId now decision) (updateRecord env settings agentId body now ⟨tables,tables⟩) := by
  rw [updateRecord,Effect.bind_apply,gateWrite_admitted on passed]
  dsimp only
  rw [Effect.bind_apply,Effect.get_apply]
  dsimp only
  rw [gated_agents,gated_count,if_pos (by simpa using blocked)]
  exact ⟨_,rfl⟩

theorem updateRecord_stored (on : settings.gate = true) (passed : tables.admission env agentId body now = some decision)
    (free : (((tables.agents.lookup agentId).map Row.doc).isNone && tables.count ≥ settings.maxRecords) = false) :
    Settled ((tables.gated agentId now decision).store agentId
        (mergedDoc agentId ((tables.agents.lookup agentId).map Row.doc) body) now)
      (updateRecord env settings agentId body now ⟨tables,tables⟩) := by
  rw [updateRecord,Effect.bind_apply,gateWrite_admitted on passed]
  dsimp only
  rw [Effect.bind_apply,Effect.get_apply]
  dsimp only
  rw [gated_agents,gated_count,if_neg (by simpa using free)]
  rfl

theorem checkCaller_tables (request : Request) (s : Service) :
    (Effect.final (checkCaller settings request s)).tables = s.tables := by
  unfold checkCaller
  split
  next => rfl
  next =>
    dsimp only
    split
    next => rfl
    next => rfl

theorem receive_tables (request : Request) (s : Service) :
    (Effect.final (receive env settings request s)).tables = s.tables := by
  have first : (Effect.final (checkCaller settings request s)).tables = s.tables := checkCaller_tables request s
  rw [receive,Effect.bind_apply]
  cases called : checkCaller settings request s with
  | error refusal s' =>
    rw [called] at first
    exact first
  | ok u s' =>
    rw [called] at first
    dsimp only
    unfold readBody
    split
    next => exact first
    next => exact first

theorem arriving_some {request : Request} {value : Json} (arrived : arriving env settings s request = some value) :
    ∃ s', receive env settings request s = .ok value s' ∧ s'.tables = s.tables := by
  have kept : (Effect.final (receive env settings request s)).tables = s.tables := receive_tables request s
  unfold arriving at arrived
  split at arrived
  next s' received =>
    cases arrived
    rw [received] at kept
    exact ⟨s',received,kept⟩
  next => cases arrived

theorem arriving_none {request : Request} (stopped : arriving env settings s request = none) :
    ∃ refusal s', receive env settings request s = .error refusal s' ∧ s'.tables = s.tables := by
  have kept : (Effect.final (receive env settings request s)).tables = s.tables := receive_tables request s
  unfold arriving at stopped
  split at stopped
  next => cases stopped
  next refusal s' received =>
    rw [received] at kept
    exact ⟨refusal,s',received,kept⟩

theorem withDb_ends {s' : Service} (same : s'.tables = s.tables) {block : Effect Refusal Conn Unit} (answer : String) :
    (Settled tables (block ⟨s.tables,s.tables⟩) → ∃ t : Service,
      (withDb block >>= fun _ => pure answer) s' = .ok answer t ∧ t.tables = tables) ∧
    (Stopped tables (block ⟨s.tables,s.tables⟩) → ∃ (refusal : Refusal) (t : Service),
      (withDb block >>= fun _ => pure answer) s' = .error refusal t ∧ t.tables = tables) := by
  rw [← same]
  constructor
  · intro settled
    refine ⟨{ s' with tables := tables },?_,rfl⟩
    rw [Effect.bind_apply,withDb_settled settled]
    rfl
  · intro stopped
    obtain ⟨refusal,ended⟩ := withDb_stopped stopped
    refine ⟨refusal,{ s' with tables := tables },?_,rfl⟩
    rw [Effect.bind_apply,ended]

def Entry.block (env : IndexEnv) (settings : Settings) (e : Entry) : Write → Effect Refusal Conn Unit
  | .post _ => registerRecord env settings e.agentId e.body e.now
  | _ => updateRecord env settings e.agentId e.body e.now

theorem handle_entry (entered : entry env settings s write = some e) : ∃ s' : Service, s'.tables = s.tables ∧
    handle env settings write s = (withDb (e.block env settings write) >>= fun _ => pure e.agentId) s' := by
  unfold entry at entered
  split at entered
  next request =>
    split at entered
    next body arrived =>
      obtain ⟨s',received,same⟩ := arriving_some arrived
      refine ⟨s',same,?_⟩
      dsimp only at entered
      split at entered
      next => cases entered
      next named =>
        cases entered
        rw [handle,registerAgent,Effect.bind_apply,received]
        dsimp only
        rw [if_neg named]
        rfl
    next => cases entered
  next agentId request =>
    split at entered
    next body arrived =>
      obtain ⟨s',received,same⟩ := arriving_some arrived
      cases entered
      refine ⟨s',same,?_⟩
      rw [handle,updateAgent,Effect.bind_apply,received]
      rfl
    next => cases entered
  next => cases entered

theorem handle_refused (on : settings.gate = true) (entered : entry env settings s write = some e)
    (stopped : s.tables.admission env e.agentId e.body e.now = none) : Refused env settings s write s.tables := by
  obtain ⟨s',same,run⟩ := handle_entry entered
  rw [Refused,run]
  apply (withDb_ends same e.agentId).2
  unfold Entry.block
  split
  next => exact registerRecord_refused on stopped
  next => exact updateRecord_refused on stopped

theorem entry_post {request : Request} : entry env settings s (.post request) = some e ↔
    ∃ body, arriving env settings s request = some (.obj body) ∧ bodyAgentId env body ≠ "" ∧
      e = ⟨bodyAgentId env body,body,request.now,
        (s.tables.agents.lookup (bodyAgentId env body)).isSome || s.tables.count ≥ settings.maxRecords,body⟩ := by
  constructor
  · intro entered
    unfold entry at entered
    dsimp only at entered
    split at entered
    next body arrived =>
      split at entered
      next => cases entered
      next named =>
        cases entered
        exact ⟨body,arrived,named,rfl⟩
    next => cases entered
  · intro premise
    obtain ⟨body,arrived,named,rfl⟩ := premise
    unfold entry
    dsimp only
    rw [arrived]
    dsimp only
    rw [if_neg named]

theorem entry_put {request : Request} : entry env settings s (.put agentId request) = some e ↔
    ∃ body, arriving env settings s request = some (.obj body) ∧
      e = ⟨agentId,body,request.now,
        ((s.tables.agents.lookup agentId).map Row.doc).isNone && s.tables.count ≥ settings.maxRecords,
        mergedDoc agentId ((s.tables.agents.lookup agentId).map Row.doc) body⟩ := by
  constructor
  · intro entered
    unfold entry at entered
    dsimp only at entered
    split at entered
    next body arrived =>
      cases entered
      exact ⟨body,arrived,rfl⟩
    next => cases entered
  · intro premise
    obtain ⟨body,arrived,rfl⟩ := premise
    unfold entry
    dsimp only
    rw [arrived]

theorem handle_blocked (on : settings.gate = true) (entered : entry env settings s write = some e)
    (passed : s.tables.admission env e.agentId e.body e.now = some decision) (blocked : e.blocked = true) :
    Refused env settings s write (s.tables.gated e.agentId e.now decision) := by
  obtain ⟨s',same,run⟩ := handle_entry entered
  rw [Refused,run]
  apply (withDb_ends same e.agentId).2
  cases write with
  | post request =>
    obtain ⟨body,_,_,rfl⟩ := entry_post.mp entered
    exact registerRecord_blocked on passed blocked
  | put agentId request =>
    obtain ⟨body,_,rfl⟩ := entry_put.mp entered
    exact updateRecord_blocked on passed blocked
  | delete agentId request => cases entered

theorem handle_stored (on : settings.gate = true) (entered : entry env settings s write = some e)
    (passed : s.tables.admission env e.agentId e.body e.now = some decision) (free : e.blocked = false) :
    Accepted env settings s write ((s.tables.gated e.agentId e.now decision).store e.agentId e.doc e.now) := by
  obtain ⟨s',same,run⟩ := handle_entry entered
  rw [Accepted]
  refine ⟨e.agentId,?_⟩
  rw [run]
  apply (withDb_ends same e.agentId).1
  cases write with
  | post request =>
    obtain ⟨body,_,_,rfl⟩ := entry_post.mp entered
    exact registerRecord_stored on passed free
  | put agentId request =>
    obtain ⟨body,_,rfl⟩ := entry_put.mp entered
    exact updateRecord_stored on passed free
  | delete agentId request => cases entered

theorem refused_body {request : Request} {next : Json → Effect Refusal Service String}
    (run : handle env settings write = receive env settings request >>= next)
    (declines : ∀ value, arriving env settings s request = some value → ∃ refusal, ∀ s', next value s' =
      .error refusal s') :
    Refused env settings s write s.tables := by
  rw [Refused,run,Effect.bind_apply]
  cases arrived : arriving env settings s request with
  | none =>
    obtain ⟨refusal,s',received,same⟩ := arriving_none arrived
    exact ⟨refusal,s',by rw [received],same⟩
  | some value =>
    obtain ⟨s',received,same⟩ := arriving_some arrived
    obtain ⟨refusal,declined⟩ := declines value arrived
    exact ⟨refusal,s',by rw [received]; exact declined s',same⟩

theorem handle_unentered (stays : ∀ agentId request, write ≠ .delete agentId request)
    (missing : entry env settings s write = none) : Refused env settings s write s.tables := by
  cases write with
  | post request =>
    refine @refused_body _ _ _ _ request _ rfl fun value arrived => ⟨⟨400,"agent_id required"⟩,fun s' => ?_⟩
    unfold entry at missing
    simp only [arrived] at missing
    cases value with
    | obj body =>
      dsimp only at missing ⊢
      split
      next => rfl
      next named =>
        rw [if_neg named] at missing
        cases missing
    | _ => rfl
  | put agentId request =>
    refine @refused_body _ _ _ _ request _ rfl fun value arrived => ⟨⟨400,"object body required"⟩,fun s' => ?_⟩
    unfold entry at missing
    simp only [arrived] at missing
    cases value with
    | obj body => cases missing
    | _ => rfl
  | delete agentId request => exact absurd rfl (stays agentId request)

theorem handle_delete (s : Service) (agentId : String) (request : Request) :
    Refused env settings s (.delete agentId request) s.tables ∨
      Accepted env settings s (.delete agentId request) (s.tables.delete agentId) := by
  have kept : (Effect.final (checkCaller settings request s)).tables = s.tables := checkCaller_tables request s
  cases called : checkCaller settings request s with
  | error refusal s' =>
    rw [called] at kept
    exact Or.inl ⟨refusal,s',by rw [handle,deleteAgent,Effect.bind_apply,called],kept⟩
  | ok u s' =>
    rw [called] at kept
    have run : handle env settings (.delete agentId request) s =
        (withDb (deleteRecord agentId) >>= fun _ => pure agentId) s' := by
      rw [handle,deleteAgent,Effect.bind_apply,called]
    by_cases absent : (s.tables.agents.lookup agentId).isNone = true
    · left
      rw [Refused,run]
      apply (withDb_ends kept agentId).2
      refine ⟨⟨404,"Agent not found"⟩,?_⟩
      rw [deleteRecord,Effect.bind_apply,Effect.get_apply]
      dsimp only
      rw [if_pos absent]
      rfl
    · right
      refine ⟨agentId,?_⟩
      rw [run]
      apply (withDb_ends kept agentId).1
      rw [deleteRecord,Settled,Effect.bind_apply,Effect.get_apply]
      dsimp only
      rw [if_neg absent]
      rfl

end Outcomes

def asciiLoads (raw : Bytes) : Except Exc Json :=
  match Json.loads (fun _ => 0) (raw.map fun b => Char.ofNat b.toNat) with
  | some value => .ok value
  | none => .error (.valueError "Expecting value")

def plainEnv : IndexEnv where
  toCodec := plainCodec
  canonicalize record := .ok (String.ofList (dumps (fun _ => []) Layout.canonical (.obj record)))
  loads := asciiLoads
  loads_distinct raw fields loaded := by
    have floats : ReadsBack (fun _ => 0) (fun _ => ['0','.','0']) := fun _ => rfl
    unfold asciiLoads at loaded
    split at loaded
    next value read =>
      cases loaded
      exact (loads_proper floats read).1
    next => cases loaded

def openSettings : Settings := ⟨"",true,true,65536,100000,60,60,10000⟩

def bodyText (body : Dict) : List Char := dumps (fun _ => ['0','.','0']) Layout.plain (.obj body)

def bodyRequest (body : Dict) : Request where
  headers _ := none
  client := none
  chunks := [(bodyText body).map fun c => UInt8.ofNat c.toNat]
  now := 0

theorem ascii_decoded {text : List Char} (plain : JsonLines.Plain text) :
    (text.map fun c => UInt8.ofNat c.toNat).map (fun b => Char.ofNat b.toNat) = text := by
  have same : ∀ c ∈ text, ((fun b : UInt8 => Char.ofNat b.toNat) ∘ fun c : Char => UInt8.ofNat c.toNat) c = id c := by
    intro c inside
    have small := (plain c inside).2
    have byte : (UInt8.ofNat c.toNat).toNat = c.toNat := by
      rw [UInt8.toNat_ofNat']
      exact Nat.mod_eq_of_lt (by omega)
    rw [Function.comp_apply,byte,Char.ofNat_toNat]
    rfl
  rw [List.map_map,List.map_congr_left same,List.map_id]

theorem arriving_bodyRequest (tables : Tables) {body : Dict}
    (proper : Proper (fun _ => 0) (fun _ => ['0','.','0']) (.obj body)) (small : (bodyText body).length ≤ 65536) :
    arriving plainEnv openSettings ⟨tables,[]⟩ (bodyRequest body) = some (.obj body) := by
  have plain : JsonLines.Plain (bodyText body) := by
    apply JsonLines.plain_dumps
    · exact fun _ => JsonLines.plain_of rfl
    · exact JsonLines.plain_of rfl
    · exact JsonLines.plain_of rfl
  have read : Json.loads (fun _ => 0) (bodyText body) = some (.obj body) :=
    loads_dumps_unsorted Layout.plain_readable rfl (.obj body) proper
  have loaded : plainEnv.loads ((bodyText body).map fun c => UInt8.ofNat c.toNat) = .ok (.obj body) := by
    change asciiLoads _ = _
    rw [asciiLoads,ascii_decoded plain,read]
  have called : checkCaller openSettings (bodyRequest body) ⟨tables,[]⟩ = .ok () ⟨tables,[("unknown",[0])]⟩ := rfl
  have chunks : readChunks openSettings.maxBodyBytes 0 (bodyRequest body).chunks =
      .ok ((bodyText body).map fun c => UInt8.ofNat c.toNat) := by
    have fits : ¬ ((0 : Nat)+((bodyText body).map fun c => UInt8.ofNat c.toNat).length :
        Int) > openSettings.maxBodyBytes := by
      rw [List.length_map]
      exact not_lt.mpr (by simpa [openSettings] using small)
    rw [bodyRequest,readChunks,if_neg fits,readChunks]
    simp [Except.map]
  have declared : contentLengthAllowed openSettings (bodyRequest body) = .ok () := rfl
  have filled : ((bodyText body).map fun c => UInt8.ofNat c.toNat).isEmpty ≠ true := by simp [bodyText,dumps]
  have capped : readCappedJson plainEnv openSettings (bodyRequest body) = .ok (.obj body) := by
    rw [readCappedJson,declared,ok_bind,chunks,ok_bind,if_neg filled,loaded]
    rfl
  rw [arriving,receive,Effect.bind_apply,called]
  dsimp only
  rw [readBody,capped]

end Orrery.Index
