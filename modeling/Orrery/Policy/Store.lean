import Orrery.Foundation.Json
import Orrery.Foundation.Procs
import Orrery.Foundation.Tables

/-! The policy of a chapter (server/policy.py, infra/init.sql): the rows of its keys, the
cache of a process, and the calls that are made on them. What the tuners read of the other
tables and of the peers is whatever they happen to hold. Moments are counted in microseconds. -/
namespace Orrery.Policy
open Foundation

inductive Value
  | null
  | bool (b : Bool)
  | int (i : Int)
  | float (x : Float)
  | str (s : String)
  | arr (items : List Value)
  | obj (fields : List (String × Value))

/-- How Python reads numbers and moments from texts, and writes them. A moment comes with
whether its text had an offset, and counts as UTC where it had none. -/
structure PolicyEnv where
  agentId : String
  parseFloat : String → Option Float
  parseInt : String → Option Int
  str : Value → String
  fixed2 : Float → String
  rounded3 : Float → Float
  repr : Float → String
  fromIsoformat : String → Option (Int × Bool)
  isoformat : Int → String

namespace Value

def typeName : Value → String
  | .null => "NoneType"
  | .bool _ => "bool"
  | .int _ => "int"
  | .float _ => "float"
  | .str _ => "str"
  | .arr _ => "list"
  | .obj _ => "dict"

def truthy : Value → Bool
  | .null => false
  | .bool b => b
  | .int i => i != 0
  | .float x => !(x == 0.0)
  | .str s => s != ""
  | .arr items => !items.isEmpty
  | .obj fields => !fields.isEmpty

def ofInt (i : Int) : Except Exc Float :=
  if (Float.ofInt i).isInf then .error (.other "OverflowError" "int too large to convert to float")
  else .ok (Float.ofInt i)

def truncated (x : Float) : Int := x.toModel.unpack.toInt 0 0

def intOf (x : Float) : Except Exc Int :=
  if x.isNaN then .error (.valueError "cannot convert float NaN to integer")
  else if x.isInf then .error (.other "OverflowError" "cannot convert float infinity to integer")
  else .ok (truncated x)

def rounded (x : Float) : Except Exc Int := do
  let near ← intOf x
  let rest := x-Float.ofInt near
  if rest > 0.5 || (rest == 0.5 && near % 2 != 0) then return near+1
  else if rest < -0.5 || (rest == -0.5 && near % 2 != 0) then return near-1
  else return near

def toFloat (env : PolicyEnv) : Value → Except Exc Float
  | .bool b => .ok (if b then 1.0 else 0.0)
  | .int i => ofInt i
  | .float x => .ok x
  | .str s =>
    match env.parseFloat s with
    | some x => .ok x
    | none => .error (.valueError s!"could not convert string to float: '{s}'")
  | value => .error (.typeError s!"float() argument must be a string or a real number, not '{value.typeName}'")

def toInt (env : PolicyEnv) : Value → Except Exc Int
  | .bool b => .ok (if b then 1 else 0)
  | .int i => .ok i
  | .float x => intOf x
  | .str s =>
    match env.parseInt s with
    | some i => .ok i
    | none => .error (.valueError s!"invalid literal for int() with base 10: '{s}'")
  | value => .error
      (.typeError s!"int() argument must be a string, a bytes-like object or a real number, not '{value.typeName}'")

def sameNumber (x : Float) (i : Int) : Bool := x.isFinite && Float.ofInt (truncated x) == x && truncated x == i

def same : Value → Value → Bool
  | .int i, .int j => i == j
  | .int i, .bool b => i == if b then 1 else 0
  | .int i, .float y => sameNumber y i
  | .float x, .float y => x == y
  | .float x, .int j => sameNumber x j
  | .float x, .bool b => sameNumber x (if b then 1 else 0)
  | _, _ => false

def get (d : List (String × Value)) (key : String) : Option Value := (d.find? fun field => field.1 == key).map (·.2)

end Value

def caught : Exc → Bool
  | .typeError _ | .valueError _ => true
  | _ => false

structure PolicyRow where
  key : String
  value : Value
  baseline : Value
  valueType : String
  autoTuned : Bool
  pinnedBy : Option String
  pinnedReason : Option String
  pinnedAt : Option String
  lastUpdated : String
  lastTuneReason : Option String
  lastTuneOutcomeWindowDays : Option Int
  lastTuneSampleSize : Option Int

def pins (pinnedBy : Option String) : Bool := pinnedBy.getD "" != ""

def PolicyRow.pinned (row : PolicyRow) : Bool := pins row.pinnedBy

inductive Patch
  | pin (actor reason pinnedAt : String)
  | unpin
  | override (value : Value) (lastUpdated reason : String)
  | tuned (value : Value) (lastUpdated reason : String) (windowDays sampleSize : Int)
  | merged (value : Value) (lastUpdated reason : String)

def Patch.apply : Patch → PolicyRow → PolicyRow
  | .pin actor reason pinnedAt, row =>
    { row with pinnedBy := some actor, pinnedReason := some reason, pinnedAt := some pinnedAt }
  | .unpin, row => { row with pinnedBy := none, pinnedReason := none, pinnedAt := none }
  | .override value lastUpdated reason, row | .merged value lastUpdated reason, row =>
    { row with value := value, lastUpdated := lastUpdated, lastTuneReason := some reason }
  | .tuned value lastUpdated reason windowDays sampleSize, row =>
    { row with
      value := value, lastUpdated := lastUpdated, lastTuneReason := some reason,
      lastTuneOutcomeWindowDays := some windowDays, lastTuneSampleSize := some sampleSize }

theorem Patch.apply_key (patch : Patch) (row : PolicyRow) : (patch.apply row).key = row.key := by cases patch <;> rfl

structure HistoryEntry where
  key : String
  oldValue : Value
  newValue : Value
  reason : String
  actor : String
  window : Option Int
  sample : Option Int

structure CacheEntry where
  key : String
  value : Value
  valueType : String
  pinned : Bool

def PolicyRow.cached (row : PolicyRow) : CacheEntry := ⟨row.key,row.value,row.valueType,row.pinned⟩

structure Db where
  policies : Table PolicyRow String PolicyRow.key
  history : List HistoryEntry
  cache : List CacheEntry
  cacheTs : Option Int

def cacheTtl : Int := 300000000

structure ActionOutcome where
  actionType : String
  signal : String

structure Approval where
  status : String
  pair : List String

structure Agent where
  trustScore : Value
  createdAt : String

inductive Act
  | utcNow
  | selectAll
  | selectTunable
  | selectKey (key : String)
  | selectOutcomes
  | selectApprovals
  | selectUnreached
  | selectAgents
  | peerKnowledge
  | patch (key : String) (patch : Patch)
  | postHistory (entry : HistoryEntry)
  | cacheExpired
  | readCache (key : String)
  | storeCache (entries : List CacheEntry)
  | invalidateCache

inductive Reply (α : Type)
  | raised (e : Exc)
  | missing
  | rows (rows : List α)

def Reply.orEmpty {α : Type} : Reply α → List α
  | .rows found => found
  | _ => []

@[reducible] def Act.Answer : Act → Type
  | .utcNow => Int
  | .selectAll | .selectTunable | .selectKey _ | .patch .. => Reply PolicyRow
  | .selectOutcomes => Reply ActionOutcome
  | .selectApprovals => Reply Approval
  | .selectUnreached => Reply Unit
  | .selectAgents => Reply Agent
  | .peerKnowledge => List (String × Value)
  | .cacheExpired => Bool
  | .readCache _ => Option CacheEntry
  | .postHistory _ | .storeCache _ | .invalidateCache => Unit

/-- What the outside decides of a call: whether its statement is carried out, whether the
answer comes back, or what is raised instead, the time, and what is found elsewhere. -/
structure Landing where
  lands : Bool
  answers : Bool
  raises : Option Exc
  now : Int
  outcomes : List ActionOutcome
  approvals : List Approval
  unreached : ℕ
  agents : List Agent
  peers : List (String × Value)

section Effects
variable (landing : Landing) (db : Db)

def Landing.reply {α : Type} (rows : List α) : Reply α :=
  if landing.lands && landing.answers then .rows rows
  else
    match landing.raises with
    | some e => .raised e
    | none => .missing

def Db.patched (key : String) (patch : Patch) : Table PolicyRow String PolicyRow.key :=
  db.policies.update (fun row => row.key = key) patch.apply patch.apply_key

def answer : (act : Act) → act.Answer
  | .utcNow => landing.now
  | .selectAll => landing.reply db.policies.rows
  | .selectTunable => landing.reply (db.policies.select PolicyRow.autoTuned)
  | .selectKey key => landing.reply (db.policies.row key).toList
  | .selectOutcomes => landing.reply landing.outcomes
  | .selectApprovals => landing.reply landing.approvals
  | .selectUnreached => landing.reply (List.replicate landing.unreached ())
  | .selectAgents => landing.reply landing.agents
  | .peerKnowledge => landing.peers
  | .patch key patch => landing.reply ((db.patched key patch).row key).toList
  | .cacheExpired => db.cacheTs.all fun ts => decide (cacheTtl < landing.now-ts)
  | .readCache key => db.cache.find? fun entry => entry.key = key
  | .postHistory _ | .storeCache _ | .invalidateCache => ()

def carriedOut : Act → Db
  | .patch key patch => if landing.lands then { db with policies := db.patched key patch } else db
  | .postHistory entry => if landing.lands then { db with history := db.history ++ [entry] } else db
  | .storeCache entries => { db with cache := entries, cacheTs := some landing.now }
  | .invalidateCache => { db with cacheTs := none }
  | _ => db

def exec (landing : Landing) (act : Act) (db : Db) : act.Answer × Db := (answer landing db act,carriedOut landing db act)

end Effects

abbrev Program (β : Type) := Proc Act Act.Answer β

section Calls

def utcNow : Program Int := .call .utcNow .done
def selectAll : Program (Reply PolicyRow) := .call .selectAll .done
def selectTunable : Program (Reply PolicyRow) := .call .selectTunable .done
def selectKey (key : String) : Program (Reply PolicyRow) := .call (.selectKey key) .done
def selectOutcomes : Program (Reply ActionOutcome) := .call .selectOutcomes .done
def selectApprovals : Program (Reply Approval) := .call .selectApprovals .done
def selectUnreached : Program (Reply Unit) := .call .selectUnreached .done
def selectAgents : Program (Reply Agent) := .call .selectAgents .done
def peerKnowledge : Program (List (String × Value)) := .call .peerKnowledge .done
def patchPolicy (key : String) (patch : Patch) : Program (Reply PolicyRow) := .call (.patch key patch) .done
def cacheExpired : Program Bool := .call .cacheExpired .done
def readCache (key : String) : Program (Option CacheEntry) := .call (.readCache key) .done
def storeCache (entries : List CacheEntry) : Program Unit := .call (.storeCache entries) .done
def invalidateCache : Program Unit := .call .invalidateCache .done

def cut (n : ℕ) (s : String) : String := String.ofList (s.toList.take n)

def logHistory (key : String) (oldValue newValue : Value) (reason actor : String) (window sample : Option Int) :
    Program Unit := .call (.postHistory ⟨key,oldValue,newValue,cut 500 reason,actor,window,sample⟩) .done

end Calls

end Orrery.Policy
