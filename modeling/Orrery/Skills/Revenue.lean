import Orrery.Foundation.Procs
import Orrery.Foundation.Surrogates
import Orrery.Skills.Split

/-! `record_skill_use` of server/skill_revenue.py over the tables of uses and of payments. -/
namespace Orrery.Skills
open Foundation

structure UseEvent where
  id : ℕ
  chapterId : String
  skillId : String
  skillVersion : String
  usedByAgentId : String
  usedByDid : Option String
  toolName : String
  grossCents : Int
  attestorCount : ℕ
  success : Bool
  durationMs : Option Int
  idempotencyKey : String

structure Payment where
  useEventId : ℕ
  beneficiary : Beneficiary
  currency : String
deriving DecidableEq

abbrev UseEvents := NumberedTable UseEvent ℕ String UseEvent.id UseEvent.idempotencyKey

structure Db where
  events : UseEvents
  ledger : List Payment
  referenced : ∀ payment ∈ ledger, payment.useEventId ∈ events.rows.map UseEvent.id

structure UseCall where
  skillId : String
  skillVersion : String
  usedByAgentId : String
  toolName : String
  idempotencyKey : String
  usedByDid : String
  grossCents : Int
  success : Bool
  durationMs : Option Int

inductive Act
  | listLive (skillId skillVersion : String)
  | getAuthor (skillId : String)
  | postEvent (event : ℕ → UseEvent)
  | postPayment (payment : Payment)

@[reducible] def Act.Answer : Act → Type
  | .listLive .. | .getAuthor _ => Option (List (Option String))
  | .postEvent _ => Option (List UseEvent)
  | .postPayment _ => Option (List Payment)

/-- What the outside decides of a call: whether its statement is carried out and answered,
the number of a new row, and what the tables of attestations and skills hold. -/
structure Landing where
  lands : Bool
  answers : Bool
  newId : ℕ
  attestors : List (Option String)
  authors : List (Option String)

section Effects
variable (db : Db) (landing : Landing)

def Landing.answered {α : Type} (rows : List α) : Option (List α) :=
  if landing.lands && landing.answers then some rows else none

def Db.refusesEvent (event : UseEvent) : Bool :=
  (db.events.rows.any fun other => other.id = event.id || other.idempotencyKey = event.idempotencyKey) ||
    event.grossCents ≤ 0 || event.attestorCount < 1

def Db.refusesPayment (payment : Payment) : Bool :=
  payment.useEventId ∉ db.events.rows.map UseEvent.id || payment.beneficiary.amountCents < 0

def Db.answer : (act : Act) → act.Answer
  | .listLive .. => landing.answered landing.attestors
  | .getAuthor _ => landing.answered landing.authors
  | .postEvent event => if db.refusesEvent (event landing.newId) then none else landing.answered [event landing.newId]
  | .postPayment payment => if db.refusesPayment payment then none else landing.answered [payment]

def Db.insertEvent (event : UseEvent) : Db where
  events := db.events.insert event
  ledger := db.ledger
  referenced payment inside := by
    have there := db.referenced payment inside
    obtain same | added := db.events.rows_insert event
    · rw [same]
      exact there
    · rw [added,List.map_append]
      exact List.mem_append_left _ there

def Db.insertPayment (payment : Payment) (accepted : db.refusesPayment payment = false) : Db where
  events := db.events
  ledger := db.ledger ++ [payment]
  referenced other inside := by
    obtain old | new := List.mem_append.mp inside
    · exact db.referenced other old
    · obtain rfl := List.mem_singleton.mp new
      simp only [Db.refusesPayment,Bool.or_eq_false_iff,decide_eq_false_iff_not,not_not] at accepted
      exact accepted.1

def Db.after : Act → Db
  | .postEvent event => if db.refusesEvent (event landing.newId) then db else db.insertEvent (event landing.newId)
  | .postPayment payment => if accepted : db.refusesPayment payment =
      false then db.insertPayment payment accepted else db
  | _ => db

end Effects

def exec (landing : Landing) (act : Act) (db : Db) : act.Answer × Db :=
  (db.answer landing act,if landing.lands then db.after landing act else db)

abbrev Program (β : Type) := Proc Act Act.Answer β

inductive UseResult
  | error (reason : String)
  | unbilled (reason : String)
  | billed (useEventId : ℕ) (rows : List Beneficiary)
  | raised (error : SplitError)
deriving DecidableEq

section Programs
variable (chapterId : String)

def listLive (skillId skillVersion : String) : Program (Option (List (Option String))) :=
  .call (.listLive skillId skillVersion) .done
def getAuthor (skillId : String) : Program (Option (List (Option String))) := .call (.getAuthor skillId) .done
def postEvent (event : ℕ → UseEvent) : Program (Option (List UseEvent)) := .call (.postEvent event) .done
def postPayment (payment : Payment) : Program (Option (List Payment)) := .call (.postPayment payment) .done

def authorDid (rows : Option (List (Option String))) : String := ((rows.getD []).head?.join).getD ""

def attestorDids (rows : List (Option String)) : List String := rows.filterMap fun did => did.filter (· ≠ "")

def UseCall.event (call : UseCall) (attestorCount id : ℕ) : UseEvent where
  id := id
  chapterId := chapterId
  skillId := call.skillId
  skillVersion := call.skillVersion
  usedByAgentId := call.usedByAgentId
  usedByDid := if call.usedByDid = "" then none else some call.usedByDid
  toolName := call.toolName
  grossCents := call.grossCents
  attestorCount := attestorCount
  success := call.success
  durationMs := call.durationMs
  idempotencyKey := call.idempotencyKey

def payOut (useEventId : ℕ) : List Beneficiary → Program Unit
  | [] => return ()
  | row :: rows => do
    let _ ← postPayment ⟨useEventId,row,"TEST_USD"⟩
    payOut useEventId rows

def afterEvent (rows : List Beneficiary) (inserted : Option (List UseEvent)) : Program UseResult :=
  match (inserted.getD []).head? with
  | none => return .error "use_event id missing from insert response"
  | some event => do
    payOut event.id rows
    return .billed event.id rows

def splitFor (call : UseCall) (author : String) (dids : List String) : Except SplitError (List Beneficiary) :=
  computeSplit call.grossCents author dids s!"chapter:{chapterId}" authorShare advisorShare chapterShare

def afterAuthor (call : UseCall) (dids : List String) (author : String) : Program UseResult :=
  if author = "" then return .unbilled "author_unknown"
  else if dids = [] then return .unbilled "no_attestor_dids"
  else match splitFor chapterId call author dids with
  | .error (.value text) => return .error s!"split error: {text}"
  | .error error => return .raised error
  | .ok rows => do
    let inserted ← postEvent (call.event chapterId dids.length)
    afterEvent rows inserted

def afterLive (call : UseCall) (live : List (Option String)) : Program UseResult :=
  if live = [] then return .unbilled "no_attestations"
  else do
    let rows ← getAuthor call.skillId
    afterAuthor chapterId call (attestorDids live) (authorDid rows)

def recordSkillUse (call : UseCall) : Program UseResult :=
  if call.skillId = "" ∨ call.skillVersion = "" ∨ call.toolName = "" ∨ call.idempotencyKey = "" then
    return .error "missing required fields"
  else if call.grossCents ≤ 0 then return .error "gross_cents must be positive"
  else do
    let live ← listLive call.skillId call.skillVersion
    afterLive chapterId call (live.getD [])

end Programs

end Orrery.Skills
