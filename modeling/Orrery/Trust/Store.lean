import Mathlib.Algebra.Order.Floor.Ring
import Mathlib.Data.Rat.Floor
import Orrery.Foundation.Procs
import Orrery.Foundation.Surrogates

/-! The ledger of trust events and the endorsements of a chapter (server/trust_events.py,
server/endorsements.py, infra/init.sql), and the calls that are made on them. Moments are
counted in microseconds. -/
namespace Orrery.Trust
open Foundation

inductive PyFloat
  | finite (q : ℚ)
  | infinite (negative : Bool)
  | nan

structure TrustEvent where
  agentId : String
  eventType : String
  sourceAgentId : Option String
  sourceEventId : Option String
  delta : ℚ
  reason : Option String
  occurredAt : Int
deriving DecidableEq

structure NewEvent where
  agentId : String
  eventType : String
  sourceAgentId : Option String
  sourceEventId : Option String
  delta : ℚ
  reason : Option String

def numeric63 (q : ℚ) : ℚ := if 0 ≤ q then ⌊q*1000+1/2⌋/1000 else -(⌊-q*1000+1/2⌋/1000)

def NewEvent.row (new : NewEvent) (occurredAt : Int) : TrustEvent :=
  ⟨new.agentId,new.eventType,new.sourceAgentId,new.sourceEventId,numeric63 new.delta,new.reason,occurredAt⟩

def TrustEvent.clashes (a b : TrustEvent) : Bool :=
  a.agentId = b.agentId && a.eventType = b.eventType && a.sourceEventId = b.sourceEventId && a.sourceEventId.isSome

structure Endorsement where
  id : ℕ
  chapterId : String
  endorserAgentId : String
  endorserDid : String
  endorseeAgentId : String
  endorserPubkeyB64 : String
  signatureB64 : String
  noteMarkdown : Option String
  createdUnix : Int
  revokedAt : Option Int
  revocationReason : Option String

def Endorsement.pair (row : Endorsement) : String × String := (row.endorserAgentId,row.endorseeAgentId)

structure Vouch where
  chapterId : String
  endorserAgentId : String
  endorserDid : String
  endorseeAgentId : String
  endorserPubkeyB64 : String
  signatureB64 : String
  noteMarkdown : Option String
  createdUnix : Int

def Vouch.row (vouch : Vouch) (id : ℕ) : Endorsement where
  id := id
  chapterId := vouch.chapterId
  endorserAgentId := vouch.endorserAgentId
  endorserDid := vouch.endorserDid
  endorseeAgentId := vouch.endorseeAgentId
  endorserPubkeyB64 := vouch.endorserPubkeyB64
  signatureB64 := vouch.signatureB64
  noteMarkdown := vouch.noteMarkdown
  createdUnix := vouch.createdUnix
  revokedAt := none
  revocationReason := none

inductive EndorsementChange
  | refreshed (vouch : Vouch)
  | revoked (revokedAt : Int) (revocationReason : String)

def EndorsementChange.apply (row : Endorsement) : EndorsementChange → Endorsement
  | .refreshed vouch =>
    { vouch.row row.id with endorserAgentId := row.endorserAgentId, endorseeAgentId := row.endorseeAgentId }
  | .revoked revokedAt revocationReason =>
    { row with revokedAt := some revokedAt, revocationReason := some revocationReason }

theorem EndorsementChange.apply_pair (change : EndorsementChange) (row : Endorsement) :
    (change.apply row).pair = row.pair := by
  cases change with
  | refreshed vouch => rfl
  | revoked revokedAt revocationReason => rfl

theorem EndorsementChange.apply_id (change : EndorsementChange) (row : Endorsement) : (change.apply row).id =
    row.id := by
  cases change with
  | refreshed vouch => rfl
  | revoked revokedAt revocationReason => rfl

abbrev Endorsements := NumberedTable Endorsement ℕ (String × String) Endorsement.id Endorsement.pair

/-- The events in the order in which they were inserted, the endorsements, and the time. -/
structure Db where
  events : List TrustEvent
  endorsements : Endorsements
  clock : Int

inductive Act
  | scale
  | utcNow
  | getEvent (agentId eventType sourceEventId : String)
  | getWindow (agentId : String) (first : Int)
  | postEvent (new : NewEvent)
  | getTrustScore (agentId : String)
  | getEndorsement (endorser endorsee : String)
  | patchEndorsement (id : ℕ) (change : EndorsementChange)
  | postEndorsement (vouch : Vouch)

@[reducible] def Act.Answer : Act → Type
  | .scale => Option PyFloat
  | .utcNow => Int
  | .getEvent .. | .getWindow .. | .postEvent _ => Option (List TrustEvent)
  | .getTrustScore _ => Option (List ℚ)
  | .getEndorsement .. | .patchEndorsement .. | .postEndorsement _ => Option (List Endorsement)

/-- What the outside decides of a call: how long it waits, whether its statement is carried
out, whether the answer comes back, the number of a new row, and what the policy and the
row of the agent hold. -/
structure Landing where
  waited : ℕ
  lands : Bool
  answers : Bool
  newId : ℕ
  scale : Option PyFloat
  trustScore : List ℚ

section Effects
variable (db : Db) (landing : Landing)

def Landing.answered {α : Type} (rows : List α) : Option (List α) :=
  if landing.lands && landing.answers then some rows else none

def Db.clashes (new : NewEvent) : Bool := db.events.any fun row => (new.row db.clock).clashes row

def Db.taken (row : Endorsement) : Bool :=
  db.endorsements.rows.any fun other => other.id = row.id || other.pair = row.pair

def Db.refuses (new : NewEvent) : Bool := db.clashes new || new.sourceAgentId = some new.agentId

def Db.answer : (act : Act) → act.Answer
  | .scale => landing.scale
  | .utcNow => db.clock
  | .getEvent agentId eventType sourceEventId => landing.answered (db.events.filter fun row =>
      row.agentId = agentId && row.eventType = eventType && row.sourceEventId = some sourceEventId)
  | .getWindow agentId first => landing.answered (db.events.filter fun row => row.agentId =
      agentId && first ≤ row.occurredAt)
  | .postEvent new => if db.refuses new then none else landing.answered [new.row db.clock]
  | .getTrustScore _ => landing.answered landing.trustScore
  | .getEndorsement endorser endorsee => landing.answered (db.endorsements.row (endorser,endorsee)).toList
  | .patchEndorsement id change => landing.answered
      ((db.endorsements.select fun row => row.id = id).map change.apply)
  | .postEndorsement vouch =>
    if db.taken (vouch.row landing.newId) || vouch.endorserAgentId = vouch.endorseeAgentId then none
    else landing.answered [vouch.row landing.newId]

def Db.after : Act → Db
  | .postEvent new => if db.refuses new then db else { db with events := db.events ++ [new.row db.clock] }
  | .patchEndorsement id change =>
    { db with endorsements := db.endorsements.patch id change.apply change.apply_pair change.apply_id }
  | .postEndorsement vouch =>
    if vouch.endorserAgentId = vouch.endorseeAgentId then db
    else { db with endorsements := db.endorsements.insert (vouch.row landing.newId) }
  | _ => db

end Effects

def Db.tick (db : Db) (waited : ℕ) : Db := { db with clock := db.clock+waited }

def exec (landing : Landing) (act : Act) (db : Db) : act.Answer × Db :=
  ((db.tick landing.waited).answer landing act,
    if landing.lands then (db.tick landing.waited).after landing act else db.tick landing.waited)

abbrev Program (β : Type) := Proc Act Act.Answer β

section Calls

def scale : Program (Option PyFloat) := .call .scale .done
def utcNow : Program Int := .call .utcNow .done
def getEvent (agentId eventType sourceEventId : String) : Program (Option (List TrustEvent)) :=
  .call (.getEvent agentId eventType sourceEventId) .done
def getWindow (agentId : String) (first : Int) : Program (Option (List TrustEvent)) :=
  .call (.getWindow agentId first) .done
def postEvent (new : NewEvent) : Program (Option (List TrustEvent)) := .call (.postEvent new) .done
def getTrustScore (agentId : String) : Program (Option (List ℚ)) := .call (.getTrustScore agentId) .done
def getEndorsement (endorser endorsee : String) : Program (Option (List Endorsement)) :=
  .call (.getEndorsement endorser endorsee) .done
def patchEndorsement (id : ℕ) (change : EndorsementChange) : Program (Option (List Endorsement)) :=
  .call (.patchEndorsement id change) .done
def postEndorsement (vouch : Vouch) : Program (Option (List Endorsement)) := .call (.postEndorsement vouch) .done

end Calls

end Orrery.Trust
