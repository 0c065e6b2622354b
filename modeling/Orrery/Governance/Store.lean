import Orrery.Foundation.Json
import Orrery.Foundation.Procs
import Orrery.Foundation.Tables

/-! The tables of a chapter's governance (server/governance.py, infra/init.sql) and the
calls that are made on them. Moments are counted in microseconds. -/
namespace Orrery.Governance
open Foundation

abbrev Moment := Int

inductive ApprovalStatus
  | pending
  | approved
  | rejected
  | expired
  | executed
deriving DecidableEq

structure Approval where
  id : String
  kind : String
  proposerAgentId : String
  targetAgentId : Option String
  chapterId : String
  peerChapterId : Option String
  payload : Dict
  status : ApprovalStatus
  approvedBy : Option String
  approvedAt : Option Moment
  rejectionReason : Option String
  createdAt : Moment
  expiresAt : Moment
  executedAt : Option Moment
  confidence : ℚ

inductive NominationStatus
  | pending
  | approved
  | rejected
  | expired
  | withdrawn
deriving DecidableEq

structure Nomination where
  id : String
  nomineeAgentId : String
  nominatorAgentId : String
  chapterId : String
  targetRole : String
  reason : String
  status : NominationStatus
  resolvedBy : Option String
  resolvedAt : Option Moment
  resolutionNote : Option String
  expiresAt : Moment

structure Agent where
  agentId : String
  chapterRole : String

/-- The store, the time, and the nominations whose promotion has changed a member's row. -/
structure Db where
  approvals : Table Approval String Approval.id
  nominations : Table Nomination String Nomination.id
  agents : Table Agent String Agent.agentId
  clock : Moment
  promotions : List String

def meets {α : Type} [DecidableEq α] (asked : Option α) (value : α) : Bool := asked.all fun a => a = value

structure ApprovalFilter where
  id : Option String := none
  chapterId : Option String := none
  kind : Option String := none
  status : Option ApprovalStatus := none
  expiresAfter : Option Moment := none
  expiresBefore : Option Moment := none

def ApprovalFilter.admits (filter : ApprovalFilter) (row : Approval) : Bool :=
  meets filter.id row.id && meets filter.chapterId row.chapterId && meets filter.kind row.kind &&
    meets filter.status row.status && (filter.expiresAfter.all fun bar => bar < row.expiresAt) &&
    (filter.expiresBefore.all fun bar => row.expiresAt < bar)

structure ApprovalChange where
  status : ApprovalStatus
  approvedBy : Option String := none
  approvedAt : Option Moment := none
  rejectionReason : Option String := none
  executedAt : Option Moment := none

def ApprovalChange.apply (change : ApprovalChange) (row : Approval) : Approval :=
  { row with
    status := change.status
    approvedBy := change.approvedBy.or row.approvedBy
    approvedAt := change.approvedAt.or row.approvedAt
    rejectionReason := change.rejectionReason.or row.rejectionReason
    executedAt := change.executedAt.or row.executedAt }

theorem ApprovalChange.apply_id (change : ApprovalChange) (row : Approval) : (change.apply row).id = row.id := rfl

structure NewApproval where
  kind : String
  proposerAgentId : String
  targetAgentId : Option String
  chapterId : String
  peerChapterId : Option String
  payload : Dict
  confidence : ℚ
  expiresAt : Moment

/-- The defaults of the table: a new row is pending, and nobody has decided on it. -/
def NewApproval.row (new : NewApproval) (id : String) (createdAt : Moment) : Approval where
  id := id
  kind := new.kind
  proposerAgentId := new.proposerAgentId
  targetAgentId := new.targetAgentId
  chapterId := new.chapterId
  peerChapterId := new.peerChapterId
  payload := new.payload
  status := .pending
  approvedBy := none
  approvedAt := none
  rejectionReason := none
  createdAt := createdAt
  expiresAt := new.expiresAt
  executedAt := none
  confidence := new.confidence

structure NominationFilter where
  id : Option String := none
  status : Option NominationStatus := none
  expiresBefore : Option Moment := none

def NominationFilter.admits (filter : NominationFilter) (row : Nomination) : Bool :=
  meets filter.id row.id && meets filter.status row.status && (filter.expiresBefore.all fun bar => row.expiresAt < bar)

structure NominationChange where
  status : NominationStatus
  resolvedBy : Option String := none
  resolvedAt : Option Moment := none
  resolutionNote : Option String := none

def NominationChange.apply (change : NominationChange) (row : Nomination) : Nomination :=
  { row with
    status := change.status
    resolvedBy := change.resolvedBy.or row.resolvedBy
    resolvedAt := change.resolvedAt.or row.resolvedAt
    resolutionNote := change.resolutionNote.or row.resolutionNote }

theorem NominationChange.apply_id (change : NominationChange) (row : Nomination) : (change.apply row).id = row.id := rfl

def Agent.promoted (role : String) (row : Agent) : Agent := { row with chapterRole := role }

theorem Agent.promoted_id (role : String) (row : Agent) : (row.promoted role).agentId = row.agentId := rfl

structure Spend where
  authorized : Bool
  grantId : String
  charged : Bool
  remaining : Option Int

inductive ActionEnd
  | done
  | failed
  | stopped

inductive Act
  | utcNow
  | getAgent (agentId : String)
  | getApprovals (filter : ApprovalFilter) (byApprovedAt : Bool) (limit : ℕ)
  | patchApprovals (filter : ApprovalFilter) (change : ApprovalChange)
  | postApproval (new : NewApproval)
  | spendBounded (kind actionKey actorAgentId : String)
  | carryOut (row : Approval)
  | getNomination (id : String)
  | patchNominations (filter : NominationFilter) (change : NominationChange)
  | promote (nomination : Nomination)

def Act.Answer : Act → Type
  | .utcNow => Moment
  | .getAgent _ => Option (List Agent)
  | .getApprovals .. | .patchApprovals .. | .postApproval _ => Option (List Approval)
  | .spendBounded .. => Spend
  | .carryOut _ => ActionEnd
  | .getNomination _ | .patchNominations .. => Option (List Nomination)
  | .promote _ => Option (List Agent)

/-- What the outside decides of a call: how long it waits, whether its statement is
carried out, whether the answer comes back, and what the store and others choose. -/
structure Landing where
  waited : ℕ
  lands : Bool
  answers : Bool
  newId : String
  arrange : List Approval → List Approval
  arrange_perm : ∀ rows, (arrange rows).Perm rows
  spend : Spend
  ended : ActionEnd

def earlier (a b : Approval) : Bool :=
  match a.approvedAt, b.approvedAt with
  | some one, some two => one ≤ two
  | none, some _ => false
  | _, none => true

section Effects
variable (db : Db) (landing : Landing)

def Landing.answered {α : Type} (rows : List α) : Option (List α) :=
  if landing.lands && landing.answers then some rows else none

def Db.found (filter : ApprovalFilter) (byApprovedAt : Bool) (limit : ℕ) : List Approval :=
  let rows := landing.arrange (db.approvals.select filter.admits)
  (if byApprovedAt then rows.mergeSort earlier else rows).take limit

def Db.answer : (act : Act) → act.Answer
  | .utcNow => db.clock
  | .getAgent agentId => landing.answered (db.agents.row agentId).toList
  | .getApprovals filter byApprovedAt limit => landing.answered (db.found landing filter byApprovedAt limit)
  | .patchApprovals filter change => landing.answered ((db.approvals.select filter.admits).map change.apply)
  | .postApproval new =>
    if (db.approvals.row landing.newId).isSome then none else landing.answered [new.row landing.newId db.clock]
  | .spendBounded .. => landing.spend
  | .carryOut _ => landing.ended
  | .getNomination id => landing.answered (db.nominations.row id).toList
  | .patchNominations filter change => landing.answered ((db.nominations.select filter.admits).map change.apply)
  | .promote nomination => landing.answered
      ((db.agents.row nomination.nomineeAgentId).toList.map (Agent.promoted nomination.targetRole))

def Db.after : Act → Db
  | .patchApprovals filter change =>
    { db with approvals := db.approvals.update filter.admits change.apply change.apply_id }
  | .postApproval new => { db with approvals := db.approvals.insert (new.row landing.newId db.clock) }
  | .patchNominations filter change =>
    { db with nominations := db.nominations.update filter.admits change.apply change.apply_id }
  | .promote nomination =>
    { db with
      agents := db.agents.update (fun row => row.agentId = nomination.nomineeAgentId)
        (Agent.promoted nomination.targetRole) (Agent.promoted_id nomination.targetRole)
      promotions := if (db.agents.row nomination.nomineeAgentId).isSome then nomination.id :: db.promotions
        else db.promotions }
  | _ => db

end Effects

def Db.tick (db : Db) (waited : ℕ) : Db := { db with clock := db.clock+waited }

def exec (landing : Landing) (act : Act) (db : Db) : act.Answer × Db :=
  ((db.tick landing.waited).answer landing act,
    if landing.lands then (db.tick landing.waited).after landing act else db.tick landing.waited)

abbrev Program (β : Type) := Proc Act Act.Answer β

end Orrery.Governance
