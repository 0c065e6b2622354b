import Orrery.Governance.Store

/-! The functions of server/governance.py on the approval queue and on nominations, and the
sweep of server/think_cycle.py that carries approved proposals out, each as a program of
its calls on the store. -/
namespace Orrery.Governance
open Foundation Json

section Calls

def utcNow : Program Moment := .call .utcNow .done
def getAgent (agentId : String) : Program (Option (List Agent)) := .call (.getAgent agentId) .done
def getApprovals (filter : ApprovalFilter) (byApprovedAt : Bool) (limit : ℕ) : Program (Option (List Approval)) :=
  .call (.getApprovals filter byApprovedAt limit) .done
def patchApprovals (filter : ApprovalFilter) (change : ApprovalChange) : Program (Option (List Approval)) :=
  .call (.patchApprovals filter change) .done
def postApproval (new : NewApproval) : Program (Option (List Approval)) := .call (.postApproval new) .done
def spendBounded (kind actionKey actorAgentId : String) : Program Spend :=
  .call (.spendBounded kind actionKey actorAgentId) .done
def carryOut (row : Approval) : Program ActionEnd := .call (.carryOut row) .done
def getNomination (id : String) : Program (Option (List Nomination)) := .call (.getNomination id) .done
def patchNominations (filter : NominationFilter) (change : NominationChange) : Program (Option (List Nomination)) :=
  .call (.patchNominations filter change) .done
def promote (nomination : Nomination) : Program (Option (List Agent)) := .call (.promote nomination) .done

end Calls

def operationalKinds : List String := ["send_external","record_write","external_fetch"]

def approvalKinds : List String :=
  ["introduction","cross_chapter_intent","cross_chapter_message","event_proposal","member_admission","role_promotion",
    "call_cross_post","broadcast"] ++ operationalKinds

def approverRoles : List String := ["leader","admin"]

def defaultApprovalTtl : Moment := 259200000000

def clipped (count : ℕ) (text : String) : String := String.ofList (text.toList.take count)

def getChapterRole (agentId : String) : Program String := do
  if agentId = "" then return "member"
  let rows ← getAgent agentId
  match rows with
  | some (row :: _) => return if row.chapterRole = "" then "member" else row.chapterRole
  | _ => return "member"

def canApprove (agentId : String) : Program Bool := do return decide ((← getChapterRole agentId) ∈ approverRoles)

def propose (chapter kind proposerAgentId : String) (payload : Dict) (targetAgentId peerChapterId : Option String)
    (confidence : ℚ) (ttl : Option Moment) : Program (Except String Approval) := do
  if kind ∉ approvalKinds then return .error "not a registered approval kind"
  let now ← utcNow
  let resp ← postApproval ⟨kind,proposerAgentId,targetAgentId,chapter,peerChapterId,payload,max 0 (min 1 confidence),
    now+ttl.getD defaultApprovalTtl⟩
  match resp with
  | none => return .error "the INSERT did not land"
  | some [] => return .error "the INSERT returned no row"
  | some (row :: _) => return .ok row

inductive Decision
  | notAuthorized
  | updated (row : Approval)
  | notPending
  | unanswered

/-- The statement of `approve` and of `reject`: the TTL is compared with a reading of the
clock that is made before it is sent. -/
def recordDecision (status : ApprovalStatus) (approvalId approverAgentId : String) (reason : Option String) :
    Program Decision := do
  let approvedAt ← utcNow
  let bar ← utcNow
  let rows ← patchApprovals { id := some approvalId, status := some .pending, expiresAfter := some bar }
    { status := status, approvedBy := some approverAgentId, approvedAt := some approvedAt, rejectionReason := reason }
  match rows with
  | some (row :: _) => return .updated row
  | some [] => return .notPending
  | none => return .unanswered

def authorized (approverAgentId : String) (preAuthorized : Bool) : Program Bool :=
  if preAuthorized then return true else canApprove approverAgentId

def approve (approvalId approverAgentId : String) (preAuthorized : Bool) : Program Decision := do
  if ← authorized approverAgentId preAuthorized then recordDecision .approved approvalId approverAgentId none
  else return .notAuthorized

def reject (approvalId approverAgentId reason : String) (preAuthorized : Bool) : Program Decision := do
  if ← authorized approverAgentId preAuthorized then
    recordDecision .rejected approvalId approverAgentId (some (clipped 500 reason))
  else return .notAuthorized

def markExecuted (approvalId : String) : Program Unit := do
  let executedAt ← utcNow
  let _ ← patchApprovals { id := some approvalId } { status := .executed, executedAt := some executedAt }

inductive Grant
  | approval (row : Approval)
  | bounded (spend : Spend)
  | required (reason : String) (approval : Option Approval)
  | unqueued (reason : String)

def keyedBy (actionKey : String) (row : Approval) : Bool :=
  match get row.payload "action_key" with
  | some (.str key) => key = actionKey
  | _ => false

/-- What follows where no approval is for the key: a bounded grant, a request that is
waiting, or a new one. -/
def otherwise (chapter kind actorAgentId actionKey : String) (payload : Dict) (ttl : Option Moment) : Program Grant :=
  do
  let spend ← spendBounded kind actionKey actorAgentId
  if spend.authorized then return .bounded spend
  let pending ← getApprovals { chapterId := some chapter, kind := some kind, status := some .pending } false 100
  match (pending.getD []).find? (keyedBy actionKey) with
  | some row => return .required "awaiting approval" (some row)
  | none =>
    let queued ← propose chapter kind actorAgentId
      (payload.foldl (fun d field => setItem d field.1 field.2) [("action_key",.str actionKey)]) none none 0 ttl
    match queued with
    | .ok row => return .required "no approved grant" (some row)
    | .error reason => return .unqueued reason

def consumeOperationalApproval (chapter kind actorAgentId actionKey : String) (payload : Dict) (ttl : Option Moment) :
    Program Grant := do
  if kind ∉ operationalKinds then return .required "not an operational approval kind" none
  if actorAgentId = "" || actionKey = "" then return .required "actor_agent_id and action_key are required" none
  let rows ← getApprovals { chapterId := some chapter, kind := some kind, status := some .approved } true 50
  match (rows.getD []).find? (keyedBy actionKey) with
  | some row =>
    markExecuted row.id
    return .approval row
  | none => otherwise chapter kind actorAgentId actionKey payload ttl

def sweepExpired : Program ℕ := do
  let now ← utcNow
  let rows ← patchApprovals { status := some .pending, expiresBefore := some now } { status := .expired }
  let _ ← patchNominations { status := some .pending, expiresBefore := some now } { status := .expired }
  return (rows.getD []).length

/-- The approved proposals one by one, until the limit on calls stops it. -/
def carryOutEach : List Approval → Program Unit
  | [] => return
  | row :: rows => do
    if row.kind = "introduction" || row.kind = "broadcast" then
      match ← carryOut row with
      | .done =>
        markExecuted row.id
        carryOutEach rows
      | .failed => carryOutEach rows
      | .stopped => return
    else carryOutEach rows

def thinkApprovalsSweep (chapter : String) : Program Unit := do
  let _ ← sweepExpired
  let approved ← getApprovals { chapterId := some chapter, status := some .approved } true 20
  carryOutEach (approved.getD [])

inductive Resolution
  | refused (error : String)
  | resolved (nomination : Nomination)

def decisionOf : String → Option NominationStatus
  | "approved" => some .approved
  | "rejected" => some .rejected
  | _ => none

def writeResolution (nominationId : String) (nom : Nomination) (body : NominationChange) : Program Resolution := do
  let _ ← patchNominations { id := some nominationId } body
  if body.status = .approved then
    let _ ← promote nom
    return .resolved (body.apply nom)
  else return .resolved (body.apply nom)

def resolveRead (nominationId resolverAgentId resolverRole note : String) (status : NominationStatus)
    (nom : Nomination) :
    Program Resolution := do
  if nom.status ≠ .pending then return .refused "already_resolved"
  if nom.targetRole = "leader" && resolverRole ≠ "admin" then return .refused "only_admin_can_promote_to_leader"
  let now ← utcNow
  writeResolution nominationId nom
    { status := status, resolvedBy := some resolverAgentId, resolvedAt := some now,
      resolutionNote := some (clipped 500 note) }

def resolveNomination (nominationId resolverAgentId decision note : String) : Program Resolution := do
  match decisionOf decision with
  | none => return .refused "invalid_decision"
  | some status =>
    let resolverRole ← getChapterRole resolverAgentId
    if resolverRole ∉ ["admin","leader"] then return .refused "not_authorized"
    let rows ← getNomination nominationId
    match rows with
    | some (nom :: _) => resolveRead nominationId resolverAgentId resolverRole note status nom
    | _ => return .refused "not_found"

inductive Op
  | propose (kind proposerAgentId : String) (payload : Dict) (targetAgentId peerChapterId : Option String)
      (confidence : ℚ) (ttl : Option Moment)
  | approve (approvalId approverAgentId : String) (preAuthorized : Bool)
  | reject (approvalId approverAgentId reason : String) (preAuthorized : Bool)
  | consume (kind actorAgentId actionKey : String) (payload : Dict) (ttl : Option Moment)
  | sweepExpired
  | thinkApprovalsSweep
  | resolveNomination (nominationId resolverAgentId decision note : String)

inductive Result
  | proposed (result : Except String Approval)
  | decided (result : Decision)
  | consumed (result : Grant)
  | swept (count : ℕ)
  | carriedOut
  | nomination (result : Resolution)

def program (chapter : String) : Op → Program Result
  | .propose kind proposerAgentId payload targetAgentId peerChapterId confidence ttl =>
    Result.proposed <$> propose chapter kind proposerAgentId payload targetAgentId peerChapterId confidence ttl
  | .approve approvalId approverAgentId preAuthorized =>
    Result.decided <$> approve approvalId approverAgentId preAuthorized
  | .reject approvalId approverAgentId reason preAuthorized =>
    Result.decided <$> reject approvalId approverAgentId reason preAuthorized
  | .consume kind actorAgentId actionKey payload ttl =>
    Result.consumed <$> consumeOperationalApproval chapter kind actorAgentId actionKey payload ttl
  | .sweepExpired => Result.swept <$> sweepExpired
  | .thinkApprovalsSweep => (fun _ => Result.carriedOut) <$> thinkApprovalsSweep chapter
  | .resolveNomination nominationId resolverAgentId decision note =>
    Result.nomination <$> resolveNomination nominationId resolverAgentId decision note

abbrev House := Pool Op Act Act.Answer Result Db

def House.opened (db : Db) : House := ⟨db,∅,[]⟩

abbrev House.step (chapter : String) : House → Turn Op Landing → Option House :=
  fun house => Pool.step exec (program chapter) house

end Orrery.Governance
