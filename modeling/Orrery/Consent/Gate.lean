import Orrery.Consent.Ledger

/-! The consent gate (consent/gate.py): what it decides about a request, the rows it
writes, and the approvals and denials it finds in the ledger. Reads go through the
ledger's windows: the 50 newest approvals, the 200 newest tombstones, the 50 newest
denials and the 500 newest lifted ones. -/
namespace Orrery.Consent
open Foundation Json

def approvalTtl : Nat := 300000000

def denialCooldown : Nat := 3600000000

def validProvenance : List String := ["trusted","semi_trusted","untrusted"]

def validateRequest (req : ActionRequest) : Option String :=
  if req.capability = "" then some "capability is required"
  else if '.' ∉ req.capability.toList then some "capability must be dotted (e.g. 'browser.navigate')"
  else if req.scope = "" then some "scope is required"
  else if req.context = "" then some "context is required"
  else if req.provenance ∉ validProvenance then
    some "provenance must be one of ['semi_trusted', 'trusted', 'untrusted']"
  else if req.provenance = "untrusted" ∧ req.sourceRef.getD "" = "" then
    some "untrusted provenance requires source_ref"
  else none

def capabilityDenied (capability : String) (denied : List String) : Bool :=
  capability ∈ denied || String.ofList (capability.toList.takeWhile (· != '.') ++ ".*".toList) ∈ denied

def evaluate (req : ActionRequest) (denied : List String) : ConsentDecision :=
  match validateRequest req with
  | some err => ⟨.reject,s!"invalid_request: {err}",none⟩
  | none =>
    if capabilityDenied req.capability denied then
      ⟨.reject,s!"capability_denied: {req.capability} is not available on this deployment",none⟩
    else if req.provenance = "untrusted" then ⟨.reject,"untrusted_provenance",none⟩
    else ⟨.prompt,"user_confirmation_required",none⟩

def outcomeOf : DecisionState → String
  | .reject => "denied"
  | .prompt => "deferred"
  | .approved => "ok"

def requestDetail (req : ActionRequest) : Dict :=
  [("capability",.str req.capability),("scope",.str req.scope),("context",.str req.context),
    ("provenance",.str req.provenance),("source_ref",optional req.sourceRef)]

def decisionFields (req : ActionRequest) (decision : ConsentDecision) (chapterId : String)
    (actorAgentId : Option String) : Fields where
  chapterId := chapterId
  action := "consent." ++ decision.state.text
  actorAgentId := actorAgentId
  targetType := some "capability"
  targetId := some req.capability
  outcome := outcomeOf decision.state
  detail := requestDetail req ++ [("rationale",.str (String.ofList (req.rationale.toList.take 2000))),
    ("extra",.obj req.extra),("decision_reason",.str decision.reason)]

section Operations
variable (env : Env)

def recordDecision (req : ActionRequest) (decision : ConsentDecision) (chapterId : String)
    (actorAgentId : Option String) : Agent String := do
  let event ← record env (decisionFields req decision chapterId actorAgentId)
  return event.eventSha256

def checkAndRecord (req : ActionRequest) (chapterId : String) (actorAgentId : Option String) :
    Agent ConsentDecision := do
  let decision := evaluate req env.denied
  let eventHash ← recordDecision env req decision chapterId actorAgentId
  return { decision with eventSha256 := some eventHash }

def denialFields (req : ActionRequest) (chapterId promptEventSha256 : String) (actorAgentId : Option String) :
    Fields where
  chapterId := chapterId
  action := "consent.denied"
  actorAgentId := actorAgentId
  targetType := some "capability"
  targetId := some req.capability
  outcome := "denied"
  detail := requestDetail req ++ [("prompt_event_sha256",.str promptEventSha256),("extra",.obj req.extra),
    ("decision_reason",.str "user_denied")]

def deny (req : ActionRequest) (chapterId promptEventSha256 : String) (actorAgentId : Option String) :
    Agent String := do
  let event ← record env (denialFields req chapterId promptEventSha256 actorAgentId)
  return event.eventSha256

def approvalFields (req : ActionRequest) (chapterId promptEventSha256 : String) (actorAgentId : Option String)
    (expiresAt : Nat) : Fields where
  chapterId := chapterId
  action := "consent.approved"
  actorAgentId := actorAgentId
  targetType := some "capability"
  targetId := some req.capability
  outcome := "ok"
  detail := requestDetail req ++ [("prompt_event_sha256",.str promptEventSha256),
    ("expires_at",.str (env.isoformat expiresAt)),("extra",.obj req.extra)]

def approve (req : ActionRequest) (chapterId promptEventSha256 : String) (actorAgentId : Option String) :
    Agent String := do
  let time ← now env
  let event ← record env (approvalFields env req chapterId promptEventSha256 actorAgentId (time+approvalTtl))
  return event.eventSha256

def namedSha (row : Row) (key : String) : Option String :=
  match get row.detail key with
  | some value => if value.truthy then some (env.str value) else none
  | none => none

def World.consumedApprovalShas (w : World) : List String :=
  (w.listEvents env "consent.consumed" 200).filterMap fun row => namedSha env row "approval_event_sha256"

def sameRequest (detail : Dict) (req : ActionRequest) : Bool :=
  eqStr (get detail "capability") req.capability && eqStr (get detail "scope") req.scope &&
    eqStr (get detail "context") req.context && eqStr (get detail "provenance") req.provenance

def unexpired (detail : Dict) (time : Nat) : Except Exc Bool :=
  match get detail "expires_at" with
  | none => .ok false
  | some (.str text) =>
    match env.fromisoformat text with
    | .invalid => .ok false
    | .naive => .error (.typeError "can't compare offset-naive and offset-aware datetimes")
    | .aware expiry => .ok (decide (time < expiry))
  | some _ => .error (.typeError "fromisoformat: argument must be str")

def World.examine (w : World) (req : ActionRequest) (chapterId : String) (time : Nat) (consumed : List String)
    (row : Row) : Except Exc Bool :=
  if row.chapterId ≠ chapterId then .ok false
  else if (w.verifyRow env row).1 = false then .ok false
  else if row.eventSha256 ∈ consumed ∧ row.eventSha256 ∉ w.inFlight then .ok false
  else if sameRequest row.detail req = false then .ok false
  else unexpired env row.detail time

def World.scanApprovals (w : World) (req : ActionRequest) (chapterId : String) (time : Nat)
    (consumed : List String) : List Row → Except Exc (Option Row)
  | [] => .ok none
  | row :: rest => do
    if ← w.examine env req chapterId time consumed row then return some row
    else w.scanApprovals req chapterId time consumed rest

def findValidApproval (req : ActionRequest) (chapterId : String) : Agent (Option Row) := do
  let time ← now env
  fun w =>
    match w.scanApprovals env req chapterId time (w.consumedApprovalShas env)
        (w.listEvents env "consent.approved" 50) with
    | .ok found => .ok found w
    | .error e => .error (.exception e) w

def World.clearedDenialShas (w : World) : List String :=
  (w.listEvents env "consent.denial_cleared" 500).filterMap fun row => namedSha env row "denial_event_sha256"

def World.suppresses (w : World) (req : ActionRequest) (chapterId : String) (time : Nat) (row : Row) : Bool :=
  row.chapterId == chapterId && decide (row.eventSha256 ∉ w.clearedDenialShas env) &&
    sameRequest row.detail req && decide (time ≤ row.occurredAt+denialCooldown)

def findRecentDenial (req : ActionRequest) (chapterId : String) : Agent (Option Row) := do
  let time ← now env
  fun w => .ok ((w.listEvents env "consent.denied" 50).find? (w.suppresses env req chapterId time)) w

def tombstone (approvalEventSha256 chapterId : String) (actorAgentId : Option String) (execution : String) :
    Fields where
  chapterId := chapterId
  action := "consent.consumed"
  actorAgentId := actorAgentId
  targetType := some "approval"
  targetId := some approvalEventSha256
  outcome := "ok"
  detail := [("approval_event_sha256",.str approvalEventSha256),("execution",.str execution)]

def markConsumed (approvalEventSha256 chapterId : String) (actorAgentId : Option String) (execution : String) :
    Agent String := do
  let event ← record env (tombstone approvalEventSha256 chapterId actorAgentId execution)
  return event.eventSha256

def attemptMark (sha chapterId : String) (actorAgentId : Option String) : Nat → Raised → Agent Unit
  | 0, last => Effect.raise last
  | left+1, _ =>
    Effect.handle (do let _ ← markConsumed env sha chapterId actorAgentId "unknown"; return ()) fun
      | .exception e => attemptMark sha chapterId actorAgentId left (.exception e)
      | .interrupt => Effect.raise .interrupt

theorem attemptMark_succ (sha chapterId : String) (actorAgentId : Option String) (left : Nat) (last : Raised)
    (w : World) : attemptMark env sha chapterId actorAgentId (left+1) last w =
      match record env (tombstone sha chapterId actorAgentId "unknown") w with
      | .ok _ w' => .ok () w'
      | .error (.exception e) w' => attemptMark env sha chapterId actorAgentId left (.exception e) w'
      | .error .interrupt w' => .error .interrupt w' := by
  simp only [attemptMark,Effect.handle,Effect.attempt,markConsumed,Effect.bind_apply]
  cases record env (tombstone sha chapterId actorAgentId "unknown") w with
  | ok row w' => rfl
  | error e w' => cases e <;> rfl

def World.enter (w : World) (sha : String) : World := { w with inFlight := sha :: w.inFlight }

def World.discard (w : World) (sha : String) : World := { w with inFlight := w.inFlight.filter (· != sha) }

def consume (approval : Row) (chapterId : String) (actorAgentId : Option String) : Agent (Option Row) := do
  attemptMark env approval.eventSha256 chapterId actorAgentId 3 .interrupt
  modify fun w => w.enter approval.eventSha256
  return some approval

def claimApproval (req : ActionRequest) (chapterId : String) (actorAgentId : Option String) :
    Agent (Option Row) := do
  match ← findValidApproval env req chapterId with
  | none => return none
  | some approval =>
    if approval.eventSha256 ∈ (← get).inFlight then return none
    else consume env approval chapterId actorAgentId

theorem consume_eq (approval : Row) (chapterId : String) (actorAgentId : Option String) (w : World) :
    consume env approval chapterId actorAgentId w =
      match attemptMark env approval.eventSha256 chapterId actorAgentId 3 .interrupt w with
      | .ok _ w' => .ok (some approval) (w'.enter approval.eventSha256)
      | .error e w' => .error e w' := by
  simp only [consume,Effect.bind_apply]
  cases attemptMark env approval.eventSha256 chapterId actorAgentId 3 .interrupt w <;> rfl

theorem findValidApproval_eq (req : ActionRequest) (chapterId : String) (w : World) :
    findValidApproval env req chapterId w =
      let w' := { w with reads := w.reads+1 }
      match w'.scanApprovals env req chapterId (env.clock w.reads) (w'.consumedApprovalShas env)
        (w'.listEvents env "consent.approved" 50) with
      | .ok found => .ok found w'
      | .error e => .error (.exception e) w' := rfl

theorem claimApproval_eq (req : ActionRequest) (chapterId : String) (actorAgentId : Option String) (w : World) :
    claimApproval env req chapterId actorAgentId w =
      match findValidApproval env req chapterId w with
      | .ok none w' => .ok none w'
      | .ok (some approval) w' =>
        if approval.eventSha256 ∈ w'.inFlight then .ok none w' else consume env approval chapterId actorAgentId w'
      | .error e w' => .error e w' := by
  simp only [claimApproval,Effect.bind_apply]
  cases findValidApproval env req chapterId w with
  | error e w' => rfl
  | ok found w' =>
    cases found with
    | none => rfl
    | some approval =>
      by_cases held : approval.eventSha256 ∈ w'.inFlight
      · simp only [held,if_true]
        change (if approval.eventSha256 ∈ w'.inFlight then (pure none : Agent (Option Row)) else _) w' = _
        simp [held]
      · change (if approval.eventSha256 ∈ w'.inFlight then (pure none : Agent (Option Row)) else _) w' = _
        simp [held]

def executionOutcome (execution : String) : String :=
  if execution = "ok" then "ok"
  else if execution = "denied" then "denied"
  else if execution = "pending_approval" then "deferred"
  else "fail"

def executedFields (approvalEventSha256 chapterId execution : String) (actorAgentId error : Option String) :
    Fields where
  chapterId := chapterId
  action := "consent.executed"
  actorAgentId := actorAgentId
  targetType := some "approval"
  targetId := some approvalEventSha256
  outcome := executionOutcome execution
  detail := [("approval_event_sha256",.str approvalEventSha256),("execution",.str execution)] ++
    match error with
    | some text => if text = "" then [] else [("error",.str (String.ofList (text.toList.take 2000)))]
    | none => []

def releaseExecution (approvalEventSha256 chapterId execution : String) (actorAgentId error : Option String) :
    Agent (Option String) := do
  modify fun w => w.discard approvalEventSha256
  suppress do
    let event ← record env (executedFields approvalEventSha256 chapterId execution actorAgentId error)
    return some event.eventSha256

end Operations

theorem examine_true {env : Env} {w : World} {req : ActionRequest} {chapterId : String} {time : Nat}
    {consumed : List String} {row : Row} (found : w.examine env req chapterId time consumed row = .ok true) :
    row.chapterId = chapterId ∧ row.eventSha256 ≠ "" ∧
      (row.eventSha256 ∈ consumed → row.eventSha256 ∈ w.inFlight) ∧ sameRequest row.detail req = true ∧
      unexpired env row.detail time = .ok true := by
  unfold World.examine at found
  split at found
  next => cases found
  next same =>
    split at found
    next => cases found
    next verified =>
      split at found
      next => cases found
      next spent =>
        split at found
        next => cases found
        next matched =>
          refine ⟨by simpa using same,?_,?_,by simpa using matched,found⟩
          · intro empty
            apply verified
            have digest : sha256Of env row ≠ row.eventSha256 := fun equal =>
              env.sha256_ne_empty (canonicalEvent env row) (equal.trans empty)
            simp [World.verifyRow,digest]
          · intro listed
            by_contra landed
            exact spent ⟨listed,landed⟩

def sampleRequest : ActionRequest := ⟨"fs.read","s","c","trusted",none,"",[]⟩

end Orrery.Consent
