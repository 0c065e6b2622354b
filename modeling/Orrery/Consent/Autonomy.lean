import Orrery.Consent.Gate

/-! The two ways an action is approved without a click: its bucket has graduated
(habits/model.py, graduation/state.py, graduation/auto_approval.py), or the agent is
trusted enough (identity_trust.py). Both write the approval row a click would have
written. The posterior mean is kept as a fraction. -/
namespace Orrery.Consent
open Foundation Json

def Counts.posteriorMean (counts : Counts) : ℚ :=
  (1+counts.approvals : ℚ)/((1+counts.approvals : ℚ)+(1+counts.denials : ℚ))

def graduationMinApprovals : Nat := 5

def graduationMinPosterior : ℚ := 17/20

def Counts.clearsBar (counts : Counts) : Bool :=
  decide (graduationMinApprovals ≤ counts.approvals) && decide (graduationMinPosterior < counts.posteriorMean)

inductive UserDecision
  | approved | denied
deriving DecidableEq

def Counts.add (counts : Counts) : UserDecision → Counts
  | .approved => { counts with approvals := counts.approvals+1 }
  | .denied => { counts with denials := counts.denials+1 }

def World.count (w : World) (bucket : Bucket) (decision : UserDecision) : World :=
  { w with habits := fun other => if other = bucket then (w.habits bucket).add decision else w.habits other }

def observe (bucket : Bucket) (decision : UserDecision) : Agent Unit :=
  if bucket.capability = "" ∨ bucket.scope = "" ∨ bucket.contextSha256 = "" then
    raise (.valueError "capability, scope, context_sha256 all required")
  else modify fun w => w.count bucket decision

def missingKeyPart (deviceDid : String) (bucket : Bucket) : Option String :=
  if deviceDid = "" then some "device_did"
  else if bucket.capability = "" then some "capability"
  else if bucket.scope = "" then some "scope"
  else if bucket.contextSha256 = "" then some "context_sha256"
  else none

def makeGraduationKey (deviceDid : String) (bucket : Bucket) : Agent Unit :=
  match missingKeyPart deviceDid bucket with
  | some name => raise (.valueError s!"{name} is required for graduation key")
  | none => pure ()

def GraduationRow.isFor (row : GraduationRow) (deviceDid : String) (bucket : Bucket) : Bool :=
  row.deviceDid == deviceDid && row.bucket == bucket

def World.graduationRow (w : World) (deviceDid : String) (bucket : Bucket) : Option GraduationRow :=
  w.graduations.find? fun row => row.isFor deviceDid bucket

def World.status (w : World) (deviceDid : String) (bucket : Bucket) : GraduationState :=
  if (w.graduationRow deviceDid bucket).map (·.state) = some .revoked then .revoked
  else if (w.habits bucket).clearsBar then .graduated
  else .observing

def World.upsert (w : World) (deviceDid : String) (bucket : Bucket) (row : GraduationRow)
    (update : GraduationRow → GraduationRow) : World :=
  { w with graduations :=
      if (w.graduationRow deviceDid bucket).isSome then
        w.graduations.map fun old => if old.isFor deviceDid bucket then update old else old
      else w.graduations ++ [row] }

def GraduationRow.live (row : GraduationRow) (deviceDid : String) : Bool :=
  row.deviceDid == deviceDid && decide (row.state ≠ .revoked)

def GraduationRow.revokedAll (row : GraduationRow) (deviceDid : String) (time : Nat) : GraduationRow :=
  if row.live deviceDid then { row with state := .revoked, revokedAt := some time } else row

section Operations
variable (env : Env)

def World.graduate (w : World) (deviceDid : String) (bucket : Bucket) : World :=
  let time := env.clock w.reads
  World.upsert { w with reads := w.reads+1 } deviceDid bucket ⟨deviceDid,bucket,.graduated,some time,none⟩ fun old =>
    { old with
      state := if old.state = .revoked then .revoked else .graduated
      graduatedAt := old.graduatedAt.or (some time) }

def recordGraduation (deviceDid : String) (bucket : Bucket) : Agent Unit := do
  makeGraduationKey deviceDid bucket
  modify fun w => w.graduate env deviceDid bucket

def revoke (deviceDid : String) (bucket : Bucket) : Agent Unit := do
  makeGraduationKey deviceDid bucket
  let time ← now env
  modify fun w => w.upsert deviceDid bucket ⟨deviceDid,bucket,.revoked,none,some time⟩ fun old =>
    { old with state := .revoked, revokedAt := some time }

def revokeAll (deviceDid : String) : Agent Nat := do
  let time ← now env
  let affected := (← get).graduations.countP fun row => row.live deviceDid
  modify fun w => { w with graduations := w.graduations.map fun row => row.revokedAll deviceDid time }
  return affected

def selfApprove (req : ActionRequest) (chapterId promptEventSha256 : String) (actorAgentId : Option String)
    (audit : String → Fields) : Agent (Option String) := do
  let hash ← approve env req chapterId promptEventSha256 actorAgentId
  let _ ← record env (audit hash)
  return some hash

def graduatedFields (req : ActionRequest) (contextSha256 chapterId : String) (actorAgentId : Option String)
    (counts : Counts) (hash : String) : Fields where
  chapterId := chapterId
  action := "consent.auto_approved"
  actorAgentId := actorAgentId
  targetType := some "capability"
  targetId := some req.capability
  outcome := "ok"
  detail := [("approval_event_sha256",.str hash),("capability",.str req.capability),("scope",.str req.scope),
    ("context_sha256",.str contextSha256),("approvals_count",.int counts.approvals),
    ("posterior_mean",.float (env.round4 counts.posteriorMean)),
    ("thresholds",.obj [("min_approvals",.int graduationMinApprovals),("min_posterior",.float graduationMinPosterior)])]

def autoApproveIfGraduated (req : ActionRequest) (contextSha256 chapterId deviceDid : String)
    (actorAgentId : Option String) : Agent (Option String) := do
  if contextSha256 = "" then return none
  else do
    let bucket : Bucket := ⟨req.capability,req.scope,contextSha256⟩
    let counts := (← get).habits bucket
    makeGraduationKey deviceDid bucket
    if (← get).status deviceDid bucket ≠ .graduated then return none
    else do
      recordGraduation env deviceDid bucket
      selfApprove env req chapterId "graduated" actorAgentId
        (graduatedFields env req contextSha256 chapterId actorAgentId counts)

def autoApproveThreshold : Int := 70

def defaultLocalTrust : Int := 30

def intOf : Json → Option Int
  | .int i => some i
  | .bool b => some (if b then 1 else 0)
  | .float q => some (if 0 ≤ q then q.floor else q.ceil)
  | .str text => env.parseInt text
  | _ => none

def floats : Json → Bool
  | .int _ | .bool _ | .float _ => true
  | .str text => env.parsesFloat text
  | _ => false

def clamp (score : Int) : Int := max 0 (min 100 score)

def loadLocalTrust : TrustFile → Except Exc Int
  | .missing | .malformed => .ok defaultLocalTrust
  | .holds (.obj data) =>
    match intOf env ((Json.get data "local_trust").getD (.int defaultLocalTrust)) with
    | some value => .ok (clamp value)
    | none => .ok defaultLocalTrust
  | .holds other => .error (.attributeError s!"'{other.typeName}' object has no attribute 'get'")

def loadChapterTrust : TrustFile → Except Exc Int
  | .missing | .malformed => .ok 0
  | .holds (.obj data) =>
    let refreshedAt := (Json.get data "refreshed_at").getD .null
    match intOf env ((Json.get data "score").getD (.int 0)) with
    | some value => .ok (if refreshedAt.truthy && !floats env refreshedAt then 0 else clamp value)
    | none => .ok 0
  | .holds other => .error (.attributeError s!"'{other.typeName}' object has no attribute 'get'")

def effectiveTrust (own chapter : Int) : Int := max 0 (min 100 (max own chapter))

def trustedFields (req : ActionRequest) (chapterId : String) (actorAgentId : Option String)
    (own chapter : Int) (hash : String) : Fields where
  chapterId := chapterId
  action := "consent.auto_approved"
  actorAgentId := actorAgentId
  targetType := some "capability"
  targetId := some req.capability
  outcome := "ok"
  detail := [("approval_event_sha256",.str hash),("capability",.str req.capability),("scope",.str req.scope),
    ("provenance",.str req.provenance),("decision_reason",.str "trust_threshold"),
    ("trust",.obj [("local",.int own),("chapter",.int chapter),("effective",.int (effectiveTrust own chapter)),
      ("threshold",.int autoApproveThreshold)])]

def autoApproveIfTrusted (req : ActionRequest) (chapterId : String) (own chapter : Int)
    (actorAgentId : Option String) : Agent (Option String) :=
  if req.provenance = "untrusted" then return none
  else if effectiveTrust own chapter < autoApproveThreshold then return none
  else selfApprove env req chapterId "trust_threshold" actorAgentId
    (trustedFields req chapterId actorAgentId own chapter)

end Operations
end Orrery.Consent
