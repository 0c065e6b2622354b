import Orrery.Policy.Tuning

/-! The cycles of the tuners and the requests of leaders (server/policy.py), under way side
by side on the policy of a chapter. -/
namespace Orrery.Policy
open Foundation

def trustTunerBaselineScale : Float := 1.0
def trustTunerMinScale : Float := 0.5
def trustTunerMaxScale : Float := 2.0
def trustTunerStepPct : Float := 0.10
def trustStallFractionThreshold : Float := 0.50
def trustStallTenureDays : Int := 60

def trustScaleKey : String := "trust.delta_scale"

inductive Signal
  | tighten
  | loosen
  | hold
deriving DecidableEq

def Signal.text : Signal → String
  | .tighten => "tighten"
  | .loosen => "loosen"
  | .hold => "hold"

structure StallSignal where
  eligible : ℕ
  stalled : ℕ
  stalledFraction : Float
  signal : Signal

section Signals
variable (env : PolicyEnv)

def tenured (now : Int) (agent : Agent) : Bool :=
  agent.createdAt != "" &&
  match env.fromIsoformat (agent.createdAt.replace "Z" "+00:00") with
  | some (created,_) => decide (created ≤ now-trustStallTenureDays*day)
  | none => false

def scoreOf (agent : Agent) : Except Exc Float :=
  match (if agent.trustScore.truthy then agent.trustScore else .int 0).toFloat env with
  | .ok score => .ok score
  | .error e => if caught e then .ok 0.0 else .error e

def computeTrustStallSignal (agents : List Agent) (now : Int) : Except Exc StallSignal := do
  let scores ← (agents.filter (tenured env now)).mapM (scoreOf env)
  let stalled := scores.countP fun score => decide (score < 20.0)
  if scores.isEmpty then return ⟨0,0,env.rounded3 0.0,.hold⟩
  else
    let fraction := rate stalled scores.length
    let signal :=
      if fraction > trustStallFractionThreshold then .tighten
      else if fraction < 1.0-trustStallFractionThreshold then .loosen
      else .hold
    return ⟨scores.length,stalled,env.rounded3 fraction,signal⟩

def nextTrustScale (current : Float) (signal : Signal) : Float :=
  pyMax trustTunerMinScale (pyMin trustTunerMaxScale (match signal with
    | .tighten => tighten current trustTunerStepPct
    | .loosen => loosen current trustTunerStepPct
    | .hold => current))

end Signals

structure Applied where
  old : Float
  new : Float
  reason : String

inductive LeaderReply
  | ok (row : PolicyRow)
  | notFound
  | patchFailed (detail : String)

inductive Outcome
  | raised (e : Exc)
  | tuned (summary : List (String × TuneChange))
  | trust (signal : Option StallSignal) (applied : Option Applied) (error : Option String)
  | merged (updates : List (String × MergeChange))
  | leader (reply : LeaderReply)

section Cycles
variable (env : PolicyEnv)

def summarize (summary : List (String × TuneChange)) : Except Exc (List (String × MergeChange)) → Program Outcome
  | .error e => return .raised e
  | .ok merged => do
    if !(joined summary merged).isEmpty then invalidateCache
    return .tuned (joined summary merged)

def tuneRows (rows : List Loaded) (feedback : Feedback) : Program Outcome := do
  match ← updates (tuneRow env feedback) rows [] with
  | .error e => return .raised e
  | .ok summary =>
    if ← getBool "federation.enabled" then (federationMergeCycle env rows).bind (summarize summary)
    else summarize summary (.ok [])

def readFeedback : Program (Except Exc Feedback) := do
  let outcomes ← selectOutcomes
  match ← selectApprovals with
  | .missing => return .error (.typeError "'NoneType' object is not iterable")
  | approvals =>
    let unreached ← selectUnreached
    return .ok ⟨outcomes.orEmpty,approvals.orEmpty,unreached.orEmpty.length⟩

def tuneCycle : Program Outcome := do
  refreshCache
  let rows := (← selectTunable).orEmpty
  if rows.isEmpty then return .tuned []
  else
    match ← readFeedback with
    | .error e => return .raised e
    | .ok feedback => tuneRows env (rows.map PolicyRow.loaded) feedback

def trustReason (signal : StallSignal) : String :=
  s!"trust.tune: {signal.stalled}/{signal.eligible} stalled ({env.repr signal.stalledFraction}) → {signal.signal.text}"

def applyTrustScale (signal : StallSignal) (current newValue : Float) : Program Outcome := do
  let now ← utcNow
  match ← patchPolicy trustScaleKey (.tuned (.float newValue) (env.isoformat now) (cut 500 (trustReason env signal))
    trustStallTenureDays signal.eligible) with
  | .raised e => return .trust signal none (some (cut 200 e.text))
  | _ =>
    logHistory trustScaleKey (.float current) (.float newValue) s!"auto_tune: {trustReason env signal}" env.agentId
      (some trustStallTenureDays) (some signal.eligible)
    invalidateCache
    return .trust signal (some ⟨current,newValue,trustReason env signal⟩) none

def tuneTrustCycle : Program Outcome := do
  match ← selectAgents with
  | .raised _ => return .trust none none none
  | reply =>
    match computeTrustStallSignal env reply.orEmpty (← utcNow) with
    | .error e => return .raised e
    | .ok signal =>
      if signal.eligible < 5 || signal.signal == .hold then return .trust signal none none
      else
        match ← getFloat env trustScaleKey trustTunerBaselineScale with
        | .error e => return .raised e
        | .ok current =>
          let newValue := nextTrustScale current signal.signal
          if (newValue-current).abs < 1e-6 then return .trust signal none none
          else applyTrustScale env signal current newValue

end Cycles

section Leaders
variable (env : PolicyEnv)

def leaderPatch (key : String) (patch : Patch) (newValue : PolicyRow → Value) (reason actor : String) :
    Program LeaderReply := do
  match ← patchPolicy key patch with
  | .raised e => return .patchFailed (cut 200 e.text)
  | reply =>
    match reply.orEmpty.head? with
    | none => return .notFound
    | some row =>
      logHistory key row.value (newValue row) reason actor none none
      invalidateCache
      return .ok row

def pin (key actor reason : String) : Program LeaderReply := do
  let now ← utcNow
  leaderPatch key (.pin actor (cut 500 reason) (env.isoformat now)) PolicyRow.value "leader_pin" actor

def unpin (key actor : String) : Program LeaderReply := leaderPatch key .unpin PolicyRow.value "leader_unpin" actor

def override (key : String) (newValue : Value) (actor reason : String) : Program LeaderReply := do
  let now ← utcNow
  leaderPatch key (.override newValue (env.isoformat now) s!"admin_override: {cut 200 reason}") (fun _ => newValue)
    "admin_override" actor

end Leaders

inductive Op
  | tuneCycle
  | tuneTrustCycle
  | federationMergeCycle (rows : List Loaded)
  | pin (key actor reason : String)
  | unpin (key actor : String)
  | override (key : String) (newValue : Value) (actor reason : String)

def program (env : PolicyEnv) : Op → Program Outcome
  | .tuneCycle => tuneCycle env
  | .tuneTrustCycle => tuneTrustCycle env
  | .federationMergeCycle rows => (federationMergeCycle env rows).bind fun result =>
    match result with
    | .error e => .done (.raised e)
    | .ok updates => .done (.merged updates)
  | .pin key actor reason => Outcome.leader <$> pin env key actor reason
  | .unpin key actor => Outcome.leader <$> unpin key actor
  | .override key newValue actor reason => Outcome.leader <$> override env key newValue actor reason

abbrev Office := Pool Op Act Act.Answer Outcome Db

def Office.step (env : PolicyEnv) : Office → Turn Op Landing → Option Office := Pool.step exec (program env)

end Orrery.Policy
