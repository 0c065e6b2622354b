import Orrery.Consent.Autonomy

/-! The executor (executor.py): each proposal of a plan is refused, deferred to the
user, or approved on one of three paths and handed to its runner. A runner is a
parameter; what it does to the agent's state is to read the clock and to record
decisions, as the runners of the action surfaces do. -/
namespace Orrery.Consent
open Foundation Json

def knownCapabilities : List String :=
  ["browser.navigate","browser.extract","fs.read","fs.write","shell.exec","net.http","desktop.click","desktop.type",
    "desktop.read_screen","skill.invoke"]

def noAutoApprove : List String := ["skill.invoke"]

def alwaysUntrustedOutputs : List String :=
  ["browser.navigate","browser.extract","shell.exec","fs.read","desktop.click","desktop.type","desktop.read_screen",
    "skill.invoke"]

structure ToolOutput where
  capability : String
  scope : String
  outcome : String
  content : String
  provenance : String
  sourceRef : Option String
  extra : Dict

structure ExecutionResult where
  proposal : ActionRequest
  decision : ConsentDecision
  output : Option ToolOutput
  error : Option String

inductive RunnerCall
  | clock
  | decision (req : ActionRequest) (decision : ConsentDecision) (chapterId : String) (actorAgentId : Option String)

inductive RunnerEnd
  | returned (output : ToolOutput)
  | raised (e : Exc)
  | interrupted

abbrev Runner := ActionRequest → World → List RunnerCall × RunnerEnd

structure Call where
  runners : String → Option Runner
  chapterId : String
  actorAgentId : Option String
  habitModel : Bool
  graduationStore : Option String
  contextSha256 : Option String
  localTrust : Option Int
  chapterTrust : Option Int

def Call.context (call : Call) : String := call.contextSha256.getD ""

def Call.bucket (call : Call) (proposal : ActionRequest) : Bucket :=
  ⟨proposal.capability,proposal.scope,call.context⟩

def log (x : Activity) : Agent Unit := modify fun w => { w with activity := w.activity ++ [x] }

section Operations
variable (env : Env) (call : Call) (proposal : ActionRequest)

def observeSafe (decision : UserDecision) : Agent Unit :=
  if call.habitModel = false ∨ call.context = "" then pure ()
  else Effect.handle (do let _ ← now env; observe (call.bucket proposal) decision) fun
    | .exception _ => pure ()
    | .interrupt => Effect.raise .interrupt

def graduatedPath : Agent (Option ConsentDecision) :=
  match call.graduationStore with
  | none => pure none
  | some deviceDid =>
    if proposal.capability ∈ noAutoApprove ∨ call.habitModel = false ∨ call.context = "" then pure none
    else do
      let autoHash ← suppress
        (autoApproveIfGraduated env proposal call.context call.chapterId deviceDid call.actorAgentId)
      return autoHash.map fun hash => ⟨.approved,"graduated",some hash⟩

def trustPath : Agent (Option ConsentDecision) :=
  if proposal.capability ∈ noAutoApprove ∨ (call.localTrust = none ∧ call.chapterTrust = none) then pure none
  else do
    let trustHash ← suppress (autoApproveIfTrusted env proposal call.chapterId (call.localTrust.getD 0)
      (call.chapterTrust.getD 0) call.actorAgentId)
    return trustHash.map fun hash => ⟨.approved,"trust_threshold",some hash⟩

def claimPath : Agent (Option ConsentDecision) := do
  let approval ← suppress (claimApproval env proposal call.chapterId call.actorAgentId)
  return approval.map fun row => ⟨.approved,"user_approved",some row.eventSha256⟩

def orElse {α : Type} (first second : Agent (Option α)) : Agent (Option α) := do
  match ← first with
  | some a => return some a
  | none => second

def settle : Agent ConsentDecision := do
  match ← orElse (graduatedPath env call proposal) (orElse (trustPath env call proposal) (claimPath env call proposal))
  with
  | some decision => return decision
  | none => checkAndRecord env proposal call.chapterId call.actorAgentId

def claimedSha (decision : ConsentDecision) : Option String :=
  if decision.reason = "user_approved" then decision.eventSha256 else none

def release (decision : ConsentDecision) (execution : String) (error : Option String) : Agent Unit :=
  match claimedSha decision with
  | none => pure ()
  | some sha =>
    if sha = "" then pure ()
    else do
      let _ ← releaseExecution env sha call.chapterId execution call.actorAgentId error
      return ()

def runnerCalls : List RunnerCall → Agent Unit
  | [] => pure ()
  | .clock :: rest => do
    let _ ← now env
    runnerCalls rest
  | .decision req decision chapterId actorAgentId :: rest => do
    let _ ← recordDecision env req decision chapterId actorAgentId
    runnerCalls rest

def runnerEnd : RunnerEnd → Agent ToolOutput
  | .returned output => pure output
  | .raised e => raise e
  | .interrupted => Effect.raise .interrupt

def invoke (runner : Runner) : Agent ToolOutput := do
  let report := runner proposal (← get)
  runnerCalls env report.1
  runnerEnd report.2

def guarded (decision : ConsentDecision) (output : ToolOutput) : ExecutionResult :=
  if proposal.capability ∈ alwaysUntrustedOutputs ∧ output.provenance ≠ "untrusted" then
    ⟨proposal,decision,none,some ("capability " ++ env.repr (.str proposal.capability) ++
      " output provenance must be 'untrusted', got " ++ env.repr (.str output.provenance))⟩
  else ⟨proposal,decision,some output,none⟩

def carryOut (decision : ConsentDecision) : Agent ExecutionResult := do
  observeSafe env call proposal .approved
  log (.approved proposal call.context decision)
  match call.runners proposal.capability with
  | none => do
    let err := "no runner registered for capability " ++ env.repr (.str proposal.capability)
    release env call decision "error" (some err)
    return ⟨proposal,decision,none,some err⟩
  | some runner => do
    log (.invoked proposal call.context decision)
    Effect.attempt (invoke env proposal runner)
      (fun output => do
        release env call decision output.outcome none
        return guarded env proposal decision output)
      fun
      | .exception e => do
        let err := e.kind ++ ": " ++ e.text
        release env call decision "error" (some err)
        return ⟨proposal,decision,none,some err⟩
      | .interrupt => do
        release env call decision "error" (some "runner interrupted before reporting")
        Effect.raise .interrupt

def pendingOutput (decision : ConsentDecision) : ToolOutput :=
  ⟨proposal.capability,proposal.scope,"pending_approval","","trusted",none,
    [("prompt_event_sha256",optional decision.eventSha256)]⟩

def conclude (decision : ConsentDecision) : Agent ExecutionResult :=
  match decision.state with
  | .reject => do
    observeSafe env call proposal .denied
    return ⟨proposal,decision,none,none⟩
  | .prompt => return ⟨proposal,decision,some (pendingOutput proposal decision),none⟩
  | .approved => carryOut env call proposal decision

def executeProposal : Agent ExecutionResult := do
  if proposal.capability ∉ knownCapabilities then
    let hash ← recordDecision env proposal ⟨.reject,"unknown_capability",none⟩ call.chapterId call.actorAgentId
    return ⟨proposal,⟨.reject,"unknown_capability",some hash⟩,none,none⟩
  else
    match ← suppress (findRecentDenial env proposal call.chapterId) with
    | some _ => return ⟨proposal,⟨.reject,"recently_denied",none⟩,none,none⟩
    | none =>
      if proposal.provenance = "untrusted" then
        let reject ← checkAndRecord env proposal call.chapterId call.actorAgentId
        observeSafe env call proposal .denied
        return ⟨proposal,reject,none,none⟩
      else
        let decision ← settle env call proposal
        conclude env call proposal decision

def executePlan : List ActionRequest → Agent (List ExecutionResult)
  | [] => return []
  | proposal :: rest => do
    let result ← executeProposal env call proposal
    let results ← executePlan rest
    return result :: results

end Operations
end Orrery.Consent
