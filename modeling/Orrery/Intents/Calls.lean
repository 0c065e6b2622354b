import Mathlib.Algebra.Ring.Int.Defs
import Mathlib.Data.List.Dedup
import Orrery.Intents.Store

/-! The functions of the intents and of the consent gate, each as a program of its calls
on the store. -/
namespace Orrery.Intents
open Foundation

structure ProjectionMatch where
  projectionId : String
  chapter : String
  score : ℚ
  matchedSkills : List String

structure LocalMatches where
  intentId : String
  localMatches : Nat
  matchedSkills : List String

structure RemoteMatch where
  chapterName : String
  matchCount : Int
  matchedSkills : List String

structure RemoteMatches where
  intentId : String
  remoteMatches : Int
  chaptersWithMatches : Nat
  details : List RemoteMatch

structure Consent where
  mutualConsent : Bool
  response : Reply

structure Profile where
  agentId : String
  name : String
  skills : List String
  profileType : String

def Agent.profile (agent : Agent) : Profile := ⟨agent.agentId,agent.name,agent.skills,agent.profileType⟩

structure Introduction where
  intentId : String
  requester : Profile
  responder : Profile
  intentText : String
  intentTags : List String
  consentedAt : Option String

structure PendingIntent where
  responseId : String
  intentId : String
  intentText : String
  intentTags : List String
  receivedAt : String

structure ResponseView where
  response : Reply
  responderChapterId : String
  createdAt : String

structure IntentDetail where
  intent : Intent
  responses : List ResponseView

def parseReply (response : String) : Option Reply :=
  if response = "accept" then some .accept
  else if response = "decline" then some .decline
  else if response = "counter" then some .counter
  else none

def introduced (agentId partner intentText intentId : String) : Activity :=
  ⟨agentId,"intent_introduced",partner,String.ofList (intentText.toList.take 100),intentId⟩

def checkMutualConsent (intentId responderAgentId : String) : Program (Option Introduction) := do
  let intentData ← getIntents { id := some intentId }
  match intentData with
  | [] => return none
  | intent :: _ =>
    let requester ← getAgents intent.requesterAgentId
    let responder ← getAgents responderAgentId
    match requester, responder with
    | requester :: _, responder :: _ =>
      patchIntents { id := some intentId } { status := .fulfilled }
      track (introduced intent.requesterAgentId responder.name intent.intentText intentId)
      track (introduced responderAgentId requester.name intent.intentText intentId)
      return some ⟨intentId,requester.profile,responder.profile,intent.intentText,intent.intentTags,none⟩
    | _, _ => return none

def respondToIntent (intentId responderAgentId response counterText now : String) : Program (Except String Consent) :=
  match parseReply response with
  | none => return .error "Response must be accept, decline, or counter"
  | some reply => do
    let matched ← getResponses { intentId := some intentId, responderAgentId := some responderAgentId }
    match matched with
    | [] => return .error "no matching intent for this responder"
    | _ :: _ =>
      patchResponses { intentId := some intentId, responderAgentId := some responderAgentId }
        { response := reply
          counterText := if reply = .counter then some counterText else none
          consentedAt := if reply = .accept then some now else none }
      return .ok ⟨reply = .accept,reply⟩

def respondToIntentEndpoint (intentId responderAgentId response counterText now : String) :
    Program (Except String Consent ⊕ Option Introduction) := do
  let result ← respondToIntent intentId responderAgentId response counterText now
  match result with
  | .ok ⟨true,_⟩ =>
    let introduction ← checkMutualConsent intentId responderAgentId
    return .inr introduction
  | result => return .inl result

def introduce (intentId responderAgentId : String) (consentedAt : Option String) : Program (Option Introduction) := do
  let introduction ← checkMutualConsent intentId responderAgentId
  return introduction.map fun introduction => { introduction with consentedAt := consentedAt }

def getIntroductions (agentId : String) : Program (List Introduction) := do
  let respData ← getResponses { responderAgentId := some agentId, response := some .accept }
  let reqData ← getIntents { requesterAgentId := some agentId, status := some .fulfilled }
  let responding ← Proc.each (fun resp => introduce resp.intentId agentId resp.consentedAt) respData
  let requesting ← Proc.each (fun req => do
    let acceptors ← getResponses { intentId := some req.id, response := some .accept }
    Proc.each (fun acc => introduce req.id acc.responderAgentId acc.consentedAt) acceptors) reqData
  return (responding ++ requesting.flatten).filterMap id

def getPendingForAgent (agentId : String) : Program (List PendingIntent) := do
  let responses ← getResponses { responderAgentId := some agentId, response := some .pending }
  let pending ← Proc.each (fun resp => do
    let intentData ← getIntents { id := some resp.intentId }
    return intentData.head?.bind fun intent =>
      if intent.status = .active ∨ intent.status = .matched then
        some (⟨resp.id,intent.id,intent.intentText,intent.intentTags,resp.createdAt⟩ : PendingIntent)
      else none) responses
  return pending.filterMap id

def getIntentDetail (intentId caller : String) : Program (Except String IntentDetail) := do
  let data ← getIntents { id := some intentId }
  match data with
  | [] => return .error "Not found"
  | intent :: _ =>
    let responses ← getResponses { intentId := some intentId }
    if caller ≠ intent.requesterAgentId ∧ caller ∉ responses.map IntentResponse.responderAgentId then
      return .error "Not found"
    else return .ok ⟨intent,responses.map fun r => ⟨r.response,r.responderChapterId,r.createdAt⟩⟩

def cancelIntent (intentId requesterAgentId now : String) : Program (Except String Unit) := do
  let data ← getIntents { id := some intentId, requesterAgentId := some requesterAgentId }
  match data with
  | [] => return .error "Intent not found or not yours"
  | _ :: _ =>
    patchIntents { id := some intentId } { status := .cancelled, updatedAt := some now }
    return .ok ()

section Matching
variable (chapter : String)

def createIntent (intentId requesterAgentId intentText : String) (intentTags : List String) : Program String := do
  postIntent intentId chapter requesterAgentId intentText intentTags
  return intentId

def matchIntent (intentId : String) (found : List ProjectionMatch) (now : String) :
    Program (Except String LocalMatches) := do
  let data ← getIntents { id := some intentId }
  match data with
  | [] => return .error "Intent not found"
  | _ :: _ =>
    patchIntents { id := some intentId }
      { status := if found.isEmpty then .active else .matched
        matchesFound := some found.length
        matchDetails := some ((found.take 10).map fun m => .projected m.chapter m.score m.matchedSkills)
        updatedAt := some now }
    let _ ← Proc.each (fun agentId => postResponse intentId agentId chapter)
      (((found.take 10).map ProjectionMatch.projectionId).filter fun agentId => agentId ≠ "" ∧ agentId ≠ "anon")
    return .ok ⟨intentId,found.length,((found.flatMap ProjectionMatch.matchedSkills).dedup).take 10⟩

def matchIntentFederation (intentId : String) (answers : List RemoteMatch) : Program (Except String RemoteMatches) := do
  let data ← getIntents { id := some intentId }
  match data with
  | [] => return .error "Intent not found"
  | _ :: _ =>
    let results := answers.filter fun r => 0 < r.matchCount
    let totalRemote := (results.map RemoteMatch.matchCount).sum
    if results ≠ [] then
      let existing ← getIntents { id := some intentId }
      match existing with
      | [] => pure ()
      | current :: _ =>
        let newTotal := current.matchesFound+totalRemote
        patchIntents { id := some intentId }
          { status := if newTotal > 0 then .matched else .active
            matchesFound := some newTotal
            matchDetails := some (current.matchDetails ++ results.map fun r =>
              .remote r.chapterName r.matchCount r.matchedSkills) }
    return .ok ⟨intentId,totalRemote,results.length,results⟩

end Matching

inductive Op
  | createIntent (intentId requesterAgentId intentText : String) (intentTags : List String)
  | matchIntent (intentId : String) (found : List ProjectionMatch) (now : String)
  | matchIntentFederation (intentId : String) (answers : List RemoteMatch)
  | respondToIntent (intentId responderAgentId response counterText now : String)
  | respondToIntentEndpoint (intentId responderAgentId response counterText now : String)
  | checkMutualConsent (intentId responderAgentId : String)
  | getIntroductions (agentId : String)
  | cancelIntent (intentId requesterAgentId now : String)
  | getPendingForAgent (agentId : String)
  | getIntentDetail (intentId caller : String)

inductive Result
  | created (intentId : String)
  | matchedHere (result : Except String LocalMatches)
  | matchedRemotely (result : Except String RemoteMatches)
  | responded (result : Except String Consent)
  | answered (result : Except String Consent ⊕ Option Introduction)
  | checked (introduction : Option Introduction)
  | introductions (introductions : List Introduction)
  | cancelled (result : Except String Unit)
  | pending (pending : List PendingIntent)
  | detail (result : Except String IntentDetail)

def program (chapter : String) : Op → Program Result
  | .createIntent intentId requesterAgentId intentText intentTags =>
    Result.created <$> createIntent chapter intentId requesterAgentId intentText intentTags
  | .matchIntent intentId found now => Result.matchedHere <$> matchIntent chapter intentId found now
  | .matchIntentFederation intentId answers => Result.matchedRemotely <$> matchIntentFederation intentId answers
  | .respondToIntent intentId responderAgentId response counterText now =>
    Result.responded <$> respondToIntent intentId responderAgentId response counterText now
  | .respondToIntentEndpoint intentId responderAgentId response counterText now =>
    Result.answered <$> respondToIntentEndpoint intentId responderAgentId response counterText now
  | .checkMutualConsent intentId responderAgentId => Result.checked <$> checkMutualConsent intentId responderAgentId
  | .getIntroductions agentId => Result.introductions <$> getIntroductions agentId
  | .cancelIntent intentId requesterAgentId now => Result.cancelled <$> cancelIntent intentId requesterAgentId now
  | .getPendingForAgent agentId => Result.pending <$> getPendingForAgent agentId
  | .getIntentDetail intentId caller => Result.detail <$> getIntentDetail intentId caller

def introductionsIn : Result → List Introduction
  | .answered (.inr introduction) => introduction.toList
  | .checked introduction => introduction.toList
  | .introductions found => found
  | _ => []

def annAndBob : Db :=
  ⟨.empty,.empty,(Table.empty.insert ⟨"ann","Ann",["rust"],"member"⟩).insert ⟨"bob","Bob",["lean"],"member"⟩⟩

def carriedOut : Landing := ⟨true,"row","now"⟩

end Orrery.Intents
