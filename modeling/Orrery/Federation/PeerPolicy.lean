import Mathlib.Data.List.Sort
import Orrery.Foundation.Procs
import Orrery.Foundation.Tables
import Orrery.Federation.PeerRotation
import Orrery.Federation.Signing

/-! The policy rows of the peers (server/federation_policy.py): the statements that are made
on them, and what is done with a peer on success, failure, rotation, by a leader and with time. -/
namespace Orrery.Federation.Policy
open Foundation Json Chapter

inductive PeerState
  | unknown
  | online
  | degraded
  | quarantined
  | blocked
deriving DecidableEq

def PeerState.text : PeerState → String
  | .unknown => "unknown"
  | .online => "online"
  | .degraded => "degraded"
  | .quarantined => "quarantined"
  | .blocked => "blocked"

def baselineBackoffSeconds : Int := 360
def maxBackoffSeconds : Int := 3600
def quarantineThreshold : Int := 3

def nextBackoff (current : Int) : Int := min maxBackoffSeconds (max baselineBackoffSeconds current*2)
def resetBackoff : Int := baselineBackoffSeconds

def stateAfterSuccess (current : PeerState) : PeerState := if current = .blocked then .blocked else .online

def stateAfterFailure (current : PeerState) (consecutiveFailures : Int) : PeerState :=
  if current = .blocked then .blocked
  else if consecutiveFailures ≥ quarantineThreshold then .quarantined
  else .degraded

abbrev Stamp := ℚ

structure PeerPolicy where
  peerChapterId : String
  peerEndpoint : Option String
  state : PeerState
  consecutiveFailures : Int
  backoffSeconds : Int
  maxBackoffSeconds : Int
  lastSuccessAt : Option Stamp
  lastFailureAt : Option Stamp
  lastError : Option String
  blockedBy : Option String
  blockedReason : Option String
  blockedAt : Option Stamp
  pinnedDid : Option String
  pinnedAt : Option Stamp
  updatedAt : Stamp
deriving DecidableEq

def PeerPolicy.pin (policy : PeerPolicy) : Option String := policy.pinnedDid.filter (· ≠ "")

inductive Patch
  | endpoint (peerEndpoint : String) (now : Stamp)
  | success (state : PeerState) (now later : Stamp)
  | failure (state : PeerState) (failures backoff : Int) (error : Option String) (now later : Stamp)
  | block (actor reason : String) (now later : Stamp)
  | unblock (now : Stamp)
  | pin (did : String) (now : Stamp)
  | unpin (now : Stamp)

def Patch.apply : Patch → PeerPolicy → PeerPolicy
  | .endpoint peerEndpoint now, policy => { policy with peerEndpoint := some peerEndpoint, updatedAt := now }
  | .success state now later, policy => { policy with
      state := state, consecutiveFailures := 0, backoffSeconds := resetBackoff, lastSuccessAt := some now,
      lastError := none, updatedAt := later }
  | .failure state failures backoff error now later, policy => { policy with
      state := state, consecutiveFailures := failures, backoffSeconds := backoff, lastFailureAt := some now,
      lastError := error, updatedAt := later }
  | .block actor reason now later, policy => { policy with
      state := .blocked, blockedBy := some actor, blockedReason := some reason, blockedAt := some now,
      updatedAt := later }
  | .unblock now, policy => { policy with
      state := .unknown, blockedBy := none, blockedReason := none, blockedAt := none, consecutiveFailures := 0,
      backoffSeconds := resetBackoff, updatedAt := now }
  | .pin did now, policy => { policy with pinnedDid := some did, pinnedAt := some now, updatedAt := now }
  | .unpin now, policy => { policy with pinnedDid := none, pinnedAt := none, updatedAt := now }

theorem Patch.apply_key (patch : Patch) (policy : PeerPolicy) :
    (patch.apply policy).peerChapterId = policy.peerChapterId := by
  cases patch <;> rfl

structure PolicyEvent where
  peerChapterId : String
  event : String
  oldState : Option String
  newState : Option String
  detail : String
  actor : String

structure Db where
  policies : Table PeerPolicy String PeerPolicy.peerChapterId
  history : List PolicyEvent

inductive Act
  | getPolicy (peer : String)
  | listPolicies
  | postPolicy (peer : String) (peerEndpoint : Option String)
  | patchPolicy (peer : String) (patch : Patch)
  | deletePolicy (peer : String)
  | postHistory (event : PolicyEvent)
  | utcNow
  | fetchUrl (url : String)
  | times

@[reducible] def Act.Answer : Act → Type
  | .postHistory _ => Unit
  | .utcNow => Stamp
  | .fetchUrl _ => Option Json
  | .times => ℕ → Clock
  | _ => Option (List PeerPolicy)

structure Landing where
  lands : Bool
  answers : Bool
  now : Stamp
  body : Option Json
  times : ℕ → Clock

section Effects
variable (landing : Landing) (db : Db)

def Landing.answered {α : Type} (rows : List α) : Option (List α) :=
  if landing.lands && landing.answers then some rows else none

def seeded (peer : String) (peerEndpoint : Option String) (now : Stamp) : PeerPolicy :=
  ⟨peer,peerEndpoint,.unknown,0,baselineBackoffSeconds,maxBackoffSeconds,none,none,none,none,none,none,none,none,now⟩

def Db.patched (peer : String) (patch : Patch) : Table PeerPolicy String PeerPolicy.peerChapterId :=
  db.policies.update (fun policy => policy.peerChapterId = peer) patch.apply patch.apply_key

def answer : (act : Act) → act.Answer
  | .getPolicy peer => landing.answered (db.policies.row peer).toList
  | .listPolicies => landing.answered (db.policies.rows.insertionSort fun a b => a.peerChapterId ≤ b.peerChapterId)
  | .postPolicy peer peerEndpoint =>
    if (db.policies.row peer).isSome then none else landing.answered [seeded peer peerEndpoint landing.now]
  | .patchPolicy peer patch => landing.answered ((db.patched peer patch).row peer).toList
  | .deletePolicy peer => landing.answered (db.policies.row peer).toList
  | .postHistory _ => ()
  | .utcNow => landing.now
  | .fetchUrl _ => landing.body
  | .times => landing.times

def carriedOut : Act → Db
  | .postPolicy peer peerEndpoint => { db with policies := db.policies.insert (seeded peer peerEndpoint landing.now) }
  | .patchPolicy peer patch => { db with policies := db.patched peer patch }
  | .deletePolicy peer => { db with policies := db.policies.remove peer }
  | .postHistory event => { db with history := db.history ++ [event] }
  | _ => db

end Effects

def exec (landing : Landing) (act : Act) (db : Db) : act.Answer × Db :=
  (answer landing db act,if landing.lands then carriedOut landing db act else db)

abbrev Program (β : Type) := Proc Act Act.Answer β

section Calls

def getPolicy (peer : String) : Program (Option (List PeerPolicy)) := .call (.getPolicy peer) .done
def listPolicies : Program (List PeerPolicy) := .call .listPolicies fun rows => .done (rows.getD [])
def postPolicy (peer : String) (peerEndpoint : Option String) : Program (Option (List PeerPolicy)) :=
  .call (.postPolicy peer peerEndpoint) .done
def patchPolicy (peer : String) (patch : Patch) : Program (Option (List PeerPolicy)) :=
  .call (.patchPolicy peer patch) .done
def deletePolicy (peer : String) : Program (Option (List PeerPolicy)) := .call (.deletePolicy peer) .done
def utcNow : Program Stamp := .call .utcNow .done
def fetchUrl (url : String) : Program (Option Json) := .call (.fetchUrl url) .done
def times : Program (ℕ → Clock) := .call .times .done

def cut (n : ℕ) (s : String) : String := String.ofList (s.toList.take n)

def logHistory (peer event : String) (oldState newState detail : Option String) (actor : String) : Program Unit :=
  .call (.postHistory ⟨peer,event,oldState,newState,cut 500 (detail.getD ""),actor⟩) .done

end Calls

inductive PinStatus
  | pinned
  | matched
  | rotated
  | mismatch
  | noDatabase
deriving DecidableEq

inductive Reply
  | error (code : String)
  | notBlocked (current : PeerState)
  | ok (policy : Option PeerPolicy)
  | forgotten (previous : PeerState)

section Operations
variable (env : PeerEnv)

def getPeerPolicy (peer : String) : Program (Option PeerPolicy) := do
  let rows ← getPolicy peer
  return (rows.getD []).head?

def given (text : Option String) : Option String := text.filter (· ≠ "")

def upsertPeer (peer : String) (peerEndpoint : Option String) : Program (Option PeerPolicy) := do
  match ← getPeerPolicy peer with
  | some existing =>
    match given peerEndpoint with
    | some endpoint =>
      if existing.peerEndpoint ≠ some endpoint then
        let now ← utcNow
        let rows ← patchPolicy peer (.endpoint endpoint now)
        return some ((rows.getD []).head?.getD existing)
      else return some existing
    | none => return some existing
  | none =>
    let rows ← postPolicy peer peerEndpoint
    logHistory peer "seed" none (some "unknown") (some "initial record") env.agentId
    return (rows.getD []).head?

def recordSuccess (peer : String) (peerEndpoint : Option String) : Program Unit := do
  match ← upsertPeer env peer peerEndpoint with
  | none => return ()
  | some policy =>
    let newState := stateAfterSuccess policy.state
    let now ← utcNow
    let later ← utcNow
    let _ ← patchPolicy peer (.success newState now later)
    if policy.state ≠ newState then
      let event := if policy.state = .degraded ∨ policy.state = .quarantined then "recover" else "success"
      logHistory peer event (some policy.state.text) (some newState.text) none env.agentId
    else return ()

def recordFailure (peer error : String) (peerEndpoint : Option String) : Program Unit := do
  match ← upsertPeer env peer peerEndpoint with
  | none => return ()
  | some policy =>
    if policy.state = .blocked then return ()
    else
      let failures := policy.consecutiveFailures+1
      let newState := stateAfterFailure policy.state failures
      let newBackoff :=
        nextBackoff (if policy.backoffSeconds = 0 then baselineBackoffSeconds else policy.backoffSeconds)
      let lastError := if error = "" then none else some (cut 500 error)
      let now ← utcNow
      let later ← utcNow
      let _ ← patchPolicy peer (.failure newState failures newBackoff lastError now later)
      if policy.state ≠ newState then
        let event := if newState = .quarantined then "quarantine" else "failure"
        logHistory peer event (some policy.state.text) (some newState.text) (some (cut 200 error)) env.agentId
      else return ()

def blockPeer (peer actor reason : String) : Program Reply := do
  match ← upsertPeer env peer none with
  | none => return .error "upsert_failed"
  | some policy =>
    let now ← utcNow
    let later ← utcNow
    let rows ← patchPolicy peer (.block actor (cut 500 reason) now later)
    logHistory peer "block" (some policy.state.text) (some "blocked") (some (cut 200 reason)) actor
    return .ok (rows.getD []).head?

def unblockPeer (peer actor : String) : Program Reply := do
  match ← getPeerPolicy peer with
  | none => return .error "not_found"
  | some policy =>
    if policy.state ≠ .blocked then return .notBlocked policy.state
    else
      let now ← utcNow
      let rows ← patchPolicy peer (.unblock now)
      logHistory peer "unblock" (some "blocked") (some "unknown") none actor
      return .ok (rows.getD []).head?

def forgetPeer (peer actor reason : String) : Program Reply := do
  match ← getPeerPolicy peer with
  | none => return .error "not_found"
  | some policy =>
    let _ ← deletePolicy peer
    logHistory peer "forget" (some policy.state.text) (some "forgotten") (some (orText reason "leader forget")) actor
    return .forgotten policy.state

def PeerPolicy.datedAt (policy : PeerPolicy) : Stamp := policy.lastSuccessAt.getD policy.updatedAt

def prunable (anchored livePeerIds : List String) (maxStale : Int) (now : Stamp) (policy : PeerPolicy) : Bool :=
  policy.peerChapterId ≠ "" && policy.peerChapterId ∉ livePeerIds && policy.state ≠ .blocked &&
    rstripSlash (policy.peerEndpoint.getD "") ∉ anchored && maxStale ≤ now-policy.datedAt

def pruneRows (anchored livePeerIds : List String) (maxStale : Int) (now : Stamp) : List PeerPolicy →
    Program (List String)
  | [] => return []
  | policy :: rest => do
    if prunable anchored livePeerIds maxStale now policy then
      let stale := now-policy.datedAt
      let seconds := stale.num.tdiv stale.den
      match ← forgetPeer policy.peerChapterId env.agentId s!"auto-prune: stale {seconds}s, not anchored, not live" with
      | .forgotten _ =>
        let pruned ← pruneRows anchored livePeerIds maxStale now rest
        return policy.peerChapterId :: pruned
      | _ => pruneRows anchored livePeerIds maxStale now rest
    else pruneRows anchored livePeerIds maxStale now rest

def pruneStalePeers (anchoredEndpoints livePeerIds : List String) (maxStale : Int) : Program (List String) :=
  if maxStale ≤ 0 then return []
  else do
    let now ← utcNow
    let policies ← listPolicies
    pruneRows env ((anchoredEndpoints.filter (· ≠ "")).map rstripSlash) livePeerIds maxStale now policies

def rotationsOf : Option Json → Option (List Json)
  | some (.obj body) =>
    match get body "rotations" with
    | some (.arr rotations) => some rotations
    | _ => none
  | _ => none

def rotationWellKnown : String := "/.well-known/nanda-chapter-rotation.json"

def fetchPeerRotationChain (peerEndpoint : String) : Program (Option (List Json)) := do
  let body ← fetchUrl (rstripSlash peerEndpoint ++ rotationWellKnown)
  return rotationsOf body

def tryAcceptPeerRotation (peer attestedDid pinnedDid : String) (peerEndpoint : Option String) :
    Program (Except Exc (Bool × String)) :=
  match given peerEndpoint with
  | none => return .ok (false,"no_endpoint_to_pull_from")
  | some endpoint => do
    let rotations ← fetchPeerRotationChain endpoint
    let times ← times
    return acceptRotations env rotations peer attestedDid pinnedDid times

def followRotation (peer did existing : String) (state : PeerState) (peerEndpoint : Option String) :
    Program (Except Exc (PinStatus × Option String)) := do
  -- a row has no "endpoint", so only the endpoint of the call is asked
  match ← tryAcceptPeerRotation env peer did existing peerEndpoint with
  | .error e => return .error e
  | .ok (true,_) =>
    let now ← utcNow
    let _ ← patchPolicy peer (.pin did now)
    logHistory peer "did_rotation_accepted" (some state.text) (some state.text)
      (some ("§8.5 chain verified from " ++ cut 60 existing ++ " to " ++ cut 60 did)) env.agentId
    return .ok (.rotated,some did)
  | .ok (false,why) =>
    logHistory peer "did_mismatch" (some state.text) (some state.text)
      (some ("attested " ++ cut 120 did ++ " != pinned " ++ cut 120 existing ++ "; rotation refused: " ++ why))
        env.agentId
    return .ok (.mismatch,some existing)

def checkAndPinDid (peer did : String) (peerEndpoint : Option String) :
    Program (Except Exc (PinStatus × Option String)) :=
  if did = "" then return .ok (.noDatabase,none)
  else do
    match ← upsertPeer env peer peerEndpoint with
    | none => return .ok (.noDatabase,none)
    | some policy =>
      match policy.pin with
      | some existing =>
        if existing = did then return .ok (.matched,some existing)
        else followRotation env peer did existing policy.state peerEndpoint
      | none =>
        let now ← utcNow
        let _ ← patchPolicy peer (.pin did now)
        logHistory peer "did_pin" (some policy.state.text) (some policy.state.text) (some (cut 200 did)) env.agentId
        return .ok (.pinned,some did)

def clearDidPin (peer actor : String) : Program Reply := do
  match ← getPeerPolicy peer with
  | none => return .error "not_found"
  | some policy =>
    match policy.pin with
    | none => return .error "not_pinned"
    | some oldPin =>
      let now ← utcNow
      let rows ← patchPolicy peer (.unpin now)
      logHistory peer "did_unpin" (some policy.state.text) (some policy.state.text)
        (some ("cleared " ++ cut 120 oldPin)) actor
      return .ok (rows.getD []).head?

end Operations

inductive Op
  | recordSuccess (peer : String) (peerEndpoint : Option String)
  | recordFailure (peer error : String) (peerEndpoint : Option String)
  | blockPeer (peer actor reason : String)
  | unblockPeer (peer actor : String)
  | forgetPeer (peer actor reason : String)
  | pruneStalePeers (anchoredEndpoints livePeerIds : List String) (maxStale : Int)
  | tryAcceptPeerRotation (peer attestedDid pinnedDid : String) (peerEndpoint : Option String)
  | checkAndPinDid (peer did : String) (peerEndpoint : Option String)
  | clearDidPin (peer actor : String)

inductive Outcome
  | recorded
  | replied (reply : Reply)
  | pruned (peers : List String)
  | tried (result : Except Exc (Bool × String))
  | checked (result : Except Exc (PinStatus × Option String))

def program (env : PeerEnv) : Op → Program Outcome
  | .recordSuccess peer peerEndpoint => (fun _ => .recorded) <$> recordSuccess env peer peerEndpoint
  | .recordFailure peer error peerEndpoint => (fun _ => .recorded) <$> recordFailure env peer error peerEndpoint
  | .blockPeer peer actor reason => .replied <$> blockPeer env peer actor reason
  | .unblockPeer peer actor => .replied <$> unblockPeer peer actor
  | .forgetPeer peer actor reason => .replied <$> forgetPeer peer actor reason
  | .pruneStalePeers anchoredEndpoints livePeerIds maxStale =>
    .pruned <$> pruneStalePeers env anchoredEndpoints livePeerIds maxStale
  | .tryAcceptPeerRotation peer attestedDid pinnedDid peerEndpoint =>
    .tried <$> tryAcceptPeerRotation env peer attestedDid pinnedDid peerEndpoint
  | .checkAndPinDid peer did peerEndpoint => .checked <$> checkAndPinDid env peer did peerEndpoint
  | .clearDidPin peer actor => .replied <$> clearDidPin peer actor

abbrev Service := Pool Op Act Act.Answer Outcome Db

def Service.opened : Service := ⟨⟨Table.empty,[]⟩,∅,[]⟩

abbrev Service.step (env : PeerEnv) (service : Service) : Turn Op Landing → Option Service :=
  Pool.step exec (program env) service

end Orrery.Federation.Policy
