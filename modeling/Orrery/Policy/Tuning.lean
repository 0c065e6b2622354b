import Orrery.Policy.PeerMerge

/-! The tuners of the policy (server/policy.py): `tune_cycle` with the merge of the peers'
values, and `tune_trust_cycle`; and what leaders do with a key. -/
namespace Orrery.Policy
open Foundation

def autoTuneWindowDays : Int := 14
def autoTuneMinSamples : ℕ := 5

def day : Int := 86400000000
def autoTuneWarmup : Int := 14*day

section Proposals
variable {ν : Type} [Numeric ν]

def autoTuneDeltaPct : ν := 0.10
def autoTuneMinBoundX : ν := 0.5
def autoTuneMaxBoundX : ν := 2.0

def clampNumeric (newValue baseline : ν) : ν :=
  if Numeric.le baseline 0.0 then newValue
  else pyMax (baseline*autoTuneMinBoundX) (pyMin (baseline*autoTuneMaxBoundX) newValue)

def tighten (current magnitude : ν) : ν := current*(1.0+magnitude)

def loosen (current magnitude : ν) : ν := current*(1.0-magnitude)

def rate (part total : ℕ) : ν := Numeric.ofNat part/Numeric.ofNat total

variable (fixed2 : ν → String)

def proposeIntroAdjustment (currentFloor baselineFloor : ν) (approvals rejections expired : ℕ) :
    Option (ν × String) :=
  let total := approvals+rejections+expired
  let rejectRate := rate rejections total
  let approveRate := rate approvals total
  if total < autoTuneMinSamples then none
  else if Numeric.lt 0.50 rejectRate then
    some (clampNumeric (tighten currentFloor autoTuneDeltaPct) baselineFloor,
      s!"rejection_rate={fixed2 rejectRate} > 0.5 → tighten")
  else if Numeric.lt 0.85 approveRate then
    some (clampNumeric (loosen currentFloor autoTuneDeltaPct) baselineFloor,
      s!"approval_rate={fixed2 approveRate} > 0.85 → loosen")
  else none

variable (ν) in
def proposeCooldownAdjustment (currentDays baselineDays : Int) (repeatedPairRejections : ℕ) (windowDays : Int) :
    Except Exc (Option (Int × String)) :=
  if repeatedPairRejections < autoTuneMinSamples then .ok none
  else do
    let current : ν ← Numeric.ofInt currentDays
    let baseline : ν ← Numeric.ofInt baselineDays
    let newValue ← Numeric.rounded (clampNumeric (tighten current autoTuneDeltaPct) baseline)
    if newValue ≠ currentDays then
      return some (newValue,
        s!"{repeatedPairRejections} rejected pairs re-proposed in {windowDays}d → extend cooldown")
    else return none

def proposeRelevanceFloorAdjustment (currentFloor baselineFloor : ν) (lowQuality highQuality unreachedCalls : ℕ) :
    Option (ν × String) :=
  let total := lowQuality+highQuality
  let lowRate := rate lowQuality total
  if autoTuneMinSamples ≤ total ∧ Numeric.lt 0.5 lowRate = true then
    some (clampNumeric (tighten currentFloor autoTuneDeltaPct) baselineFloor,
      s!"low-quality response rate={fixed2 lowRate} → tighten floor")
  else if autoTuneMinSamples ≤ unreachedCalls ∧ total < autoTuneMinSamples then
    some (clampNumeric (loosen currentFloor autoTuneDeltaPct) baselineFloor,
      s!"{unreachedCalls} calls unreached → loosen floor")
  else none

end Proposals

structure Feedback where
  outcomes : List ActionOutcome
  approvals : List Approval
  unreached : ℕ

def Feedback.count (feedback : Feedback) (status : String) : ℕ :=
  feedback.approvals.countP fun approval => approval.status == status

def Feedback.sample (feedback : Feedback) : ℕ :=
  feedback.count "approved"+feedback.count "rejected"+feedback.count "expired"

def Feedback.responses (feedback : Feedback) (signal : String) : ℕ :=
  feedback.outcomes.countP fun outcome => outcome.actionType == "call_response" && outcome.signal == signal

def Feedback.rejectedPairs (feedback : Feedback) : ℕ :=
  ((feedback.approvals.filter fun approval => approval.status == "rejected" && approval.pair.length == 2).map
    fun approval => sortedTexts approval.pair).dedup.length

structure Loaded where
  key : String
  value : Value
  baseline : Value
  pinnedBy : Option String
  lastUpdated : String
  autoTuned : Option Bool

def PolicyRow.loaded (row : PolicyRow) : Loaded := ⟨row.key,row.value,row.baseline,row.pinnedBy,row.lastUpdated,none⟩

section Rows
variable (env : PolicyEnv)

def warmingUp (now : Int) (lastUpdated : String) : Bool :=
  lastUpdated != "" &&
  match env.fromIsoformat (lastUpdated.replace "Z" "+00:00") with
  | some (moment,true) => decide (now-moment < autoTuneWarmup)
  | _ => false

def asValue {α : Type} (number : α → Value) (proposed : Option (α × String)) : Option (Value × String) :=
  proposed.map fun p => (number p.1,p.2)

def proposal (feedback : Feedback) (row : Loaded) : Except Exc (Option (Value × String)) :=
  if row.key == "intro.confidence_floor" then do
    return asValue .float (proposeIntroAdjustment env.fixed2 (← row.value.toFloat env) (← row.baseline.toFloat env)
      (feedback.count "approved") (feedback.count "rejected") (feedback.count "expired"))
  else if row.key == "intro.cooldown_days" then do
    return asValue .int (← proposeCooldownAdjustment Float (← row.value.toInt env) (← row.baseline.toInt env)
      feedback.rejectedPairs autoTuneWindowDays)
  else if row.key == "call.response_relevance_floor" then do
    return asValue .float (proposeRelevanceFloorAdjustment env.fixed2 (← row.value.toFloat env)
      (← row.baseline.toFloat env) (feedback.responses "negative") (feedback.responses "positive") feedback.unreached)
  else .ok none

end Rows

section Cache
variable (env : PolicyEnv)

def refreshCache : Program Unit := do
  match ← selectAll with
  | .raised _ => return ()
  | .missing => storeCache []
  | .rows rows => storeCache (rows.map PolicyRow.cached)

def ensureCache : Program Unit := do
  if ← cacheExpired then refreshCache

def CacheEntry.typed (entry : CacheEntry) : Except Exc (Option Value) :=
  let read : Except Exc Value :=
    if entry.valueType == "int" then return .int (← entry.value.toInt env)
    else if entry.valueType == "float" then return .float (← entry.value.toFloat env)
    else if entry.valueType == "bool" then return .bool entry.value.truthy
    else return entry.value
  match read with
  | .ok value => .ok (some value)
  | .error e => if caught e then .ok none else .error e

def floatOr (default : Float) (found : Option Value) : Except Exc Float :=
  match found with
  | none => .ok default
  | some value =>
    match value.toFloat env with
    | .ok x => .ok x
    | .error e => if caught e then .ok default else .error e

def getFloat (key : String) (default : Float) : Program (Except Exc Float) := do
  ensureCache
  match ← readCache key with
  | none => return .ok default
  | some entry => return (entry.typed env).bind (floatOr env default)

def getBool (key : String) : Program Bool := do
  return ((← selectKey key).orEmpty.head?.map fun row => row.value.truthy).getD false

end Cache

def updates {β : Type} (body : Loaded → Program (Except Exc (Option β))) :
    List Loaded → List (String × β) → Program (Except Exc (List (String × β)))
  | [], done => .done (.ok done)
  | row :: rest, done => (body row).bind fun result =>
    match result with
    | .error e => .done (.error e)
    | .ok none => updates body rest done
    | .ok (some update) => updates body rest (setEntry done row.key update)

structure TuneChange where
  old : Option Value
  new : Option Value
  reason : Option String
  federationNew : Option Float
  federationReason : Option String

structure MergeChange where
  new : Float
  reason : String

section Cycles
variable (env : PolicyEnv)

def tuneRow (feedback : Feedback) (row : Loaded) : Program (Except Exc (Option TuneChange)) :=
  if pins row.pinnedBy then return .ok none
  else do
    if warmingUp env (← utcNow) row.lastUpdated then return .ok none
    else
      match proposal env feedback row with
      | .error e => return .error e
      | .ok none => return .ok none
      | .ok (some (newValue,reason)) =>
        if newValue.same row.value then return .ok none
        else
          let now ← utcNow
          match ← patchPolicy row.key (.tuned newValue (env.isoformat now) (cut 500 reason) autoTuneWindowDays
            feedback.sample) with
          | .raised _ => return .ok none
          | _ =>
            logHistory row.key row.value newValue s!"auto_tune: {reason}" env.agentId (some autoTuneWindowDays)
              (some feedback.sample)
            return .ok (some ⟨row.value,newValue,reason,none,none⟩)

def snapshotOf (peerId : String) (entry : List (String × Value)) : Except Exc (Option (PeerSnapshot Float)) :=
  let read : Except Exc (PeerSnapshot Float) := do
    let value ← ((Value.get entry "value").getD (.float 0.0)).toFloat env
    let baseline ← ((Value.get entry "baseline").getD (.float 0.0)).toFloat env
    let sampleSize ← ((Value.get entry "sample_size").getD (.int 0)).toInt env
    let confidence ← ((Value.get entry "confidence").getD (.float 1.0)).toFloat env
    let key := match (Value.get entry "key").getD (.str "") with
      | .str s => s
      | other => env.str other
    return ⟨peerId,key,value,baseline,sampleSize,confidence⟩
  match read with
  | .ok snap => .ok (if snap.key == "" then none else some snap)
  | .error e => if caught e then .ok none else .error e

def entriesOf : Value → List (List (String × Value))
  | .obj data =>
    match Value.get data "policy_snapshot" with
    | some (.arr items) => items.filterMap fun item =>
      match item with
      | .obj entry => some entry
      | _ => none
    | _ => []
  | _ => []

def snapshotsOf (peers : List (String × Value)) : Except Exc (List (PeerSnapshot Float)) := do
  let read ← peers.mapM fun peer => (entriesOf peer.2).mapM (snapshotOf env peer.1)
  return read.flatten.filterMap id

def mergeRow (snapshots : List (PeerSnapshot Float)) (row : Loaded) : Program (Except Exc (Option MergeChange)) :=
  if !(snapshots.any fun snap => snap.key == row.key) || pins row.pinnedBy || row.autoTuned != some true then
    return .ok none
  else
    match (do return (← row.value.toFloat env,← row.baseline.toFloat env) : Except Exc (Float × Float)) with
    | .error e => return if caught e then .ok none else .error e
    | .ok (current,baseline) =>
      if baseline == 0 then return .ok none
      else
        match mergePeerSnapshots PeerSnapshot.weight row.key current baseline (snapshots.filter fun snap => snap.key == row.key) with
        | .error e => return .error e
        | .ok none => return .ok none
        | .ok (some result) => do
          let now ← utcNow
          match ← patchPolicy row.key (.merged (.float result.newValue) (env.isoformat now) (cut 500 result.reason)) with
          | .raised _ => return .ok none
          | _ =>
            logHistory row.key (.float current) (.float result.newValue) result.reason env.agentId
              (some autoTuneWindowDays) (some result.contributingPeers.length)
            return .ok (some ⟨result.newValue,result.reason⟩)

def federationMergeCycle (rows : List Loaded) : Program (Except Exc (List (String × MergeChange))) := do
  match snapshotsOf env (← peerKnowledge) with
  | .error e => return .error e
  | .ok snapshots => updates (mergeRow env snapshots) rows []

def joined (summary : List (String × TuneChange)) (merged : List (String × MergeChange)) : List (String × TuneChange) :=
  merged.foldl (fun summary update =>
    let known := ((summary.find? fun entry => entry.1 == update.1).map (·.2)).getD ⟨none,none,none,none,none⟩
    setEntry summary update.1 { known with
      federationNew := some update.2.new, federationReason := some update.2.reason }) summary

end Cycles

end Orrery.Policy
