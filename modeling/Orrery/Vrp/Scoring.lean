import Orrery.Merkle.Membership
import Orrery.Vrp.Components

/-! The scores of the Verifiable Receipts Profile (conformance/vrp): the category
weights of the valid receipts, and of those that a counterparty has co-signed and no
isolated ring has traded among itself. Weights and rates are exact fractions. A score
is a function of the receipts as JSON documents and of how often each occurs: not of
their order, nor of the order in which the graph's edges were met. -/
namespace Orrery.Vrp
open Foundation Json

abbrev Bytes := Merkle.Bytes

inductive Number
  | finite (q : ℚ)
  | infinite
  | nan
deriving DecidableEq

/-- The functions the package takes from other libraries, what Python makes of a value
as text and of a text as number, and how deep its calls may nest. -/
structure Host where
  canonicalize : Json → Except Exc Bytes
  sha256 : Bytes → Bytes
  b58decode : String → Except Exc Bytes
  fromPublicBytes : Bytes → Except Exc Bytes
  b64decode : String → Except Exc Bytes
  verify : Bytes → Bytes → Bytes → Bool
  repr : Json → String
  parseNumber : String → Except Exc Number
  recursionLimit : Nat

def Host.str (host : Host) : Json → String
  | .str s => s
  | other => host.repr other

def orEmpty (value : Option Json) : Except Exc Dict :=
  match value.getD .null with
  | .obj d => .ok d
  | other => if other.truthy then .error (Merkle.noAttribute other "get") else .ok []

abbrev Weights := List (String × ℚ)

def defaultCategoryWeights : Weights :=
  [("purchase",5),("payment_sent",5),("payment_received",5),("commitment_entered",4),("commitment_fulfilled",4),
    ("commitment_breached",0),("attestation_issued",2),("attestation_received",2),("vote_cast",2),("decision_made",2),
    ("data_shared",2),("message_sent",1),("message_received",1),("appointment_booked",1),("appointment_cancelled",1),
    ("subscription_changed",1),("record_filed",1),("account_created",1),("account_closed",1),("authority_granted",0),
    ("authority_revoked",0),("other",0)]

def categoryWeight (weights : Weights) (receipt : Dict) : Except Exc ℚ := do
  let action ← orEmpty (get receipt "action")
  match ← hashKey ((get action "category").getD (.str "")) with
  | .str category => return (weights.lookup category).getD 0
  | _ => return 0

def validityRate (isValid : Dict → Bool) (receipts : List Dict) : ℚ :=
  if receipts.isEmpty then 0 else receipts.countP isValid/receipts.length

def points (isValid : Dict → Bool) (weights : Weights) (receipt : Dict) : Except Exc ℚ :=
  if isValid receipt then categoryWeight weights receipt else .ok 0

def reputationScore (isValid : Dict → Bool) (weights : Weights) (receipts : List Dict) : Except Exc ℚ :=
  sweep (points isValid weights) (· + ·) 0 receipts

def withoutWitnesses (r : Dict) : Dict :=
  match get r "evidence" with
  | some (.obj evidence) =>
    if (pop evidence "witness_signatures").isEmpty then pop r "evidence"
    else setItem r "evidence" (.obj (pop evidence "witness_signatures"))
  | _ => r

def corroborationPayload (receipt : Dict) : Dict := withoutWitnesses (pop receipt "signature")

def counterparty (receipt : Dict) : Except Exc (Option Json) := do
  let action ← orEmpty (get receipt "action")
  let cp := (get action "counterparty_did").getD .null
  return if cp.truthy && !pyEq cp ((get receipt "issuer_did").getD .null) then some cp else none

def pubkeyFromDidKey (host : Host) : Json → Except Exc Bytes
  | .str did =>
    if "did:key:z".toList.isPrefixOf did.toList then do
      let decoded ← host.b58decode (String.ofList (did.toList.drop "did:key:z".length))
      if decoded.take 2 ≠ Dat.didPrefix then .error (.valueError "not an Ed25519 did:key")
      else return decoded.drop 2
    else .error (.valueError "not a did:key")
  | other => .error (Merkle.noAttribute other "startswith")

def passedOver : Exc → Bool
  | .valueError _ | .typeError _ => true
  | .other kind _ => kind == "InvalidSignature" || kind == "Error"
  | _ => false

def cosigned (host : Host) (cp : Json) (payload : Bytes) (entry : Dict) : Except Exc Bool := do
  let pubkey ← pubkeyFromDidKey host cp
  let key ← host.fromPublicBytes pubkey
  let signature ← host.b64decode (host.str ((get entry "signature").getD (.str "")))
  return host.verify key signature payload

def checkWitness (host : Host) (cp : Json) (payload : Bytes) : Json → Except Exc Bool
  | .obj entry =>
    if pyEq ((get entry "witness_did").getD .null) cp then
      match cosigned host cp payload entry with
      | .ok verified => .ok verified
      | .error e => if passedOver e then .ok false else .error e
    else .ok false
  | _ => .ok false

def iterate : Json → Except Exc (List Json)
  | .arr items => .ok items
  | .obj fields => .ok (fields.map fun field => .str field.1)
  | .str s => .ok (s.toList.map fun c => .str (String.singleton c))
  | other => .error (.typeError s!"'{other.typeName}' object is not iterable")

def witnessSignatures (receipt : Dict) : Except Exc Json := do
  let evidence ← orEmpty (get receipt "evidence")
  let witnesses := (get evidence "witness_signatures").getD .null
  return if witnesses.truthy then witnesses else .arr []

def isCorroborated (host : Host) (receipt : Dict) : Except Exc Bool := do
  match ← counterparty receipt with
  | none => return false
  | some cp =>
    let witnesses ← witnessSignatures receipt
    let payload ← host.canonicalize (.obj (corroborationPayload receipt))
    (← iterate witnesses).anyM (checkWitness host cp payload)

def edge (host : Host) (isValid : Dict → Bool) (receipt : Dict) : Except Exc (Option (Key × Key)) := do
  if !isValid receipt then return none
  else if !(← isCorroborated host receipt) then return none
  else do
    let a ← hashKey ((get receipt "issuer_did").getD (.str ""))
    let cp ← counterparty receipt
    let b ← hashKey (cp.getD (.str ""))
    return some (a,b)

def corroborationGraph (host : Host) (isValid : Dict → Bool) (receipts : List Dict) : Except Exc Graph :=
  sweep (edge host isValid) (fun graph found => found.elim graph fun e => graph.addEdge e.1 e.2) [] receipts

def isEffective (host : Host) (isValid : Dict → Bool) (severed : List Key) (receipt : Dict) : Except Exc Bool := do
  if !isValid receipt then return false
  else if !(← isCorroborated host receipt) then return false
  else do
    let issuer ← hashKey ((get receipt "issuer_did").getD .null)
    if issuer ∈ severed then return false
    else do
      let cp ← counterparty receipt
      return (← hashKey (cp.getD .null)) ∉ severed

def effectiveReceipts (host : Host) (isValid : Dict → Bool) (receipts : List Dict) : Except Exc (List Dict) := do
  let severed ← severedDids host.recursionLimit (← corroborationGraph host isValid receipts)
  sweep (fun receipt => do return (receipt,← isEffective host isValid severed receipt))
    (fun out found => if found.2 then out ++ [found.1] else out) [] receipts

def reputationScoreV2 (host : Host) (isValid : Dict → Bool) (weights : Weights) (receipts : List Dict) :
    Except Exc ℚ := do
  sweep (categoryWeight weights) (· + ·) 0 (← effectiveReceipts host isValid receipts)

def corroborationRate (host : Host) (isValid : Dict → Bool) (receipts : List Dict) : Except Exc ℚ := do
  let valid := receipts.filter isValid
  if valid.isEmpty then return 0
  else return (← effectiveReceipts host isValid receipts).length/valid.length

end Orrery.Vrp
