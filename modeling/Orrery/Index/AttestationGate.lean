import Orrery.Federation.Signing
import Orrery.Foundation.JsonLines

/-! The attestation gate of the lean index (index/attestation_gate.py): which writes to an
id it lets through, and which did:key the first attested one pins. -/
namespace Orrery.Index
open Foundation Json Chapter Federation

structure GateEnv extends Codec where
  canonicalize : Dict → Except Exc String

def requiredRecordFields : List String := ["v","agent_id","did","endpoint","issued_at","expires_at"]

def notBeforeSkewS : Int := 300

def asInt : Json → Option Int
  | .int i => some i
  | .bool b => some (if b then 1 else 0)
  | _ => none

def isValueError : Exc → Bool
  | .valueError _ => true
  | _ => false

def isTypeError : Exc → Bool
  | .typeError _ => true
  | _ => false

def field (d : Dict) (key : String) : Json := (get d key).getD .null

structure Reading where
  record : Dict
  sig : String
  issuedAt : Int
  expiresAt : Int

def wellFormed : Json → Option Reading
  | .obj attestation =>
    match field attestation "record", field attestation "sig" with
    | .obj record, .str sig =>
      if sig = "" ∨ requiredRecordFields.any (fun name => (get record name).isNone) then none
      else match asInt (field record "issued_at"), asInt (field record "expires_at") with
      | some issuedAt, some expiresAt => if issuedAt > expiresAt then none else some ⟨record,sig,issuedAt,expiresAt⟩
      | _, _ => none
    | _, _ => none
  | _ => none

structure Decision where
  allowed : Bool
  reason : String
  pinDid : Option String
deriving DecidableEq

section Model
variable (env : GateEnv)

def pubkeyFromDid (did : String) : Except Exc (Option Bytes) :=
  if startsWith didKeyZ did then
    match env.b58decode (dropStart didKeyZ did) with
    | .error e => if isValueError e then .ok none else .error e
    | .ok raw =>
      if raw.length ≠ 34 ∨ raw.take 2 ≠ multicodecPrefix then .ok none
      else match env.verifyKey (raw.drop 2) with
      | .error e => if isValueError e then .ok none else .error e
      | .ok _ => .ok (some (raw.drop 2))
  else .ok none

def verifySignature (pubkey : Bytes) (reading : Reading) : Except Exc Bool :=
  match env.b64decode (.str reading.sig), env.canonicalize reading.record with
  | .ok signature, .ok message =>
    match env.nacl pubkey message signature with
    | .valid => .ok true
    | .badSignature => .ok false
    | .raised e => if isValueError e || isTypeError e then .ok false else .error e
  | .error e, _ => if isValueError e || isTypeError e then .ok false else .error e
  | .ok _, .error e => if isValueError e || isTypeError e then .ok false else .error e

def verifyAttestation (attestation : Json) (now : ℚ) : Except Exc (Bool × String) :=
  match wellFormed attestation with
  | none => .ok (false,"malformed")
  | some reading =>
    match pubkeyFromDid env (env.str (field reading.record "did")) with
    | .error e => .error e
    | .ok none => .ok (false,"unsupported_did")
    | .ok (some pubkey) =>
      match verifySignature env pubkey reading with
      | .error e => .error e
      | .ok false => .ok (false,"invalid_signature")
      | .ok true =>
        if now > reading.expiresAt then .ok (false,"expired")
        else if now < reading.issuedAt-notBeforeSkewS then .ok (false,"not_yet_valid")
        else .ok (true,"ok")

def attestedRecord (attestation : Json) : Dict := ((wellFormed attestation).map Reading.record).getD []

def endpointMismatch (body record : Dict) : Bool :=
  match get body "endpoint" with
  | some (.str endpoint) =>
    !(JsonLines.strip endpoint.toList).isEmpty && rstripSlash endpoint != rstripSlash
      (env.str (field record "endpoint"))
  | _ => false

def evaluateWrite (agentId : String) (body : Dict) (pinnedDid : Option String) (now : ℚ) : Except Exc Decision :=
  match field body "attestation" with
  | .null =>
    match pinnedDid with
    | some _ => .ok ⟨false,"attestation_required",none⟩
    | none => .ok ⟨true,"open",none⟩
  | attestation =>
    match verifyAttestation env attestation now with
    | .error e => .error e
    | .ok (false,reason) => .ok ⟨false,"invalid_attestation:" ++ reason,none⟩
    | .ok (true,_) =>
      let record := attestedRecord attestation
      if env.str (field record "agent_id") ≠ agentId then .ok ⟨false,"subject_mismatch",none⟩
      else if endpointMismatch env body record then .ok ⟨false,"endpoint_mismatch",none⟩
      else
        let did := env.str (field record "did")
        match pinnedDid with
        | some pinned => if did ≠ pinned then .ok ⟨false,"did_mismatch",none⟩ else .ok ⟨true,"pinned_ok",none⟩
        | none => .ok ⟨true,"tofu_pin",some did⟩

end Model

section Judgments
variable {env : GateEnv} {attestation : Json} {now : ℚ} {reason agentId : String} {body : Dict}
  {pinnedDid : Option String}
  {decision : Decision} {reading : Reading}

def Reading.SignedBy (env : GateEnv) (reading : Reading) (did : String) : Prop :=
  ∃ pubkey signature message, pubkeyFromDid env did = .ok (some pubkey) ∧
    env.b64decode (.str reading.sig) = .ok signature ∧ env.canonicalize reading.record = .ok message ∧
    env.nacl pubkey message signature = .valid

def Reading.ValidAt (reading : Reading) (now : ℚ) : Prop :=
  reading.issuedAt-notBeforeSkewS ≤ now ∧ now ≤ reading.expiresAt

structure Reading.Attests (env : GateEnv) (reading : Reading) (agentId did : String) (now : ℚ) : Prop where
  subject : env.str (field reading.record "agent_id") = agentId
  signer : env.str (field reading.record "did") = did
  signed : reading.SignedBy env did
  valid : reading.ValidAt now

theorem verifySignature_true {pubkey : Bytes} (verified : verifySignature env pubkey reading = .ok true) :
    ∃ signature message, env.b64decode (.str reading.sig) = .ok signature ∧
      env.canonicalize reading.record = .ok message ∧ env.nacl pubkey message signature = .valid := by
  unfold verifySignature at verified
  split at verified
  next signature message decoded canonical =>
    refine ⟨signature,message,decoded,canonical,?_⟩
    split at verified
    next valid => exact valid
    next => cases verified
    next => split at verified <;> cases verified
  next => split at verified <;> cases verified
  next => split at verified <;> cases verified

theorem verifyAttestation_true (verified : verifyAttestation env attestation now = .ok (true,reason)) :
    ∃ reading, wellFormed attestation = some reading ∧
      reading.SignedBy env (env.str (field reading.record "did")) ∧ reading.ValidAt now := by
  unfold verifyAttestation at verified
  split at verified
  next => cases verified
  next reading read =>
    refine ⟨reading,read,?_⟩
    split at verified
    next => cases verified
    next => cases verified
    next pubkey known =>
      split at verified
      next => cases verified
      next => cases verified
      next genuine =>
        obtain ⟨signature,message,decoded,canonical,valid⟩ := verifySignature_true genuine
        split at verified
        next => cases verified
        next unexpired =>
          split at verified
          next => cases verified
          next begun =>
            exact ⟨⟨pubkey,signature,message,known,decoded,canonical,valid⟩,not_lt.mp begun,not_lt.mp unexpired⟩

theorem evaluateWrite_allowed (evaluated : evaluateWrite env agentId body pinnedDid now = .ok decision)
    (allowed : decision.allowed = true) :
    (field body "attestation" = .null ∧ pinnedDid = none ∧ decision.pinDid = none) ∨
      ∃ reading did, wellFormed (field body "attestation") = some reading ∧ reading.Attests env agentId did now ∧
        endpointMismatch env body reading.record = false ∧
        (pinnedDid = some did ∧ decision.pinDid = none ∨ pinnedDid = none ∧ decision.pinDid = some did) := by
  unfold evaluateWrite at evaluated
  split at evaluated
  next absent =>
    left
    split at evaluated
    next =>
      cases evaluated
      cases allowed
    next =>
      cases evaluated
      exact ⟨absent,rfl,rfl⟩
  next =>
    right
    split at evaluated
    next => cases evaluated
    next =>
      cases evaluated
      cases allowed
    next verified =>
      obtain ⟨reading,read,signed,valid⟩ := verifyAttestation_true verified
      have record : attestedRecord (field body "attestation") = reading.record := by rw [attestedRecord,read]; rfl
      simp only [record] at evaluated
      refine ⟨reading,env.str (field reading.record "did"),read,?_⟩
      split at evaluated
      next =>
        cases evaluated
        cases allowed
      next named =>
        have attests : reading.Attests env agentId _ now := ⟨not_not.mp named,rfl,signed,valid⟩
        split at evaluated
        next =>
          cases evaluated
          cases allowed
        next matching =>
          refine ⟨attests,Bool.not_eq_true _ ▸ matching,?_⟩
          split at evaluated
          next pinned =>
            split at evaluated
            next =>
              cases evaluated
              cases allowed
            next same =>
              cases evaluated
              exact Or.inl ⟨congrArg some (not_not.mp same).symm,rfl⟩
          next =>
            cases evaluated
            exact Or.inr ⟨rfl,rfl⟩

end Judgments
end Orrery.Index
