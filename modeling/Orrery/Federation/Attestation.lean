import Orrery.Federation.Discovery

/-! The verification of an attestation as the server does it (server/registry_attestation.py),
with an encoder that may refuse the record: the record is encoded outside of any `try`. -/
namespace Orrery.Federation
open Foundation Json Chapter

section Verify
variable (env : SigningEnv) (canonicalize : Dict → Except Exc String)

def freshness (now : ℚ) (issuedAt expiresAt : Int) : Bool × String :=
  if now > expiresAt then (false,"expired")
  else if now < issuedAt-notBeforeSkew then (false,"not_yet_valid")
  else (true,"ok")

def verify (now : ℚ) : Json → Except Exc (Bool × String)
  | .obj attestation =>
    match get attestation "record", get attestation "sig" with
    | some (.obj record), some (.str sig) =>
      if sig = "" then .ok (false,"malformed")
      else if requiredRecordFields.any fun field => (get record field).isNone then .ok (false,"malformed")
      else match (get record "issued_at").bind intOf, (get record "expires_at").bind intOf with
      | some issuedAt, some expiresAt =>
        if issuedAt > expiresAt then .ok (false,"malformed")
        else match keyOf env (env.toCodec.str ((get record "did").getD .null)) with
        | none => .ok (false,"unsupported_did")
        | some pubkey => do
          let message ← canonicalize record
          return if !ed25519Verify env.toCodec message sig pubkey then (false,"invalid_signature")
            else freshness now issuedAt expiresAt
      | _, _ => .ok (false,"malformed")
    | _, _ => .ok (false,"malformed")
  | _ => .ok (false,"malformed")

end Verify

structure SignedRecord where
  record : Dict
  sig : String
  issuedAt : Int
  expiresAt : Int
  pubkey : String

section Reading
variable (env : SigningEnv)

def readAttestation : Json → Except String SignedRecord
  | .obj attestation =>
    match get attestation "record", get attestation "sig" with
    | some (.obj record), some (.str sig) =>
      if sig = "" then .error "malformed"
      else if requiredRecordFields.any fun field => (get record field).isNone then .error "malformed"
      else match (get record "issued_at").bind intOf, (get record "expires_at").bind intOf with
      | some issuedAt, some expiresAt =>
        if issuedAt > expiresAt then .error "malformed"
        else match keyOf env (env.toCodec.str ((get record "did").getD .null)) with
        | none => .error "unsupported_did"
        | some pubkey => .ok ⟨record,sig,issuedAt,expiresAt,pubkey⟩
      | _, _ => .error "malformed"
    | _, _ => .error "malformed"
  | _ => .error "malformed"

variable {env} {canonicalize : Dict → Except Exc String}

theorem verify_read (now : ℚ) (attestation : Json) : verify env canonicalize now attestation =
    match readAttestation env attestation with
    | .error reason => .ok (false,reason)
    | .ok signed => do
      let message ← canonicalize signed.record
      return if !ed25519Verify env.toCodec message signed.sig signed.pubkey then (false,"invalid_signature")
        else freshness now signed.issuedAt signed.expiresAt := by
  unfold verify readAttestation
  split
  next =>
    split
    next =>
      split
      next => rfl
      next =>
        split
        next => rfl
        next =>
          split
          next =>
            split
            next => rfl
            next => split <;> rfl
          next => rfl
    next => rfl
  next => rfl

end Reading
end Orrery.Federation
