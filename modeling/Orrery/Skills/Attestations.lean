import Orrery.Chapter.Identity
import Orrery.Foundation.Tables

/-! Attestations of skills and their revocation (server/attestations.py) over a table with
one row for each chapter, skill, version and attestor. -/
namespace Orrery.Skills
open Foundation Json Chapter

structure AttestationKey where
  chapterId : String
  skillId : String
  skillVersion : String
  attestorDid : String
deriving DecidableEq

structure Attestation where
  key : AttestationKey
  contentSha256 : String
  attestorAgentId : String
  trustTierAtAttest : String
  attestationSig : String
  createdUnix : Int
  noteMarkdown : String
  revokedAt : Option Int
  revocationReason : Option String

abbrev Attestations := Table Attestation AttestationKey Attestation.key

structure AttestationEnv extends Codec where
  chapterId : String

structure Delivery where
  now : Int
  lands : Bool
  answers : Bool

structure RecordAttestation where
  skillId : String
  skillVersion : String
  contentSha256 : String
  attestorDid : String
  attestorAgentId : String
  attestorPublicKeyB64 : String
  trustTierAtAttest : String
  attestationSigB64 : String
  createdUnix : Int
  noteMarkdown : String
  authorDid : String

structure RevokeAttestation where
  skillId : String
  skillVersion : String
  attestorDid : String
  revocationReason : String

inductive AttestationResult
  | error (reason : String)
  | ok
deriving DecidableEq

section Functions
variable (env : AttestationEnv)

def attestationText (skillId skillVersion contentSha256 attestorDid : String) (createdUnix : Int) : String :=
  s!"ATTEST:{env.chapterId}:{skillId}:{skillVersion}:{contentSha256}:{attestorDid}:{createdUnix}"

/-- The steps of `verify_attestation_signature` up to the verdict; any exception but that of
a bad signature is a verify error. -/
def attestationVerdict (call : RecordAttestation) : Except Exc (Except String NaclAnswer) := do
  let pub ← env.b64decode (.str call.attestorPublicKeyB64)
  if pub.length ≠ 32 then return .error s!"attestor pubkey wrong length: {pub.length}"
  env.verifyKey pub
  let canonical := attestationText env call.skillId call.skillVersion call.contentSha256 call.attestorDid
    call.createdUnix
  let sig ← env.b64decode (.str call.attestationSigB64)
  return .ok (env.nacl pub canonical sig)

def verifyAttestationSignature (call : RecordAttestation) : Option String :=
  match attestationVerdict env call with
  | .ok (.ok .valid) => none
  | .ok (.ok .badSignature) => some "invalid attestation signature"
  | .ok (.ok (.raised e)) => some s!"verify error: {e.kind}"
  | .ok (.error reason) => some reason
  | .error e => some s!"verify error: {e.kind}"

def attestationKey (skillId skillVersion attestorDid : String) : AttestationKey :=
  ⟨env.chapterId,skillId,skillVersion,attestorDid⟩

def RecordAttestation.row (call : RecordAttestation) : Attestation where
  key := attestationKey env call.skillId call.skillVersion call.attestorDid
  contentSha256 := call.contentSha256
  attestorAgentId := call.attestorAgentId
  trustTierAtAttest := call.trustTierAtAttest
  attestationSig := call.attestationSigB64
  createdUnix := call.createdUnix
  noteMarkdown := String.ofList (call.noteMarkdown.toList.take 4000)
  revokedAt := none
  revocationReason := none

/-- The INSERT of a row whose key is taken fails, and its None is not looked at. -/
def recordAttestation (db : Attestations) (delivery : Delivery) (call : RecordAttestation) :
    AttestationResult × Attestations :=
  if call.trustTierAtAttest ≠ "trusted" ∧ call.trustTierAtAttest ≠ "leader" then
    let tier := env.repr (.str call.trustTierAtAttest)
    (.error s!"trust_tier_at_attest must be trusted or leader, got {tier}",db)
  else if call.authorDid ≠ "" ∧ call.authorDid = call.attestorDid then
    (.error "self-attestation rejected: author cannot attest own skill",db)
  else match verifyAttestationSignature env call with
  | some reason => (.error reason,db)
  | none => (.ok,if delivery.lands then db.insert (call.row env) else db)

def RevokeAttestation.apply (call : RevokeAttestation) (now : Int) (row : Attestation) : Attestation :=
  { row with
    revokedAt := some now
    revocationReason := if call.revocationReason = "" then none
      else some (String.ofList (call.revocationReason.toList.take 200)) }

theorem RevokeAttestation.apply_key (call : RevokeAttestation) (now : Int) (row : Attestation) :
    (call.apply now row).key = row.key := rfl

def revokeAttestation (db : Attestations) (delivery : Delivery) (call : RevokeAttestation) :
    AttestationResult × Attestations :=
  let key := attestationKey env call.skillId call.skillVersion call.attestorDid
  let rows := if delivery.lands && delivery.answers then db.select fun row => row.key = key else []
  (if rows = [] then .error "attestation not found" else .ok,
    if delivery.lands then db.update (fun row => row.key = key) (call.apply delivery.now) (call.apply_key delivery.now)
    else db)

def listLiveAttestations (db : Attestations) (skillId skillVersion : String) : List Attestation :=
  db.select fun row => row.key.chapterId = env.chapterId && row.key.skillId = skillId &&
    row.key.skillVersion = skillVersion && row.revokedAt.isNone

end Functions

inductive AttestationOp
  | record (call : RecordAttestation)
  | revoke (call : RevokeAttestation)

def applyOp (env : AttestationEnv) (db : Attestations) (op : AttestationOp × Delivery) : Attestations :=
  match op.1 with
  | .record call => (recordAttestation env db op.2 call).2
  | .revoke call => (revokeAttestation env db op.2 call).2

def attested (env : AttestationEnv) (ops : List (AttestationOp × Delivery)) (db : Attestations) : Attestations :=
  ops.foldl (applyOp env) db

section Liveness
variable {env : AttestationEnv} {db : Attestations} {delivery : Delivery} {key : AttestationKey} {row : Attestation}

theorem recordAttestation_cases (env : AttestationEnv) (db : Attestations) (delivery : Delivery)
    (call : RecordAttestation) :
    (recordAttestation env db delivery call).2 = db ∧ (recordAttestation env db delivery call).1 ≠ .ok ∨
      (recordAttestation env db delivery call).2 = if delivery.lands then db.insert (call.row env) else db := by
  unfold recordAttestation
  split
  next => exact .inl ⟨rfl,AttestationResult.noConfusion⟩
  split
  next => exact .inl ⟨rfl,AttestationResult.noConfusion⟩
  split
  next => exact .inl ⟨rfl,AttestationResult.noConfusion⟩
  next => exact .inr rfl

theorem insert_found {inserted : Attestation} (found : db.row key = some row) : (db.insert inserted).row key =
    some row := by
  rw [Table.row_insert,found,Option.some_or]

theorem applyOp_revoked (op : AttestationOp × Delivery) (found : db.row key = some row)
    (revoked : row.revokedAt.isSome = true) :
    ∃ row', (applyOp env db op).row key = some row' ∧ row'.revokedAt.isSome = true := by
  obtain ⟨op,delivery⟩ := op
  cases op with
  | record call =>
    change ∃ row', (recordAttestation env db delivery call).2.row key = some row' ∧ _
    obtain ⟨same,_⟩ | inserted := recordAttestation_cases env db delivery call
    · rw [same]
      exact ⟨row,found,revoked⟩
    · rw [inserted]
      split
      · exact ⟨row,insert_found found,revoked⟩
      · exact ⟨row,found,revoked⟩
  | revoke call =>
    change ∃ row', (revokeAttestation env db delivery call).2.row key = some row' ∧ _
    unfold revokeAttestation
    dsimp only
    split
    · rw [Table.row_update,found]
      refine ⟨_,rfl,?_⟩
      dsimp only
      split
      · rfl
      · exact revoked
    · exact ⟨row,found,revoked⟩

theorem attested_keeps (ops : List (AttestationOp × Delivery)) : ∀ {db : Attestations} {row : Attestation},
    db.row key = some row → row.revokedAt.isSome = true →
      ∃ row', (attested env ops db).row key = some row' ∧ row'.revokedAt.isSome = true := by
  induction ops with
  | nil => exact fun found revoked => ⟨_,found,revoked⟩
  | cons op ops ih =>
    intro db row found revoked
    obtain ⟨row',found',revoked'⟩ := applyOp_revoked op found revoked
    exact ih found' revoked'

theorem listed_iff (skillId skillVersion attestorDid : String) :
    (∃ row ∈ listLiveAttestations env db skillId skillVersion, row.key.attestorDid = attestorDid) ↔
      ∃ row, db.row (attestationKey env skillId skillVersion attestorDid) = some row ∧ row.revokedAt = none := by
  constructor
  · rintro ⟨row,inside,rfl⟩
    obtain ⟨found,live⟩ := Table.mem_select.mp inside
    simp only [Bool.and_eq_true,decide_eq_true_eq,Option.isNone_iff_eq_none] at live
    obtain ⟨⟨⟨chapter,skill⟩,version⟩,live⟩ := live
    refine ⟨row,?_,live⟩
    rw [← found,attestationKey,← chapter,← skill,← version]
  · rintro ⟨row,found,live⟩
    have key := Table.row_key found
    refine ⟨row,Table.mem_select.mpr ⟨?_,?_⟩,?_⟩
    · rw [key]
      exact found
    · rw [key,live]
      simp [attestationKey]
    · rw [key]
      rfl

/-- A revocation that reports success is final: whatever is recorded or revoked after it, the
attestor is not listed. -/
theorem attested_revoked (call : RevokeAttestation) (answered : (revokeAttestation env db delivery call).1 = .ok)
    (ops : List (AttestationOp × Delivery)) :
    ¬ ∃ row ∈ listLiveAttestations env (attested env ops (revokeAttestation env db delivery call).2) call.skillId
      call.skillVersion, row.key.attestorDid = call.attestorDid := by
  have held : ∃ row, (revokeAttestation env db delivery call).2.row
      (attestationKey env call.skillId call.skillVersion call.attestorDid) = some row ∧ row.revokedAt.isSome = true := by
    unfold revokeAttestation at answered ⊢
    dsimp only at answered ⊢
    by_cases lands : (delivery.lands && delivery.answers) = true
    · rw [if_pos lands] at answered
      split at answered
      next => cases answered
      next reached =>
        obtain ⟨row,inside⟩ := List.exists_mem_of_ne_nil _ reached
        obtain ⟨found,own⟩ := Table.mem_select.mp inside
        have own := of_decide_eq_true own
        rw [own] at found
        rw [if_pos (Bool.and_eq_true_iff.mp lands).1,Table.row_update,found]
        exact ⟨_,rfl,by simp [own,RevokeAttestation.apply]⟩
    · rw [if_neg lands,if_pos rfl] at answered
      cases answered
  obtain ⟨row,found,revoked⟩ := held
  obtain ⟨row',found',revoked'⟩ := attested_keeps ops found revoked
  rw [listed_iff]
  rintro ⟨live,same,open'⟩
  obtain rfl := Option.some.inj (found'.symm.trans same)
  simp [open'] at revoked'

/-- After any operations, an attestation that reports success is live exactly when no
revoked row holds its key, and it is inserted or a row is there. -/
theorem recorded_live (env : AttestationEnv) (ops : List (AttestationOp × Delivery)) (delivery : Delivery)
    (call : RecordAttestation)
    (ok : (recordAttestation env (attested env ops Table.empty) delivery call).1 = .ok) :
    (∃ row ∈ listLiveAttestations env (recordAttestation env (attested env ops Table.empty) delivery call).2
      call.skillId
        call.skillVersion, row.key.attestorDid = call.attestorDid) ↔
      ¬ (∃ row, (attested env ops Table.empty).row
        (attestationKey env call.skillId call.skillVersion call.attestorDid) = some row ∧
        row.revokedAt.isSome = true) ∧
      (delivery.lands = true ∨
        ((attested env ops Table.empty).row
          (attestationKey env call.skillId call.skillVersion call.attestorDid)).isSome = true) := by
  generalize attested env ops Table.empty = db at ok ⊢
  rw [listed_iff]
  obtain ⟨_,failed⟩ | inserted := recordAttestation_cases env db delivery call
  · exact absurd ok failed
  rw [inserted]
  have own : (call.row env).key = attestationKey env call.skillId call.skillVersion call.attestorDid := rfl
  generalize attestationKey env call.skillId call.skillVersion call.attestorDid = key at own ⊢
  cases found : db.row key with
  | some row =>
    have kept : (if delivery.lands then db.insert (call.row env) else db).row key = some row := by
      split
      · exact insert_found found
      · exact found
    rw [kept]
    cases revoked : row.revokedAt with
    | none => simp [revoked]
    | some at_time => simp [revoked]
  | none =>
    cases lands : delivery.lands with
    | false => simp [found]
    | true =>
      rw [if_pos rfl,Table.row_insert,found,Option.none_or,if_pos own]
      simp [RecordAttestation.row]

end Liveness

section Samples

def plainAttestations : AttestationEnv := { plainCodec with chapterId := "acme" }

def adaVouches : RecordAttestation :=
  ⟨"garden","1.0.0","sha","did:key:ada","ada",keyNamed 'a',"trusted",keyNamed 'a',0,"",""⟩

def adaWithdraws : RevokeAttestation := ⟨"garden","1.0.0","did:key:ada",""⟩

def promptly : Delivery := ⟨0,true,true⟩

theorem ada_live : ∃ row ∈ listLiveAttestations plainAttestations
    (recordAttestation plainAttestations (attested plainAttestations [] Table.empty) promptly adaVouches).2 "garden"
      "1.0.0",
    row.key.attestorDid = "did:key:ada" := by
  have ok : (recordAttestation plainAttestations (attested plainAttestations [] Table.empty) promptly adaVouches).1 =
      .ok := by
    decide +kernel
  refine (recorded_live plainAttestations [] promptly adaVouches ok).mpr ⟨?_,.inl rfl⟩
  rintro ⟨row,found,_⟩
  cases found

/-- Once withdrawn, the attestation is reported as recorded again but is not live. -/
theorem ada_withdrawn :
    let db := attested plainAttestations [(.record adaVouches,promptly),(.revoke adaWithdraws,promptly)] Table.empty
    (recordAttestation plainAttestations db promptly adaVouches).1 = .ok ∧
      ¬ ∃ row ∈ listLiveAttestations plainAttestations (recordAttestation plainAttestations db promptly adaVouches).2
        "garden" "1.0.0", row.key.attestorDid = "did:key:ada" := by
  decide +kernel

theorem ada_stays_withdrawn :
    let db := (revokeAttestation plainAttestations
      (attested plainAttestations [(.record adaVouches,promptly)] Table.empty) promptly adaWithdraws).2
    ¬ ∃ row ∈ listLiveAttestations plainAttestations (attested plainAttestations [(.record adaVouches,promptly)] db)
      "garden" "1.0.0", row.key.attestorDid = "did:key:ada" :=
  attested_revoked adaWithdraws (by decide +kernel) _

end Samples

end Orrery.Skills
