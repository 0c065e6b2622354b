import Orrery.Arp.ReceiptChain

/-! The chapter's Issuer Log (server/arp.py) and the verification of what it takes in
(server/_arp_verify). Offline it is one SQLite table with `receipt_id` as its key;
online it is Postgres, of which only the answers are seen here. The JSON Schema
validator is a parameter. -/
namespace Orrery.Arp
open Foundation Json

inductive VerifyStage
  | schema | signature | authority | hashChain | duplicate | accepted
deriving DecidableEq

def VerifyStage.text : VerifyStage → String
  | .schema => "schema"
  | .signature => "signature"
  | .authority => "authority"
  | .hashChain => "hash_chain"
  | .duplicate => "duplicate"
  | .accepted => "accepted"

structure VerificationResult where
  ok : Bool
  stage : VerifyStage
  detail : String
deriving DecidableEq

def VerificationResult.accepted : VerificationResult := ⟨true,.accepted,"receipt verifies"⟩

structure Verifying extends Signing where
  validateSchema : Dict → VerificationResult
  b64decodeStrict : Json → Except Exc Bytes
  floatText : ℚ → String

def Verifying.str (s : Verifying) : Json → String
  | .str text => text
  | other => s.repr other

def issuerKey (s : Verifying) : Json → Except Exc Bytes
  | .str did =>
    if "did:key:z".toList.isPrefixOf did.toList then do
      let decoded ← s.b58decode (String.ofList (did.toList.drop "did:key:z".length))
      if decoded.length ≠ 34 ∨ decoded.take 2 ≠ Dat.didPrefix then
        .error (.valueError "Not a did:key Ed25519 record")
      else s.fromPublicBytes (decoded.drop 2)
    else .error (.valueError s!"Unsupported DID method: {s.repr (.str did)}")
  | other => .error (Merkle.noAttribute other "startswith")

def verifySignature (s : Verifying) (receipt : Dict) : Except Exc VerificationResult :=
  let signature := (get receipt "signature").getD (.str "")
  let issuerDid := (get receipt "issuer_did").getD (.str "")
  if !signature.truthy || !issuerDid.truthy then .ok ⟨false,.signature,"missing signature or issuer_did"⟩
  else
    match issuerKey s issuerDid with
    | .error e => .ok ⟨false,.signature,"invalid issuer_did: " ++ e.text⟩
    | .ok key =>
      match s.b64decodeStrict signature with
      | .error e => .ok ⟨false,.signature,"signature base64 decode failed: " ++ e.text⟩
      | .ok bytes =>
        if bytes.length ≠ 64 then .ok ⟨false,.signature,s!"signature length {bytes.length} ≠ 64"⟩
        else do
          let canonical ← s.canonicalize (.obj (pop receipt "signature"))
          if s.verify key bytes canonical then return .accepted
          else return ⟨false,.signature,"Ed25519 verification failed"⟩

def highStakesCategories : List String := ["purchase","payment_sent","payment_received","commitment_entered"]

def verifyAuthority (s : Verifying) (receipt : Dict) : Except Exc VerificationResult :=
  if !eqStr (get receipt "version") "arp/0.2" then .ok .accepted
  else
    let action := (get receipt "action").getD .null
    match if action.truthy then action else .obj [] with
    | .obj action =>
      let category := (get action "category").getD .null
      if eqStr (some category) "authority_granted" || eqStr (some category) "authority_revoked" then
        if pyEq ((get receipt "principal_did").getD .null) ((get receipt "issuer_did").getD .null) then .ok .accepted
        else .ok ⟨false,.authority,
          s!"{s.str category} must be principal-emitted (principal_did == issuer_did)"⟩
      else do
        let key ← hashKey category
        if highStakesCategories.any (fun name => key == .str name) then
          let grantId := (get action "granted_by_receipt_id").getD .null
          if !grantId.truthy then
            return ⟨false,.authority,s!"high-stakes category {s.repr category} requires granted_by_receipt_id"⟩
          else do
            let _ ← hashKey grantId
            return ⟨false,.authority,s!"authority grant {s.str grantId} not found"⟩
        else return .accepted
    | other => .error (Merkle.noAttribute other "get")

inductive ChainMode
  | strict | tolerant
deriving DecidableEq

def verifyReceipt (s : Verifying) (receipt : Dict) (mode : ChainMode) (prior : Option Dict) :
    Except Exc VerificationResult := do
  let schema := s.validateSchema receipt
  if !schema.ok then return schema
  else do
    let signature ← verifySignature s receipt
    if !signature.ok then return signature
    else do
      let authority ← verifyAuthority s receipt
      if !authority.ok then return authority
      else do
        let previous := (get receipt "previous_receipt_hash").getD .null
        if !previous.truthy then return .accepted
        else
          match prior with
          | none =>
            if mode = .strict then
              return ⟨false,.hashChain,
                s!"previous_receipt_hash {s.str previous} not satisfied by any provided prior"⟩
            else return ⟨true,.accepted,"chain claim recorded; prior not provided (tolerant mode)"⟩
          | some prior => do
            let recomputed ← receiptChainLink s.toSigning prior
            if eqStr (some previous) recomputed then return .accepted
            else return ⟨false,.hashChain,s!"declared {s.str previous} does not match recomputed {recomputed}"⟩

structure IssuerRow where
  receiptId : Option String
  issuerDid : Option String
  principalDid : Option String
  issuedAt : Option String
  actionCategory : Option String
  actionOutcome : Option String
  humanSummary : Option String
  counterpartyDid : Option String
  previousReceiptHash : Option String
  chainLink : String
  receiptJson : Dict

abbrev IssuerRows := List IssuerRow

def bindText (s : Verifying) : Json → Except Exc (Option String)
  | .null => .ok none
  | .str text => .ok (some text)
  | .int i => .ok (some (toString i))
  | .bool b => .ok (some (if b then "1" else "0"))
  | .float q => .ok (some (s.floatText q))
  | other => .error (.other "ProgrammingError" s!"Error binding parameter: type '{other.typeName}' is not supported")

def IssuerRow.conflicts (old row : IssuerRow) : Bool := old.receiptId.isSome && old.receiptId == row.receiptId

def persist (rows : IssuerRows) (row : IssuerRow) : IssuerRows :=
  (rows.filter fun old => !old.conflicts row) ++ [row]

structure RowValues where
  receiptId : Json
  issuerDid : Json
  principalDid : Json
  issuedAt : Json
  actionCategory : Json
  actionOutcome : Json
  humanSummary : Json
  counterpartyDid : Json
  previousReceiptHash : Json
  chainLink : String
  receiptJson : Dict

def fieldsOf (value : Json) : Except Exc Dict :=
  match value with
  | .obj fields => .ok fields
  | other => .error (Merkle.noAttribute other "get")

def rowValues (receipt : Dict) (chainLink : String) : Except Exc RowValues := do
  let action ← fieldsOf (← item receipt "action")
  let amount := (get action "amount").getD .null
  let receiptId ← item receipt "receipt_id"
  let issuerDid ← item receipt "issuer_did"
  let principalDid ← item receipt "principal_did"
  let issuedAt ← item receipt "issued_at"
  let _ ← item receipt "version"
  let category ← item action "category"
  let outcome ← item action "outcome"
  let summary ← item action "human_summary"
  let _ ← fieldsOf (if amount.truthy then amount else .obj [])
  return ⟨receiptId,issuerDid,principalDid,issuedAt,category,outcome,summary,
    (get action "counterparty_did").getD .null,(get receipt "previous_receipt_hash").getD .null,chainLink,receipt⟩

def RowValues.bind (s : Verifying) (row : RowValues) : Except Exc IssuerRow := do
  return ⟨← bindText s row.receiptId,← bindText s row.issuerDid,← bindText s row.principalDid,← bindText s row.issuedAt,
    ← bindText s row.actionCategory,← bindText s row.actionOutcome,← bindText s row.humanSummary,
    ← bindText s row.counterpartyDid,← bindText s row.previousReceiptHash,row.chainLink,row.receiptJson⟩

structure Emission where
  receipt : Dict
  requirePrincipalMatch : Option String
  prior : Option Dict
  ownDid : String
  existing : Bool
  persisted : Bool

structure IssuerLog where
  offline : Bool
  pgRequest : Bool
  localLog : Option IssuerRows

def chainMode (e : Emission) : ChainMode :=
  if eqStr (get e.receipt "issuer_did") e.ownDid then .strict else .tolerant

def emit (s : Verifying) (log : IssuerLog) (e : Emission) : Except Exc (VerificationResult × IssuerLog) := do
  let previous := (get e.receipt "previous_receipt_hash").getD .null
  let prior := if previous.truthy && log.pgRequest then e.prior else none
  let result ← verifyReceipt s e.receipt (chainMode e) prior
  if !result.ok then return (result,log)
  else if e.requirePrincipalMatch.any (fun principal => !eqStr (get e.receipt "principal_did") principal) then
    return (⟨false,.schema,"principal_did does not match authenticated principal"⟩,log)
  else if !log.offline && log.pgRequest && e.existing then
    return (⟨false,.duplicate,"receipt already recorded (idempotent re-submit)"⟩,log)
  else do
    let chainLink ← receiptChainLink s.toSigning e.receipt
    if !log.pgRequest && !log.offline then
      return (⟨false,.schema,"arp module not initialised — pg_request missing"⟩,log)
    else do
      let row ← rowValues e.receipt chainLink
      if log.offline then
        match log.localLog with
        | none => return (⟨false,.schema,"offline mode but local Issuer Log missing"⟩,log)
        | some rows => return (.accepted,{ log with localLog := some (persist rows (← row.bind s)) })
      else if !e.persisted then return (⟨false,.accepted,"verified but persistence failed"⟩,log)
      else return (.accepted,log)

def screen (s : Verifying) (pgRequest : Bool) (e : Emission) : Except Exc VerificationResult := do
  let previous := (get e.receipt "previous_receipt_hash").getD .null
  let result ← verifyReceipt s e.receipt (chainMode e) (if previous.truthy && pgRequest then e.prior else none)
  if !result.ok then return result
  else if e.requirePrincipalMatch.any (fun principal => !eqStr (get e.receipt "principal_did") principal) then
    return ⟨false,.schema,"principal_did does not match authenticated principal"⟩
  else return result

def rowOf (s : Verifying) (receipt : Dict) : Except Exc IssuerRow := do
  let chainLink ← receiptChainLink s.toSigning receipt
  let row ← rowValues receipt chainLink
  row.bind s

def Storable (s : Verifying) (pgRequest : Bool) (e : Emission) (row : IssuerRow) : Prop :=
  (∃ result, screen s pgRequest e = .ok result ∧ result.ok = true) ∧ rowOf s e.receipt = .ok row

theorem emit_offline (s : Verifying) (pgRequest : Bool) (rows : IssuerRows) (e : Emission) :
    emit s ⟨true,pgRequest,some rows⟩ e = do
      let result ← screen s pgRequest e
      if result.ok then return (.accepted,⟨true,pgRequest,some (persist rows (← rowOf s e.receipt))⟩)
      else return (result,⟨true,pgRequest,some rows⟩) := by
  simp only [emit,screen,rowOf]
  generalize verifyReceipt s e.receipt (chainMode e)
    (if ((get e.receipt "previous_receipt_hash").getD .null).truthy && pgRequest then e.prior else none) = verified
  cases verified with
  | error exception => rfl
  | ok result =>
    simp only [ok_bind]
    cases passed : result.ok with
    | false => simp [passed]
    | true =>
      cases mismatch : e.requirePrincipalMatch.any fun principal =>
        !eqStr (get e.receipt "principal_did") principal with
      | true => simp
      | false => simp [passed]

theorem emit_accepted {s : Verifying} {pgRequest : Bool} {rows : IssuerRows} {e : Emission} {row : IssuerRow}
    (storable : Storable s pgRequest e row) :
    emit s ⟨true,pgRequest,some rows⟩ e = .ok (.accepted,⟨true,pgRequest,some (persist rows row)⟩) := by
  obtain ⟨⟨result,screened,passed⟩,stored⟩ := storable
  rw [emit_offline,screened,ok_bind,if_pos passed,stored]
  rfl

theorem emit_refused {s : Verifying} {pgRequest : Bool} {rows : IssuerRows} {e : Emission}
    (refused : ¬ ∃ row, Storable s pgRequest e row) {result : VerificationResult} {log : IssuerLog}
    (emitted : emit s ⟨true,pgRequest,some rows⟩ e = .ok (result,log)) :
    result.ok = false ∧ log = ⟨true,pgRequest,some rows⟩ := by
  rw [emit_offline] at emitted
  obtain ⟨screened,checked,emitted⟩ := bind_success _ _ _ emitted
  split at emitted
  next passed =>
    obtain ⟨row,stored,_⟩ := bind_success _ _ _ emitted
    exact absurd ⟨row,⟨screened,checked,passed⟩,stored⟩ refused
  next failed =>
    cases emitted
    exact ⟨by simpa using failed,rfl⟩

structure Intake where
  rows : IssuerRows
  accepted : List Dict

def Intake.empty : Intake := ⟨[],[]⟩

def Intake.emit (s : Verifying) (pgRequest : Bool) (t : Intake) (e : Emission) : Intake :=
  match Arp.emit s ⟨true,pgRequest,some t.rows⟩ e with
  | .ok (result,⟨_,_,some rows⟩) => ⟨rows,if result.ok then t.accepted ++ [e.receipt] else t.accepted⟩
  | _ => t

def Kept (t : Intake) : Prop := ∀ receipt ∈ t.accepted, ∃ row ∈ t.rows, row.receiptJson = receipt

/-- The receipt's id is not taken, or is taken by the receipt itself. -/
def Fresh (s : Verifying) (pgRequest : Bool) (t : Intake) (e : Emission) : Prop :=
  ∀ row, Storable s pgRequest e row → ∀ old ∈ t.rows, old.conflicts row = true → old.receiptJson = e.receipt

theorem Intake.emit_stored {s : Verifying} {pgRequest : Bool} {t : Intake} {e : Emission} {row : IssuerRow}
    (storable : Storable s pgRequest e row) :
    t.emit s pgRequest e = ⟨persist t.rows row,t.accepted ++ [e.receipt]⟩ := by
  unfold Intake.emit
  rw [emit_accepted storable]
  rfl

theorem Intake.emit_unstored {s : Verifying} {pgRequest : Bool} {t : Intake} {e : Emission}
    (refused : ¬ ∃ row, Storable s pgRequest e row) : t.emit s pgRequest e = t := by
  unfold Intake.emit
  split
  next result _ _ rows emitted =>
    obtain ⟨failed,same⟩ := emit_refused refused emitted
    simp only [IssuerLog.mk.injEq,Option.some.injEq] at same
    rw [failed,same.2.2]
    rfl
  next => rfl

def Backed (s : Verifying) (t : Intake) : Prop :=
  ∀ row ∈ t.rows, row.receiptJson ∈ t.accepted ∧ rowOf s row.receiptJson = .ok row

theorem rowOf_receiptJson {s : Verifying} {receipt : Dict} {row : IssuerRow} (stored : rowOf s receipt = .ok row) :
    row.receiptJson = receipt := by
  obtain ⟨link,_,stored⟩ := bind_success _ _ _ stored
  obtain ⟨values,read,stored⟩ := bind_success _ _ _ stored
  have kept : values.receiptJson = receipt := by
    -- eleven lookups, none of which changes the receipt
    iterate 11 obtain ⟨_,_,read⟩ := bind_success _ _ _ read
    cases read
    rfl
  iterate 9 obtain ⟨_,_,stored⟩ := bind_success _ _ _ stored
  cases stored
  exact kept

theorem mem_persist {rows : IssuerRows} {row other : IssuerRow} :
    other ∈ persist rows row ↔ (other ∈ rows ∧ other.conflicts row = false) ∨ other = row := by
  simp [persist]

theorem Backed.emit {s : Verifying} {pgRequest : Bool} {t : Intake} (backed : Backed s t) (e : Emission) :
    Backed s (t.emit s pgRequest e) := by
  by_cases accepted : ∃ row, Storable s pgRequest e row
  · obtain ⟨row,storable⟩ := accepted
    rw [Intake.emit_stored storable]
    intro other member
    rcases mem_persist.mp member with ⟨before,_⟩ | rfl
    · obtain ⟨taken,own⟩ := backed other before
      exact ⟨List.mem_append_left _ taken,own⟩
    · have same := rowOf_receiptJson storable.2
      exact ⟨List.mem_append_right _ (by simp [same]),by rw [same]; exact storable.2⟩
  · rw [Intake.emit_unstored accepted]
    exact backed

theorem kept_emit_iff {s : Verifying} {pgRequest : Bool} {t : Intake} (e : Emission) (backed : Backed s t)
    (kept : Kept t) : Kept (t.emit s pgRequest e) ↔ Fresh s pgRequest t e := by
  by_cases accepted : ∃ row, Storable s pgRequest e row
  · obtain ⟨row,storable⟩ := accepted
    rw [Intake.emit_stored storable]
    constructor
    · intro still row' storable' old before conflict
      obtain rfl : row = row' := Except.ok.inj (storable.2.symm.trans storable'.2)
      obtain ⟨taken,own⟩ := backed old before
      obtain ⟨found,member,same⟩ := still old.receiptJson (List.mem_append_left _ taken)
      rcases mem_persist.mp member with ⟨elsewhere,apart⟩ | rfl
      · -- the same receipt is the same row, which was replaced
        have equal := (backed found elsewhere).2
        rw [same,own] at equal
        rw [← Except.ok.inj equal,conflict] at apart
        cases apart
      · rw [← same]
        exact rowOf_receiptJson storable.2
    · intro fresh receipt member
      rcases List.mem_append.mp member with before | single
      · obtain ⟨old,inside,same⟩ := kept receipt before
        cases conflict : old.conflicts row with
        | false => exact ⟨old,mem_persist.mpr (Or.inl ⟨inside,conflict⟩),same⟩
        | true =>
          have replaced := fresh row storable old inside conflict
          exact ⟨row,mem_persist.mpr (Or.inr rfl),by rw [rowOf_receiptJson storable.2,← replaced,same]⟩
      · obtain rfl := List.mem_singleton.mp single
        exact ⟨row,mem_persist.mpr (Or.inr rfl),rowOf_receiptJson storable.2⟩
  · rw [Intake.emit_unstored accepted]
    exact iff_of_true kept fun row storable => absurd ⟨row,storable⟩ accepted

/-- Offline, an accepted receipt stays stored after every later `emit` exactly when no
receipt that passes comes under the id of another one. -/
theorem kept_iff_fresh (s : Verifying) (pgRequest : Bool) (emissions : List Emission) :
    (∀ k, Kept ((emissions.take k).foldl (Intake.emit s pgRequest) .empty)) ↔
      ∀ (k : Nat) e, emissions[k]? = some e →
        Fresh s pgRequest ((emissions.take k).foldl (Intake.emit s pgRequest) .empty) e :=
  Runs.always_iff (fun _ e backed => Backed.emit backed e) (fun _ e backed kept =>
    kept_emit_iff e backed kept) emissions
    .empty (by simp [Backed,Intake.empty]) (by simp [Kept,Intake.empty])

def secondDid : String := "did:key:z6MkeXBLjYiSvqnhFb6D7sHm8yKm4jV45wwBFRaatf1cfZ76"

def sampleVerifying : Verifying where
  toSigning :=
    { sampleSigning with
      b58decode := fun text =>
        if text = "6MkeTG3bFFSLYVU7VqhgZxqr6YzpaGrQtFMh1uvqGy1vDnP" then .ok (0xed :: 0x01 :: List.replicate 32 0)
        else if text = "6MkeXBLjYiSvqnhFb6D7sHm8yKm4jV45wwBFRaatf1cfZ76" then
          .ok (0xed :: 0x01 :: List.replicate 32 1)
        else .error (.valueError "Invalid character")
      -- a signature is here the key it was made with, twice over
      verify := fun key signature _ => decide (signature = key ++ key) }
  validateSchema _ := .accepted
  b64decodeStrict
    | .str text => .ok (List.replicate 64 (if "AA".toList.isPrefixOf text.toList then 0 else 1))
    | _ => .error (.typeError "argument should be a bytes-like object or ASCII string, not 'NoneType'")
  floatText _ := ""

def sampleEmission (issuerDid signature summary : String) : Emission where
  receipt :=
    [("version",.str "arp/0.1"),("receipt_id",.str "11111111-1111-4111-8111-111111111111"),
      ("issuer_did",.str issuerDid),
      ("principal_did",.str issuerDid),("issued_at",.str "2026-06-01T00:00:00Z"),
      ("action",.obj [("category",.str "message_sent"),("human_summary",.str summary),("outcome",.str "completed")]),
      ("signature",.str signature)]
  requirePrincipalMatch := none
  prior := none
  ownDid := ""
  existing := false
  persisted := false

def takingOver : List Emission :=
  [sampleEmission Merkle.sampleDid
      "AAAAAAAAAAAAAAAAAAAAAAAAAAAAAAAAAAAAAAAAAAAAAAAAAAAAAAAAAAAAAAAAAAAAAAAAAAAAAAAAAAAAAA==" "Called A (ping).",
    sampleEmission secondDid
      "AQEBAQEBAQEBAQEBAQEBAQEBAQEBAQEBAQEBAQEBAQEBAQEBAQEBAQEBAQEBAQEBAQEBAQEBAQEBAQEBAQEBAQ==" "Called B (ping)."]

def summaryOf (receipt : Dict) : Option String :=
  match get receipt "action" with
  | some (.obj action) =>
    match get action "human_summary" with
    | some (.str summary) => some summary
    | _ => none
  | _ => none

theorem takingOver_loses : ¬ Kept (takingOver.foldl (Intake.emit sampleVerifying false) .empty) := by
  have seen : ((takingOver.foldl (Intake.emit sampleVerifying false) .empty).accepted.map summaryOf,
      (takingOver.foldl (Intake.emit sampleVerifying false) .empty).rows.map fun row => summaryOf row.receiptJson) =
      ([some "Called A (ping).",some "Called B (ping)."],[some "Called B (ping)."]) := by decide +kernel
  obtain ⟨accepted,stored⟩ := Prod.mk.inj seen
  intro kept
  have first : some "Called A (ping)." ∈
      (takingOver.foldl (Intake.emit sampleVerifying false) .empty).accepted.map summaryOf := by
    rw [accepted]
    exact List.mem_cons_self ..
  obtain ⟨receipt,member,summary⟩ := List.mem_map.mp first
  obtain ⟨row,inside,same⟩ := kept receipt member
  have still := List.mem_map_of_mem (f := fun row : IssuerRow => summaryOf row.receiptJson) inside
  rw [stored,same,summary] at still
  simp at still

end Orrery.Arp
