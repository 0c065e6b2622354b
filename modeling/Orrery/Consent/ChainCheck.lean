import Orrery.Foundation.Chains
import Orrery.Foundation.JsonOrder
import Orrery.Consent.Ledger

/-! `verify_chain` of the consent ledger (consent/ledger.py): the table as SQLite holds it
is walked from its first row, hashes, links and signatures are checked, and then the
head checkpoint in the sidecar file. -/
namespace Orrery.Consent
open Foundation Json Chains

/-- A row of the file. The schema wants some columns filled; an edited file need not. -/
structure Stored where
  chapterId : Option String
  actorAgentId : Option String
  action : Option String
  targetType : Option String
  targetId : Option String
  outcome : Option String
  detail : Option String
  occurredAt : Option String
  prevSha256 : Option String
  eventSha256 : Option String
  signatureB64 : Option String

def textOf (column : Option String) : String := column.getD ""

def Row.stored (env : Env) (row : Row) : Stored where
  chapterId := some row.chapterId
  actorAgentId := row.actorAgentId
  action := some row.action
  targetType := row.targetType
  targetId := row.targetId
  outcome := some row.outcome
  detail := some (String.ofList (dumps env.floatRepr .sorted (.obj row.detail)))
  occurredAt := some (env.isoformat row.occurredAt)
  prevSha256 := row.prevSha256
  eventSha256 := some row.eventSha256
  signatureB64 := row.signatureB64

def Checkpoint.text (env : Env) (checkpoint : Checkpoint) : String :=
  String.ofList (dumps env.floatRepr .sorted (.obj [("version",.str "consent-checkpoint:v1"),
    ("count",.int checkpoint.count),("head_sha256",.str checkpoint.headSha256),
    ("signature_b64",optional checkpoint.signatureB64)]))

structure Tally where
  signaturesVerified : Nat
  unsignedRows : Nat

inductive Halt
  | returned (report : Dict)
  | raised (e : Exc)

def brokenReport (length index : Nat) (r : Stored) (rest : Dict) : Dict :=
  [("ok",.bool false),("length",.int length),("authenticated",.null),("broken_index",.int index),
    ("first_broken_at",optional r.occurredAt)] ++ rest

section Checks
variable (env : Env) (parseFloat : List Char → ℚ)

def Stored.decoded (r : Stored) : Option Json :=
  let column := if textOf r.detail = "" then ['\x7b','\x7d'] else (textOf r.detail).toList
  (loads parseFloat column).map fun detail => if detail.truthy then detail else .obj []

def Stored.canonicalEvent (prev : String) (r : Stored) : Option Json :=
  (r.decoded parseFloat).map fun detail =>
    .obj [("chapter_id",optional r.chapterId),("actor_agent_id",optional r.actorAgentId),("action",optional r.action),
      ("target_type",optional r.targetType),("target_id",optional r.targetId),("outcome",optional r.outcome),
      ("detail",detail),("occurred_at",optional r.occurredAt),
      ("prev_sha256",.str (if textOf r.prevSha256 = "" then prev else textOf r.prevSha256))]

def checkRow (key : Option String) (length index : Nat) (prev : String) (tally : Tally) (r : Stored) :
    Except Halt Tally :=
  match r.canonicalEvent parseFloat prev with
  | none => .error (.raised (.other "JSONDecodeError" ""))
  | some event =>
    let expected := env.sha256 event
    if some expected ≠ r.eventSha256 then
      .error (.returned (brokenReport length index r
        [("expected_sha256",.str expected),("actual_sha256",optional r.eventSha256)]))
    else if textOf r.prevSha256 ≠ prev then
      .error (.returned (brokenReport length index r [("reason",.str "prev_sha256 does not match chain"),
        ("expected_prev",.str prev),("actual_prev",optional r.prevSha256)]))
    else match key with
    | none => .ok tally
    | some key =>
      if textOf r.signatureB64 = "" then .ok { tally with unsignedRows := tally.unsignedRows+1 }
      else if env.verify key expected (textOf r.signatureB64) then
        .ok { tally with signaturesVerified := tally.signaturesVerified+1 }
      else .error (.returned (brokenReport length index r [("reason",.str "signature verification failed")]))

def checkRows (key : Option String) (length : Nat) : Nat → String → Tally → List Stored → Except Halt Tally
  | _, _, tally, [] => .ok tally
  | index, prev, tally, r :: rest =>
    (checkRow env parseFloat key length index prev tally r).bind fun tally =>
      checkRows key length (index+1) (textOf r.eventSha256) tally rest

def asInt : Json → Option Int
  | .int i => some i
  | .bool b => some (if b then 1 else 0)
  | _ => none

def orText (found : Option Json) : Json :=
  match found with
  | some value => if value.truthy then value else .str ""
  | none => .str ""

def formatted : Json → String
  | .int i => toString i
  | .bool b => if b then "True" else "False"
  | other => env.str other

def verifies (key message : String) : Json → Bool
  | .str signature => env.verify key message signature
  | _ => false

def driftReport (length : Nat) (reason : String) (rest : Dict) : Dict :=
  [("ok",.bool false),("length",.int length),("reason",.str reason)] ++ rest

def checkFields (key : Option String) (cp : Dict) (length : Nat) (headSha256 : String) : Option Dict :=
  let signature := (get cp "signature_b64").getD .null
  let count := (get cp "count").getD .null
  let head := orText (get cp "head_sha256")
  match asInt count with
  | none => none
  | some n =>
    let message := s!"consent-checkpoint:v1:{formatted env count}:{formatted env head}"
    let signed := match key with
      | none => none
      | some key =>
        if !signature.truthy then some "checkpoint_unsigned"
        else if verifies env key message signature then none
        else some "checkpoint_signature_invalid"
    match signed with
    | some reason => some (driftReport length reason [])
    | none =>
      if n > length then
        some (driftReport length "tail_truncation_detected" [("checkpoint_count",count),("actual_count",.int length)])
      else if n = length ∧ eqStr (some head) headSha256 = false then
        some (driftReport length "head_mismatch" [("checkpoint_head",head),("actual_head",.str headSha256)])
      else none

def checkHeadCheckpoint (key : Option String) (sidecar : Option String) (length : Nat) (headSha256 : String) :
    Except Exc (Option Dict) :=
  match sidecar.bind fun text => loads parseFloat text.toList with
  | none | some .null => .ok none
  | some (.obj cp) => .ok (checkFields env key cp length headSha256)
  | some other => .error (.attributeError s!"'{other.typeName}' object has no attribute 'get'")

def consistentReport (key : Option String) (length : Nat) (tally : Tally) : Dict :=
  [("ok",.bool true),("length",.int length),("signatures_verified",.int tally.signaturesVerified),
    ("unsigned_rows",.int tally.unsignedRows),
    ("authenticated",if key.isSome then .bool (tally.unsignedRows == 0) else .null)]

def verifyChain (key sidecar : Option String) (rows : List Stored) : Except Exc Dict :=
  match checkRows env parseFloat key rows.length 0 "" ⟨0,0⟩ rows with
  | .error (.raised e) => .error e
  | .error (.returned report) => .ok report
  | .ok tally =>
    let head := textOf (rows.getLast?.bind (·.eventSha256))
    (checkHeadCheckpoint env parseFloat key sidecar rows.length head).map fun drift =>
      drift.getD (consistentReport key rows.length tally)

def World.verifyChain (w : World) : Except Exc Dict :=
  Consent.verifyChain env parseFloat w.signingKey (w.checkpoint.map (Checkpoint.text env)) (w.rows.map (Row.stored env))

end Checks

def Ok (report : Dict) : Prop := get report "ok" = some (.bool true)

section Reports
variable {env : Env} {parseFloat : List Char → ℚ} {key : Option String}

theorem checkRow_ok {length index : Nat} {prev : String} {tally tally' : Tally} {r : Stored}
    (passed : checkRow env parseFloat key length index prev tally r = .ok tally') :
    ∃ event, r.canonicalEvent parseFloat prev = some event ∧ r.eventSha256 = some (env.sha256 event) ∧
      textOf r.prevSha256 = prev ∧
      ∀ k, key = some k → (tally'.unsignedRows = tally.unsignedRows+1 ∧ textOf r.signatureB64 = "") ∨
        (tally'.unsignedRows = tally.unsignedRows ∧ textOf r.signatureB64 ≠ "" ∧
          env.verify k (env.sha256 event) (textOf r.signatureB64) = true) := by
  unfold checkRow at passed
  split at passed
  next => cases passed
  next event decoded =>
    refine ⟨event,decoded,?_⟩
    dsimp only at passed
    split at passed
    next => cases passed
    next hashed =>
      split at passed
      next => cases passed
      next follows =>
        refine ⟨(not_not.mp hashed).symm,not_not.mp follows,?_⟩
        rintro k rfl
        dsimp only at passed
        split at passed
        next unsigned =>
          cases passed
          exact Or.inl ⟨rfl,unsigned⟩
        next signed =>
          split at passed
          next verified =>
            cases passed
            exact Or.inr ⟨rfl,signed,verified⟩
          next => cases passed

theorem checkRow_returned {length index : Nat} {prev : String} {tally : Tally} {r : Stored} {report : Dict}
    (stopped : checkRow env parseFloat key length index prev tally r = .error (.returned report)) : ¬ Ok report := by
  unfold checkRow at stopped
  split at stopped
  next => cases stopped
  next =>
    dsimp only at stopped
    split at stopped
    next =>
      cases stopped
      nofun
    next =>
      split at stopped
      next =>
        cases stopped
        nofun
      next =>
        split at stopped
        next => cases stopped
        next =>
          split at stopped
          next => cases stopped
          next =>
            split at stopped
            next => cases stopped
            next =>
              cases stopped
              nofun

theorem checkRows_returned {length : Nat} {report : Dict} {rows : List Stored} : ∀ {index : Nat} {prev : String}
    {tally : Tally}, checkRows env parseFloat key length index prev tally rows = .error (.returned report) →
    ¬ Ok report := by
  induction rows with
  | nil => nofun
  | cons r rest ih =>
    intro index prev tally stopped
    rw [checkRows] at stopped
    cases checked : checkRow env parseFloat key length index prev tally r with
    | error halt =>
      rw [checked] at stopped
      cases stopped
      exact checkRow_returned checked
    | ok next =>
      rw [checked] at stopped
      exact ih stopped

theorem checkFields_drift {cp : Dict} {length : Nat} {head : String} {report : Dict}
    (drift : checkFields env key cp length head = some report) : ¬ Ok report := by
  unfold checkFields at drift
  dsimp only at drift
  split at drift
  next => cases drift
  next =>
    split at drift
    next =>
      cases drift
      nofun
    next =>
      split at drift
      next =>
        cases drift
        nofun
      next =>
        split at drift
        next =>
          cases drift
          nofun
        next => cases drift

theorem checkHeadCheckpoint_drift {sidecar : Option String} {length : Nat} {head : String} {report : Dict}
    (drift : checkHeadCheckpoint env parseFloat key sidecar length head = .ok (some report)) : ¬ Ok report := by
  unfold checkHeadCheckpoint at drift
  split at drift
  next => cases drift
  next => cases drift
  next => exact checkFields_drift (Except.ok.inj drift)
  next => cases drift

theorem verifyChain_ok {sidecar : Option String} {rows : List Stored} {report : Dict} :
    verifyChain env parseFloat key sidecar rows = .ok report ∧ Ok report ↔
      ∃ tally, checkRows env parseFloat key rows.length 0 "" ⟨0,0⟩ rows = .ok tally ∧
        checkHeadCheckpoint env parseFloat key sidecar rows.length (textOf (rows.getLast?.bind (·.eventSha256))) =
          .ok none ∧ report = consistentReport key rows.length tally := by
  constructor
  · rintro ⟨verified,ok⟩
    unfold verifyChain at verified
    split at verified
    next => cases verified
    next stopped =>
      cases verified
      exact absurd ok (checkRows_returned stopped)
    next tally walked =>
      refine ⟨tally,walked,?_⟩
      dsimp only at verified
      cases checked : checkHeadCheckpoint env parseFloat key sidecar rows.length
          (textOf (rows.getLast?.bind (·.eventSha256))) with
      | error e =>
        rw [checked] at verified
        cases verified
      | ok drift =>
        rw [checked] at verified
        cases drift with
        | some report =>
          cases verified
          exact absurd ok (checkHeadCheckpoint_drift checked)
        | none => exact ⟨rfl,(Except.ok.inj verified).symm⟩
  · rintro ⟨tally,walked,checked,rfl⟩
    refine ⟨?_,rfl⟩
    rw [verifyChain,walked]
    dsimp only
    rw [checked]
    rfl

end Reports

section Rows
variable {env : Env} {parseFloat : List Char → ℚ} {digest : List Char → String}

def Digests (env : Env) (digest : List Char → String) : Prop :=
  ∀ event, env.sha256 event = digest (dumps env.floatRepr .canonical event)

theorem Digests.ordered (digests : Digests env digest) {event event' : Json}
    (same : Json.ordered event = Json.ordered event') : env.sha256 event = env.sha256 event' := by
  have canonical : ∀ v, dumps env.floatRepr .canonical (Json.ordered v) = dumps env.floatRepr .canonical v :=
    dumps_of_ordered env.floatRepr rfl
  rw [digests,digests,← canonical event,same,canonical]

theorem decoded_stored {row : Row} (proper : Proper parseFloat env.floatRepr (.obj row.detail)) :
    (row.stored env).decoded parseFloat = some (Json.ordered (.obj row.detail)) := by
  have filled : textOf (row.stored env).detail ≠ "" := by
    intro empty
    have length := dumps_length_pos .sorted proper
    have empty := congrArg String.toList empty
    simp only [Row.stored,textOf,Option.getD_some,String.toList_ofList,String.toList_empty] at empty
    rw [empty] at length
    cases length
  have text : (textOf (row.stored env).detail).toList = dumps env.floatRepr .sorted (.obj row.detail) := by
    simp [Row.stored,textOf]
  rw [Stored.decoded,if_neg filled,text,loads_dumps Layout.sorted_readable rfl proper,Option.map_some,truthy_ordered]
  cases row.detail with
  | nil => rfl
  | cons field fields => rfl

theorem canonicalEvent_stored {row : Row} (proper : Proper parseFloat env.floatRepr (.obj row.detail)) {prev : String}
    (link : textOf row.prevSha256 = prev) : ∃ event, (row.stored env).canonicalEvent parseFloat prev = some event ∧
      Json.ordered event = Json.ordered (canonicalEvent env row) := by
  refine ⟨_,by rw [Stored.canonicalEvent,decoded_stored proper,Option.map_some],?_⟩
  have same : (if textOf (row.stored env).prevSha256 = "" then prev else textOf (row.stored env).prevSha256) =
      textOf row.prevSha256 := by
    rw [← link]
    exact ite_id _
  apply ordered_obj
  rw [same]
  simp only [orderedFields,ordered_ordered]
  rfl

end Rows

/-- What Ed25519 promises between keys: a signature verifies under the key it was made
with, and two texts of a key may stand for the same one. -/
structure Keys (env : Env) where
  publicKey : String → String
  verify_sign : ∀ key signer message,
    env.verify key message (env.sign signer message) = true ↔ publicKey signer = publicKey key
  sign_ne_empty : ∀ signer message, env.sign signer message ≠ ""

section Recorded
variable {env : Env} {parseFloat : List Char → ℚ} {digest : List Char → String}

def Keys.Agree (keys : Keys env) (key signer : Option String) : Prop :=
  ∀ k, key = some k → ∀ s, signer = some s → keys.publicKey s = keys.publicKey k

/-- Under a configured key there is a signer, and it is that key's. -/
def Keys.Vouched (keys : Keys env) (key signer : Option String) : Prop :=
  ∀ k, key = some k → ∃ s, signer = some s ∧ keys.publicKey s = keys.publicKey k

theorem Keys.agree_self (keys : Keys env) (key : Option String) : keys.Agree key key := by
  rintro k configured s signed
  cases configured.symm.trans signed
  rfl

theorem Keys.vouched_self (keys : Keys env) (key : Option String) : keys.Vouched key key :=
  fun k configured => ⟨k,configured,rfl⟩

def Row.SignedBy (env : Env) (row : Row) (signer : Option String) : Prop :=
  row.signatureB64 = signer.map fun s => env.sign s row.eventSha256

def Chained (env : Env) (previous : Option Row) (row : Row) : Prop :=
  sha256Of env row = row.eventSha256 ∧
    RefersBack Row.eventSha256 (fun row => textOf row.prevSha256) "" previous row

theorem checkRow_recorded (digests : Digests env digest) (keys : Keys env) {row : Row}
    (proper : Proper parseFloat env.floatRepr (.obj row.detail)) {previous : Option Row}
    (chained : Chained env previous row) {signer : Option String} (signed : row.SignedBy env signer)
    (key : Option String) (length index : Nat) (tally : Tally) :
    (∃ tally', checkRow env parseFloat key length index ((previous.map Row.eventSha256).getD "") tally
      (row.stored env) =
      .ok tally') ↔ keys.Agree key signer := by
  obtain ⟨event,decoded,same⟩ := canonicalEvent_stored proper chained.2
  have hashed : env.sha256 event = row.eventSha256 := (digests.ordered same).trans chained.1
  have kept : ¬ some row.eventSha256 ≠ (row.stored env).eventSha256 := not_not.mpr rfl
  have link : ¬ textOf (row.stored env).prevSha256 ≠ (previous.map Row.eventSha256).getD "" := not_not.mpr chained.2
  rw [checkRow,decoded]
  dsimp only
  rw [hashed,if_neg kept,if_neg link]
  cases key with
  | none => exact iff_of_true ⟨tally,rfl⟩ nofun
  | some k =>
    have column : (row.stored env).signatureB64 = signer.map fun s => env.sign s row.eventSha256 := signed
    cases signer with
    | none =>
      rw [column]
      exact iff_of_true ⟨_,rfl⟩ (fun _ _ _ => nofun)
    | some s =>
      rw [column,Option.map_some,textOf,Option.getD_some]
      dsimp only
      rw [if_neg (keys.sign_ne_empty s _)]
      have agree : keys.Agree (some k) (some s) ↔ keys.publicKey s = keys.publicKey k := by simp [Keys.Agree]
      rw [agree,← keys.verify_sign k s row.eventSha256]
      split
      next verified => exact iff_of_true ⟨_,rfl⟩ verified
      next failed => exact iff_of_false nofun failed

theorem checkRows_recorded (digests : Digests env digest) (keys : Keys env) (key : Option String) (length : Nat)
    {rows : List Row} {signers : List (Option String)} (signed : List.Forall₂ (Row.SignedBy env) rows signers) :
    (∀ row ∈ rows, Proper parseFloat env.floatRepr (.obj row.detail)) → ∀ (previous : Option Row) (index : Nat)
    (tally : Tally), Linked (Chained env) previous rows →
    ((∃ tally', checkRows env parseFloat key length index ((previous.map Row.eventSha256).getD "") tally
      (rows.map (Row.stored env)) = .ok tally') ↔ ∀ s ∈ signers, keys.Agree key s) := by
  induction signed with
  | nil =>
    intro _ previous index tally _
    exact iff_of_true ⟨tally,rfl⟩ nofun
  | @cons row signer rows signers own _ ih =>
    intro proper previous index tally linked
    have first := checkRow_recorded digests keys (proper row List.mem_cons_self) linked.1 own key length index tally
    have rest := ih (fun row member => proper row (List.mem_cons_of_mem _ member)) (some row) (index+1)
    rw [List.map_cons,checkRows,List.forall_mem_cons,← first]
    cases checked : checkRow env parseFloat key length index ((previous.map Row.eventSha256).getD "") tally
        (row.stored env) with
    | error halt => exact iff_of_false nofun (fun both => nomatch both.1)
    | ok next =>
      rw [← rest next linked.2]
      exact (and_iff_right ⟨next,rfl⟩).symm

theorem ordered_optional (column : Option String) : Json.ordered (optional column) = optional column := by
  cases column <;> rfl

theorem proper_optional (column : Option String) : Proper parseFloat env.floatRepr (optional column) := by
  cases column <;> trivial

theorem loads_text (env : Env) (parseFloat : List Char → ℚ) (checkpoint : Checkpoint) :
    ∃ cp, loads parseFloat (checkpoint.text env).toList = some (.obj cp) ∧
    get cp "count" = some (.int checkpoint.count) ∧ get cp "head_sha256" = some (.str checkpoint.headSha256) ∧
    get cp "signature_b64" = some (optional checkpoint.signatureB64) := by
  let written : Dict := [("version",.str "consent-checkpoint:v1"),("count",.int checkpoint.count),
    ("head_sha256",.str checkpoint.headSha256),("signature_b64",optional checkpoint.signatureB64)]
  have distinct : (written.map Prod.fst).Nodup := by simp [written]
  have proper : Proper parseFloat env.floatRepr (.obj written) :=
    ⟨distinct,trivial,trivial,trivial,proper_optional _,trivial⟩
  refine ⟨sortFields (orderedFields written),?_,?_⟩
  · rw [Checkpoint.text,String.toList_ofList,loads_dumps Layout.sorted_readable rfl proper]
    rfl
  · rw [get_sortFields,get_sortFields,get_sortFields]
    exact ⟨rfl,rfl,congrArg some (ordered_optional _)⟩

theorem orText_str (s : String) : orText (some (.str s)) = .str s := by
  rw [orText]
  by_cases empty : s = ""
  · rw [empty]
    rfl
  · exact if_pos (bne_iff_ne.mpr empty)

theorem checkHeadCheckpoint_recorded (keys : Keys env) {checkpoint : Checkpoint} {signer : Option String}
    (signed : checkpoint.signatureB64 =
      signer.map fun s => env.sign s (checkpointMessage checkpoint.count checkpoint.headSha256))
    {length : Nat} {head : String} (grown : checkpoint.count ≤ length)
    (last : checkpoint.count = length → checkpoint.headSha256 = head) (key : Option String) :
    checkHeadCheckpoint env parseFloat key (some (checkpoint.text env)) length head = .ok none ↔
      keys.Vouched key signer := by
  obtain ⟨cp,read,count,headField,signature⟩ := loads_text env parseFloat checkpoint
  have within : ¬ (checkpoint.count : Int) > length := by omega
  have matching : ¬ ((checkpoint.count : Int) = length ∧ eqStr (some (.str checkpoint.headSha256)) head = false) := by
    rintro ⟨same,apart⟩
    rw [last (by omega)] at apart
    simp [eqStr] at apart
  rw [checkHeadCheckpoint,Option.bind_some,read]
  dsimp only
  rw [checkFields,count,headField,signature,orText_str]
  dsimp only [Option.getD_some,asInt]
  rw [if_neg within,if_neg matching]
  cases key with
  | none =>
    refine iff_of_true rfl ?_
    intro k absent
    cases absent
  | some k =>
    dsimp only
    cases signer with
    | none =>
      rw [signed]
      refine iff_of_false ?_ ?_
      · intro steady
        cases steady
      · intro vouched
        obtain ⟨s,absent,_⟩ := vouched k rfl
        cases absent
    | some s =>
      have filled : ¬ (!(optional checkpoint.signatureB64).truthy) = true := by
        rw [signed]
        simpa [optional,truthy] using keys.sign_ne_empty s _
      have verified : verifies env k (checkpointMessage checkpoint.count checkpoint.headSha256)
          (optional checkpoint.signatureB64) = true ↔ keys.publicKey s = keys.publicKey k := by
        rw [signed]
        exact keys.verify_sign k s _
      have vouched : keys.Vouched (some k) (some s) ↔ keys.publicKey s = keys.publicKey k := by simp [Keys.Vouched]
      rw [if_neg filled,vouched,← verified]
      split
      next reason found =>
        refine iff_of_false ?_ ?_
        · intro steady
          cases steady
        · intro checked
          cases (if_pos checked).symm.trans found
      next found =>
        refine iff_of_true rfl ?_
        by_contra failed
        cases (if_neg failed).symm.trans found

end Recorded

end Orrery.Consent
