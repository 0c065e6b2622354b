import Orrery.Chapter.Identity
import Orrery.Foundation.Runs
import Orrery.Trust.Recorded

/-! Endorsements and their revocation (server/endorsements.py), and the trust that one
member gains from another by them. -/
namespace Orrery.Trust
open Foundation Chapter

structure EndorsementEnv extends Codec where
  chapterId : String

structure EndorseCall where
  endorserAgentId : String
  endorserDid : String
  endorseeAgentId : String
  endorserPubkeyB64 : String
  signatureB64 : String
  createdUnix : Int
  noteMarkdown : Option String

inductive EndorsementOp
  | endorse (call : EndorseCall)
  | revoke (endorserAgentId endorseeAgentId revocationReason : String)

/-- What the two functions return; `belowFloor` is the error "endorser_trust_below_floor",
with the trust, and `raised` a ValueError of `record`. -/
inductive EndorsementResult
  | error (reason : String)
  | belowFloor (trust : ℚ)
  | raised (refusal : Refusal)
  | endorsed (refreshed : Bool) (endorsementId : Option ℕ) (trustEventMinted : Bool)
  | revoked (trustEventMinted : Bool)

def minEndorserTrust : ℚ := 20

section Programs
variable (env : EndorsementEnv)

def canonicalString (endorserDid endorseeAgentId : String) (createdUnix : Int) : String :=
  s!"ENDORSE:{env.chapterId}:{endorserDid}:{endorseeAgentId}:{createdUnix}"

def verifyEndorsementSignature (call : EndorseCall) : Bool :=
  ed25519Verify env.toCodec (canonicalString env call.endorserDid call.endorseeAgentId call.createdUnix)
    call.signatureB64 call.endorserPubkeyB64

def getEndorserTrustScore (endorserAgentId : String) : Program ℚ := do
  let rows ← getTrustScore endorserAgentId
  return (rows.getD []).head?.getD 0

def EndorseCall.vouch (call : EndorseCall) : Vouch where
  chapterId := env.chapterId
  endorserAgentId := call.endorserAgentId
  endorserDid := call.endorserDid
  endorseeAgentId := call.endorseeAgentId
  endorserPubkeyB64 := call.endorserPubkeyB64
  signatureB64 := call.signatureB64
  noteMarkdown := call.noteMarkdown
  createdUnix := call.createdUnix

def received (endorser endorsee : String) : RecordCall :=
  ⟨endorsee,"endorsement_received",some s!"endorsement:{endorser}:{endorsee}",some endorser,
    some s!"endorsed by {endorser}"⟩

def clipped (count : ℕ) (text : String) : String := String.ofList (text.toList.take count)

def withdrawn (endorser endorsee reason : String) : RecordCall :=
  ⟨endorsee,"revocation_received",some s!"endorsement_revoke:{endorser}:{endorsee}",some endorser,
    let text := clipped 120 reason
    some s!"endorsement revoked by {endorser}: {text}"⟩

def mint (call : EndorseCall) (refreshed : Bool) (rowId : Option ℕ) : Program EndorsementResult := do
  match ← record (received call.endorserAgentId call.endorseeAgentId) with
  | .error refusal => return .raised refusal
  | .ok minted => return .endorsed refreshed rowId minted.isSome

def writeEndorsement (call : EndorseCall) (existing : Option (List Endorsement)) : Program EndorsementResult :=
  match (existing.getD []).head? with
  | some row => do
    let _ ← patchEndorsement row.id (.refreshed (call.vouch env))
    mint call true (some row.id)
  | none => do
    let result ← postEndorsement (call.vouch env)
    mint call false ((result.getD []).head?.map Endorsement.id)

def recordEndorsement (call : EndorseCall) : Program EndorsementResult := do
  if call.endorserAgentId = call.endorseeAgentId then return .error "self-endorsement rejected"
  if call.endorserPubkeyB64 = "" ∨ call.signatureB64 = "" then return .error "missing signature material"
  if !verifyEndorsementSignature env call then return .error "invalid_signature"
  let trust ← getEndorserTrustScore call.endorserAgentId
  if trust < minEndorserTrust then return .belowFloor trust
  let existing ← getEndorsement call.endorserAgentId call.endorseeAgentId
  writeEndorsement env call existing

def compensate (endorser endorsee reason : String) : Program EndorsementResult := do
  match ← record (withdrawn endorser endorsee reason) with
  | .error refusal => return .raised refusal
  | .ok minted => return .revoked minted.isSome

def revokeRead (endorser endorsee reason : String) (existing : Option (List Endorsement)) : Program EndorsementResult :=
  match (existing.getD []).head? with
  | none => return .error "not_found"
  | some row =>
    if row.revokedAt.isSome then return .error "already_revoked"
    else do
      let revokedAt ← utcNow
      let _ ← patchEndorsement row.id (.revoked revokedAt (clipped 512 reason))
      compensate endorser endorsee reason

def revokeEndorsement (endorser endorsee reason : String) : Program EndorsementResult := do
  if endorser = endorsee then return .error "self-revoke rejected"
  let existing ← getEndorsement endorser endorsee
  revokeRead endorser endorsee reason existing

def EndorsementOp.program : EndorsementOp → Program EndorsementResult
  | .endorse call => recordEndorsement env call
  | .revoke endorser endorsee reason => revokeEndorsement endorser endorsee reason

end Programs

structure EndorsementMove where
  op : EndorsementOp
  scale : Option PyFloat
  landings : ℕ → Landing

def EndorsementMove.landing (move : EndorsementMove) (n : ℕ) : Landing := { move.landings n with scale := move.scale }

def EndorsementMove.apply (env : EndorsementEnv) (db : Db) (move : EndorsementMove) : Db :=
  (Proc.run exec move.landing (move.op.program env) db).2.1

def EndorsementOp.pair : EndorsementOp → String × String
  | .endorse call => (call.endorserAgentId,call.endorseeAgentId)
  | .revoke endorser endorsee _ => (endorser,endorsee)

def Db.between (db : Db) (endorser endorsee : String) : List TrustEvent :=
  db.events.filter fun row => row.agentId = endorsee && row.sourceAgentId = some endorser

def Db.net (db : Db) (endorser endorsee : String) : ℚ := total (db.between endorser endorsee)

/-- The store carries every statement out and answers, and a new row has a new id. -/
def Successful (db : Db) (move : EndorsementMove) : Prop :=
  ∀ n, ((move.landings n).lands && (move.landings n).answers) = true ∧
    (move.landings n).newId ∉ db.endorsements.rows.map Endorsement.id

structure EndorseCall.Accepted (env : EndorsementEnv) (call : EndorseCall) (trust : ℚ) : Prop where
  other : call.endorserAgentId ≠ call.endorseeAgentId
  named : call.endorseeAgentId ≠ ""
  material : ¬ (call.endorserPubkeyB64 = "" ∨ call.signatureB64 = "")
  signed : verifyEndorsementSignature env call = true
  trusted : minEndorserTrust ≤ trust

/-- An endorsement that is accepted, and whose event is still to be minted, is made at a
scale at which the event is worth at most 0.5. -/
def Modest (env : EndorsementEnv) (db : Db) (move : EndorsementMove) : Prop :=
  ∀ call, move.op = .endorse call → call.Accepted env ((move.landings 0).trustScore.head?.getD 0) →
    ¬ db.minted (received call.endorserAgentId call.endorseeAgentId) → numeric63 (scaledDelta (1/2) move.scale) ≤ 1/2

section Ledger

def TrustEvent.IsOf (row : TrustEvent) (call : RecordCall) : Prop :=
  row.agentId = call.agentId ∧ row.eventType = call.eventType ∧ row.sourceAgentId = call.sourceAgentId ∧
    row.sourceEventId = call.sourceEventId

def Proper (endorser endorsee : String) : Prop := endorser ≠ endorsee ∧ endorsee ≠ ""

def Earned (endorsements : Endorsements) (row : TrustEvent) : Prop :=
  ∃ endorser endorsee, Proper endorser endorsee ∧
    (row.IsOf (received endorser endorsee) ∧ row.delta ≤ 1/2 ∧ (endorsements.row (endorser,endorsee)).isSome = true ∨
      row.IsOf (withdrawn endorser endorsee "") ∧ row.delta ≤ -(1/2))

structure Db.Sound (db : Db) : Prop where
  earned : ∀ row ∈ db.events, Earned db.endorsements row
  apart : db.events.Pairwise fun row other => row.clashes other = false

structure Db.Fair (db : Db) : Prop extends Db.Sound db where
  repaid : ∀ endorser endorsee row, db.endorsements.row (endorser,endorsee) = some row → row.revokedAt.isSome = true →
    endorsee ≠ "" → db.minted (withdrawn endorser endorsee "")

def TrustEvent.credits (row : TrustEvent) : Bool := row.eventType = "endorsement_received"
def TrustEvent.debits (row : TrustEvent) : Bool := row.eventType = "revocation_received"

variable {db : Db} {endorser endorsee : String} {rows : List TrustEvent} {row : TrustEvent}

theorem withdrawn_source {other : String}
    (same : (withdrawn other endorsee "").sourceEventId = (withdrawn endorser endorsee "").sourceEventId) : other =
      endorser := by
  apply String.toList_injective
  have characters := congrArg String.toList (Option.some.inj same)
  simpa [toString,String.toList_append] using characters

theorem TrustEvent.IsOf.credits (isOf : row.IsOf (received endorser endorsee)) : row.credits = true ∧ row.debits =
    false := by
  rw [TrustEvent.credits,TrustEvent.debits,isOf.2.1]
  exact ⟨rfl,rfl⟩

theorem TrustEvent.IsOf.debits (isOf : row.IsOf (withdrawn endorser endorsee "")) : row.credits = false ∧ row.debits =
    true := by
  rw [TrustEvent.credits,TrustEvent.debits,isOf.2.1]
  exact ⟨rfl,rfl⟩

theorem total_le (each : ∀ row ∈ rows, (row.credits = true ∧ row.debits = false) ∧ row.delta ≤ 1/2 ∨
    (row.credits = false ∧ row.debits = true) ∧ row.delta ≤ -(1/2)) :
    total rows ≤ (rows.countP TrustEvent.credits : ℚ)/2-(rows.countP TrustEvent.debits : ℚ)/2 := by
  induction rows with
  | nil => simp [total]
  | cons row rows ih =>
    have further := ih fun other inside => each other (List.mem_cons_of_mem row inside)
    have sum : total (row :: rows) = row.delta+total rows := by simp [total]
    rw [sum,List.countP_cons,List.countP_cons]
    obtain ⟨⟨credits,debits⟩,bound⟩ | ⟨⟨credits,debits⟩,bound⟩ := each row List.mem_cons_self
    · rw [credits,debits,if_pos rfl,if_neg Bool.false_ne_true]
      push_cast
      linarith
    · rw [credits,debits,if_neg Bool.false_ne_true,if_pos rfl]
      push_cast
      linarith

theorem mem_between : row ∈ db.between endorser endorsee ↔
    row ∈ db.events ∧ row.agentId = endorsee ∧ row.sourceAgentId = some endorser := by
  simp only [Db.between,List.mem_filter,Bool.and_eq_true,decide_eq_true_eq]

theorem Db.Sound.earnedBetween (sound : db.Sound) (inside : row ∈ db.between endorser endorsee) :
    Proper endorser endorsee ∧ (row.IsOf (received endorser endorsee) ∧ row.delta ≤ 1/2 ∧
        (db.endorsements.row (endorser,endorsee)).isSome = true ∨
      row.IsOf (withdrawn endorser endorsee "") ∧ row.delta ≤ -(1/2)) := by
  obtain ⟨listed,agent,source⟩ := mem_between.mp inside
  obtain ⟨endorser',endorsee',proper,earned⟩ := sound.earned row listed
  have pair : endorsee' = endorsee ∧ endorser' = endorser := by
    obtain ⟨⟨agent',_,source',_⟩,_⟩ | ⟨⟨agent',_,source',_⟩,_⟩ := earned
    · exact ⟨agent'.symm.trans agent,Option.some.inj (source'.symm.trans source)⟩
    · exact ⟨agent'.symm.trans agent,Option.some.inj (source'.symm.trans source)⟩
  rw [pair.1,pair.2] at earned
  rw [pair.1,pair.2] at proper
  exact ⟨proper,earned⟩

theorem Db.Sound.net_counts (sound : db.Sound) (endorser endorsee : String) : db.net endorser endorsee ≤
    ((db.between endorser endorsee).countP TrustEvent.credits : ℚ)/2-
      ((db.between endorser endorsee).countP TrustEvent.debits : ℚ)/2 := by
  apply total_le
  intro row inside
  obtain ⟨_,⟨isOf,bound,_⟩ | ⟨isOf,bound⟩⟩ := sound.earnedBetween inside
  · exact .inl ⟨isOf.credits,bound⟩
  · exact .inr ⟨isOf.debits,bound⟩

theorem length_le_one {α : Type} {R : α → α → Prop} {items : List α} (apart : items.Pairwise fun a b => ¬ R a b)
    (all : ∀ a ∈ items, ∀ b ∈ items, R a b) : items.length ≤ 1 := by
  match items with
  | [] => exact Nat.zero_le 1
  | [_] => exact le_rfl
  | a :: b :: rest =>
    have second : b ∈ a :: b :: rest := List.mem_cons_of_mem a List.mem_cons_self
    exact absurd (all a List.mem_cons_self b second) ((List.pairwise_cons.mp apart).1 b List.mem_cons_self)

theorem Db.Sound.credited_once (sound : db.Sound) : (db.between endorser endorsee).countP TrustEvent.credits ≤ 1 := by
  rw [List.countP_eq_length_filter]
  have isOf (row : TrustEvent) (inside : row ∈ (db.between endorser endorsee).filter TrustEvent.credits) :
      row.IsOf (received endorser endorsee) := by
    obtain ⟨listed,credits⟩ := List.mem_filter.mp inside
    obtain ⟨_,⟨isOf,_⟩ | ⟨isOf,_⟩⟩ := sound.earnedBetween listed
    · exact isOf
    · rw [isOf.debits.1] at credits
      exact absurd credits Bool.false_ne_true
  apply length_le_one (R := fun row other : TrustEvent => row.clashes other = true)
  · have sublist := (List.filter_sublist (p := TrustEvent.credits) (l :=
      db.between endorser endorsee)).trans List.filter_sublist
    exact (sound.apart.sublist sublist).imp fun apart => by simp [apart]
  · intro row inside other inside'
    obtain ⟨agent,type,_,source⟩ := isOf row inside
    obtain ⟨agent',type',_,source'⟩ := isOf other inside'
    simp only [TrustEvent.clashes,agent,type,source,agent',type',source',Bool.and_eq_true,decide_true,true_and]
    rfl

theorem Db.Sound.net_le (sound : db.Sound) (endorser endorsee : String) : db.net endorser endorsee ≤ 1/2 := by
  have counts := sound.net_counts endorser endorsee
  have credits : ((db.between endorser endorsee).countP TrustEvent.credits :
      ℚ) ≤ 1 := by exact_mod_cast sound.credited_once
  have debits : (0 : ℚ) ≤ (db.between endorser endorsee).countP TrustEvent.debits := Nat.cast_nonneg _
  linarith

theorem Db.Sound.net_nonpos (sound : db.Sound) (paid : db.minted (withdrawn endorser endorsee "")) :
    db.net endorser endorsee ≤ 0 := by
  have counts := sound.net_counts endorser endorsee
  have credits : ((db.between endorser endorsee).countP TrustEvent.credits :
      ℚ) ≤ 1 := by exact_mod_cast sound.credited_once
  obtain ⟨row,listed,agent,type,source⟩ := paid
  have listed' : row ∈ db.between endorser endorsee := by
    obtain ⟨endorser',endorsee',_,⟨isOf,_⟩ | ⟨isOf,_⟩⟩ := sound.earned row listed
    · exact absurd (isOf.2.1.symm.trans type) (by simp [received,withdrawn])
    · obtain rfl : endorsee' = endorsee := isOf.1.symm.trans agent
      obtain rfl : endorser' = endorser := withdrawn_source (isOf.2.2.2.symm.trans source)
      exact mem_between.mpr ⟨listed,isOf.1,isOf.2.2.1⟩
  have debits : row.debits = true := by
    rw [TrustEvent.debits,type]
    rfl
  have one : 1 ≤ (db.between endorser endorsee).countP TrustEvent.debits := List.countP_pos_iff.mpr ⟨row,listed',debits⟩
  have cast : (1 : ℚ) ≤ (db.between endorser endorsee).countP TrustEvent.debits := by exact_mod_cast one
  linarith

theorem Db.Sound.net_unmet (sound : db.Sound)
    (unmet : Proper endorser endorsee → db.endorsements.row (endorser,endorsee) = none) :
    db.net endorser endorsee ≤ 0 := by
  have counts := sound.net_counts endorser endorsee
  have credits : (db.between endorser endorsee).countP TrustEvent.credits = 0 := by
    rw [List.countP_eq_zero]
    intro row inside credits
    obtain ⟨proper,⟨_,_,known⟩ | ⟨isOf,_⟩⟩ := sound.earnedBetween inside
    · rw [unmet proper] at known
      exact absurd known Bool.false_ne_true
    · rw [isOf.debits.1] at credits
      exact absurd credits Bool.false_ne_true
  have debits : (0 : ℚ) ≤ (db.between endorser endorsee).countP TrustEvent.debits := Nat.cast_nonneg _
  rw [credits] at counts
  push_cast at counts
  linarith

end Ledger

section Operations
variable {db db₁ db' : Db} {call : RecordCall} {proposed : ℚ} {endorser endorsee : String}

structure Put (pair : String × String) (row : Endorsement) (db db' : Db) : Prop where
  events : db'.events = db.events
  endorsements : ∀ k, db'.endorsements.row k = if k = pair then some row else db.endorsements.row k

inductive Written (call : RecordCall) (proposed : ℚ) (pair : String × String) (row : Endorsement) (db db' : Db) : Prop
  | unnamed (nobody : call.agentId = "") (put : Put pair row db db')
  | recorded (named : call.agentId ≠ "") (db₁ : Db) (put : Put pair row db db₁) (recorded :
      Recorded call proposed db₁ db')

theorem Recorded.keeps {other : RecordCall} (recorded : Recorded call proposed db db') (minted : db.minted other) :
    db'.minted other := by
  obtain same | ⟨_,_,_,_,_,added⟩ := recorded.events
  · exact (minted_congr same).mpr minted
  · obtain ⟨row,inside,rest⟩ := minted
    refine ⟨row,?_,rest⟩
    rw [added]
    exact List.mem_append_left _ inside

theorem Earned.kept {endorsements endorsements' : Endorsements} {row : TrustEvent} (earned : Earned endorsements row)
    (kept : ∀ k, (endorsements.row k).isSome = true → (endorsements'.row k).isSome = true) :
      Earned endorsements' row := by
  obtain ⟨endorser,endorsee,proper,⟨isOf,bound,known⟩ | withdrawn⟩ := earned
  · exact ⟨endorser,endorsee,proper,.inl ⟨isOf,bound,kept _ known⟩⟩
  · exact ⟨endorser,endorsee,proper,.inr withdrawn⟩

theorem Put.after {pair : String × String} {row : Endorsement} (put : Put pair row db₁ db')
    (same : db₁.events = db.events ∧ db₁.endorsements = db.endorsements) : Put pair row db db' := by
  obtain ⟨events,endorsements⟩ := put
  rw [same.1] at events
  rw [same.2] at endorsements
  exact ⟨events,endorsements⟩

theorem Put.kept {pair : String × String} {row : Endorsement} (put : Put pair row db db') (k : String × String)
    (known : (db.endorsements.row k).isSome = true) : (db'.endorsements.row k).isSome = true := by
  rw [put.endorsements]
  split
  · rfl
  · exact known

def Pays (call : RecordCall) (proposed : ℚ) (db : Db) : Prop :=
  ¬ db.minted call → ∀ row : TrustEvent, row.IsOf call → row.delta ≤ numeric63 proposed → Earned db.endorsements row

theorem Db.Sound.put {pair : String × String} {row : Endorsement} (sound : db.Sound)
    (put : Put pair row db db') : db'.Sound where
  earned row inside := by
    rw [put.events] at inside
    exact (sound.earned row inside).kept put.kept
  apart := by
    rw [put.events]
    exact sound.apart

theorem Db.Sound.recorded (sound : db.Sound) (recorded : Recorded call proposed db db') (pays : Pays call proposed db) :
    db'.Sound := by
  obtain same | ⟨fresh,effective,reason,now,le,added⟩ := recorded.events
  · constructor
    · rw [same,recorded.endorsements]
      exact sound.earned
    · rw [same]
      exact sound.apart
  · constructor
    · intro row inside
      rw [recorded.endorsements]
      rw [added] at inside
      obtain old | new := List.mem_append.mp inside
      · exact sound.earned row old
      · obtain rfl := List.mem_singleton.mp new
        exact pays fresh _ ⟨rfl,rfl,rfl,rfl⟩ (numeric63_mono le)
    · rw [added,List.pairwise_append]
      refine ⟨sound.apart,List.pairwise_singleton _ _,?_⟩
      intro row inside new isNew
      obtain rfl := List.mem_singleton.mp isNew
      rw [Bool.eq_false_iff]
      intro clash
      simp only [TrustEvent.clashes,Bool.and_eq_true,decide_eq_true_eq] at clash
      exact fresh ⟨row,inside,clash.1.1.1,clash.1.1.2,clash.1.2⟩

theorem Db.Fair.written {pair : String × String} {row : Endorsement} (fair : db.Fair)
    (written : Written call proposed pair row db db') (own : call.agentId = pair.2)
    (pays : pair.2 ≠ "" → ∀ db₁, Put pair row db db₁ → Pays call proposed db₁)
    (pays_back : row.revokedAt.isSome = true → ∀ db : Db, db.minted call → db.minted (withdrawn pair.1 pair.2 "")) :
      db'.Fair := by
  cases written with
  | unnamed nobody put =>
    refine ⟨fair.toSound.put put,?_⟩
    intro endorser endorsee found listed revoked named
    rw [put.endorsements] at listed
    split at listed
    next here =>
      rw [own,← here] at nobody
      exact absurd nobody named
    next => exact (minted_congr put.events).mpr (fair.repaid endorser endorsee found listed revoked named)
  | recorded named db₁ put recorded =>
    rw [own] at named
    refine ⟨(fair.toSound.put put).recorded recorded (pays named db₁ put),?_⟩
    intro endorser endorsee found listed revoked named
    rw [recorded.endorsements,put.endorsements] at listed
    split at listed
    next here =>
      obtain rfl := Option.some.inj listed
      rw [← here] at pays_back
      exact pays_back revoked db' recorded.minted
    next =>
      apply recorded.keeps
      exact (minted_congr put.events).mpr (fair.repaid endorser endorsee found listed revoked named)

theorem Written.net_other {pair : String × String} {row : Endorsement} (written : Written call proposed pair row db db')
    (source : call.sourceAgentId = some pair.1) (own : call.agentId = pair.2) (apart : (endorser,endorsee) ≠ pair) :
    db'.net endorser endorsee = db.net endorser endorsee := by
  have same : db'.between endorser endorsee = db.between endorser endorsee := by
    unfold Db.between
    cases written with
    | unnamed nobody put => rw [put.events]
    | recorded named db₁ put recorded =>
      obtain same | ⟨_,effective,reason,now,_,added⟩ := recorded.events
      · rw [same,put.events]
      · rw [added,put.events,List.filter_append]
        have theirs : ¬ (call.agentId = endorsee ∧ call.sourceAgentId = some endorser) := by
          rintro ⟨agent,source'⟩
          apply apart
          rw [← agent,own,← Option.some.inj (source.symm.trans source')]
        simpa [NewEvent.row,RecordCall.event] using fun agent source => theirs ⟨agent,source⟩
  rw [Db.net,same,Db.net]

end Operations

end Orrery.Trust
