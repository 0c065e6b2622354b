import Orrery.Foundation.Json
import Orrery.Foundation.Ranking
import Orrery.Foundation.Effect

/-! The agent's consent ledger (consent/ledger.py) and the state the consent gate, the
executor and the panic path share: the ledger's rows, the approvals in flight, the
habit counts, the graduations, the trust files, and what has been run. Times are
microseconds; the ISO texts the ledger stores sort as the times they stand for. -/
namespace Orrery.Consent
open Foundation Json

inductive Instant
  | invalid
  | naive
  | aware (time : Nat)

/-- The digest, the signature scheme, the clock and the renderings the agent takes
from its libraries. `sha256` is the hex digest of `json.dumps` with sorted keys,
`denied` the deployment's denylist as read from the environment, and `tie`
the order in which SQLite returns rows of one instant. -/
structure Env where
  sha256 : Json → String
  sha256_ne_empty : ∀ event, sha256 event ≠ ""
  sign : String → String → String
  verify : String → String → String → Bool
  floatRepr : ℚ → List Char
  repr : Json → String
  round4 : ℚ → ℚ
  parseInt : String → Option Int
  parsesFloat : String → Bool
  isoformat : Nat → String
  fromisoformat : String → Instant
  clock : Nat → Nat
  tie : Tie
  denied : List String

def Env.str (env : Env) : Json → String
  | .str s => s
  | other => env.repr other

inductive Raised
  | exception (e : Exc)
  | interrupt

structure Row where
  id : Nat
  chapterId : String
  actorAgentId : Option String
  action : String
  targetType : Option String
  targetId : Option String
  outcome : String
  detail : Dict
  occurredAt : Nat
  prevSha256 : Option String
  eventSha256 : String
  signatureB64 : Option String

structure ActionRequest where
  capability : String
  scope : String
  context : String
  provenance : String
  sourceRef : Option String
  rationale : String
  extra : Dict

inductive DecisionState
  | reject | prompt | approved
deriving DecidableEq

def DecisionState.text : DecisionState → String
  | .reject => "reject"
  | .prompt => "prompt"
  | .approved => "approved"

structure ConsentDecision where
  state : DecisionState
  reason : String
  eventSha256 : Option String
deriving DecidableEq

structure Bucket where
  capability : String
  scope : String
  contextSha256 : String
deriving DecidableEq

structure Counts where
  approvals : Nat
  denials : Nat
deriving DecidableEq

inductive GraduationState
  | observing | graduated | revoked
deriving DecidableEq

structure GraduationRow where
  deviceDid : String
  bucket : Bucket
  state : GraduationState
  graduatedAt : Option Nat
  revokedAt : Option Nat

/-- What the executor did: a decision to run a proposal, or a call of its runner. -/
inductive Activity
  | approved (proposal : ActionRequest) (contextSha256 : String) (decision : ConsentDecision)
  | invoked (proposal : ActionRequest) (contextSha256 : String) (decision : ConsentDecision)

structure Checkpoint where
  count : Nat
  headSha256 : String
  signatureB64 : Option String

inductive TrustFile
  | missing
  | malformed
  | holds (content : Json)

structure World where
  reads : Nat
  rows : List Row
  checkpoint : Option Checkpoint
  signingKey : Option String
  inFlight : List String
  habits : Bucket → Counts
  graduations : List GraduationRow
  localTrust : TrustFile
  chapterTrust : TrustFile
  activity : List Activity

def World.fresh : World where
  reads := 0
  rows := []
  checkpoint := none
  signingKey := none
  inFlight := []
  habits := fun _ => ⟨0,0⟩
  graduations := []
  localTrust := .missing
  chapterTrust := .missing
  activity := []

abbrev Agent := Effect Raised World

def raise {α : Type} (e : Exc) : Agent α := Effect.raise (.exception e)

def suppress {α : Type} (m : Agent (Option α)) : Agent (Option α) :=
  Effect.handle m fun
    | .exception _ => pure none
    | .interrupt => Effect.raise .interrupt

def now (env : Env) : Agent Nat := fun w => .ok (env.clock w.reads) { w with reads := w.reads+1 }

def maxDetailBytes : Nat := 32*1024

def maxActionLen : Nat := 64

def validOutcomes : List String := ["ok","fail","denied","deferred"]

structure Fields where
  chapterId : String
  action : String
  actorAgentId : Option String
  targetType : Option String
  targetId : Option String
  outcome : String
  detail : Dict

def validate (env : Env) (fields : Fields) : Option String :=
  if fields.action = "" then some "action is required"
  else if fields.action.length > maxActionLen then some s!"action too long (max {maxActionLen})"
  else if fields.outcome ∉ validOutcomes then some "outcome must be one of ['deferred', 'denied', 'fail', 'ok']"
  else if (dumps env.floatRepr .plain (.obj fields.detail)).length > maxDetailBytes then
    some s!"detail too large (max {maxDetailBytes} bytes)"
  else none

def clip (text : Option String) (n : Nat) : Option String :=
  let clipped := (text.getD "").toList.take n
  if clipped.isEmpty then none else some (String.ofList clipped)

def optional : Option String → Json
  | some s => .str s
  | none => .null

def canonicalEvent (env : Env) (row : Row) : Json :=
  .obj [("chapter_id",.str row.chapterId),("actor_agent_id",optional row.actorAgentId),("action",.str row.action),
    ("target_type",optional row.targetType),("target_id",optional row.targetId),("outcome",.str row.outcome),
    ("detail",.obj row.detail),("occurred_at",.str (env.isoformat row.occurredAt)),
    ("prev_sha256",.str (row.prevSha256.getD ""))]

def sha256Of (env : Env) (row : Row) : String := env.sha256 (canonicalEvent env row)

def World.nextRow (w : World) (env : Env) (fields : Fields) : Row :=
  let event : Row := {
    id := w.rows.length+1
    chapterId := fields.chapterId
    actorAgentId := fields.actorAgentId
    action := fields.action
    targetType := clip fields.targetType 64
    targetId := clip fields.targetId 128
    outcome := fields.outcome
    detail := fields.detail
    occurredAt := env.clock w.reads
    prevSha256 := w.rows.getLast?.map (·.eventSha256)
    eventSha256 := ""
    signatureB64 := none }
  let sha := sha256Of env event
  { event with eventSha256 := sha, signatureB64 := w.signingKey.map fun key => env.sign key sha }

def checkpointMessage (count : Nat) (headSha256 : String) : String := s!"consent-checkpoint:v1:{count}:{headSha256}"

def World.insert (w : World) (env : Env) (row : Row) : World :=
  let count := w.rows.length+1
  { w with
    reads := w.reads+1
    rows := w.rows ++ [row]
    checkpoint := some ⟨count,row.eventSha256,
      w.signingKey.map fun key => env.sign key (checkpointMessage count row.eventSha256)⟩ }

def World.holds (w : World) (sha : String) : Bool := w.rows.any fun row => row.eventSha256 == sha

def record (env : Env) (fields : Fields) : Agent Row := fun w =>
  match validate env fields with
  | some reason => .error (.exception (.valueError reason)) w
  | none =>
    let row := w.nextRow env fields
    if w.holds row.eventSha256 then
      .error (.exception (.other "IntegrityError" "UNIQUE constraint failed: consent_events.event_sha256"))
        { w with reads := w.reads+1 }
    else .ok row (w.insert env row)

def ranking (env : Env) : Ranking Row := ⟨Row.occurredAt,Row.id,env.tie⟩

def World.listEvents (w : World) (env : Env) (action : String) (limit : Nat) : List Row :=
  (ranking env).newest (min (max limit 1) 1000) (w.rows.filter fun row => row.action == action)

def World.verifyRow (w : World) (env : Env) (row : Row) : Bool × String :=
  if sha256Of env row ≠ row.eventSha256 then (false,"hash_mismatch")
  else match w.signingKey with
  | none => (true,"unsigned_ledger")
  | some key =>
    match row.signatureB64 with
    | none => (false,"unsigned_row")
    | some signature =>
      if signature = "" then (false,"unsigned_row")
      else if env.verify key row.eventSha256 signature then (true,"ok") else (false,"bad_signature")

theorem record_cases (env : Env) (fields : Fields) (w : World) :
    (∃ e, record env fields w = .error (.exception e) w) ∨
    (∃ e, record env fields w = .error (.exception e) { w with reads := w.reads+1 }) ∨
    (w.holds (w.nextRow env fields).eventSha256 = false ∧
      record env fields w = .ok (w.nextRow env fields) (w.insert env (w.nextRow env fields))) := by
  unfold record
  cases validate env fields with
  | some reason => exact Or.inl ⟨_,rfl⟩
  | none =>
    by_cases held : w.holds (w.nextRow env fields).eventSha256 = true
    · exact Or.inr (Or.inl ⟨_,by simp only [held]; rfl⟩)
    · exact Or.inr (Or.inr ⟨by simpa using held,by simp [held]⟩)

/-- The elementary steps of everything that appends allowed rows: a reading of the
clock, such a row, and any change outside the table. -/
inductive Write (env : Env) (allowed : Fields → Prop) : World → World → Prop
  | tick (w : World) : Write env allowed w { w with reads := w.reads+1 }
  | append (w : World) (fields : Fields) (ok : allowed fields)
      (fresh : w.holds (w.nextRow env fields).eventSha256 = false) :
      Write env allowed w (w.insert env (w.nextRow env fields))
  | aside (w w' : World) (rows : w'.rows = w.rows) (reads : w'.reads = w.reads) : Write env allowed w w'

abbrev Writes (env : Env) (allowed : Fields → Prop) : World → World → Prop :=
  Relation.ReflTransGen (Write env allowed)

theorem Writes.mono {env : Env} {allowed wider : Fields → Prop} (sub : ∀ fields, allowed fields → wider fields)
    {w w' : World} (run : Writes env allowed w w') : Writes env wider w w' := by
  induction run with
  | refl => exact .refl
  | @tail u v _ step ih =>
    cases step with
    | tick => exact ih.tail (.tick u)
    | append fields ok fresh => exact ih.tail (.append u fields (sub fields ok) fresh)
    | aside _ rows reads => exact ih.tail (.aside u v rows reads)

def Untouched (w w' : World) : Prop :=
  w' = { w with reads := w'.reads, rows := w'.rows, checkpoint := w'.checkpoint }

def Logged (env : Env) (allowed : Fields → Prop) (w w' : World) : Prop := Writes env allowed w w' ∧ Untouched w w'

instance (env : Env) (allowed : Fields → Prop) : IsPreorder World (Logged env allowed) where
  refl _ := ⟨.refl,rfl⟩
  trans _ _ _ first second := by
    refine ⟨first.1.trans second.1,?_⟩
    have same := first.2
    have more := second.2
    unfold Untouched at *
    rw [more,same]

theorem Logged.mono {env : Env} {allowed wider : Fields → Prop} (sub : ∀ fields, allowed fields → wider fields)
    {w w' : World} (run : Logged env allowed w w') : Logged env wider w w' := ⟨run.1.mono sub,run.2⟩

theorem record_logged (env : Env) {allowed : Fields → Prop} {fields : Fields} (ok : allowed fields) :
    Effect.Keeps (Logged env allowed) (record env fields) := by
  intro w
  rcases record_cases env fields w with ⟨e,run⟩ | ⟨e,run⟩ | ⟨fresh,run⟩
  · rw [run]
    exact ⟨.refl,rfl⟩
  · rw [run]
    exact ⟨.single (.tick w),rfl⟩
  · rw [run]
    exact ⟨.single (.append w fields ok fresh),rfl⟩

theorem now_logged (env : Env) {allowed : Fields → Prop} : Effect.Keeps (Logged env allowed) (now env) :=
  fun w => ⟨.single (.tick w),rfl⟩

def Raised.Plain : Raised → Prop
  | .exception _ => True
  | .interrupt => False

theorem record_plain (env : Env) (fields : Fields) : Effect.Raises Raised.Plain (record env fields) := by
  intro w e w' run
  rcases record_cases env fields w with ⟨e,same⟩ | ⟨e,same⟩ | ⟨_,same⟩ <;> rw [same] at run <;> cases run <;> trivial

theorem now_plain (env : Env) : Effect.Raises Raised.Plain (now env) := by
  intro w e w' run
  cases run

theorem suppress_eq {α : Type} {m : Agent (Option α)} (plain : Effect.Raises Raised.Plain m) (w : World) :
    suppress m w = match m w with
      | .ok a w' => .ok a w'
      | .error _ w' => .ok none w' := by
  unfold suppress Effect.handle Effect.attempt
  cases run : m w with
  | ok a w' => rfl
  | error e w' =>
    cases e with
    | exception e => rfl
    | interrupt => exact absurd (plain w _ w' run) id

theorem suppress_total {α : Type} {R : World → World → Prop} {m : Agent (Option α)}
    (plain : Effect.Raises Raised.Plain m) (keeps : Effect.Keeps R m) (w : World) :
    ∃ o v, suppress m w = .ok o v ∧ R w v := by
  have step := keeps w
  rw [suppress_eq plain]
  cases run : m w with
  | ok o v =>
    rw [run] at step
    exact ⟨o,v,rfl,step⟩
  | error e v =>
    rw [run] at step
    exact ⟨none,v,rfl,step⟩

theorem Writes.rows {env : Env} {allowed : Fields → Prop} {w w' : World} (run : Writes env allowed w w') :
    ∃ new, w'.rows = w.rows ++ new ∧ ∀ row ∈ new, ∃ (v : World) (fields : Fields), allowed fields ∧
      row = v.nextRow env fields := by
  induction run with
  | refl => exact ⟨[],by simp,by simp⟩
  | @tail u _ _ step ih =>
    obtain ⟨new,rows,made⟩ := ih
    cases step with
    | tick => exact ⟨new,rows,made⟩
    | aside _ same => exact ⟨new,same.trans rows,made⟩
    | append fields ok fresh =>
      refine ⟨new ++ [u.nextRow env fields],by simp [World.insert,rows],?_⟩
      intro row member
      rcases List.mem_append.mp member with old | single
      · exact made row old
      · exact ⟨u,fields,ok,List.mem_singleton.mp single⟩

theorem Writes.reads {env : Env} {allowed : Fields → Prop} {w w' : World} (run : Writes env allowed w w') :
    w.reads ≤ w'.reads := by
  induction run with
  | refl => exact Nat.le_refl _
  | tail _ step ih =>
    cases step with
    | tick => exact Nat.le_succ_of_le ih
    | append => exact Nat.le_succ_of_le ih
    | aside _ _ reads => exact reads ▸ ih

/-- The table as `record` leaves it, under a clock that does not go back: ids count the
rows, times do not fall and lie in the past, and no hash occurs twice. -/
structure Ordered (env : Env) (w : World) : Prop where
  ids : ∀ row ∈ w.rows, row.id ≤ w.rows.length
  log : (ranking env).Log w.rows
  past : ∀ row ∈ w.rows, row.occurredAt ≤ env.clock w.reads
  shas : w.rows.Pairwise fun a b => a.eventSha256 ≠ b.eventSha256

theorem Ordered.fresh (env : Env) (w : World) (empty : w.rows = []) : Ordered env w := by
  refine ⟨?_,?_,?_,?_⟩ <;> rw [empty] <;> simp [Ranking.Log]

theorem Ordered.congr {env : Env} {w w' : World} (ordered : Ordered env w) (rows : w'.rows = w.rows)
    (reads : w'.reads = w.reads) : Ordered env w' := by
  obtain ⟨ids,log,past,shas⟩ := ordered
  rw [← rows] at ids log past shas
  rw [← reads] at past
  exact ⟨ids,log,past,shas⟩

theorem Ordered.tick {env : Env} (steady : Monotone env.clock) {w : World} (ordered : Ordered env w) :
    Ordered env { w with reads := w.reads+1 } :=
  ⟨ordered.ids,ordered.log,fun row inside => (ordered.past row inside).trans (steady (Nat.le_succ _)),ordered.shas⟩

theorem Ordered.newer {env : Env} {w : World} (ordered : Ordered env w) (fields : Fields) :
    ∀ row ∈ w.rows, (ranking env).serial row < (ranking env).serial (w.nextRow env fields) ∧
      (ranking env).time row ≤ (ranking env).time (w.nextRow env fields) := by
  intro row inside
  exact ⟨Nat.lt_succ_of_le (ordered.ids row inside),ordered.past row inside⟩

theorem Ordered.append {env : Env} (steady : Monotone env.clock) {w : World} (ordered : Ordered env w)
    (fields : Fields) (fresh : w.holds (w.nextRow env fields).eventSha256 = false) :
    Ordered env (w.insert env (w.nextRow env fields)) := by
  refine ⟨?_,?_,?_,?_⟩
  · intro row inside
    rcases List.mem_append.mp inside with old | single
    · have bound := ordered.ids row old
      simp only [World.insert,List.length_append,List.length_singleton]
      omega
    · cases List.mem_singleton.mp single
      simp [World.insert,World.nextRow]
  · refine List.pairwise_append.mpr ⟨ordered.log,List.pairwise_singleton _ _,?_⟩
    intro row old new single
    cases List.mem_singleton.mp single
    exact ordered.newer fields row old
  · intro row inside
    rcases List.mem_append.mp inside with old | single
    · exact (ordered.past row old).trans (steady (Nat.le_succ _))
    · cases List.mem_singleton.mp single
      exact steady (Nat.le_succ _)
  · refine List.pairwise_append.mpr ⟨ordered.shas,List.pairwise_singleton _ _,?_⟩
    intro row old new single
    cases List.mem_singleton.mp single
    simp only [World.holds,List.any_eq_false,beq_iff_eq] at fresh
    exact fresh row old

theorem Writes.ordered {env : Env} (steady : Monotone env.clock) {allowed : Fields → Prop} {w w' : World}
    (run : Writes env allowed w w') (ordered : Ordered env w) : Ordered env w' := by
  induction run with
  | refl => exact ordered
  | tail _ step ih =>
    cases step with
    | tick => exact ih.tick steady
    | append fields _ fresh => exact ih.append steady fields fresh
    | aside _ rows reads => exact ih.congr rows reads

theorem Ordered.sha_inj {env : Env} {w : World} (ordered : Ordered env w) {a b : Row} (first : a ∈ w.rows)
    (second : b ∈ w.rows) (same : a.eventSha256 = b.eventSha256) : a = b := by
  by_contra apart
  have symm : Std.Symm fun a b : Row => a.eventSha256 ≠ b.eventSha256 := ⟨fun _ _ => Ne.symm⟩
  exact ordered.shas.forall first second apart same

theorem listEvents_subset {env : Env} {w : World} {action : String} {limit : Nat} {row : Row}
    (listed : row ∈ w.listEvents env action limit) : row ∈ w.rows ∧ row.action = action := by
  obtain ⟨member,sort⟩ := List.mem_filter.mp ((ranking env).newest_subset _ _ listed)
  exact ⟨member,beq_iff_eq.mp sort⟩

theorem Ordered.mem_listEvents {env : Env} {w : World} (ordered : Ordered env w) (action : String) (limit : Nat)
    (clamped : min (max limit 1) 1000 = limit) (row : Row) :
    row ∈ w.listEvents env action limit ↔ row ∈ w.rows.filter (fun r => r.action == action) ∧
      (w.rows.filter fun r => r.action == action).countP ((ranking env).before · row) < limit := by
  have log := ordered.log.sublist _ (List.filter_sublist (p := fun r : Row => r.action == action))
  rw [World.listEvents,clamped,(ranking env).mem_newest _ (log.distinct _)]

def sampleSha : Json → String
  | .obj fields =>
    match Json.get fields "prev_sha256" with
    | some (.str prev) => String.ofList (List.replicate (prev.length+1) 'a')
    | _ => "a"
  | _ => "a"

theorem sampleSha_digits (event : Json) : ∃ n, sampleSha event = String.ofList (List.replicate (n+1) 'a') := by
  unfold sampleSha
  split
  · split
    · exact ⟨_,rfl⟩
    · exact ⟨0,rfl⟩
  · exact ⟨0,rfl⟩

def readDigits (text : String) : Option Nat :=
  text.toList.foldl (fun acc c => acc.bind fun n => if c.isDigit then some (10*n+(c.toNat-48)) else none) (some 0)

def sampleEnv (denied : List String) : Env where
  sha256 := sampleSha
  sha256_ne_empty event empty := by
    obtain ⟨n,digits⟩ := sampleSha_digits event
    have empty := congrArg String.toList (digits.symm.trans empty)
    simp [List.replicate_succ] at empty
  sign key message := key ++ message
  verify key message signature := signature == key ++ message
  floatRepr _ := ['1']
  repr _ := "?"
  round4 mean := mean
  parseInt _ := none
  parsesFloat _ := false
  isoformat time := toString time
  fromisoformat text := match readDigits text with
    | some time => .aware time
    | none => .invalid
  clock reading := reading
  tie := .rising
  denied := denied

theorem sampleEnv_steady (denied : List String) : Monotone (sampleEnv denied).clock := fun _ _ later => later

end Orrery.Consent
