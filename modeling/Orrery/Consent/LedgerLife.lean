import Orrery.Foundation.Runs
import Orrery.Consent.ChainCheck

/-! The life of a consent ledger that only `init` and `record` write, over restarts and
changes of the signing key, and what `verify_chain` says of it on the way. A time that a
caller passes to `record` is one more reading of the clock. -/
namespace Orrery.Consent
open Foundation Json Chains

structure Entry (env : Env) (parseFloat : List Char → ℚ) extends Fields where
  proper : Proper parseFloat env.floatRepr (.obj detail)

inductive LedgerMove (env : Env) (parseFloat : List Char → ℚ)
  | restart (key : Option String)
  | init (key : Option String)
  | record (entry : Entry env parseFloat) (saved : Bool)

/-- The ledger with the key each row was recorded under, and the key the sidecar was
last written under; `none` stands for no key. -/
structure Life where
  world : World
  signers : List (Option String)
  sealer : Option (Option String)

def Life.opened (key : Option String) : Life := ⟨{ World.fresh with signingKey := key },[],none⟩

section Model
variable {env : Env} {parseFloat : List Char → ℚ}

def Life.step (life : Life) : LedgerMove env parseFloat → Life
  | .restart key => { life with world := { life.world with signingKey := key } }
  -- an `init` without a key keeps the one there is
  | .init key => { life with world := { life.world with signingKey := key.or life.world.signingKey } }
  | .record entry saved =>
    match Consent.record env entry.toFields life.world with
    | .error _ w => { life with world := w }
    | .ok _ w =>
      { world := if saved then w else { w with checkpoint := life.world.checkpoint }
        signers := life.signers ++ [life.world.signingKey]
        sealer := if saved then some life.world.signingKey else life.sealer }

def headOf (rows : List Row) : String := textOf (rows.getLast?.map Row.eventSha256)

def Life.Sealed (env : Env) (life : Life) : Prop :=
  (life.world.checkpoint = none ∧ life.sealer = none) ∨
    ∃ checkpoint signer, life.world.checkpoint = some checkpoint ∧ life.sealer = some signer ∧
      checkpoint.signatureB64 =
        signer.map (fun s => env.sign s (checkpointMessage checkpoint.count checkpoint.headSha256)) ∧
      checkpoint.count ≤ life.world.rows.length ∧
      (checkpoint.count = life.world.rows.length → checkpoint.headSha256 = headOf life.world.rows)

structure Written (env : Env) (parseFloat : List Char → ℚ) (life : Life) : Prop where
  signed : List.Forall₂ (Row.SignedBy env) life.world.rows life.signers
  linked : Linked (Chained env) none life.world.rows
  distinct : (life.world.rows.map Row.eventSha256).Nodup
  proper : ∀ row ∈ life.world.rows, Proper parseFloat env.floatRepr (.obj row.detail)
  sidecar : life.Sealed env

theorem Written.opened (env : Env) (parseFloat : List Char → ℚ) (key : Option String) :
    Written env parseFloat (.opened key) :=
  ⟨.nil,trivial,List.nodup_nil,nofun,Or.inl ⟨rfl,rfl⟩⟩

theorem chained_nextRow (w : World) (fields : Fields) : Chained env w.rows.getLast? (w.nextRow env fields) := by
  refine ⟨rfl,?_⟩
  unfold RefersBack
  rfl

theorem headOf_append (rows : List Row) (row : Row) : headOf (rows ++ [row]) = row.eventSha256 := by
  rw [headOf,List.getLast?_append]
  rfl

def Life.recorded (env : Env) (life : Life) (fields : Fields) (saved : Bool) : Life :=
  let row := life.world.nextRow env fields
  let w := life.world.insert env row
  { world := if saved then w else { w with checkpoint := life.world.checkpoint }
    signers := life.signers ++ [life.world.signingKey]
    sealer := if saved then some life.world.signingKey else life.sealer }

theorem step_record (life : Life) (entry : Entry env parseFloat) (saved : Bool) :
    (∃ reads, life.step (.record entry saved) = { life with world := { life.world with reads := reads } }) ∨
    (life.world.holds (life.world.nextRow env entry.toFields).eventSha256 = false ∧
      life.step (.record entry saved) = life.recorded env entry.toFields saved) := by
  rw [Life.step]
  rcases record_cases env entry.toFields life.world with ⟨e,run⟩ | ⟨e,run⟩ | ⟨fresh,run⟩
  · rw [run]
    exact Or.inl ⟨life.world.reads,rfl⟩
  · rw [run]
    exact Or.inl ⟨life.world.reads+1,rfl⟩
  · rw [run]
    exact Or.inr ⟨fresh,rfl⟩

theorem recorded_rows (life : Life) (fields : Fields) (saved : Bool) :
    (life.recorded env fields saved).world.rows = life.world.rows ++ [life.world.nextRow env fields] := by
  cases saved <;> rfl

theorem recorded_key (life : Life) (fields : Fields) (saved : Bool) :
    (life.recorded env fields saved).world.signingKey = life.world.signingKey := by
  cases saved <;> rfl

theorem Life.Sealed.recorded {life : Life} (before : life.Sealed env) (fields : Fields) (saved : Bool) :
    (life.recorded env fields saved).Sealed env := by
  unfold Life.Sealed
  rw [recorded_rows,headOf_append,List.length_append,List.length_singleton]
  cases saved with
  | true => exact Or.inr ⟨_,_,rfl,rfl,rfl,Nat.le_refl _,fun _ => rfl⟩
  | false =>
    -- the old sidecar now counts fewer rows than there are
    rcases before with none | ⟨checkpoint,signer,file,by_then,signature,counted,_⟩
    · exact Or.inl none
    · exact Or.inr ⟨checkpoint,signer,file,by_then,signature,by omega,fun same => by omega⟩

theorem Written.recorded {life : Life} (written : Written env parseFloat life) (entry : Entry env parseFloat)
    (fresh : life.world.holds (life.world.nextRow env entry.toFields).eventSha256 = false) (saved : Bool) :
    Written env parseFloat (life.recorded env entry.toFields saved) := by
  have new : ∀ row ∈ life.world.rows, row.eventSha256 ≠ (life.world.nextRow env entry.toFields).eventSha256 := by
    simpa [World.holds] using fresh
  constructor
  · rw [recorded_rows]
    exact List.rel_append written.signed (.cons rfl .nil)
  · rw [recorded_rows]
    apply linked_append written.linked
    rw [Option.or_none]
    exact chained_nextRow life.world entry.toFields
  · rw [recorded_rows,List.map_append,List.nodup_append]
    refine ⟨written.distinct,List.nodup_singleton _,?_⟩
    rintro sha old sha' single rfl
    obtain ⟨row,member,rfl⟩ := List.mem_map.mp old
    exact new row member (List.mem_singleton.mp single)
  · intro row member
    rw [recorded_rows] at member
    rcases List.mem_append.mp member with old | single
    · exact written.proper row old
    · cases List.mem_singleton.mp single
      exact entry.proper
  · exact written.sidecar.recorded entry.toFields saved

theorem Written.step {life : Life} (written : Written env parseFloat life) (move : LedgerMove env parseFloat) :
    Written env parseFloat (life.step move) := by
  cases move with
  | restart key => exact ⟨written.signed,written.linked,written.distinct,written.proper,written.sidecar⟩
  | init key => exact ⟨written.signed,written.linked,written.distinct,written.proper,written.sidecar⟩
  | record entry saved =>
    rcases step_record life entry saved with ⟨reads,same⟩ | ⟨fresh,same⟩
    · rw [same]
      exact ⟨written.signed,written.linked,written.distinct,written.proper,written.sidecar⟩
    · rw [same]
      exact written.recorded entry fresh saved

theorem Written.run {life : Life} (written : Written env parseFloat life) (moves : List (LedgerMove env parseFloat)) :
    Written env parseFloat (moves.foldl Life.step life) := by
  induction moves generalizing life with
  | nil => exact written
  | cons move moves ih => exact ih (written.step move)

def Quiet (env : Env) (parseFloat : List Char → ℚ) (life : Life) : Prop :=
  ∃ report, life.world.verifyChain env parseFloat = .ok report ∧ Ok report

/-- No row is signed by another key, and the sidecar is signed by this one. -/
def Life.Suits (keys : Keys env) (life : Life) (key : Option String) : Prop :=
  (∀ signer ∈ life.signers, keys.Agree key signer) ∧ ∀ signer ∈ life.sealer, keys.Vouched key signer

theorem head_stored (env : Env) (rows : List Row) :
    textOf ((rows.map (Row.stored env)).getLast?.bind (·.eventSha256)) = headOf rows := by
  rw [List.getLast?_map,headOf]
  cases rows.getLast? <;> rfl

theorem Written.drift_iff {life : Life} (written : Written env parseFloat life) (keys : Keys env)
    (key : Option String) :
    checkHeadCheckpoint env parseFloat key (life.world.checkpoint.map (Checkpoint.text env)) life.world.rows.length
      (headOf life.world.rows) = .ok none ↔ ∀ signer ∈ life.sealer, keys.Vouched key signer := by
  rcases written.sidecar with ⟨missing,never⟩ | ⟨checkpoint,signer,file,by_then,signature,counted,last⟩
  · rw [missing,never]
    exact iff_of_true rfl nofun
  · rw [file,by_then]
    simpa using checkHeadCheckpoint_recorded keys signature counted last key

theorem Written.quiet_iff {digest : List Char → String} (digests : Digests env digest) (keys : Keys env) {life : Life}
    (written : Written env parseFloat life) : Quiet env parseFloat life ↔ life.Suits keys life.world.signingKey := by
  have walked := checkRows_recorded digests keys life.world.signingKey life.world.rows.length written.signed
    written.proper none 0 ⟨0,0⟩ written.linked
  have drift := written.drift_iff keys life.world.signingKey
  rw [Quiet,Life.Suits,← walked,← drift]
  constructor
  · rintro ⟨report,verified⟩
    obtain ⟨tally,rows,sidecar,_⟩ := verifyChain_ok.mp verified
    rw [List.length_map] at rows sidecar
    rw [head_stored] at sidecar
    exact ⟨⟨tally,rows⟩,sidecar⟩
  · rintro ⟨⟨tally,rows⟩,sidecar⟩
    refine ⟨_,verifyChain_ok.mpr ⟨tally,?_,?_,rfl⟩⟩
    · rw [List.length_map]
      exact rows
    · rw [List.length_map,head_stored]
      exact sidecar

def LedgerMove.Suits (keys : Keys env) (life : Life) : LedgerMove env parseFloat → Prop
  | .restart key => life.Suits keys key
  | .init key => life.Suits keys (key.or life.world.signingKey)
  | .record _ _ => True

theorem Life.Suits.recorded {keys : Keys env} {life : Life} (suits : life.Suits keys life.world.signingKey)
    (fields : Fields) (saved : Bool) :
    (life.recorded env fields saved).Suits keys (life.recorded env fields saved).world.signingKey := by
  rw [recorded_key]
  refine ⟨fun signer member => ?_,fun signer member => ?_⟩
  · rcases List.mem_append.mp member with old | single
    · exact suits.1 signer old
    · rw [List.mem_singleton.mp single]
      exact keys.agree_self _
  · cases saved with
    | true =>
      cases member
      exact keys.vouched_self _
    | false => exact suits.2 signer member

theorem quiet_step {digest : List Char → String} (digests : Digests env digest) (keys : Keys env) (life : Life)
    (move : LedgerMove env parseFloat) (written : Written env parseFloat life) (quiet : Quiet env parseFloat life) :
    Quiet env parseFloat (life.step move) ↔ move.Suits keys life := by
  rw [(written.step move).quiet_iff digests keys]
  cases move with
  | restart key => rfl
  | init key => rfl
  | record entry saved =>
    have suits := (written.quiet_iff digests keys).mp quiet
    refine iff_of_true ?_ trivial
    rcases step_record life entry saved with ⟨reads,same⟩ | ⟨_,same⟩
    · rw [same]
      exact suits
    · rw [same]
      exact suits.recorded entry.toFields saved

/-- The ledger is reported consistent after every step exactly when no `init` configures a
key other than the one that signed the rows and the sidecar. -/
theorem quiet_iff_suits {digest : List Char → String} (digests : Digests env digest) (keys : Keys env)
    (key : Option String) (moves : List (LedgerMove env parseFloat)) :
    (∀ k, Quiet env parseFloat ((moves.take k).foldl Life.step (.opened key))) ↔
      ∀ (k : Nat) move, moves[k]? = some move → move.Suits keys ((moves.take k).foldl Life.step (.opened key)) := by
  have written := Written.opened env parseFloat key
  have quiet : Quiet env parseFloat (.opened key) := (written.quiet_iff digests keys).mpr ⟨nofun,nofun⟩
  exact Runs.always_iff (fun _ move written => written.step move) (quiet_step digests keys) moves _ written quiet

end Model

def sampleFloat : List Char → ℚ := fun _ => 1

def sampleDigest (text : List Char) : String := String.ofList ('h' :: text)

def ledgerEnv : Env :=
  { sampleEnv [] with
    floatRepr := fun _ => ['1','.','0']
    sha256 := fun event => sampleDigest (dumps (fun _ => ['1','.','0']) .canonical event)
    sha256_ne_empty := fun event empty => by
      have empty := congrArg String.toList empty
      simp [sampleDigest] at empty
    sign := fun key message => key ++ ":" ++ message
    verify := fun key message signature => signature == key ++ ":" ++ message }

theorem ledgerEnv_digests : Digests ledgerEnv sampleDigest := fun _ => rfl

def ledgerKeys : Keys ledgerEnv where
  publicKey key := key
  verify_sign key signer message := by
    rw [show ledgerEnv.verify key message (ledgerEnv.sign signer message) =
      (signer ++ ":" ++ message == key ++ ":" ++ message) from rfl,beq_iff_eq]
    simp [String.append_left_inj]
  sign_ne_empty signer message empty := by
    have empty := congrArg String.toList empty
    simp [ledgerEnv] at empty

def sampleEntry : Entry ledgerEnv sampleFloat where
  chapterId := "local:alice"
  action := "gate.decision"
  actorAgentId := some "alice"
  targetType := none
  targetId := none
  outcome := "ok"
  detail := [("state",.str "prompt"),("reason",.str "test")]
  proper := ⟨by decide,trivial,trivial,trivial⟩

def sameKeyed : List (LedgerMove ledgerEnv sampleFloat) :=
  [.record sampleEntry true,.init (some "first-key"),.restart none]

theorem quiet_sameKeyed : Digests ledgerEnv sampleDigest ∧
    ∀ k, Quiet ledgerEnv sampleFloat ((sameKeyed.take k).foldl Life.step (.opened (some "first-key"))) := by
  refine ⟨ledgerEnv_digests,(quiet_iff_suits ledgerEnv_digests ledgerKeys (some "first-key") sameKeyed).mpr ?_⟩
  intro k move found
  rcases k with _ | _ | _ | k
  · cases found
    trivial
  · cases found
    refine ⟨fun signer member => ?_,fun signer member => ?_⟩
    · cases List.mem_singleton.mp member
      exact ledgerKeys.agree_self _
    · cases member
      exact ledgerKeys.vouched_self _
  · cases found
    exact ⟨fun _ _ => nofun,fun _ _ => nofun⟩
  · cases found

def rekeyed : List (LedgerMove ledgerEnv sampleFloat) := [.record sampleEntry true,.restart (some "second-key")]

theorem rekeyed_alarms : ¬ Quiet ledgerEnv sampleFloat (rekeyed.foldl Life.step (.opened none)) ∧
    ¬ Quiet ledgerEnv sampleFloat (rekeyed.foldl Life.step (.opened (some "first-key"))) := by
  have written := fun key => (Written.opened ledgerEnv sampleFloat key).run rekeyed
  rw [(written _).quiet_iff ledgerEnv_digests ledgerKeys,(written _).quiet_iff ledgerEnv_digests ledgerKeys]
  constructor
  · rintro ⟨_,sidecar⟩
    obtain ⟨s,signed,_⟩ := sidecar none rfl "second-key" rfl
    cases signed
  · rintro ⟨rows,_⟩
    have same : "first-key" = "second-key" :=
      rows (some "first-key") List.mem_cons_self "second-key" rfl "first-key" rfl
    exact absurd same (by decide)

end Orrery.Consent
