import Orrery.Consent.LedgerLife

/-! What `verify_chain` catches: a table edited by someone without the key, beside the
sidecar of the last `record`, passes as authentic only with the rows that were recorded. -/
namespace Orrery.Consent
open Foundation Json Chains

section Surviving
variable {env : Env} {parseFloat : List Char → ℚ} {digest : List Char → String} {key : String}

/-- What the walk under a key finds at a row that it counts as signed. -/
def Passes (env : Env) (parseFloat : List Char → ℚ) (key : String) (previous : Option Stored) (r : Stored) : Prop :=
  RefersBack (fun r => textOf r.eventSha256) (fun r => textOf r.prevSha256) "" previous r ∧
    ∃ event, r.canonicalEvent parseFloat (textOf r.prevSha256) = some event ∧ r.eventSha256 = some (env.sha256 event) ∧
      env.verify key (env.sha256 event) (textOf r.signatureB64) = true

theorem checkRows_ok {length : Nat} {rows : List Stored} : ∀ (previous : Option Stored) {index : Nat}
    {tally tally' : Tally}, checkRows env parseFloat (some key) length index
      ((previous.map fun r => textOf r.eventSha256).getD "") tally rows = .ok tally' →
    tally.unsignedRows ≤ tally'.unsignedRows ∧
      (tally'.unsignedRows = tally.unsignedRows → Linked (Passes env parseFloat key) previous rows) ∧
      ((∀ r ∈ rows, textOf r.signatureB64 ≠ "") → tally'.unsignedRows = tally.unsignedRows) := by
  induction rows with
  | nil =>
    intro previous index tally tally' walked
    cases walked
    exact ⟨Nat.le_refl _,fun _ => trivial,fun _ => rfl⟩
  | cons r rest ih =>
    intro previous index tally tally' walked
    rw [checkRows] at walked
    cases checked : checkRow env parseFloat (some key) length index
        ((previous.map fun r => textOf r.eventSha256).getD "") tally r with
    | error halt =>
      rw [checked] at walked
      cases walked
    | ok next =>
      rw [checked] at walked
      obtain ⟨grows,linked,kept⟩ := ih (some r) walked
      obtain ⟨event,decoded,hashed,link,found⟩ := checkRow_ok checked
      rcases found key rfl with ⟨counted,unsigned⟩ | ⟨same,_,verified⟩
      · exact ⟨by omega,fun equal => by omega,fun signed => absurd unsigned (signed r List.mem_cons_self)⟩
      · refine ⟨by omega,fun equal => ⟨⟨link,event,?_,hashed,verified⟩,linked (by omega)⟩,fun signed => ?_⟩
        · rw [link]
          exact decoded
        · exact (kept fun r member => signed r (List.mem_cons_of_mem _ member)).trans same

theorem count_le {checkpoint : Checkpoint} {configured : Option String} {length : Nat} {head : String}
    (steady : checkHeadCheckpoint env parseFloat configured (some (checkpoint.text env)) length head = .ok none) :
    checkpoint.count ≤ length := by
  obtain ⟨cp,read,count,_,_⟩ := loads_text env parseFloat checkpoint
  rw [checkHeadCheckpoint,Option.bind_some,read] at steady
  have none := Except.ok.inj steady
  rw [checkFields,count] at none
  dsimp only [Option.getD_some,asInt] at none
  split at none
  next => cases none
  next =>
    split at none
    next => cases none
    next within => omega

/-- The columns that are hashed hold what was recorded, the detail up to the order of its keys. -/
structure SameFields (env : Env) (parseFloat : List Char → ℚ) (r : Stored) (row : Row) : Prop where
  chapterId : r.chapterId = some row.chapterId
  actorAgentId : r.actorAgentId = row.actorAgentId
  action : r.action = some row.action
  targetType : r.targetType = row.targetType
  targetId : r.targetId = row.targetId
  outcome : r.outcome = some row.outcome
  detail : ∃ detail, r.decoded parseFloat = some detail ∧ Json.ordered detail = Json.ordered (.obj row.detail)
  occurredAt : r.occurredAt = some (env.isoformat row.occurredAt)
  prevSha256 : textOf r.prevSha256 = textOf row.prevSha256
  eventSha256 : r.eventSha256 = some row.eventSha256

theorem optional_inj {a b : Option String} (same : optional a = optional b) : a = b := by
  cases a <;> cases b <;> simp_all [optional]

theorem decoded_proper (floats : ReadsBack parseFloat env.floatRepr) {r : Stored} {detail : Json}
    (decoded : r.decoded parseFloat = some detail) : Proper parseFloat env.floatRepr detail := by
  obtain ⟨read,found,same⟩ := Option.map_eq_some_iff.mp decoded
  rw [← same]
  split
  next => exact loads_proper floats found
  next => exact proper_empty

def eventKeys : List String :=
  ["chapter_id","actor_agent_id","action","target_type","target_id","outcome","detail","occurred_at","prev_sha256"]

theorem eventKeys_nodup : eventKeys.Nodup := by
  decide

theorem canonicalEvent_proper {row : Row} (proper : Proper parseFloat env.floatRepr (.obj row.detail)) :
    Proper parseFloat env.floatRepr (canonicalEvent env row) :=
  ⟨eventKeys_nodup,trivial,proper_optional _,trivial,proper_optional _,proper_optional _,trivial,proper,trivial,trivial,
    trivial⟩

theorem sameFields_of_dumps (floats : ReadsBack parseFloat env.floatRepr) {r : Stored} {row : Row} {event : Json}
    (proper : Proper parseFloat env.floatRepr (.obj row.detail)) (sha : r.eventSha256 = some row.eventSha256)
    (decoded : r.canonicalEvent parseFloat (textOf r.prevSha256) = some event)
    (same : dumps env.floatRepr .canonical event = dumps env.floatRepr .canonical (canonicalEvent env row)) :
    SameFields env parseFloat r row := by
  obtain ⟨detail,read,rfl⟩ := Option.map_eq_some_iff.mp decoded
  rw [ite_id] at same
  have surviving : Proper parseFloat env.floatRepr (.obj [("chapter_id",optional r.chapterId),
      ("actor_agent_id",optional r.actorAgentId),("action",optional r.action),("target_type",optional r.targetType),
      ("target_id",optional r.targetId),("outcome",optional r.outcome),("detail",detail),
      ("occurred_at",optional r.occurredAt),("prev_sha256",.str (textOf r.prevSha256))]) :=
    ⟨eventKeys_nodup,proper_optional _,proper_optional _,proper_optional _,proper_optional _,proper_optional _,
      proper_optional _,decoded_proper floats read,proper_optional _,trivial,trivial⟩
  have recorded := canonicalEvent_proper proper
  have equal := ordered_of_dumps Layout.canonical_readable rfl surviving recorded same
  rw [canonicalEvent] at equal recorded
  have at_key := get_of_ordered equal
  have column : ∀ {a b : Option String}, some (Json.ordered (optional a)) = some (Json.ordered (optional b)) → a =
      b := by
    intro a b equal
    rw [ordered_optional,ordered_optional] at equal
    exact optional_inj (Option.some.inj equal)
  exact {
    chapterId := column (at_key "chapter_id")
    actorAgentId := column (at_key "actor_agent_id")
    action := column (at_key "action")
    targetType := column (at_key "target_type")
    targetId := column (at_key "target_id")
    outcome := column (at_key "outcome")
    detail := ⟨detail,read,Option.some.inj (at_key "detail")⟩
    occurredAt := column (at_key "occurred_at")
    prevSha256 := Json.str.inj (Option.some.inj (at_key "prev_sha256"))
    eventSha256 := sha }

def Life.Issued (life : Life) (message : String) : Prop :=
  (∃ row ∈ life.world.rows, message = row.eventSha256) ∨
    ∃ (i : Nat) (row : Row), life.world.rows[i]? = some row ∧ message = checkpointMessage (i+1) row.eventSha256

def Life.Unforged (env : Env) (life : Life) (key : String) (edited : List Stored) : Prop :=
  ∀ r ∈ edited, ∀ message, env.verify key message (textOf r.signatureB64) = true → life.Issued message

def Life.Saved (life : Life) : Prop := life.world.rows ≠ [] →
  ∃ checkpoint, life.world.checkpoint = some checkpoint ∧ checkpoint.count = life.world.rows.length

def LedgerMove.KeyedBy (key : String) : LedgerMove env parseFloat → Prop
  | .restart configured => configured = some key
  | .init configured => configured = none ∨ configured = some key
  | .record _ _ => True

structure Life.Keyed (life : Life) (key : String) : Prop where
  configured : life.world.signingKey = some key
  signers : ∀ signer ∈ life.signers, signer = some key
  sealer : ∀ signer ∈ life.sealer, signer = some key

theorem Life.Keyed.opened (key : String) : (Life.opened (some key)).Keyed key := ⟨rfl,nofun,nofun⟩

theorem Life.Keyed.step {life : Life} (keyed : life.Keyed key) {move : LedgerMove env parseFloat}
    (own : move.KeyedBy key) : (life.step move).Keyed key := by
  cases move with
  | restart given => exact ⟨own,keyed.signers,keyed.sealer⟩
  | init given =>
    refine ⟨?_,keyed.signers,keyed.sealer⟩
    rcases own with rfl | rfl
    · exact keyed.configured
    · rfl
  | record entry saved =>
    rcases step_record life entry saved with ⟨reads,same⟩ | ⟨_,same⟩
    · rw [same]
      exact ⟨keyed.configured,keyed.signers,keyed.sealer⟩
    · rw [same]
      refine ⟨(recorded_key life _ saved).trans keyed.configured,fun signer member => ?_,fun signer member => ?_⟩
      · rcases List.mem_append.mp member with old | single
        · exact keyed.signers signer old
        · exact (List.mem_singleton.mp single).trans keyed.configured
      · cases saved with
        | true =>
          cases member
          exact keyed.configured
        | false => exact keyed.sealer signer member

theorem Life.Keyed.run {moves : List (LedgerMove env parseFloat)} : ∀ {life : Life}, life.Keyed key →
    (∀ move ∈ moves, move.KeyedBy key) → (moves.foldl Life.step life).Keyed key := by
  induction moves with
  | nil => exact fun keyed _ => keyed
  | cons move moves ih =>
    intro life keyed all
    exact ih (keyed.step (all move List.mem_cons_self)) fun move member => all move (List.mem_cons_of_mem _ member)

theorem Written.sha {life : Life} (written : Written env parseFloat life) :
    ∀ row ∈ life.world.rows, sha256Of env row = row.eventSha256 :=
  linked_mem (fun _ _ chained => chained.1) written.linked

theorem Passes.recorded (digests : Digests env digest) (injective : Function.Injective digest)
    (apart : ∀ text count head, digest text ≠ checkpointMessage count head)
    (floats : ReadsBack parseFloat env.floatRepr) {life : Life} (written : Written env parseFloat life)
    {edited : List Stored} (unforged : life.Unforged env key edited) {previous : Option Stored} {r : Stored}
    (surviving : r ∈ edited) (passes : Passes env parseFloat key previous r) :
    ∃ row ∈ life.world.rows, SameFields env parseFloat r row := by
  obtain ⟨_,event,decoded,hashed,verified⟩ := passes
  rcases unforged r surviving _ verified with ⟨row,member,same⟩ | ⟨i,row,_,same⟩
  · refine ⟨row,member,sameFields_of_dumps floats (written.proper row member) ?_ decoded ?_⟩
    · rw [hashed,same]
    · rw [← written.sha row member,sha256Of,digests,digests] at same
      exact injective same
  · rw [digests] at same
    exact absurd same (apart _ _ _)

/-- Whatever was done to the table, what passes as authentic are the recorded rows, in
their order. -/
theorem surviving_rows (digests : Digests env digest) (injective : Function.Injective digest)
    (apart : ∀ text count head, digest text ≠ checkpointMessage count head)
    (floats : ReadsBack parseFloat env.floatRepr) (moves : List (LedgerMove env parseFloat))
    (keyed : ∀ move ∈ moves, move.KeyedBy key) {life : Life} (run : moves.foldl Life.step (.opened (some key)) = life)
    (saved : life.Saved) (edited : List Stored) (unforged : life.Unforged env key edited) {report : Dict}
    (verified : verifyChain env parseFloat life.world.signingKey
      (life.world.checkpoint.map (Checkpoint.text env)) edited =
      .ok report) (ok : Ok report) (authentic : get report "authenticated" = some (.bool true)) :
    List.Forall₂ (SameFields env parseFloat) edited life.world.rows := by
  have written : Written env parseFloat life := run ▸ (Written.opened env parseFloat (some key)).run moves
  have one : life.Keyed key := run ▸ (Life.Keyed.opened key).run keyed
  rw [one.configured] at verified
  obtain ⟨tally,walked,steady,rfl⟩ := verifyChain_ok.mp ⟨verified,ok⟩
  have unsigned : tally.unsignedRows = 0 := by
    simpa [consistentReport,get_cons] using authentic
  have passed := (checkRows_ok none walked).2.1 unsigned
  have long : life.world.rows.length ≤ edited.length := by
    by_cases empty : life.world.rows = []
    · rw [empty]
      exact Nat.zero_le _
    · obtain ⟨checkpoint,file,count⟩ := saved empty
      rw [file] at steady
      rw [← count]
      exact count_le steady
  apply known_all (linked_mono (fun _ _ chained => chained.2) written.linked) written.distinct ?_
    (linked_mono (fun _ _ passes => passes.1) passed) ?_ (fun r row same => ⟨?_,same.prevSha256⟩) long
  · intro row member
    rw [← written.sha row member]
    exact env.sha256_ne_empty _
  · intro r member
    obtain ⟨previous,passes⟩ := linked_mem (P := fun r => ∃ previous, Passes env parseFloat key previous r)
      (fun previous _ passes => ⟨previous,passes⟩) passed r member
    exact passes.recorded digests injective apart floats written unforged member
  · rw [same.eventSha256]
    rfl

theorem signer_of_mem {rows : List Row} {signers : List (Option String)}
    (signed : List.Forall₂ (Row.SignedBy env) rows signers) :
    ∀ row ∈ rows, ∃ signer ∈ signers, row.SignedBy env signer := by
  induction signed with
  | nil => nofun
  | @cons row signer rows signers own _ ih =>
    intro other member
    rcases List.mem_cons.mp member with rfl | further
    · exact ⟨signer,List.mem_cons_self,own⟩
    · obtain ⟨signer,inside,signed⟩ := ih other further
      exact ⟨signer,List.mem_cons_of_mem _ inside,signed⟩

theorem Life.Keyed.authentic (digests : Digests env digest) (keys : Keys env) {life : Life}
    (keyed : life.Keyed key) (written : Written env parseFloat life) :
    ∃ report, life.world.verifyChain env parseFloat = .ok report ∧ Ok report ∧
      get report "authenticated" = some (.bool true) := by
  have suits : life.Suits keys life.world.signingKey := by
    rw [keyed.configured]
    refine ⟨fun signer member => ?_,fun signer member => ?_⟩
    · rw [keyed.signers signer member]
      exact keys.agree_self _
    · rw [keyed.sealer signer member]
      exact keys.vouched_self _
  obtain ⟨report,verified,ok⟩ := (written.quiet_iff digests keys).mpr suits
  refine ⟨report,verified,ok,?_⟩
  obtain ⟨tally,walked,_,rfl⟩ := verifyChain_ok.mp ⟨verified,ok⟩
  rw [keyed.configured] at walked ⊢
  have unsigned := (checkRows_ok none walked).2.2 ?_
  · simp [consistentReport,get_cons,unsigned]
  · intro r member
    obtain ⟨row,inside,rfl⟩ := List.mem_map.mp member
    obtain ⟨signer,configured,signed⟩ := signer_of_mem written.signed row inside
    rw [keyed.signers signer configured] at signed
    have column : textOf (row.stored env).signatureB64 = env.sign key row.eventSha256 := congrArg textOf signed
    rw [column]
    exact keys.sign_ne_empty key _

end Surviving

theorem sampleDigest_injective : Function.Injective sampleDigest := by
  intro a b same
  simpa [sampleDigest] using congrArg String.toList same

theorem sampleDigest_apart (text : List Char) (count : Nat) (head : String) :
    sampleDigest text ≠ checkpointMessage count head := by
  have letter : "consent-checkpoint:v1:".toList.head? = some 'c' := by simp
  have starts : (checkpointMessage count head).toList.head? = some 'c' := by
    unfold checkpointMessage
    simp only [toString,String.toList_append,List.head?_append,letter,Option.some_or]
  intro same
  rw [← same,sampleDigest,String.toList_ofList] at starts
  cases starts

theorem sampleFloat_readsBack : ReadsBack sampleFloat ledgerEnv.floatRepr := fun _ => rfl

def keyedLife : Life := (Life.opened (some "first-key")).step (.record sampleEntry true)

theorem ledgerEnv_unforged {life : Life} {key : String} (keyed : life.Keyed key)
    (written : Written ledgerEnv sampleFloat life) :
    life.Unforged ledgerEnv key (life.world.rows.map (Row.stored ledgerEnv)) := by
  intro r member message verified
  obtain ⟨row,inside,rfl⟩ := List.mem_map.mp member
  obtain ⟨signer,configured,signed⟩ := signer_of_mem written.signed row inside
  rw [keyed.signers signer configured] at signed
  have column : textOf (row.stored ledgerEnv).signatureB64 = key ++ ":" ++ row.eventSha256 := congrArg textOf signed
  rw [column] at verified
  have same : key ++ ":" ++ row.eventSha256 = key ++ ":" ++ message := beq_iff_eq.mp verified
  exact Or.inl ⟨row,inside,((String.append_right_inj _).mp same).symm⟩

theorem surviving_rows_untouched : keyedLife.world.rows.length = 1 ∧ List.Forall₂ (SameFields ledgerEnv sampleFloat)
    (keyedLife.world.rows.map (Row.stored ledgerEnv)) keyedLife.world.rows := by
  have moves : ∀ move ∈ [LedgerMove.record sampleEntry true], move.KeyedBy "first-key" := by simp [LedgerMove.KeyedBy]
  have keyed : keyedLife.Keyed "first-key" := (Life.Keyed.opened "first-key").step (moves _ List.mem_cons_self)
  have written := (Written.opened ledgerEnv sampleFloat (some "first-key")).step (.record sampleEntry true)
  obtain ⟨report,verified,ok,authentic⟩ := keyed.authentic ledgerEnv_digests ledgerKeys written
  refine ⟨rfl,?_⟩
  exact surviving_rows ledgerEnv_digests sampleDigest_injective sampleDigest_apart sampleFloat_readsBack
    [.record sampleEntry true] moves rfl (fun _ => ⟨_,rfl,rfl⟩) _
      (ledgerEnv_unforged keyed written) verified ok authentic

end Orrery.Consent
