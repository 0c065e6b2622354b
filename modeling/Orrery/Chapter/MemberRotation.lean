import Mathlib.Algebra.Order.Ring.Abs
import Orrery.Foundation.Runs
import Orrery.Chapter.Identity
import Orrery.Chapter.PgStore

/-! Rotation of a member's key (server/member_rotation.py): the verification of an
attestation, and `accept_rotation` on a database whose failures are a `None` result. -/
namespace Orrery.Chapter
open Foundation Json

abbrev Seconds := { t : Int // 0 ≤ t ∧ t < 2^61 }

def requiredFields : List String := ["agent_id","chapter_id","new_public_key_b64","nonce","signature","timestamp"]

def listText (codec : Codec) (names : List String) : String :=
  "[" ++ ", ".intercalate (names.map fun name => codec.repr (.str name)) ++ "]"

section Verification
variable (codec : Codec)

def rotationMessage (chapterId agentId newPublicKey : Json) (ts : Int) (nonce : Json) : String :=
  s!"ROTATE:{codec.str chapterId}:{codec.str agentId}:{codec.str newPublicKey}:{ts}:{codec.str nonce}"

def fieldOf (attestation : Dict) (key : String) : Json := (get attestation key).getD .null

def messageOf (attestation : Dict) (ts : Int) : String :=
  rotationMessage codec (fieldOf attestation "chapter_id") (fieldOf attestation "agent_id")
    (fieldOf attestation "new_public_key_b64") ts (fieldOf attestation "nonce")

def signedByOld (attestation : Dict) (oldPublicKeyB64 : String) (ts : Int) : Except Exc NaclAnswer := do
  let oldPub ← codec.b64decode (.str oldPublicKeyB64)
  codec.verifyKey oldPub
  let sig ← codec.b64decode (fieldOf attestation "signature")
  return codec.nacl oldPub (messageOf codec attestation ts) sig

def checkSignature (attestation : Dict) (oldPublicKeyB64 : String) (ts : Int) : Bool × String :=
  match signedByOld codec attestation oldPublicKeyB64 ts with
  | .ok .valid => (true,"valid")
  | .ok .badSignature => (false,"invalid signature (old key did not sign this attestation)")
  | .ok (.raised e) | .error e => (false,s!"verification error: {e.kind}")

def verifyAttestation (expectedChapter : String) (now : Seconds) (attestation : Dict) (oldPublicKeyB64 : String)
    (maxAgeSeconds : Int) : Bool × String :=
  let missing := requiredFields.filter fun key => (get attestation key).isNone
  let scheme := codec.str (fieldOf attestation "scheme")
  let chapterId := codec.str (fieldOf attestation "chapter_id")
  if !missing.isEmpty then (false,s!"missing fields: {listText codec missing}")
  else if !eqStr (get attestation "kind") "rotation" then (false,"not a rotation attestation")
  else if !eqStr (get attestation "scheme") "ed25519" then (false,s!"unsupported scheme: {scheme}")
  else if expectedChapter ≠ "" ∧ !eqStr (get attestation "chapter_id") expectedChapter then
    (false,s!"chapter_id mismatch (attestation is for {chapterId})")
  else match codec.int (fieldOf attestation "timestamp") with
  | none => (false,"invalid timestamp")
  | some ts =>
    let age := |now.1-ts|
    if age > maxAgeSeconds then (false,s!"timestamp out of window ({age}s, max {maxAgeSeconds}s)")
    else if eqStr (get attestation "new_public_key_b64") oldPublicKeyB64 then (false,
      "new public key must differ from old")
    else match codec.b64decode (fieldOf attestation "new_public_key_b64") with
    | .error _ => (false,"new pubkey not valid base64")
    | .ok newRaw =>
      if newRaw.length ≠ 32 then (false,s!"new pubkey wrong length: {newRaw.length} (Ed25519 needs 32)")
      else checkSignature codec attestation oldPublicKeyB64 ts

structure Verified (expectedChapter : String) (attestation : Dict) (oldPublicKeyB64 : String) (ts : Int) : Prop where
  complete : ∀ key ∈ requiredFields, (get attestation key).isSome
  kind : get attestation "kind" = some (.str "rotation")
  scheme : get attestation "scheme" = some (.str "ed25519")
  chapter : expectedChapter ≠ "" → get attestation "chapter_id" = some (.str expectedChapter)
  made : codec.int (fieldOf attestation "timestamp") = some ts
  differs : get attestation "new_public_key_b64" ≠ some (.str oldPublicKeyB64)
  key : ∃ newRaw, codec.b64decode (fieldOf attestation "new_public_key_b64") = .ok newRaw ∧ newRaw.length = 32
  signed : signedByOld codec attestation oldPublicKeyB64 ts = .ok .valid

variable {codec} {expectedChapter oldPublicKeyB64 : String} {attestation : Dict}

theorem checkSignature_true {ts : Int} :
    (checkSignature codec attestation oldPublicKeyB64 ts).1 = true ↔
      signedByOld codec attestation oldPublicKeyB64 ts = .ok .valid := by
  unfold checkSignature
  split <;> simp_all

theorem verifyAttestation_true (now : Seconds) (maxAgeSeconds : Int) :
    (verifyAttestation codec expectedChapter now attestation oldPublicKeyB64 maxAgeSeconds).1 = true ↔
      ∃ ts, Verified codec expectedChapter attestation oldPublicKeyB64 ts ∧ |now.1-ts| ≤ maxAgeSeconds := by
  constructor
  · intro passed
    unfold verifyAttestation at passed
    dsimp only at passed
    split at passed
    · cases passed
    next complete =>
    split at passed
    · cases passed
    next kind =>
    split at passed
    · cases passed
    next scheme =>
    split at passed
    · cases passed
    next chapter =>
    split at passed
    · cases passed
    next ts made =>
    split at passed
    · cases passed
    next young =>
    split at passed
    · cases passed
    next differs =>
    split at passed
    · cases passed
    next newRaw decoded =>
    split at passed
    · cases passed
    next length =>
    refine ⟨ts,⟨?_,?_,?_,?_,made,?_,⟨newRaw,decoded,by simpa using length⟩,checkSignature_true.mp passed⟩,by omega⟩
    · simpa [List.isEmpty_iff,List.filter_eq_nil_iff,Option.isSome_iff_ne_none] using complete
    · exact (eqStr_iff _ _).mp (by simpa using kind)
    · exact (eqStr_iff _ _).mp (by simpa using scheme)
    · intro named
      rw [not_and] at chapter
      exact (eqStr_iff _ _).mp (by simpa using chapter named)
    · intro same
      exact differs ((eqStr_iff _ _).mpr same)
  · rintro ⟨ts,verified,young⟩
    obtain ⟨newRaw,decoded,length⟩ := verified.key
    have complete : (requiredFields.filter fun key => (get attestation key).isNone) = [] := by
      rw [List.filter_eq_nil_iff]
      intro key inside
      simpa [Option.isSome_iff_ne_none] using verified.complete key inside
    have chapter : ¬ (expectedChapter ≠ "" ∧ (!eqStr (get attestation "chapter_id") expectedChapter) = true) := by
      rintro ⟨named,other⟩
      rw [(eqStr_iff _ _).mpr (verified.chapter named)] at other
      cases other
    have differs : ¬ eqStr (get attestation "new_public_key_b64") oldPublicKeyB64 = true := by
      rw [eqStr_iff]
      exact verified.differs
    unfold verifyAttestation
    simp only [complete,List.isEmpty_nil,Bool.not_true,Bool.false_eq_true,if_false,(eqStr_iff _ _).mpr verified.kind,
      (eqStr_iff _ _).mpr verified.scheme,if_neg chapter,verified.made,not_lt.mpr young,if_neg differs,decoded,
      length,ne_eq,not_true_eq_false]
    exact checkSignature_true.mpr verified.signed

def noReplayWindow : Int := 2^62

def verifyRecordedLink (codec : Codec) (now : Seconds) (attestation : Dict)
    (oldPublicKeyB64 chapterId : String) : Bool :=
  (verifyAttestation codec chapterId now attestation oldPublicKeyB64 noReplayWindow).1

theorem verifyRecordedLink_accepted {now : Seconds} {maxAgeSeconds : Int} (bounded : maxAgeSeconds ≤ 2^61)
    (accepted : (verifyAttestation codec expectedChapter now attestation oldPublicKeyB64 maxAgeSeconds).1 = true)
    (later : Seconds) : verifyRecordedLink codec later attestation oldPublicKeyB64 expectedChapter = true := by
  obtain ⟨ts,verified,young⟩ := (verifyAttestation_true now maxAgeSeconds).mp accepted
  refine (verifyAttestation_true later noReplayWindow).mpr ⟨ts,verified,?_⟩
  have first := now.2
  have second := later.2
  rw [abs_le] at young ⊢
  unfold noReplayWindow
  constructor <;> omega

def newKeyOf (attestation : Dict) : String :=
  match get attestation "new_public_key_b64" with
  | some (.str s) => s
  | _ => ""

theorem Verified.newKey {ts : Int} (verified : Verified codec expectedChapter attestation oldPublicKeyB64 ts) :
    get attestation "new_public_key_b64" = some (.str (newKeyOf attestation)) ∧ newKeyOf attestation ≠ "" := by
  obtain ⟨newRaw,decoded,length⟩ := verified.key
  obtain ⟨s,text⟩ := codec.b64decode_text _ _ decoded
  have named : get attestation "new_public_key_b64" = some (.str s) := by
    cases found : get attestation "new_public_key_b64" with
    | none => simp [fieldOf,found] at text
    | some value => simpa [fieldOf,found] using text
  have same : newKeyOf attestation = s := by rw [newKeyOf,named]
  refine ⟨by rw [same,named],?_⟩
  rw [same]
  rintro rfl
  rw [text,codec.b64decode_empty] at decoded
  cases decoded
  cases length

end Verification

structure RotationRow where
  chapterId : String
  agentId : String
  oldPublicKey : String
  newPublicKey : String
  newDidKey : Option String
  attestation : Json
  nonce : String
  clientTimestamp : Int

structure RotationCall where
  agent : String
  attestation : Dict
  storedPublicKey : String
  now : Seconds
  read : DbAnswer
  write : DbAnswer

/-- The chapter of the process, whether `init` was called, and what a text column holds of
a JSON value that is not a text. -/
structure RotationEnv extends Codec where
  chapterId : String
  pgRequest : Bool
  castText : Json → Option String

section Acceptance
variable (env : RotationEnv)

def columnText : Json → Option String
  | .str s => some s
  | .null => none
  | other => env.castText other

def nonceSeen (rows : List RotationRow) (call : RotationCall) : Bool :=
  if !env.pgRequest then false
  else match call.read with
  | .answered =>
    let nonce := env.toCodec.str (fieldOf call.attestation "nonce")
    rows.any fun row => row.chapterId == env.chapterId && row.nonce == nonce
  | .noAnswer => false
  | .raised _ => true

def insertRow (rows : List RotationRow) (call : RotationCall) : Option RotationRow := do
  let chapterId ← columnText env (fieldOf call.attestation "chapter_id")
  let agentId ← columnText env (fieldOf call.attestation "agent_id")
  let newPublicKey ← columnText env (fieldOf call.attestation "new_public_key_b64")
  let nonce ← columnText env (fieldOf call.attestation "nonce")
  let clientTimestamp ← env.toCodec.int (fieldOf call.attestation "timestamp")
  if call.storedPublicKey = newPublicKey then none
  else if rows.any fun row => row.chapterId == chapterId && row.nonce == nonce then none
  else return {
    chapterId := chapterId
    agentId := agentId
    oldPublicKey := call.storedPublicKey
    newPublicKey := newPublicKey
    newDidKey := columnText env ((get call.attestation "new_did_key").getD (.str ""))
    attestation := .obj call.attestation
    nonce := nonce
    clientTimestamp := clientTimestamp }

def acceptRotation (rows : List RotationRow) (call : RotationCall) : Except String String × Option RotationRow :=
  let (valid,reason) := verifyAttestation env.toCodec env.chapterId call.now call.attestation call.storedPublicKey 300
  if !valid then (.error reason,none)
  else if nonceSeen env rows call then (.error "nonce replay",none)
  else if !env.pgRequest then (.error "postgres not initialized",none)
  else match call.write with
  | .answered => (.ok (newKeyOf call.attestation),insertRow env rows call)
  | .noAnswer => (.ok (newKeyOf call.attestation),none)
  | .raised kind => (.error s!"audit write failed: {kind}",none)

structure Returned where
  attestation : Dict
  inserted : Option RotationRow

structure Rotations where
  rows : List RotationRow
  returned : List Returned
  keys : String → String

def Rotations.push (s : Rotations) (call : RotationCall) (newKey : String) (inserted : Option RotationRow) :
    Rotations where
  rows := s.rows ++ inserted.toList
  returned := s.returned ++ [⟨call.attestation,inserted⟩]
  keys := Function.update s.keys call.agent newKey

def Rotations.accept (s : Rotations) (call : RotationCall) : Rotations :=
  match acceptRotation env s.rows call with
  | (.ok newKey,inserted) => s.push call newKey inserted
  | (.error _,_) => s

def SameNonce (a b : Returned) : Prop :=
  get a.attestation "chapter_id" = get b.attestation "chapter_id" ∧ get a.attestation "nonce" =
    get b.attestation "nonce"

/-- Every call that returned ok inserted its row, no two of them are for one nonce, and a
key that has moved since `start` is the new key of a row in the table. -/
structure Recorded (start : String → String) (s : Rotations) : Prop where
  inserted : ∀ r ∈ s.returned, ∃ row ∈ s.rows, r.inserted = some row
  once : s.returned.Pairwise fun a b => ¬ SameNonce a b
  moved : ∀ agent, s.keys agent = start agent ∨ ∃ row ∈ s.rows, row.newPublicKey = s.keys agent

def Insertable (rows : List RotationRow) (call : RotationCall) : Prop :=
  ∃ chapterId agentId nonce, columnText env (fieldOf call.attestation "chapter_id") = some chapterId ∧
    columnText env (fieldOf call.attestation "agent_id") = some agentId ∧
    columnText env (fieldOf call.attestation "nonce") = some nonce ∧
    ∀ row ∈ rows, ¬ (row.chapterId = chapterId ∧ row.nonce = nonce)

structure Writes (rows : List RotationRow) (call : RotationCall) : Prop where
  verified : (verifyAttestation env.toCodec env.chapterId call.now call.attestation call.storedPublicKey 300).1 = true
  unseen : nonceSeen env rows call = false
  ready : env.pgRequest = true
  quiet : ∀ kind, call.write ≠ .raised kind

def CarriedOut (s : Rotations) (call : RotationCall) : Prop :=
  Writes env s.rows call → call.write = .answered ∧ Insertable env s.rows call

variable {env} {rows : List RotationRow} {call : RotationCall}

theorem insertRow_some {row : RotationRow} (inserted : insertRow env rows call = some row) :
    columnText env (fieldOf call.attestation "chapter_id") = some row.chapterId ∧
      columnText env (fieldOf call.attestation "nonce") = some row.nonce ∧
      columnText env (fieldOf call.attestation "new_public_key_b64") = some row.newPublicKey ∧
      ∀ old ∈ rows, ¬ (old.chapterId = row.chapterId ∧ old.nonce = row.nonce) := by
  unfold insertRow at inserted
  obtain ⟨chapterId,chapter,inserted⟩ := Option.bind_eq_some_iff.mp inserted
  obtain ⟨agentId,agent,inserted⟩ := Option.bind_eq_some_iff.mp inserted
  obtain ⟨newPublicKey,key,inserted⟩ := Option.bind_eq_some_iff.mp inserted
  obtain ⟨nonce,once,inserted⟩ := Option.bind_eq_some_iff.mp inserted
  obtain ⟨clientTimestamp,made,inserted⟩ := Option.bind_eq_some_iff.mp inserted
  split at inserted
  · cases inserted
  · split at inserted
    · cases inserted
    next free =>
      cases inserted
      refine ⟨chapter,once,key,?_⟩
      intro old inside ⟨same,taken⟩
      refine free (List.any_eq_true.mpr ⟨old,inside,?_⟩)
      simp [same,taken]

theorem insertRow_copies {row : RotationRow} (inserted : insertRow env rows call = some row) :
    row.oldPublicKey = call.storedPublicKey ∧ row.attestation = .obj call.attestation := by
  unfold insertRow at inserted
  obtain ⟨_,_,inserted⟩ := Option.bind_eq_some_iff.mp inserted
  obtain ⟨_,_,inserted⟩ := Option.bind_eq_some_iff.mp inserted
  obtain ⟨_,_,inserted⟩ := Option.bind_eq_some_iff.mp inserted
  obtain ⟨_,_,inserted⟩ := Option.bind_eq_some_iff.mp inserted
  obtain ⟨_,_,inserted⟩ := Option.bind_eq_some_iff.mp inserted
  split at inserted
  · cases inserted
  · split at inserted
    · cases inserted
    · cases inserted
      exact ⟨rfl,rfl⟩

theorem insertRow_isSome {ts : Int}
    (verified : Verified env.toCodec env.chapterId call.attestation call.storedPublicKey ts) :
    (insertRow env rows call).isSome = true ↔ Insertable env rows call := by
  obtain ⟨named,_⟩ := verified.newKey
  have key : columnText env (fieldOf call.attestation "new_public_key_b64") = some (newKeyOf call.attestation) := by
    rw [fieldOf,named]
    rfl
  have differs : call.storedPublicKey ≠ newKeyOf call.attestation := by
    intro same
    exact verified.differs (by rw [named,same])
  constructor
  · intro inserted
    obtain ⟨row,inserted⟩ := Option.isSome_iff_exists.mp inserted
    obtain ⟨chapter,once,_,free⟩ := insertRow_some inserted
    obtain ⟨_,_,inserted⟩ := Option.bind_eq_some_iff.mp inserted
    obtain ⟨agentId,agent,_⟩ := Option.bind_eq_some_iff.mp inserted
    exact ⟨row.chapterId,agentId,row.nonce,chapter,agent,once,free⟩
  · rintro ⟨chapterId,agentId,nonce,chapter,agent,once,free⟩
    have unused : ¬ (rows.any fun row => row.chapterId == chapterId && row.nonce == nonce) = true := by
      intro taken
      obtain ⟨row,inside,same⟩ := List.any_eq_true.mp taken
      exact free row inside (by simpa using same)
    simp only [insertRow,chapter,agent,key,once,verified.made,Option.bind_eq_bind,Option.bind_some,if_neg differs,
      if_neg unused]
    rfl

theorem accept_idle {s : Rotations} (idle : ¬ Writes env s.rows call) : s.accept env call = s := by
  unfold Rotations.accept acceptRotation
  dsimp only
  cases valid : (verifyAttestation env.toCodec env.chapterId call.now call.attestation call.storedPublicKey 300).1 with
  | false => rfl
  | true =>
    cases seen : nonceSeen env s.rows call with
    | true => rfl
    | false =>
      cases ready : env.pgRequest with
      | false => rfl
      | true =>
        cases write : call.write with
        | raised kind => rfl
        | answered => exact absurd ⟨valid,seen,ready,by simp [write]⟩ idle
        | noAnswer => exact absurd ⟨valid,seen,ready,by simp [write]⟩ idle

theorem acceptRotation_writes (writes : Writes env rows call) : acceptRotation env rows call =
    (.ok (newKeyOf call.attestation),if call.write = .answered then insertRow env rows call else none) := by
  unfold acceptRotation
  dsimp only
  rw [writes.verified,writes.unseen,writes.ready]
  cases write : call.write with
  | answered => rfl
  | noAnswer => rfl
  | raised kind => exact absurd write (writes.quiet kind)

theorem accept_writes {s : Rotations} (writes : Writes env s.rows call) : s.accept env call =
    s.push call (newKeyOf call.attestation) (if call.write = .answered then insertRow env s.rows call else none) := by
  rw [Rotations.accept,acceptRotation_writes writes]

def Traced (env : RotationEnv) (s : Rotations) : Prop := ∀ r ∈ s.returned, ∀ row, r.inserted = some row →
  row ∈ s.rows ∧ columnText env (fieldOf r.attestation "chapter_id") = some row.chapterId ∧
    columnText env (fieldOf r.attestation "nonce") = some row.nonce

theorem Traced.accept {s : Rotations} (traced : Traced env s) (call : RotationCall) :
    Traced env (s.accept env call) := by
  by_cases writes : Writes env s.rows call
  · rw [accept_writes writes]
    intro r member row inserted
    rcases List.mem_append.mp member with old | new
    · obtain ⟨inside,chapter,nonce⟩ := traced r old row inserted
      exact ⟨List.mem_append_left _ inside,chapter,nonce⟩
    · obtain rfl := List.mem_singleton.mp new
      dsimp only at inserted
      split at inserted
      next =>
        obtain ⟨chapter,nonce,_⟩ := insertRow_some inserted
        refine ⟨List.mem_append_right _ ?_,chapter,nonce⟩
        rw [if_pos ‹_›,inserted]
        exact List.mem_singleton_self row
      next => cases inserted
  · rw [accept_idle writes]
    exact traced

theorem Traced.fresh {s : Rotations} (traced : Traced env s) {start : String → String} (recorded : Recorded start s)
    {row : RotationRow} (inserted : insertRow env s.rows call = some row) :
    ∀ r ∈ s.returned, ¬ SameNonce r ⟨call.attestation,some row⟩ := by
  rintro r member ⟨chapter,nonce⟩
  obtain ⟨old,_,found⟩ := recorded.inserted r member
  obtain ⟨inside,oldChapter,oldNonce⟩ := traced r member old found
  obtain ⟨newChapter,newNonce,_,free⟩ := insertRow_some inserted
  dsimp only at chapter nonce
  rw [fieldOf,chapter,← fieldOf,newChapter] at oldChapter
  rw [fieldOf,nonce,← fieldOf,newNonce] at oldNonce
  exact free old inside ⟨(Option.some.inj oldChapter).symm,(Option.some.inj oldNonce).symm⟩

theorem recorded_accept_iff {start : String → String} {s : Rotations} (traced : Traced env s)
    (recorded : Recorded start s) (call : RotationCall) :
    Recorded start (s.accept env call) ↔ CarriedOut env s call := by
  by_cases writes : Writes env s.rows call
  · rw [accept_writes writes]
    obtain ⟨ts,verified,_⟩ := (verifyAttestation_true call.now 300).mp writes.verified
    constructor
    · intro after _
      obtain ⟨row,_,inserted⟩ := after.inserted ⟨call.attestation,
        _⟩ (List.mem_append_right _ (List.mem_singleton_self _))
      dsimp only at inserted
      split at inserted
      next answered => exact ⟨answered,(insertRow_isSome verified).mp (by rw [inserted]; rfl)⟩
      next => cases inserted
    · intro carried
      obtain ⟨answered,insertable⟩ := carried writes
      obtain ⟨row,inserted⟩ := Option.isSome_iff_exists.mp ((insertRow_isSome verified).mpr insertable)
      rw [if_pos answered,inserted]
      refine ⟨?_,?_,?_⟩
      · intro r member
        rcases List.mem_append.mp member with old | new
        · obtain ⟨old,inside,found⟩ := recorded.inserted r old
          exact ⟨old,List.mem_append_left _ inside,found⟩
        · rw [List.mem_singleton.mp new]
          exact ⟨row,List.mem_append_right _ (List.mem_singleton_self row),rfl⟩
      · apply List.pairwise_append.mpr
        refine ⟨recorded.once,List.pairwise_singleton _ _,?_⟩
        intro r member q last
        rw [List.mem_singleton.mp last]
        exact traced.fresh recorded inserted r member
      · intro agent
        by_cases own : agent = call.agent
        · right
          refine ⟨row,List.mem_append_right _ (List.mem_singleton_self row),?_⟩
          obtain ⟨_,_,key,_⟩ := insertRow_some inserted
          rw [fieldOf,verified.newKey.1] at key
          have held : (s.push call (newKeyOf call.attestation) (some row)).keys call.agent =
              newKeyOf call.attestation :=
            Function.update_self ..
          rw [own,held]
          exact (Option.some.inj key).symm
        · rcases recorded.moved agent with same | ⟨old,inside,moved⟩
          · left
            exact (Function.update_of_ne own ..).trans same
          · right
            exact ⟨old,List.mem_append_left _ inside,moved.trans (Function.update_of_ne own ..).symm⟩
  · rw [accept_idle writes]
    exact iff_of_true recorded fun reached => absurd reached writes

/-- In every sequence of calls, on every table: each call that returns ok has inserted its
row, none returns ok twice for a nonce and no key moves without its row, after any number
of the calls, exactly if every call that comes as far as the INSERT finds it carried out. -/
theorem recorded_iff_carriedOut (env : RotationEnv) (rows : List RotationRow) (keys : String → String)
    (calls : List RotationCall) :
    (∀ k, Recorded keys ((calls.take k).foldl (Rotations.accept env) ⟨rows,[],keys⟩)) ↔
      ∀ (k : Nat) call, calls[k]? = some call →
        CarriedOut env ((calls.take k).foldl (Rotations.accept env) ⟨rows,[],keys⟩) call := by
  apply Runs.always_iff (I := Traced env)
  · intro s call traced
    exact traced.accept call
  · intro s call traced recorded
    exact recorded_accept_iff traced recorded call
  · intro r absent
    cases absent
  · exact ⟨fun r absent => absurd absent List.not_mem_nil,List.Pairwise.nil,fun agent => Or.inl rfl⟩

def handover (old new : String) (nonce : String) : Dict :=
  [("kind",.str "rotation"),("scheme",.str "ed25519"),("chapter_id",.str "acme"),("agent_id",.str "bob"),
    ("new_public_key_b64",.str new),("timestamp",.int 0),("nonce",.str nonce),("signature",.str old)]

def plainEnv : RotationEnv where
  toCodec := plainCodec
  chapterId := "acme"
  pgRequest := true
  castText _ := none

def epoch : Seconds := ⟨0,by decide,by decide⟩

def unanswered : RotationCall :=
  ⟨"bob",handover (keyNamed 'a') (keyNamed 'b') "n1",keyNamed 'a',epoch,.noAnswer,.noAnswer⟩

theorem unanswered_unrecorded : ¬ Recorded (fun _ => keyNamed 'a')
    ([unanswered].foldl (Rotations.accept plainEnv) ⟨[],[],fun _ => keyNamed 'a'⟩) := by
  have writes : Writes plainEnv [] unanswered :=
    ⟨by decide +kernel,by decide +kernel,rfl,fun kind => by simp [unanswered]⟩
  intro recorded
  rw [List.foldl_cons,List.foldl_nil,accept_writes writes] at recorded
  obtain ⟨row,_,inserted⟩ := recorded.inserted ⟨unanswered.attestation,none⟩ (List.mem_singleton_self _)
  cases inserted

end Acceptance
end Orrery.Chapter
