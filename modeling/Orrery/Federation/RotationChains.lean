import Orrery.Chapter.MemberRotation
import Orrery.Federation.PeerChecks

/-! Honest rotations of a peer, as it publishes them and as another chapter follows them:
from the first key on, the whole chain is accepted as long as every link of it is fresh. -/
namespace Orrery.Federation.Policy
open Foundation Json Chapter

structure PeerKey (env : PeerEnv) where
  key : Bytes
  sign : String → String
  loads : env.verifyKey key = .ok ()
  signs : ∀ material, sign material ≠ "" ∧ ∃ signature, env.b64decode (.str (sign material)) = .ok signature ∧
    env.nacl key material signature = .valid

def PeerKey.did {env : PeerEnv} (key : PeerKey env) : String := didKeyZ ++ env.b58encode (multicodecPrefix ++ key.key)

def rotationFields (peer oldDid newDid : String) (issuedAt : Int) : Dict :=
  [("type",.str rotationType),("peer_chapter_id",.str peer),("old_did",.str oldDid),("new_did",.str newDid),
    ("issued_at",.int issuedAt)]

/-- An honest rotation: the old key has signed that the new one takes its place. -/
structure KeyRotation (env : PeerEnv) (peer : String) where
  old : PeerKey env
  new : PeerKey env
  issuedAt : Seconds
  material : String
  made : env.canonicalize (rotationFields peer old.did new.did issuedAt) = .ok material
  differs : new.did ≠ old.did

def Continues {env : PeerEnv} {peer : String} : List (KeyRotation env peer) → String → String → Prop
  | [], first, last => first = last
  | rotation :: rest, first, last => rotation.old.did = first ∧ Continues rest rotation.new.did last

section Publication
variable {env : PeerEnv} {peer : String}

def KeyRotation.attestation (rotation : KeyRotation env peer) : Dict :=
  rotationFields peer rotation.old.did rotation.new.did rotation.issuedAt ++
    [("signature",.str (rotation.old.sign rotation.material))]

def publishedRotationChain (rows : Option (List Dict)) : List Dict :=
  (rows.getD []).filterMap fun row =>
    match get row "attestation" with
    | some (.obj attestation) => some attestation
    | _ => none

def peerRotation (rows : Option (List Dict)) : Json :=
  .obj [("rotations",.arr ((publishedRotationChain rows).map .obj))]

/-- The rows hold the attestations of the rotations, the oldest first. -/
def Records (rows : List Dict) (history : List (KeyRotation env peer)) : Prop :=
  rows.map (fun row => get row "attestation") = history.map fun rotation => some (.obj rotation.attestation)

theorem published_history {rows : List Dict} {history : List (KeyRotation env peer)} (records : Records rows history) :
    publishedRotationChain (some rows) = history.map KeyRotation.attestation := by
  rw [publishedRotationChain,Option.getD_some]
  induction rows generalizing history with
  | nil =>
    cases history with
    | nil => rfl
    | cons rotation rest => cases records
  | cons row rows ih =>
    cases history with
    | nil => cases records
    | cons rotation rest =>
      obtain ⟨own,records⟩ := List.cons.inj records
      have held : get row "attestation" = some (.obj rotation.attestation) := own
      rw [List.filterMap_cons,held,ih records]
      rfl

theorem pinnedKey_did (decodes : ∀ bytes, env.b58decode (env.b58encode bytes) = .ok bytes) (key : PeerKey env) :
    pinnedKey env key.did = some key.key := by
  have named : startsWith didKey key.did = true := by
    rw [startsWith,PeerKey.did,String.toList_append]
    exact List.isPrefixOf_iff_prefix.mpr ⟨'z' :: (env.b58encode (multicodecPrefix ++ key.key)).toList,rfl⟩
  have bare : String.ofList ((dropStart didKey key.did).toList.drop 1) =
      env.b58encode (multicodecPrefix ++ key.key) := by
    rw [dropStart,PeerKey.did,String.toList_append,String.toList_ofList]
    exact String.ofList_toList
  unfold pinnedKey
  dsimp only
  rw [if_pos named,bare,decodes]
  rfl

theorem KeyRotation.proves (decodes : ∀ bytes, env.b58decode (env.b58encode bytes) = .ok bytes)
    (rotation : KeyRotation env peer) :
    Proves env peer rotation.attestation rotation.old.did rotation.new.did rotation.issuedAt := by
  have shown : orEmpty (get rotation.attestation "signature") = .str (rotation.old.sign rotation.material) := by
    have filled : truthy (.str (rotation.old.sign rotation.material)) = true :=
      bne_iff_ne.mpr (rotation.old.signs rotation.material).1
    change ((some (Json.str (rotation.old.sign rotation.material))).filter truthy).getD (.str "") = _
    rw [Option.filter_some,if_pos filled]
    rfl
  obtain ⟨filled,signature,decoded,valid⟩ := rotation.old.signs rotation.material
  have made : rotationSigningMaterial env rotation.attestation = .ok rotation.material := rotation.made
  have keyed (key : PeerKey env) : startsWith didKey key.did = true := by
    rw [startsWith,PeerKey.did,String.toList_append]
    exact List.isPrefixOf_iff_prefix.mpr ⟨'z' :: (env.b58encode (multicodecPrefix ++ key.key)).toList,rfl⟩
  refine ⟨rfl,rfl,rfl,rfl,?_,keyed rotation.new,rotation.differs,rfl,?_,?_,rotation.old.key,
    pinnedKey_did decodes rotation.old,?_⟩
  · intro empty
    have named := keyed rotation.old
    rw [empty] at named
    exact absurd named (by decide)
  · obtain ⟨issuedAt,past,bound⟩ := rotation.issuedAt
    have small : 2^61 ≤ floatLimit := by decide +kernel
    exact lt_of_lt_of_le (by dsimp only; omega) small
  · rw [shown]
    exact bne_iff_ne.mpr filled
  · rw [signedByPinned,rotation.old.loads,made,shown,decoded]
    exact decide_eq_true valid

end Publication

section Walking
variable {env : PeerEnv} {peer first last final : String}

def AllFresh (env : PeerEnv) {peer : String} (history : List (KeyRotation env peer)) (times : ℕ → Clock) : Prop :=
  ∀ n rotation, history[n]? = some rotation → Fresh env (times n) rotation.issuedAt

theorem allFresh_cons {rotation : KeyRotation env peer} {rest : List (KeyRotation env peer)} {times : ℕ → Clock} :
    AllFresh env (rotation :: rest) times ↔ Fresh env (times 0) rotation.issuedAt ∧
      AllFresh env rest fun n => times (n+1) := by
  constructor
  · exact fun fresh => ⟨fresh 0 rotation rfl,fun n other found => fresh (n+1) other found⟩
  · rintro ⟨own,fresh⟩ n other found
    cases n with
    | zero =>
      cases found
      exact own
    | succ n => exact fresh n other found

theorem leads_history (decodes : ∀ bytes, env.b58decode (env.b58encode bytes) = .ok bytes)
    (history : List (KeyRotation env peer)) : ∀ (times : ℕ → Clock) (first : String), Continues history first last →
      (Leads env peer (history.map fun rotation => .obj rotation.attestation) times first final ↔
        final = last ∧ AllFresh env history times) := by
  induction history with
  | nil =>
    rintro times first rfl
    exact ⟨fun same => ⟨same.symm,fun n rotation found => nomatch found⟩,fun both => both.1.symm⟩
  | cons rotation rest ih =>
    rintro times first ⟨rfl,continues⟩
    have own := rotation.proves decodes
    rw [allFresh_cons]
    constructor
    · rintro ⟨att,next,issuedAt,same,proves,fresh,leads⟩
      cases same
      obtain rfl : rotation.new.did = next := Json.str.inj (Option.some.inj (own.newDid.symm.trans proves.newDid))
      obtain rfl : rotation.issuedAt.1 = issuedAt := Option.some.inj (own.issued.symm.trans proves.issued)
      obtain ⟨ends,allFresh⟩ := (ih _ _ continues).mp leads
      exact ⟨ends,fresh,allFresh⟩
    · rintro ⟨ends,fresh,allFresh⟩
      exact ⟨rotation.attestation,rotation.new.did,rotation.issuedAt,rfl,own,fresh,
        (ih _ _ continues).mpr ⟨ends,allFresh⟩⟩

theorem accepts_history (decodes : ∀ bytes, env.b58decode (env.b58encode bytes) = .ok bytes)
    {history : List (KeyRotation env peer)} (some : history ≠ []) (continues : Continues history first last)
    {rows : List Dict} (records : Records rows history) {times : ℕ → Clock} :
    acceptRotations env (rotationsOf (peerRotation (.some rows))) peer last first times = .ok (true,"ok") ↔
      AllFresh env history times := by
  have served : rotationsOf (peerRotation (.some rows)) =
      .some (history.map fun rotation => .obj rotation.attestation) := by
    rw [peerRotation,published_history records,List.map_map]
    rfl
  rw [served,acceptRotations_ok]
  constructor
  · rintro ⟨-,chain,same,-,leads⟩
    cases same
    exact ((leads_history decodes history times first continues).mp leads).2
  · intro fresh
    refine ⟨rfl,_,rfl,?_,(leads_history decodes history times first continues).mpr ⟨rfl,fresh⟩⟩
    exact fun none => some (List.map_eq_nil_iff.mp none)

end Walking

section Following
variable {env : PeerEnv} {peer did : String} {peerEndpoint : Option String} {landings : ℕ → Landing} {db : Db}
  {policy : PeerPolicy}

def Works (landings : ℕ → Landing) : Prop := ∀ n, (landings n).lands = true ∧ (landings n).answers = true

theorem works_answered {α : Type} {landing : Landing} (works : landing.lands = true ∧ landing.answers = true)
    (rows : List α) :
    landing.answered rows = some rows := by
  rw [Landing.answered,works.1,works.2]
  rfl

theorem run_getPeerPolicy (works : Works landings) (found : db.policies.row peer = some policy) :
    Proc.run exec landings (getPeerPolicy peer) db = (some policy,db,fun n => landings (n+1)) := by
  have called : Proc.run exec landings (getPeerPolicy peer) db =
      ((((landings 0).answered (db.policies.row peer).toList).getD []).head?,
        if (landings 0).lands then db else db,fun n => landings (n+1)) := rfl
  rw [called,works_answered (works 0),found,ite_self]
  rfl

theorem row_patched_own (found : db.policies.row peer = some policy) (patch : Patch) :
    (db.patched peer patch).row peer = some (patch.apply policy) := by
  rw [row_patched,found,Option.map_some,if_pos rfl]

theorem run_upsertPeer (env : PeerEnv) (peerEndpoint : Option String) (works : Works landings)
    (found : db.policies.row peer = some policy) :
    ∃ policy' db' skipped, Proc.run exec landings (upsertPeer env peer peerEndpoint) db =
    (some policy',db',fun n => landings (n+skipped)) ∧
      db'.policies.row peer = some policy' ∧ policy'.pin = policy.pin := by
  have kept : ∃ policy' db' skipped, ((some policy,db,fun n => landings (n+1)) :
    Option PeerPolicy × Db × (ℕ → Landing)) =
      (some policy',db',fun n => landings (n+skipped)) ∧ db'.policies.row peer = some policy' ∧ policy'.pin =
        policy.pin :=
    ⟨policy,db,1,rfl,found,rfl⟩
  rw [upsertPeer,Proc.bind_eq,Proc.run_bind,run_getPeerPolicy works found]
  dsimp only
  split
  next endpoint _ =>
    split
    next =>
      have patched := row_patched_own found (.endpoint endpoint (landings 1).now)
      have called : Proc.run exec (fun n => landings (n+1)) (utcNow.bind fun now =>
          (patchPolicy peer (.endpoint endpoint now)).bind fun rows =>
            .done (some ((rows.getD []).head?.getD policy))) db =
          (some (((answer (landings 2) (exec (landings 1) .utcNow db).2
            (.patchPolicy peer (.endpoint endpoint (landings 1).now))).getD
              []).head?.getD policy),
            (exec (landings 2) (.patchPolicy peer (.endpoint endpoint (landings 1).now))
              (exec (landings 1) .utcNow db).2).2,
            fun n => landings (n+3)) := rfl
      have read : (exec (landings 1) .utcNow db).2 = db := ite_self db
      have written : (exec (landings 2) (.patchPolicy peer (.endpoint endpoint (landings 1).now)) db).2 =
          { db with policies := db.patched peer (.endpoint endpoint (landings 1).now) } := if_pos (works 2).1
      refine ⟨(Patch.endpoint endpoint (landings 1).now).apply policy,
        { db with policies := db.patched peer (.endpoint endpoint (landings 1).now) },3,called.trans ?_,patched,rfl⟩
      rw [read,written,answer,works_answered (works 2),patched]
      rfl
    next => exact kept
  next => exact kept

theorem run_pinning {β : Type} (works : Works landings) (found : db.policies.row peer = some policy) (named : did ≠ "")
    {event : String} {oldState newState detail : Option String} {actor : String} (b : β) :
    pinOf (Proc.run exec landings (utcNow.bind fun now => (patchPolicy peer (.pin did now)).bind fun _ =>
      (logHistory peer event oldState newState detail actor).bind fun _ => .done b) db).2.1 peer = some did := by
  have ended : (Proc.run exec landings (utcNow.bind fun now => (patchPolicy peer (.pin did now)).bind fun _ =>
      (logHistory peer event oldState newState detail actor).bind fun _ => .done b) db).2.1 =
      (exec (landings 2) (.postHistory ⟨peer,event,oldState,newState,cut 500 (detail.getD ""),actor⟩)
        (exec (landings 1) (.patchPolicy peer (.pin did (landings 0).now)) (exec (landings 0) .utcNow db).2).2).2 := rfl
  have read : (exec (landings 0) .utcNow db).2 = db := ite_self db
  have written : (exec (landings 1) (.patchPolicy peer (.pin did (landings 0).now)) db).2 =
      { db with policies := db.patched peer (.pin did (landings 0).now) } := if_pos (works 1).1
  rw [ended,exec_keeps id id,read,written,patched_pin,if_pos rfl,found]
  simp [Patch.apply,PeerPolicy.pin,named]

theorem run_tryAccept {endpoint attestedDid pinnedDid : String} (named : endpoint ≠ "") :
    Proc.run exec landings (tryAcceptPeerRotation env peer attestedDid pinnedDid (some endpoint)) db =
      (acceptRotations env (rotationsOf (landings 0).body) peer attestedDid pinnedDid (landings 1).times,db,
        fun n => landings (n+2)) := by
  have given_endpoint : given (some endpoint) = some endpoint := by simp [given,named]
  have idle (n : ℕ) (act : Act) (same : ∀ db, carriedOut (landings n) db act = db) : (exec (landings n) act db).2 =
      db := by
    unfold exec
    rw [same,ite_self]
  rw [tryAcceptPeerRotation,given_endpoint]
  have called : Proc.run exec landings ((fetchPeerRotationChain endpoint).bind fun rotations => times.bind fun times =>
      .done (acceptRotations env rotations peer attestedDid pinnedDid times)) db =
      (acceptRotations env (rotationsOf (landings 0).body) peer attestedDid pinnedDid (landings 1).times,
        (exec (landings 1) .times (exec (landings 0) (.fetchUrl (rstripSlash endpoint ++ rotationWellKnown)) db).2).2,
        fun n => landings (n+2)) := rfl
  refine called.trans ?_
  rw [idle 0 _ fun _ => rfl,idle 1 _ fun _ => rfl]

theorem run_followRotation {endpoint existing : String} {state : PeerState} (works : Works landings)
    (named : endpoint ≠ "") (filled : did ≠ "")
    (found : db.policies.row peer = some policy) (pinned : policy.pin = some existing) :
    pinOf (Proc.run exec landings (followRotation env peer did existing state (some endpoint)) db).2.1 peer = some
      (if acceptRotations env (rotationsOf (landings 0).body) peer did existing (landings 1).times =
        .ok (true,"ok") then did else existing) := by
  have kept : pinOf db peer = some existing := (pinOf_row found).trans pinned
  rw [followRotation,Proc.bind_eq,Proc.run_bind,run_tryAccept named]
  dsimp only
  split
  next e raised =>
    rw [raised,if_neg fun same => nomatch same]
    exact kept
  next why accepted =>
    obtain ⟨rfl,-⟩ := acceptRotations_ok.mp accepted
    rw [accepted,if_pos rfl]
    exact run_pinning (fun n => works (n+2)) found filled _
  next why refused =>
    rw [refused,if_neg fun same => nomatch same]
    exact (exec_keeps id id).trans kept

theorem Continues.named {history : List (KeyRotation env peer)} :
    ∀ {first last : String}, Continues history first last → first ≠ "" → last ≠ "" := by
  induction history with
  | nil =>
    rintro first last rfl named
    exact named
  | cons rotation rest ih =>
    rintro first last ⟨-,continues⟩ -
    apply ih continues
    rw [PeerKey.did]
    intro empty
    have letters := congrArg String.toList empty
    rw [String.toList_append] at letters
    exact absurd (List.append_eq_nil_iff.mp letters).1 (by decide)

/-- For every history of honest rotations, as it is published, and a chapter that has pinned
its first key: if each rotation is fresh when it is verified, the chain is accepted for the last
key and the pin moves there; else it is not accepted, and the pin stays. -/
theorem rotations_followed (env : PeerEnv) (decodes : ∀ bytes, env.b58decode (env.b58encode bytes) = .ok bytes)
    {endpoint first last : String} (reachable : endpoint ≠ "") {history : List (KeyRotation env peer)}
    (rotated : history ≠ [])
    (continues : Continues history first last) {rows : List Dict} (records : Records rows history)
    (works : Works landings) (serves : ∀ n, (landings n).body = some (peerRotation (some rows)))
    {times : ℕ → Clock} (clock : ∀ n, (landings n).times = times)
    (found : db.policies.row peer = some policy) (pinned : policy.pin = some first) :
    let tried := (Proc.run exec landings (tryAcceptPeerRotation env peer last first (some endpoint)) db).1
    let pin := pinOf (Proc.run exec landings (checkAndPinDid env peer last (some endpoint)) db).2.1 peer
    (AllFresh env history times → tried = .ok (true,"ok") ∧ pin = some last) ∧
      (¬ AllFresh env history times → tried ≠ .ok (true,"ok") ∧ pin = some first) := by
  intro tried pin
  have tries : tried = acceptRotations env (rotationsOf (peerRotation (some rows))) peer last first times := by
    change (Proc.run exec landings (tryAcceptPeerRotation env peer last first (some endpoint)) db).1 = _
    rw [run_tryAccept reachable,serves,clock]
  have accepted : tried = .ok (true,"ok") ↔ AllFresh env history times := by
    rw [tries]
    exact accepts_history decodes rotated continues records
  have named : last ≠ "" := by
    obtain ⟨-,filled⟩ := Option.filter_eq_some_iff.mp pinned
    exact continues.named (of_decide_eq_true filled)
  have moved : pin = some (if tried = .ok (true,"ok") then last else first) := by
    obtain ⟨policy',db',skipped,upserted,found',same⟩ := run_upsertPeer env (some endpoint) works found
    change pinOf (Proc.run exec landings (checkAndPinDid env peer last (some endpoint)) db).2.1 peer = _
    rw [checkAndPinDid,if_neg named,Proc.bind_eq,Proc.run_bind,upserted]
    dsimp only
    rw [same,pinned]
    dsimp only
    split
    next own =>
      rw [own,ite_self]
      exact (pinOf_row found').trans (same.trans (pinned.trans (congrArg some own)))
    next =>
      rw [run_followRotation (fun n => works (n+skipped)) reachable named found' (same.trans pinned),serves,clock,tries]
  rw [moved]
  constructor
  · intro fresh
    have yes := accepted.mpr fresh
    exact ⟨yes,by rw [if_pos yes]⟩
  · intro stale
    have no : tried ≠ .ok (true,"ok") := fun yes => stale (accepted.mp yes)
    exact ⟨no,by rw [if_neg no]⟩

end Following

section Samples

def namedKeys : PeerEnv where
  toCodec := plainCodec
  agentId := "acme"
  canonicalize _ := .ok "rotation"
  maxAge := 3600

theorem namedKeys_decodes (bytes : Bytes) : namedKeys.b58decode (namedKeys.b58encode bytes) = .ok bytes := by
  change Except.ok ((String.ofList (bytes.map fun b => Char.ofNat b.toNat)).toList.map fun c => UInt8.ofNat c.toNat) =
    .ok bytes
  rw [String.toList_ofList,List.map_map]
  congr 1
  exact List.map_id'' Hex.byte_char bytes

theorem singleton_decoded (name : Char) : namedKeys.b64decode (.str (String.singleton name)) =
    .ok [UInt8.ofNat name.toNat] := by
  change Except.ok ((String.singleton name).toList.map fun c => UInt8.ofNat c.toNat) = _
  rw [String.toList_singleton]
  rfl

def namedKey (name : Char) : PeerKey namedKeys where
  key := [UInt8.ofNat name.toNat]
  sign _ := String.singleton name
  loads := rfl
  signs := fun _ => ⟨by simp,_,singleton_decoded name,if_pos rfl⟩

def rotatedAt (old new : Char) (apart : (namedKey new).did ≠ (namedKey old).did)
    (issuedAt : Seconds) : KeyRotation namedKeys "bay" :=
  ⟨namedKey old,namedKey new,issuedAt,"rotation",rfl,apart⟩

theorem apart_ab : (namedKey 'b').did ≠ (namedKey 'a').did := by decide +kernel
theorem apart_bc : (namedKey 'c').did ≠ (namedKey 'b').did := by decide +kernel

theorem start_of_time : (0 : Int) ≤ 0 ∧ (0 : Int) < 2^61 := by decide

def rotationAb : KeyRotation namedKeys "bay" := rotatedAt 'a' 'b' apart_ab ⟨0,start_of_time⟩
def rotationBc : KeyRotation namedKeys "bay" := rotatedAt 'b' 'c' apart_bc ⟨0,start_of_time⟩

def recorded (history : List (KeyRotation namedKeys "bay")) : List Dict :=
  history.map fun rotation => [("attestation",.obj rotation.attestation)]

def serving (history : List (KeyRotation namedKeys "bay")) (now : Clock) : ℕ → Landing :=
  fun _ => ⟨true,true,0,some (peerRotation (some (recorded history))),fun _ => now⟩

def pinnedRow (did : String) : PeerPolicy := { seeded "bay" none 0 with pinnedDid := some did }

def pinnedDb (did : String) : Db := ⟨Table.empty.insert (pinnedRow did),[]⟩

def soon : Clock := ⟨60,by decide +kernel⟩
def late : Clock := ⟨3601,by decide +kernel⟩

theorem fresh_followed :
    (Proc.run exec (serving [rotationAb] soon) (tryAcceptPeerRotation namedKeys "bay" (namedKey 'b').did
      (namedKey 'a').did
      (some "https://bay.example")) (pinnedDb (namedKey 'a').did)).1 = .ok (true,"ok") ∧
    pinOf (Proc.run exec (serving [rotationAb] soon)
      (checkAndPinDid namedKeys "bay" (namedKey 'b').did (some "https://bay.example"))
      (pinnedDb (namedKey 'a').did)).2.1 "bay" = some (namedKey 'b').did := by
  have young : ¬ soon.1-rotationAb.issuedAt.1 > namedKeys.maxAge ∧
      ¬ soon.1-rotationAb.issuedAt.1 < -namedKeys.maxAge := by
    decide +kernel
  have fresh : AllFresh namedKeys [rotationAb] fun _ => soon := by
    rintro n rotation found
    obtain rfl : rotation = rotationAb := List.mem_singleton.mp (List.mem_of_getElem? found)
    exact fresh_iff.mpr young
  have continues : Continues [rotationAb] (namedKey 'a').did (namedKey 'b').did := ⟨rfl,rfl⟩
  have records : Records (recorded [rotationAb]) [rotationAb] := rfl
  have works : Works (serving [rotationAb] soon) := fun _ => ⟨rfl,rfl⟩
  have found : (pinnedDb (namedKey 'a').did).policies.row "bay" =
      some (pinnedRow (namedKey 'a').did) := by decide +kernel
  have pinned : (pinnedRow (namedKey 'a').did).pin = some (namedKey 'a').did := by decide +kernel
  exact (rotations_followed namedKeys namedKeys_decodes (by decide)
    (List.cons_ne_nil rotationAb []) continues records works
    (fun _ => rfl) (fun _ => rfl) found pinned).1 fresh

/-- An hour and a second after the rotation its attestation is stale; and a pin further on in
the history is not looked for in it. -/
theorem rotation_refused :
    ((Proc.run exec (serving [rotationAb] late) (tryAcceptPeerRotation namedKeys "bay" (namedKey 'b').did
      (namedKey 'a').did
      (some "https://bay.example")) (pinnedDb (namedKey 'a').did)).1 = .ok (false,"stale") ∧
    pinOf (Proc.run exec (serving [rotationAb] late)
      (checkAndPinDid namedKeys "bay" (namedKey 'b').did (some "https://bay.example"))
      (pinnedDb (namedKey 'a').did)).2.1 "bay" = some (namedKey 'a').did) ∧
    (Proc.run exec (serving [rotationAb,rotationBc] soon)
      (tryAcceptPeerRotation namedKeys "bay" (namedKey 'c').did (namedKey 'b').did
      (some "https://bay.example")) (pinnedDb (namedKey 'b').did)).1 = .ok (false,"chain_break") := by
  decide +kernel

end Samples

end Orrery.Federation.Policy
