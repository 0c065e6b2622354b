import Orrery.Foundation.Rely
import Orrery.Federation.PeerPolicy

/-! What the operations on the peers rely on and guarantee, and the statements they make: a
check sets a pin only where a chain of rotations leads to it, and the others set none. -/
namespace Orrery.Federation.Policy
open Foundation Json Chapter

def pinOf (db : Db) (peer : String) : Option String := (db.policies.row peer).bind PeerPolicy.pin

def Act.Pins (peer : String) : Act → Prop
  | .patchPolicy other (.pin _ _) => other = peer
  | _ => False

def Act.Drops (peer : String) : Act → Prop
  | .patchPolicy other (.unpin _) | .deletePolicy other => other = peer
  | _ => False

def Op.Checks (peer : String) : Op → Prop
  | .checkAndPinDid other _ _ => other = peer
  | _ => False

section Effects
variable {landing : Landing} {db : Db} {peer : String}

theorem row_patched (other : String) (patch : Patch) : (db.patched other patch).row peer =
    (db.policies.row peer).map fun policy => if peer = other then patch.apply policy else policy := by
  rw [Db.patched,Table.row_update]
  cases found : db.policies.row peer with
  | none => rfl
  | some policy =>
    have own : policy.peerChapterId = peer := Table.row_key found
    simp only [Option.map_some,own,decide_eq_true_eq]

theorem patched_pin (other : String) (patch : Patch) : pinOf { db with policies := db.patched other patch } peer =
    if peer = other then (db.policies.row peer).bind fun policy => (patch.apply policy).pin else pinOf db peer := by
  rw [pinOf,row_patched,pinOf]
  cases db.policies.row peer with
  | none => split <;> rfl
  | some policy => split <;> rfl

theorem exec_pin (landing : Landing) (act : Act) (db : Db) (peer : String) : pinOf (exec landing act db).2 peer =
    pinOf db peer ∨
    pinOf (exec landing act db).2 peer = none ∧ act.Drops peer ∧ landing.lands = true ∨
    ∃ did now, act = .patchPolicy peer (.pin did now) ∧ pinOf (exec landing act db).2 peer =
    (some did).filter (· ≠ "") := by
  unfold exec
  dsimp only
  split
  next lands =>
    cases act with
    | postPolicy other peerEndpoint =>
      left
      rw [carriedOut,pinOf,Table.row_insert,pinOf]
      cases db.policies.row peer with
      | some policy => rfl
      | none =>
        rw [Option.none_or]
        split <;> rfl
    | patchPolicy other patch =>
      rw [carriedOut,patched_pin]
      split
      next same =>
        cases found : db.policies.row peer with
        | none =>
          left
          rw [pinOf,found]
          rfl
        | some policy =>
          have kept : pinOf db peer = policy.pin := by rw [pinOf,found]; rfl
          rw [kept]
          cases patch with
          | pin did now =>
            rw [same]
            exact Or.inr (Or.inr ⟨did,now,rfl,rfl⟩)
          | unpin now => exact Or.inr (Or.inl ⟨rfl,same.symm,lands⟩)
          | _ => exact Or.inl rfl
      next => exact Or.inl rfl
    | deletePolicy other =>
      rw [carriedOut,pinOf,Table.row_remove]
      split
      next same => exact Or.inr (Or.inl ⟨rfl,same.symm,lands⟩)
      next => exact Or.inl rfl
    | _ => exact Or.inl rfl
  next => exact Or.inl rfl

theorem exec_keeps {act : Act} (pins : ¬ act.Pins peer) (drops : ¬ act.Drops peer) :
    pinOf (exec landing act db).2 peer = pinOf db peer := by
  obtain kept | ⟨-,dropped,-⟩ | ⟨did,now,rfl,-⟩ := exec_pin landing act db peer
  · exact kept
  · exact absurd dropped drops
  · exact absurd rfl pins

end Effects

section Calling
variable (env : PeerEnv) (peer : String)

def Follows (old did : String) : Prop := ∃ rotations times, walkRotationChain env rotations peer old times =
    .ok (true,"ok",did)

def Pinned (said : String → Prop) (db : Db) : Prop := ∀ old, pinOf db peer = some old → said old

def Stays (before after : Db) : Prop := pinOf after peer = pinOf before peer ∨ pinOf after peer = none

/-- The pin is set only where there is none, or where a chain leads to the new one. -/
def Advances (before after : Db) : Prop := pinOf after peer = pinOf before peer ∨
  ∃ did, pinOf after peer = some did ∧ Pinned peer (fun old => Follows env peer old did) before

def Op.Relies (op : Op) (before after : Db) : Prop := op.Checks peer → Stays peer before after

structure Op.Guarantees (op : Op) (before after : Db) : Prop where
  check : op.Checks peer → Advances env peer before after
  other : ¬ op.Checks peer → Stays peer before after

def PinStatus.Accepts (status : PinStatus) : Prop := status = .pinned ∨ status = .matched ∨ status = .rotated

def Justified (did : String) (result : Except Exc (PinStatus × Option String)) (db : Db) : Prop :=
  ∀ status pin, result = .ok (status,pin) → status.Accepts →
    Pinned peer (fun old => old = did ∨ Follows env peer old did) db

def Op.Returns : Op → Outcome → Db → Prop
  | .checkAndPinDid other did _, .checked result, db => other = peer → Justified env peer did result db
  | _, _, _ => True

variable {env peer} {said : String → Prop} {db db' : Db} {did : String}

theorem Pinned.later (pinned : Pinned peer said db) (change : Stays peer db db') : Pinned peer said db' := by
  intro old found
  obtain kept | gone := change
  · exact pinned old (kept.symm.trans found)
  · exact absurd (gone.symm.trans found).symm (Option.some_ne_none old)

theorem Stays.trans {a b c : Db} (first : Stays peer a b) (second : Stays peer b c) : Stays peer a c := by
  obtain kept | gone := second
  · rw [Stays,kept]
    exact first
  · exact Or.inr gone

end Calling

section Checking
variable (env : PeerEnv) (peer : String)

abbrev SafeCheck {β : Type} (post : β → Db → Prop) (p : Program β) (db : Db) : Prop :=
  Proc.Safe exec (Stays peer) (Advances env peer) post p db

variable {env peer} {said : String → Prop} {db : Db} {did : String} {peerEndpoint : Option String}

theorem SafeCheck.bind {α β : Type} {mid : α → Db → Prop} {post : β → Db → Prop} {p : Program α} {next : α → Program β}
    (safe : SafeCheck env peer mid p db) (further : ∀ a db', mid a db' → SafeCheck env peer post (next a) db') :
    SafeCheck env peer post (p.bind next) db := by
  have refl (s : Db) : Stays peer s s := Or.inl rfl
  exact Proc.Safe.bind refl safe further

theorem safe_call {act : Act} (pins : ¬ act.Pins peer) (drops : ¬ act.Drops peer) {post : act.Answer → Db → Prop}
    (answers : ∀ landing db', Stays peer db db' → pinOf (exec landing act db').2 peer = pinOf db' peer →
      ∀ db'', Stays peer (exec landing act db').2 db'' → post (exec landing act db').1 db'') :
    SafeCheck env peer post (.call act .done) db := by
  intro landing db' change
  have kept : pinOf (exec landing act db').2 peer = pinOf db' peer := exec_keeps pins drops
  exact ⟨Or.inl kept,answers landing db' change kept⟩

theorem safe_idle {act : Act} (pins : ¬ act.Pins peer) (drops : ¬ act.Drops peer) {holds : Db → Prop}
    (later : ∀ a b, holds a → Stays peer a b → holds b) (now : holds db) :
      SafeCheck env peer (fun _ => holds) (.call act .done) db :=
  safe_call pins drops fun _ _ change kept _ further => later _ _ now (change.trans (Stays.trans (Or.inl kept) further))

theorem safe_pin {now : Stamp} (named : did ≠ "") (pinned : Pinned peer (fun old => Follows env peer old did) db) :
    SafeCheck env peer (fun _ => Pinned peer fun old => old = did ∨ Follows env peer old did)
      (patchPolicy peer (.pin did now)) db := by
  intro landing db' change
  have before := pinned.later change
  obtain kept | ⟨-,drops,-⟩ | ⟨did',now',same,written⟩ := exec_pin landing (.patchPolicy peer (.pin did now)) db' peer
  · exact ⟨Or.inl kept,fun db'' later old found => Or.inr ((before.later (Stays.trans (Or.inl kept) later)) old found)⟩
  · exact absurd drops id
  · cases same
    have written : pinOf (exec landing (.patchPolicy peer (.pin did now)) db').2 peer = some did := by
      rw [written]
      simp [named]
    refine ⟨Or.inr ⟨did,written,before⟩,fun db'' later old found => Or.inl ?_⟩
    have own : Pinned peer (fun old => old = did) (exec landing (.patchPolicy peer (.pin did now)) db').2 :=
      fun old found => (Option.some.inj (written.symm.trans found)).symm
    exact own.later later old found

def ReadPin (peer : String) (policy : Option PeerPolicy) (db : Db) : Prop :=
  ∀ row, policy = some row → Pinned peer (fun old => row.pin = some old) db

theorem pinned_row {row : PeerPolicy} (own : pinOf db peer = row.pin ∨ pinOf db peer = none) :
    Pinned peer (fun old => row.pin = some old) db := by
  intro old found
  obtain same | none := own
  · exact same.symm.trans found
  · exact absurd (none.symm.trans found).symm (Option.some_ne_none old)

theorem answered_head {landing : Landing} {row : Option PeerPolicy} {policy : PeerPolicy}
    (top : ((landing.answered row.toList).getD []).head? = some policy) : row = some policy := by
  rw [Landing.answered] at top
  split at top
  · rwa [Option.getD_some,Option.head?_toList] at top
  · cases top

theorem pinOf_row {row : PeerPolicy} (found : db.policies.row peer = some row) : pinOf db peer = row.pin := by
  rw [pinOf,found]
  rfl

theorem safe_getPeerPolicy : SafeCheck env peer (ReadPin peer) (getPeerPolicy peer) db := by
  have rows_read : SafeCheck env peer (fun rows => ReadPin peer (rows.getD []).head?) (getPolicy peer) db := by
    apply safe_call id id
    intro landing db' _ kept db'' later row top
    have read : pinOf db' peer = row.pin := pinOf_row (answered_head top)
    exact (pinned_row (Or.inl (kept.trans read))).later later
  exact SafeCheck.bind rows_read fun rows db' read db'' later row top => (read row top).later later

theorem ReadPin.later {policy : Option PeerPolicy} {db' : Db} (read : ReadPin peer policy db)
    (change : Stays peer db db') :
    ReadPin peer policy db' := fun row found => (read row found).later change

theorem patched_endpoint (other endpoint : String) (now : Stamp) :
    pinOf { db with policies := db.patched other (.endpoint endpoint now) } peer = pinOf db peer := by
  rw [patched_pin]
  split
  · rfl
  · rfl

theorem safe_upsertPeer : SafeCheck env peer (ReadPin peer) (upsertPeer env peer peerEndpoint) db := by
  apply SafeCheck.bind safe_getPeerPolicy
  intro policy db' read
  have returned {policy : Option PeerPolicy} {db : Db} (read : ReadPin peer policy db) :
      SafeCheck env peer (ReadPin peer) (.done policy) db := fun _ later => read.later later
  cases policy with
  | some existing =>
    dsimp only
    split
    next endpoint _ =>
      split
      next =>
        apply SafeCheck.bind (safe_idle id id (fun _ _ => Pinned.later) (read existing rfl))
        intro now db'' pinned
        have answered : SafeCheck env peer (fun rows => ReadPin peer (some ((rows.getD []).head?.getD existing)))
            (patchPolicy peer (.endpoint endpoint now)) db'' := by
          apply safe_call id id
          intro landing s change kept s' later row same
          cases top : (((exec landing (.patchPolicy peer (.endpoint endpoint now)) s).1).getD []).head? with
          | none =>
            rw [top] at same
            cases same
            exact ((pinned.later change).later (Or.inl kept)).later later
          | some policy =>
            rw [top] at same
            cases same
            have found : pinOf { s with policies := s.patched peer (.endpoint endpoint now) } peer = policy.pin :=
              pinOf_row (answered_head top)
            rw [patched_endpoint] at found
            exact (pinned_row (Or.inl (kept.trans found))).later later
        exact SafeCheck.bind answered fun rows s read => returned read
      next => exact returned read
    next => exact returned read
  | none =>
    have answered : SafeCheck env peer (fun rows => ReadPin peer (rows.getD []).head?)
        (postPolicy peer peerEndpoint) db' := by
      apply safe_call id id
      intro landing s change kept s' later row top
      have free : pinOf s peer = none := by
        change ((if (s.policies.row peer).isSome then none else _).getD []).head? = some row at top
        split at top
        next => cases top
        next absent =>
          rw [Option.not_isSome_iff_eq_none] at absent
          rw [pinOf,absent]
          rfl
      exact (pinned_row (Or.inr (kept.trans free))).later later
    apply SafeCheck.bind answered
    intro rows s read
    apply SafeCheck.bind (safe_idle id id (fun _ _ => ReadPin.later) read)
    exact fun _ s read => returned read

theorem safe_tryAccept {pinnedDid : String} (pinned : Pinned peer said db) :
    SafeCheck env peer (fun result db => Pinned peer said db ∧ ∀ why, result = .ok (true,why) →
      Follows env peer pinnedDid did)
      (tryAcceptPeerRotation env peer did pinnedDid peerEndpoint) db := by
  unfold tryAcceptPeerRotation
  split
  next => exact fun _ later => ⟨pinned.later later,fun why same => nomatch same⟩
  next endpoint _ =>
    have fetched : SafeCheck env peer (fun _ => Pinned peer said) (fetchPeerRotationChain endpoint) db :=
      SafeCheck.bind (safe_idle id id (fun _ _ => Pinned.later) pinned) fun _ _ pinned _ later => pinned.later later
    apply SafeCheck.bind fetched
    intro rotations s pinned
    apply SafeCheck.bind (safe_idle id id (fun _ _ => Pinned.later) pinned)
    intro times s pinned s' later
    refine ⟨pinned.later later,fun why accepted => ?_⟩
    obtain ⟨-,chain,-,some,leads⟩ := acceptRotations_ok.mp accepted
    exact ⟨chain,times,walkRotationChain_ok.mpr ⟨some,rfl,leads⟩⟩

theorem justified_accepts {status : PinStatus} {pin : Option String}
    (pinned : Pinned peer (fun old => old = did ∨ Follows env peer old did) db) :
    Justified env peer did (.ok (status,pin)) db := by
  intro status' pin' same _
  exact pinned

theorem justified_refused {result : Except Exc (PinStatus × Option String)}
    (refused : ∀ status pin, result = .ok (status,pin) → status = .mismatch ∨ status = .noDatabase) :
      Justified env peer did result db := by
  intro status pin same accepts
  obtain rfl | rfl := refused status pin same
  · obtain other | other | other := accepts <;> cases other
  · obtain other | other | other := accepts <;> cases other

theorem Justified.later {result : Except Exc (PinStatus × Option String)} {db' : Db}
    (justified : Justified env peer did result db)
    (change : Stays peer db db') : Justified env peer did result db' :=
  fun status pin same accepts => (justified status pin same accepts).later change

theorem safe_logged {event : String} {oldState newState detail : Option String} {actor : String}
    {result : Except Exc (PinStatus × Option String)} (justified : Justified env peer did result db) :
    SafeCheck env peer (Justified env peer did)
      ((logHistory peer event oldState newState detail actor).bind fun _ => .done result) db := by
  apply SafeCheck.bind (safe_idle id id (fun _ _ => Justified.later) justified)
  exact fun _ _ justified _ later => justified.later later

theorem safe_followRotation {existing : String} {state : PeerState} (named : did ≠ "")
    (pinned : Pinned peer (fun old => existing = old) db) :
    SafeCheck env peer (Justified env peer did) (followRotation env peer did existing state peerEndpoint) db := by
  apply SafeCheck.bind (safe_tryAccept pinned)
  rintro result s ⟨pinned,follows⟩
  split
  next e => exact fun _ _ status pin same => nomatch same
  next why =>
    apply SafeCheck.bind (safe_idle id id (fun _ _ => Pinned.later) pinned)
    intro now s pinned
    have leads : Pinned peer (fun old => Follows env peer old did) s := by
      intro old found
      rw [← pinned old found]
      exact follows why rfl
    apply SafeCheck.bind (safe_pin named leads)
    intro rows s pinned
    exact safe_logged (justified_accepts pinned)
  next why =>
    apply safe_logged
    apply justified_refused
    intro status pin same
    cases same
    exact Or.inl rfl

theorem safe_checkAndPinDid : SafeCheck env peer (Justified env peer did)
    (checkAndPinDid env peer did peerEndpoint) db := by
  have unchecked (db : Db) : Justified env peer did (.ok (.noDatabase,none)) db := by
    apply justified_refused
    intro status pin same
    cases same
    exact Or.inr rfl
  unfold checkAndPinDid
  split
  next => exact fun s _ => unchecked s
  next named =>
    apply SafeCheck.bind safe_upsertPeer
    intro policy s read
    split
    next => exact fun s _ => unchecked s
    next policy =>
      have pinned := read policy rfl
      split
      next existing pin =>
        have held : Pinned peer (fun old => existing = old) s :=
          fun old found => Option.some.inj (pin.symm.trans (pinned old found))
        split
        next same =>
          intro s' later
          apply justified_accepts
          intro old found
          exact Or.inl ((held.later later old found).symm.trans same)
        next => exact safe_followRotation named held
      next free =>
        have held : Pinned peer (fun old => Follows env peer old did) s := by
          intro old found
          exact absurd (free.symm.trans (pinned old found)).symm (Option.some_ne_none old)
        apply SafeCheck.bind (safe_idle id id (fun _ _ => Pinned.later) held)
        intro now s pinned
        apply SafeCheck.bind (safe_pin named pinned)
        intro rows s pinned
        exact safe_logged (justified_accepts pinned)

end Checking

section Statements
variable (peer : String)

def Op.Led : Op → Prop
  | .forgetPeer .. | .clearDidPin .. => True
  | _ => False

def Op.Prunes : Op → Prop
  | .pruneStalePeers .. => True
  | _ => False

structure Op.May (op : Op) (act : Act) : Prop where
  pins : act.Pins peer → op.Checks peer
  drops : act.Drops peer → op.Led ∨ op.Prunes

def Idle (ok : Act → Prop) : Prop := ∀ act : Act, ¬ act.Pins peer → ¬ act.Drops peer → ok act

abbrev Makes {β : Type} (ok : Act → Prop) (p : Program β) : Prop := Proc.Along exec ok (fun _ => True) (fun _ => True) p

variable {peer} {env : PeerEnv} {other : String} {peerEndpoint : Option String} {ok : Act → Prop}

theorem makes_done {β : Type} (b : β) : Makes ok (.done b : Program β) := trivial

theorem makes_call {act : Act} (made : ok act) : Makes ok (.call act .done) := ⟨made,fun _ _ _ => trivial⟩

theorem makes_bind {α β : Type} {p : Program α} {next : α → Program β} (makes : Makes ok p)
    (further : ∀ a, Makes ok (next a)) : Makes ok (p.bind next) := Proc.Along.bind makes fun a _ => further a

theorem makes_idle (idle : Idle peer ok) {act : Act} (pins : ¬ act.Pins peer) (drops : ¬ act.Drops peer) :
    Makes ok (.call act .done) := makes_call (idle act pins drops)

theorem makes_getPeerPolicy (idle : Idle peer ok) : Makes ok (getPeerPolicy other) :=
  makes_bind (makes_idle idle id id) fun _ => makes_done _

theorem makes_logged {β : Type} (idle : Idle peer ok) {event : String} {oldState newState detail : Option String}
    {actor : String} (b : β) :
    Makes ok ((logHistory other event oldState newState detail actor).bind fun _ => .done b) :=
  makes_bind (makes_idle idle id id) fun _ => makes_done b

theorem makes_patched {β : Type} (idle : Idle peer ok) {patch : Stamp → Stamp → Patch}
    (pins : ∀ now later, ¬ (Act.patchPolicy other (patch now later)).Pins peer)
    (drops : ∀ now later, ¬ (Act.patchPolicy other (patch now later)).Drops peer)
    {log : Option (List PeerPolicy) → Program β} (logs : ∀ rows, Makes ok (log rows)) :
    Makes ok (utcNow.bind fun now => utcNow.bind fun later => (patchPolicy other (patch now later)).bind log) := by
  apply makes_bind (makes_idle idle id id)
  intro now
  apply makes_bind (makes_idle idle id id)
  intro later
  exact makes_bind (makes_idle idle (pins now later) (drops now later)) logs

theorem makes_upsertPeer (idle : Idle peer ok) : Makes ok (upsertPeer env other peerEndpoint) := by
  apply makes_bind (makes_getPeerPolicy idle)
  intro policy
  split
  · split
    · split
      · apply makes_bind (makes_idle idle id id)
        exact fun now => makes_bind (makes_idle idle id id) fun _ => makes_done _
      · exact makes_done _
    · exact makes_done _
  · exact makes_bind (makes_idle idle id id) fun _ => makes_logged idle _

theorem makes_recordSuccess (idle : Idle peer ok) : Makes ok (recordSuccess env other peerEndpoint) := by
  apply makes_bind (makes_upsertPeer idle)
  intro policy
  split
  · exact makes_done _
  next policy =>
    apply makes_patched idle (fun _ _ => id) (fun _ _ => id)
    intro rows
    split
    · exact makes_idle idle id id
    · exact makes_done _

theorem makes_recordFailure (idle : Idle peer ok) {error : String} :
    Makes ok (recordFailure env other error peerEndpoint) := by
  apply makes_bind (makes_upsertPeer idle)
  intro policy
  split
  · exact makes_done _
  next policy =>
    split
    · exact makes_done _
    · apply makes_patched idle (fun _ _ => id) (fun _ _ => id)
      intro rows
      split
      · exact makes_idle idle id id
      · exact makes_done _

theorem makes_blockPeer (idle : Idle peer ok) {actor reason : String} :
    Makes ok (blockPeer env other actor reason) := by
  have upserted : Makes ok (upsertPeer env other none) := makes_upsertPeer idle
  apply makes_bind upserted
  intro policy
  split
  · exact makes_done _
  · exact makes_patched idle (fun _ _ => id) (fun _ _ => id) fun rows => makes_logged idle _

theorem makes_unblockPeer (idle : Idle peer ok) {actor : String} : Makes ok (unblockPeer other actor) := by
  apply makes_bind (makes_getPeerPolicy idle)
  intro policy
  split
  · exact makes_done _
  · split
    · exact makes_done _
    · apply makes_bind (makes_idle idle id id)
      exact fun now => makes_bind (makes_idle idle id id) fun rows => makes_logged idle _

theorem makes_forgetPeer (idle : Idle peer ok) (deletes : ok (.deletePolicy other)) {actor reason : String} :
    Makes ok (forgetPeer other actor reason) := by
  apply makes_bind (makes_getPeerPolicy idle)
  intro policy
  split
  · exact makes_done _
  · exact makes_bind (makes_call deletes) fun _ => makes_logged idle _

theorem makes_pruneRows (idle : Idle peer ok) (deletes : ∀ other, ok (.deletePolicy other))
    {anchored livePeerIds : List String}
    {maxStale : Int} {now : Stamp} (policies : List PeerPolicy) :
    Makes ok (pruneRows env anchored livePeerIds maxStale now policies) := by
  induction policies with
  | nil => exact makes_done _
  | cons policy rest ih =>
    rw [pruneRows]
    split
    · apply makes_bind (makes_forgetPeer idle (deletes policy.peerChapterId))
      intro reply
      split
      · exact makes_bind ih fun _ => makes_done _
      · exact ih
    · exact ih

theorem makes_pruneStalePeers (idle : Idle peer ok) (deletes : ∀ other, ok (.deletePolicy other))
    {anchoredEndpoints livePeerIds : List String} {maxStale : Int} :
    Makes ok (pruneStalePeers env anchoredEndpoints livePeerIds maxStale) := by
  have lists : Makes ok listPolicies := ⟨idle _ id id,fun _ _ _ => trivial⟩
  unfold pruneStalePeers
  split
  · exact makes_done _
  · apply makes_bind (makes_idle idle id id)
    exact fun now => makes_bind lists fun policies => makes_pruneRows idle deletes policies

theorem makes_tryAccept (idle : Idle peer ok) {attestedDid pinnedDid : String} :
    Makes ok (tryAcceptPeerRotation env other attestedDid pinnedDid peerEndpoint) := by
  unfold tryAcceptPeerRotation
  split
  · exact makes_done _
  next endpoint _ =>
    have fetches : Makes ok (fetchPeerRotationChain endpoint) :=
      makes_bind (makes_idle idle id id) fun _ => makes_done _
    exact makes_bind fetches fun _ => makes_bind (makes_idle idle id id) fun _ => makes_done _

theorem makes_clearDidPin (idle : Idle peer ok) (unpins : ∀ now, ok (.patchPolicy other (.unpin now)))
    {actor : String} :
    Makes ok (clearDidPin other actor) := by
  apply makes_bind (makes_getPeerPolicy idle)
  intro policy
  split
  · exact makes_done _
  · split
    · exact makes_done _
    · apply makes_bind (makes_idle idle id id)
      exact fun now => makes_bind (makes_call (unpins now)) fun _ => makes_logged idle _

theorem makes_checkAndPinDid (idle : Idle peer ok) {did : String}
    (sets : ∀ now, ok (.patchPolicy other (.pin did now))) :
    Makes ok (checkAndPinDid env other did peerEndpoint) := by
  have pinning {result : Except Exc (PinStatus × Option String)} {event : String} {oldState newState detail :
    Option String} :
      Makes ok (utcNow.bind fun now => (patchPolicy other (.pin did now)).bind fun _ =>
        (logHistory other event oldState newState detail env.agentId).bind fun _ => .done result) := by
    apply makes_bind (makes_idle idle id id)
    exact fun now => makes_bind (makes_call (sets now)) fun _ => makes_logged idle _
  unfold checkAndPinDid
  split
  · exact makes_done _
  · apply makes_bind (makes_upsertPeer idle)
    intro policy
    split
    · exact makes_done _
    · split
      · split
        · exact makes_done _
        · apply makes_bind (makes_tryAccept idle)
          intro result
          split
          · exact makes_done _
          · exact pinning
          · exact makes_logged idle _
      · exact pinning

theorem makes_program (peer : String) (op : Op) : Makes (op.May peer) (program env op) := by
  have idle : Idle peer (op.May peer) :=
    fun act pins drops => ⟨fun made => absurd made pins,fun made => absurd made drops⟩
  cases op with
  | recordSuccess => exact makes_bind (makes_recordSuccess idle) fun _ => makes_done _
  | recordFailure => exact makes_bind (makes_recordFailure idle) fun _ => makes_done _
  | blockPeer => exact makes_bind (makes_blockPeer idle) fun _ => makes_done _
  | unblockPeer => exact makes_bind (makes_unblockPeer idle) fun _ => makes_done _
  | tryAcceptPeerRotation => exact makes_bind (makes_tryAccept idle) fun _ => makes_done _
  | forgetPeer => exact makes_bind (makes_forgetPeer idle ⟨False.elim,fun _ => Or.inl trivial⟩) fun _ => makes_done _
  | clearDidPin =>
    exact makes_bind (makes_clearDidPin idle fun _ => ⟨False.elim,fun _ => Or.inl trivial⟩) fun _ => makes_done _
  | pruneStalePeers =>
    exact makes_bind (makes_pruneStalePeers idle fun _ => ⟨False.elim,fun _ => Or.inr trivial⟩) fun _ => makes_done _
  | checkAndPinDid => exact makes_bind (makes_checkAndPinDid idle fun _ => ⟨id,False.elim⟩) fun _ => makes_done _

end Statements

end Orrery.Federation.Policy
