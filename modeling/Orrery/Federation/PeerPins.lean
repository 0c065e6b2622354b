import Mathlib.Logic.Relation
import Orrery.Foundation.Runs
import Orrery.Federation.PeerChecks

/-! The pin of a peer over whole runs: without a leader, and as long as its row is not
pruned, it goes along attestations that are each signed by the key before. -/
namespace Orrery.Federation.Policy
open Foundation Json Chapter

structure Attested (env : PeerEnv) (signed : Bytes → String → Prop) (peer old new : String) : Prop where
  attestation : ∃ att key material, get att "type" = some (.str rotationType) ∧ get att "peer_chapter_id" =
    some (.str peer) ∧
    get att "old_did" = some (.str old) ∧ get att "new_did" = some (.str new) ∧
    pinnedKey env old = some key ∧ rotationSigningMaterial env att = .ok material ∧ signed key material

abbrev Succeeds (env : PeerEnv) (signed : Bytes → String → Prop) (peer : String) : String → String → Prop :=
  Relation.ReflTransGen (Attested env signed peer)

section Chains
variable {env : PeerEnv} {signed : Bytes → String → Prop} {peer old new did : String}

theorem Proves.attested {att : Dict} {issuedAt : Int}
    (unforged : ∀ key message signature, env.nacl key message signature = .valid → signed key message)
    (proves : Proves env peer att old new issuedAt) : Attested env signed peer old new := by
  obtain ⟨key,pinned,valid⟩ := proves.signed
  unfold signedByPinned at valid
  split at valid
  next material signature _ built _ =>
    exact ⟨att,key,material,proves.kind,proves.peer,proves.oldDid,proves.newDid,pinned,built,
      unforged key material signature (of_decide_eq_true valid)⟩
  next => cases valid

theorem Leads.succeeds (unforged : ∀ key message signature, env.nacl key message signature = .valid →
    signed key message)
    (rotations : List Json) : ∀ (times : ℕ → Clock) (old : String), Leads env peer rotations times old did →
      Succeeds env signed peer old did := by
  induction rotations with
  | nil =>
    rintro times old rfl
    exact .refl
  | cons item rest ih =>
    rintro times old ⟨att,next,issuedAt,-,proves,-,leads⟩
    exact .head (proves.attested unforged) (ih _ next leads)

theorem Follows.succeeds (unforged : ∀ key message signature, env.nacl key message signature = .valid →
    signed key message)
    (follows : Follows env peer old did) : Succeeds env signed peer old did := by
  obtain ⟨rotations,times,walked⟩ := follows
  exact (walkRotationChain_ok.mp walked).2.2.succeeds unforged

end Chains

section Steps
variable (env : PeerEnv) (peer : String) (service : Service)

def OneCheck : Turn Op Landing → Prop
  | .start _ op => op.Checks peer → ∀ id task, service.live.lookup id = some task → ¬ task.op.Checks peer
  | .advance .. => True

def Loses (kind : Op → Prop) : Turn Op Landing → Prop
  | .start .. => False
  | .advance id landing => ∃ op act resume, service.live.lookup id = some ⟨op,.call act resume⟩ ∧ kind op ∧
      act.Drops peer ∧ landing.lands = true

structure Kept (turn : Turn Op Landing) : Prop where
  oneCheck : OneCheck peer service turn
  unled : ¬ Loses peer service Op.Led turn
  unpruned : ¬ Loses peer service Op.Prunes turn

structure Sound : Prop where
  safe : service.AllSafe exec (Op.Relies peer) (Op.Guarantees env peer) (Op.Returns env peer)
  makes : service.AllFit fun op p _ => Makes (op.May peer) p
  single : ∀ id task, service.live.lookup id = some task → task.op.Checks peer →
    ∀ other task', service.live.lookup other = some task' → task'.op.Checks peer → other = id

variable {env peer service} {service' : Service}

theorem Sound.opened : Sound env peer Service.opened where
  safe := Pool.AllFit.opened _
  makes := Pool.AllFit.opened _
  single := fun _ _ live => nomatch live

theorem returns_other {op : Op} (other : ¬ op.Checks peer) (outcome : Outcome)
    (db : Db) : Op.Returns env peer op outcome db := by
  unfold Op.Returns
  split
  next => exact fun own => absurd own other
  next => trivial

theorem safe_program (op : Op) (db : Db) :
    (program env op).Safe exec (Op.Relies peer op) (Op.Guarantees env peer op) (Op.Returns env peer op) db := by
  by_cases checks : op.Checks peer
  · cases op with
    | checkAndPinDid other did peerEndpoint =>
      obtain rfl : other = peer := checks
      have safe : SafeCheck env other (Op.Returns env other (.checkAndPinDid other did peerEndpoint))
          (program env (.checkAndPinDid other did peerEndpoint)) db := by
        apply SafeCheck.bind safe_checkAndPinDid
        exact fun result s justified s' later _ => justified.later later
      apply safe.mono
      · exact fun a b relied => relied rfl
      · exact fun a b advances => ⟨fun _ => advances,fun other => absurd rfl other⟩
      · exact fun outcome s returns => returns
    | _ => exact False.elim checks
  · refine Proc.Safe.along ?_ (fun outcome s _ => returns_other checks outcome s) db (makes_program peer op)
    intro landing act s may
    refine ⟨fun own => absurd own checks,fun _ => ?_⟩
    obtain kept | ⟨dropped,-,-⟩ | ⟨did,now,rfl,-⟩ := exec_pin landing act s peer
    · exact Or.inl kept
    · exact Or.inr dropped
    · exact absurd (may.pins rfl) checks

structure Moves (env : PeerEnv) (peer : String) (service service' : Service) (turn : Turn Op Landing) : Prop where
  pin : pinOf service'.store peer = pinOf service.store peer ∨ Loses peer service Op.Led turn ∨
    Loses peer service Op.Prunes turn ∨
    ∃ did, pinOf service'.store peer = some did ∧ Pinned peer (fun old => Follows env peer old did) service.store
  past : ∃ new, service'.past = new ++ service.past ∧
    ∀ op outcome, .returned op outcome ∈ new → Op.Returns env peer op outcome service'.store

theorem relies_refl (op : Op) (db : Db) : Op.Relies peer op db db := fun _ => Or.inl rfl

theorem relies_trans (op : Op) (a b c : Db) (first : Op.Relies peer op a b)
    (second : Op.Relies peer op b c) : Op.Relies peer op a c :=
  fun own => (first own).trans (second own)

theorem Sound.started {id : ℕ} {op : Op} (sound : Sound env peer service)
    (alone : op.Checks peer → ∀ id task, service.live.lookup id = some task → ¬ task.op.Checks peer) :
    Sound env peer (service.settle id op (program env op)) := by
  refine ⟨sound.safe.settle (safe_program op service.store),sound.makes.settle (makes_program peer op),?_⟩
  have listed : ∀ other task, (service.settle id op (program env op)).live.lookup other = some task →
      other = id ∧ task.op = op ∨ service.live.lookup other = some task :=
    Pool.settle_live (fun _ _ _ live => Or.inr live) (Or.inl ⟨rfl,rfl⟩)
  intro one task live checks other task' live' checks'
  obtain ⟨rfl,same⟩ | old := listed one task live
  · obtain ⟨rfl,-⟩ | old' := listed other task' live'
    · rfl
    · rw [same] at checks
      exact absurd checks' (alone checks other task' old')
  · obtain ⟨-,same'⟩ | old' := listed other task' live'
    · rw [same'] at checks'
      exact absurd checks (alone checks' one task old)
    · exact sound.single one task old checks other task' old' checks'

theorem Sound.answered {id : ℕ} {op : Op} {act : Act} {resume : act.Answer → Program Outcome} (landing : Landing)
    (sound : Sound env peer service) (live : service.live.lookup id = some ⟨op,.call act resume⟩) :
    op.Guarantees env peer service.store (exec landing act service.store).2 ∧
      Sound env peer ((service.after exec landing act).settle id op (resume (exec landing act service.store).1)) := by
  have fits : ∀ other task, other ≠ id → service.live.lookup other = some task → ∀ s s',
      op.Guarantees env peer s s' → Op.Relies peer task.op s s' := by
    intro other task apart live' s s' guaranteed own
    apply guaranteed.other
    intro checks
    exact apart (sound.single id _ live checks other task live' own)
  obtain ⟨guaranteed,safe⟩ := Pool.AllSafe.answered relies_refl relies_trans sound.safe live fits
  refine ⟨guaranteed,safe,?_,?_⟩
  · exact Pool.AllFit.advanced ((sound.makes id _ live).2 landing service.store trivial) fun other task _ live' =>
      sound.makes other task live'
  · have listed : ∀ other task, ((service.after exec landing act).settle id op
      (resume (exec landing act service.store).1)).live.lookup other =
        some task → ∃ before, service.live.lookup other = some before ∧ before.op = task.op :=
      Pool.settle_live (fun _ task _ live' => ⟨task,live',rfl⟩) ⟨_,live,rfl⟩
    intro one task live₁ checks other task' live₂ checks'
    obtain ⟨before,found,same⟩ := listed one task live₁
    obtain ⟨before',found',same'⟩ := listed other task' live₂
    rw [← same] at checks
    rw [← same'] at checks'
    exact sound.single one before found checks other before' found' checks'

theorem returned_settle (pool : Service) (id : ℕ) {op : Op} {p : Program Outcome}
    (safe : p.Safe exec (Op.Relies peer op) (Op.Guarantees env peer op) (Op.Returns env peer op) pool.store) :
    ∃ new, (pool.settle id op p).past = new ++ pool.past ∧
      ∀ op' outcome, .returned op' outcome ∈ new → Op.Returns env peer op' outcome pool.store := by
  have ended : (pool.settle id op p).past = pool.past ∨ ∃ outcome, p = .done outcome ∧
    (pool.settle id op p).past = .returned op outcome :: pool.past := Pool.settle_past id op p
  obtain same | ⟨outcome,rfl,same⟩ := ended
  · exact ⟨[],same,fun _ _ inside => absurd inside List.not_mem_nil⟩
  · refine ⟨[.returned op outcome],same,fun op' outcome' inside => ?_⟩
    cases List.mem_singleton.mp inside
    exact safe pool.store (relies_refl op pool.store)

theorem Sound.step {turn : Turn Op Landing} (sound : Sound env peer service) (oneCheck : OneCheck peer service turn)
    (stepped : Service.step env service turn = some service') :
    Sound env peer service' ∧ Moves env peer service service' turn := by
  cases turn with
  | start id op =>
    obtain rfl := Pool.step_start stepped
    refine ⟨sound.started oneCheck,?_,?_⟩
    · rw [Pool.settle_store]
      exact Or.inl rfl
    · rw [Pool.settle_store]
      exact returned_settle service id (safe_program op service.store)
  | advance id landing =>
    obtain ⟨op,act,resume,live,rfl⟩ := Pool.step_advance stepped
    obtain ⟨guaranteed,after⟩ := sound.answered landing live
    have may : op.May peer act := (sound.makes id _ live).1
    refine ⟨after,?_,?_⟩
    · rw [Pool.settle_store]
      obtain kept | ⟨-,drops,lands⟩ | ⟨did,now,rfl,-⟩ := exec_pin landing act service.store peer
      · exact Or.inl kept
      · obtain led | prunes := may.drops drops
        · exact Or.inr (Or.inl ⟨op,act,resume,live,led,drops,lands⟩)
        · exact Or.inr (Or.inr (Or.inl ⟨op,act,resume,live,prunes,drops,lands⟩))
      · obtain kept | advanced := guaranteed.check (may.pins rfl)
        · exact Or.inl kept
        · exact Or.inr (Or.inr (Or.inr advanced))
    · have rest := (sound.safe id _ live landing service.store (relies_refl op service.store)).2
      obtain ⟨new,past,returns⟩ := returned_settle (service.after exec landing act) id rest
      refine ⟨new ++ [.did act],?_,?_⟩
      · rw [past,List.append_assoc]
        rfl
      · intro op' outcome inside
        rw [Pool.settle_store]
        obtain early | late := List.mem_append.mp inside
        · exact returns op' outcome early
        · exact absurd (List.mem_singleton.mp late) (fun same => nomatch same)

end Steps

section Runs
variable {env : PeerEnv} {signed : Bytes → String → Prop} {peer did : String} {s s' s'' : Service}

def Reaches (env : PeerEnv) (signed : Bytes → String → Prop) (peer did : String) (s : Service) : Prop :=
  ∃ did', pinOf s.store peer = some did' ∧ Succeeds env signed peer did did'

def Accepted (env : PeerEnv) (signed : Bytes → String → Prop) (peer did : String)
    (past : List (Moment Op Act Outcome)) : Prop :=
  ∀ attested peerEndpoint status pin, .returned (.checkAndPinDid peer attested peerEndpoint)
    (.checked (.ok (status,pin))) ∈ past →
    status.Accepts → Succeeds env signed peer did attested

theorem Moves.kept {turn : Turn Op Landing} (moves : Moves env peer s s' turn) (kept : Kept peer s turn) {old : String}
    (pinned : pinOf s.store peer = some old) : ∃ new, pinOf s'.store peer = some new ∧
    (new = old ∨ Follows env peer old new) := by
  obtain same | led | pruned | ⟨new,set,leads⟩ := moves.pin
  · exact ⟨old,same.trans pinned,Or.inl rfl⟩
  · exact absurd led kept.unled
  · exact absurd pruned kept.unpruned
  · exact ⟨new,set,Or.inr (leads old pinned)⟩

theorem Reaches.accepted (unforged : ∀ key message signature, env.nacl key message signature = .valid →
    signed key message)
    {new : List (Moment Op Act Outcome)} (reaches : Reaches env signed peer did s)
    (returns : ∀ op outcome, .returned op outcome ∈ new → Op.Returns env peer op outcome s.store) :
      Accepted env signed peer did new := by
  intro attested peerEndpoint status pin inside accepts
  obtain ⟨did',pinned,succeeds⟩ := reaches
  obtain rfl | follows := returns _ _ inside rfl status pin rfl accepts did' pinned
  · exact succeeds
  · exact succeeds.trans (follows.succeeds unforged)

/-- In every run in which the checks of a peer are made one after another: once a did is
pinned for the peer, then as long as no leader and no pruning takes the pin away, attestations
that are each signed by the key before lead from it to the pin and to every did that a check
accepts, and each change of the pin follows a whole chain. -/
theorem pin_continues (env : PeerEnv) (unforged : ∀ key message signature, env.nacl key message signature = .valid →
    signed key message)
    (run : Runs.Reached (Service.step env) (OneCheck peer) Service.opened s) (pinned : pinOf s.store peer = some did)
    (later : Runs.Reached (Service.step env) (Kept peer) s s') :
    Reaches env signed peer did s' ∧ (∃ new, s'.past = new ++ s.past ∧ Accepted env signed peer did new) ∧
      ∀ turn s'', Kept peer s' turn → Service.step env s' turn = some s'' → pinOf s''.store peer = pinOf s'.store peer ∨
        ∃ old new, pinOf s'.store peer = some old ∧ pinOf s''.store peer = some new ∧ Follows env peer old new := by
  have sound : Sound env peer s := run.invariant .opened fun a turn b before one stepped => (before.step one stepped).1
  have kept : Sound env peer s' ∧ Reaches env signed peer did s' ∧ ∃ new, s'.past = new ++ s.past ∧
      Accepted env signed peer did new := by
    apply later.invariant
    · exact ⟨sound,⟨did,pinned,.refl⟩,[],rfl,fun _ _ _ _ inside => absurd inside List.not_mem_nil⟩
    · rintro a turn b ⟨sound,⟨old,pinned,succeeds⟩,new,past,accepted⟩ kept stepped
      obtain ⟨sound',moves⟩ := sound.step kept.oneCheck stepped
      obtain ⟨next,set,goes⟩ := moves.kept kept pinned
      have reaches : Reaches env signed peer did b := by
        refine ⟨next,set,?_⟩
        obtain rfl | follows := goes
        · exact succeeds
        · exact succeeds.trans (follows.succeeds unforged)
      obtain ⟨newer,past',returns⟩ := moves.past
      refine ⟨sound',reaches,newer ++ new,by rw [past',past,List.append_assoc],?_⟩
      intro attested peerEndpoint status pin inside accepts
      obtain late | early := List.mem_append.mp inside
      · exact reaches.accepted unforged returns attested peerEndpoint status pin late accepts
      · exact accepted attested peerEndpoint status pin early accepts
  obtain ⟨sound',reaches,accepted⟩ := kept
  refine ⟨reaches,accepted,fun turn s'' kept stepped => ?_⟩
  obtain ⟨old,pinned',-⟩ := reaches
  obtain ⟨new,set,rfl | follows⟩ := (sound'.step kept.oneCheck stepped).2.kept kept pinned'
  · exact Or.inl (set.trans pinned'.symm)
  · exact Or.inr ⟨old,new,pinned',set,follows⟩

end Runs

section Samples

def plainPeers : PeerEnv where
  toCodec := { plainCodec with nacl := fun key message signature =>
    if key = signature ∧ message = "rotation" then .valid else .badSignature }
  agentId := "acme"
  canonicalize _ := .ok "rotation"
  maxAge := 3600

def plainDid (key : Char) : String := String.ofList ("did:key:z".toList ++ [Char.ofNat 0xed,Char.ofNat 1,key])

def plainRotation (old new : Char) (issuedAt : Int) : Dict :=
  [("type",.str rotationType),("peer_chapter_id",.str "bay"),("old_did",.str (plainDid old)),
    ("new_did",.str (plainDid new)),
    ("issued_at",.int issuedAt),("signature",.str (String.singleton old))]

def epoch : Clock := ⟨0,by decide +kernel⟩

def working (now : Stamp) (rotations : List Dict) : Landing where
  lands := true
  answers := true
  now := now
  body := some (.obj [("rotations",.arr (rotations.map .obj))])
  times _ := epoch

def done (id : ℕ) (op : Op) (calls : ℕ) (landing : Landing) : List (Turn Op Landing) :=
  .start id op :: List.replicate calls (.advance id landing)

def takesNothing (service : Service) : Turn Op Landing → Bool
  | .start .. => service.live.keys = []
  | .advance id _ =>
    match service.live.lookup id with
    | some ⟨_,.call (.deletePolicy _) _⟩ => false
    | some ⟨_,.call (.patchPolicy _ (.unpin _)) _⟩ => false
    | _ => true

theorem takesNothing_kept (service : Service) (turn : Turn Op Landing) (checked : takesNothing service turn = true) :
    Kept "bay" service turn := by
  have loses (kind : Op → Prop) : ¬ Loses "bay" service kind turn := by
    cases turn with
    | start _ op => exact id
    | advance id landing =>
      rintro ⟨op,act,resume,live,-,drops,-⟩
      rw [takesNothing,live] at checked
      unfold Act.Drops at drops
      split at drops
      · cases checked
      · cases checked
      · exact drops
  refine ⟨?_,loses _,loses _⟩
  cases turn with
  | start id op =>
    intro _ other task live
    have none : service.live.keys = [] := of_decide_eq_true checked
    have listed : other ∈ service.live.keys := AList.mem_keys.mpr (AList.lookup_isSome.mp (by rw [live]; rfl))
    rw [none] at listed
    exact absurd listed List.not_mem_nil
  | advance id landing => trivial

def pinning (id : ℕ) (key : Char) (now : Stamp) : List (Turn Op Landing) :=
  done id (.checkAndPinDid "bay" (plainDid key) none) 6 (working now [])

def rotating : List (Turn Op Landing) :=
  done 1 (.checkAndPinDid "bay" (plainDid 'b') (some "https://bay.example")) 8 (working 0 [plainRotation 'a' 'b' 0])

theorem rotated_followed : ∃ s s' : Service, pinOf s.store "bay" = some (plainDid 'a') ∧
    pinOf s'.store "bay" = some (plainDid 'b') ∧
    Reaches plainPeers (fun _ message => message = "rotation") "bay" (plainDid 'a') s' := by
  have walked : ((Runs.walk (Service.step plainPeers) takesNothing (pinning 0 'a' 0) Service.opened).bind fun s =>
      (Runs.walk (Service.step plainPeers) takesNothing rotating s).map fun s' =>
        (pinOf s.store "bay",pinOf s'.store "bay")) = some (some (plainDid 'a'),some (plainDid 'b')) := by
    decide +kernel
  obtain ⟨s,first,walked⟩ := Option.bind_eq_some_iff.mp walked
  obtain ⟨s',second,seen⟩ := Option.map_eq_some_iff.mp walked
  obtain ⟨before,after⟩ := Prod.mk.inj seen
  have unforged : ∀ key message signature, plainPeers.nacl key message signature = .valid → message = "rotation" := by
    intro key message signature valid
    by_contra other
    have refused : plainPeers.nacl key message signature = .badSignature := if_neg fun both => other both.2
    exact nomatch refused.symm.trans valid
  have run : Runs.Reached (Service.step plainPeers) (OneCheck "bay") Service.opened s :=
    (Runs.reached_walk takesNothing_kept _ .start first).weaken fun _ _ kept => kept.oneCheck
  exact ⟨s,s',before,after,
    (pin_continues plainPeers unforged run before (Runs.reached_walk takesNothing_kept _ .start second)).1⟩

def noSignature : PeerEnv where
  toCodec := { plainCodec with nacl := fun _ _ _ => .badSignature }
  agentId := "acme"
  canonicalize _ := .ok "rotation"
  maxAge := 3600

def byNoLeader (service : Service) : Turn Op Landing → Bool
  | .start .. => service.live.keys = []
  | .advance id _ =>
    match service.live.lookup id with
    | some ⟨.forgetPeer .., _⟩ => false
    | some ⟨.clearDidPin .., _⟩ => false
    | _ => true

theorem byNoLeader_unled (service : Service) (turn : Turn Op Landing) (checked : byNoLeader service turn = true) :
    OneCheck "bay" service turn ∧ ¬ Loses "bay" service Op.Led turn := by
  cases turn with
  | start id op =>
    have alone : Kept "bay" service (.start id op) := takesNothing_kept service _ checked
    exact ⟨alone.oneCheck,alone.unled⟩
  | advance id landing =>
    refine ⟨trivial,?_⟩
    rintro ⟨op,act,resume,live,led,-⟩
    rw [byNoLeader,live] at checked
    unfold Op.Led at led
    split at led
    · cases checked
    · cases checked
    · exact led

def lastChecked (service : Service) : Option (String × String × PinStatus) :=
  match service.past with
  | .returned (.checkAndPinDid peer did _) (.checked (.ok (status,_))) :: _ => some (peer,did,status)
  | _ => none

def pruning : List (Turn Op Landing) := done 1 (.pruneStalePeers [] [] 259200) 5 (working 259200 [])

/-- The row of a peer is pruned, and the next did that is attested is pinned, though no key
has signed anything. -/
theorem pruned_repinned : (∀ key message signature, noSignature.nacl key message signature ≠ .valid) ∧
    ∃ s s' : Service, Runs.Reached (Service.step noSignature) (OneCheck "bay") Service.opened s ∧
      pinOf s.store "bay" = some (plainDid 'a') ∧
      Runs.Reached (Service.step noSignature) (fun s turn => OneCheck "bay" s turn ∧ ¬ Loses "bay" s Op.Led turn) s s' ∧
      lastChecked s' = some ("bay",plainDid 'b',.pinned) ∧ pinOf s'.store "bay" = some (plainDid 'b') ∧
      ¬ Succeeds noSignature (fun _ _ => False) "bay" (plainDid 'a') (plainDid 'b') := by
  have walked : ((Runs.walk (Service.step noSignature) byNoLeader (pinning 0 'a' 0) Service.opened).bind fun s =>
      (Runs.walk (Service.step noSignature) byNoLeader (pruning ++ pinning 2 'b' 259200) s).map fun s' =>
        (pinOf s.store "bay",lastChecked s',pinOf s'.store "bay")) =
      some (some (plainDid 'a'),some ("bay",plainDid 'b',.pinned),some (plainDid 'b')) := by
    decide +kernel
  obtain ⟨s,first,walked⟩ := Option.bind_eq_some_iff.mp walked
  obtain ⟨s',second,seen⟩ := Option.map_eq_some_iff.mp walked
  obtain ⟨before,last,after⟩ : pinOf s.store "bay" = _ ∧ lastChecked s' = _ ∧ pinOf s'.store "bay" = _ := by
    simpa only [Prod.mk.injEq] using seen
  refine ⟨fun _ _ _ valid => NaclAnswer.noConfusion valid,s,s',?_,before,
    Runs.reached_walk byNoLeader_unled _ .start second,last,after,?_⟩
  · exact (Runs.reached_walk byNoLeader_unled _ .start first).weaken fun _ _ both => both.1
  · intro succeeds
    obtain same | ⟨_,-,attested⟩ := Relation.ReflTransGen.cases_tail succeeds
    · exact absurd same (by decide)
    · obtain ⟨_,_,_,-,-,-,-,-,-,signed⟩ := attested.attestation
      exact signed

end Samples

end Orrery.Federation.Policy
