import Mathlib.Algebra.Order.Field.Rat
import Mathlib.Data.List.TakeWhile
import Mathlib.Data.NNRat.Defs
import Mathlib.Tactic.Linarith
import Orrery.Chapter.AuthKeys
import Orrery.Foundation.OrderedDicts
import Orrery.Foundation.Runs

/-! The replay store of the bound signature scheme (server/auth_verify.py): `verify_request`
with the store that it asks. Clock readings are exact numbers. -/
namespace Orrery.Chapter
open Foundation

def v03ReplayTtlSeconds : ℚ := 600

@[irreducible] def v03ReplayStoreMax : ℕ := 100000

abbrev ReplayStore := OrderedDict (String × String) ℚ

def sweptStore (store : ReplayStore) (cutoff : ℚ) : ReplayStore :=
  store.tailFrom (store.items.dropWhile (·.2 < cutoff)) (List.dropWhile_suffix _)

def replayCheckAndRecord (store : ReplayStore) (agentId nonce : String) (now : ℚ) : ReplayStore × Bool :=
  let swept := sweptStore store (now-v03ReplayTtlSeconds)
  if (agentId,nonce) ∈ swept.keys then (swept,false)
  else
    let recorded := swept.set (agentId,nonce) now
    (recorded.tailFrom (recorded.items.drop (recorded.size-v03ReplayStoreMax)) (List.drop_suffix _ _),true)

def wholeSeconds (t : ℚ) : Int := t.num.tdiv t.den

def SignedRequest.bound (r : SignedRequest) : Bool := r.scheme = "ed25519+nonce"

/-- A call of `verify_request` after the one before it: the time until it reads the clock,
and from there until the replay store reads it. -/
structure SignedCall where
  request : SignedRequest
  eligible : String → Bool
  waited : ℚ≥0
  took : ℚ≥0

structure Recording where
  request : SignedRequest
  time : ℚ

def Recording.entry (r : Recording) : (String × String) × ℚ := ((r.request.agentId,r.request.nonce),r.time)

/-- The process, with the requests of the bound scheme that it has accepted. -/
structure Session where
  keys : AuthKeys
  replay : ReplayStore
  clock : ℚ
  accepted : List Recording

def Session.start (keys : AuthKeys) (clock : ℚ) : Session := ⟨keys,.empty,clock,[]⟩

def SignedRequest.alike (a b : SignedRequest) : Prop :=
  a.agentId = b.agentId ∧ a.signature = b.signature ∧ a.timestamp = b.timestamp ∧ a.didKey = b.didKey ∧
    a.nonce = b.nonce ∧ a.sigScheme = b.sigScheme ∧ a.body = b.body

section Receive
variable (codec : Codec) (hmac : String → String → String → Except Exc Bool)

def Session.receive (s : Session) (call : SignedCall) : Session :=
  let now := s.clock+call.waited
  let recordedAt := now+call.took
  let r := call.request
  let asked := (verifyRequest codec hmac s.keys call.eligible (wholeSeconds now) r true).2.1
  let checked := replayCheckAndRecord s.replay r.agentId r.nonce recordedAt
  let answer := verifyRequest codec hmac s.keys call.eligible (wholeSeconds now) r checked.2
  { keys := answer.1
    replay := if r.bound && asked then checked.1 else s.replay
    clock := recordedAt
    accepted := if r.bound && answer.2.1 then s.accepted ++ [⟨r,recordedAt⟩] else s.accepted }

end Receive

/-- No two accepted requests of the bound scheme had the same headers and body. -/
def Session.Once (s : Session) : Prop := s.accepted.Pairwise fun a b => ¬ a.request.alike b.request

structure Remembers (store : ReplayStore) (log : List Recording) (clock : ℚ) : Prop where
  split : ∃ gone kept, log = gone ++ kept ∧ store.items = kept.map Recording.entry ∧
    kept.length ≤ v03ReplayStoreMax ∧ ∀ before recording after, gone = before ++ recording :: after →
      recording.time < clock-v03ReplayTtlSeconds ∨ v03ReplayStoreMax ≤ after.length+kept.length
  inOrder : log.Pairwise (·.time ≤ ·.time)
  past : ∀ recording ∈ log, recording.time ≤ clock

def Remembered (log : List Recording) (agentId nonce : String) (now : ℚ) : Prop :=
  ∃ before recording after, log = before ++ recording :: after ∧ recording.request.agentId = agentId ∧
    recording.request.nonce = nonce ∧ now-v03ReplayTtlSeconds ≤ recording.time ∧ after.length < v03ReplayStoreMax

section Store
variable {store : ReplayStore} {log : List Recording} {clock now : ℚ} {agentId nonce : String}

theorem storeMax_pos : 0 < v03ReplayStoreMax := by simp [v03ReplayStoreMax]

theorem Remembers.empty (clock : ℚ) : Remembers .empty [] clock where
  split := ⟨[],[],rfl,rfl,Nat.zero_le _,by simp⟩
  inOrder := List.Pairwise.nil
  past := by simp

theorem Remembers.swept (known : Remembers store log clock) (le : clock ≤ now) :
    Remembers (sweptStore store (now-v03ReplayTtlSeconds)) log now := by
  obtain ⟨gone,kept,rfl,items,few,lost⟩ := known.split
  let old (r : Recording) : Bool := r.time < now-v03ReplayTtlSeconds
  refine ⟨⟨gone ++ kept.takeWhile old,kept.dropWhile old,?_,?_,?_,?_⟩,known.inOrder,?_⟩
  · rw [List.append_assoc,List.takeWhile_append_dropWhile]
  · change store.items.dropWhile _ = _
    rw [items,List.dropWhile_map]
    rfl
  · exact (List.dropWhile_suffix old).length_le.trans few
  · intro before recording after shape
    have length : (kept.takeWhile old).length+(kept.dropWhile old).length = kept.length := by
      rw [← List.length_append,List.takeWhile_append_dropWhile]
    obtain ⟨rest,rfl,right⟩ | ⟨rest,left,right⟩ := List.append_eq_append_iff.mp shape
    · have inside : recording ∈ kept.takeWhile old := by simp [right]
      exact .inl (by simpa [old] using List.mem_takeWhile_imp inside)
    · cases rest with
      | nil =>
        have inside : recording ∈ kept.takeWhile old := by
          rw [← List.nil_append (kept.takeWhile old),← right]
          simp
        exact .inl (by simpa [old] using List.mem_takeWhile_imp inside)
      | cons first rest =>
        obtain rfl := (List.cons.inj right).1
        have rest_ : after = rest ++ kept.takeWhile old := (List.cons.inj right).2
        obtain early | full := lost before recording rest left
        · exact .inl (by linarith)
        · right
          rw [rest_,List.length_append]
          omega
  · exact fun recording inside => (known.past recording inside).trans le

theorem Remembers.recorded (known : Remembers store log now) {r : SignedRequest}
    (new : (r.agentId,r.nonce) ∉ store.keys) {next : ReplayStore}
    (shape : next.items = (store.set (r.agentId,r.nonce) now).items.drop
      ((store.set (r.agentId,r.nonce) now).size-v03ReplayStoreMax)) :
    Remembers next (log ++ [⟨r,now⟩]) now := by
  obtain ⟨gone,kept,rfl,items,few,lost⟩ := known.split
  let latest : Recording := ⟨r,now⟩
  have all : (store.set (r.agentId,r.nonce) now).items = (kept ++ [latest]).map Recording.entry := by
    rw [OrderedDict.set_new new,items,List.map_append]
    rfl
  let excess := (kept.length+1)-v03ReplayStoreMax
  have size : (store.set (r.agentId,r.nonce) now).size = kept.length+1 := by simp [OrderedDict.size,all]
  have room := storeMax_pos
  refine ⟨⟨gone ++ (kept ++ [latest]).take excess,(kept ++ [latest]).drop excess,?_,?_,?_,?_⟩,?_,?_⟩
  · rw [List.append_assoc,List.append_assoc,List.take_append_drop]
  · rw [shape,all,size,← List.map_drop]
  · rw [List.length_drop,List.length_append,List.length_singleton]
    omega
  · intro before recording after split
    rw [List.length_drop,List.length_append,List.length_singleton]
    by_cases fits : excess = 0
    · rw [fits,List.take_zero,List.append_nil] at split
      obtain early | full := lost before recording after split
      · exact .inl early
      · exact .inr (by omega)
    · exact .inr (by omega)
  · rw [List.pairwise_append]
    refine ⟨known.inOrder,List.pairwise_singleton _ _,?_⟩
    intro recording inside last at_
    obtain rfl := List.mem_singleton.mp at_
    exact known.past recording inside
  · rw [List.forall_mem_append]
    exact ⟨known.past,by simp⟩

theorem Remembers.knows (known : Remembers store log clock) (le : clock ≤ now) :
    (agentId,nonce) ∈ (sweptStore store (now-v03ReplayTtlSeconds)).keys ↔ Remembered log agentId nonce now := by
  obtain ⟨gone,kept,rfl,items,few,lost⟩ := known.split
  let old (entry : (String × String) × ℚ) : Bool := entry.2 < now-v03ReplayTtlSeconds
  have keys : (sweptStore store (now-v03ReplayTtlSeconds)).keys =
      ((kept.map Recording.entry).dropWhile old).map Prod.fst := by
    rw [OrderedDict.keys,← items]
    rfl
  rw [keys,List.mem_map]
  constructor
  · rintro ⟨entry,inside,key⟩
    rw [List.dropWhile_map] at inside
    obtain ⟨recording,young,rfl⟩ := List.mem_map.mp inside
    obtain ⟨before,after,rest⟩ : ∃ before after, kept.dropWhile (old ∘ Recording.entry) =
        before ++ recording :: after :=
      List.append_of_mem young
    have whole : kept = (kept.takeWhile (old ∘ Recording.entry) ++ before) ++ recording :: after := by
      rw [List.append_assoc,← rest,List.takeWhile_append_dropWhile]
    obtain ⟨agent,nonce_⟩ := Prod.mk.inj key
    refine ⟨gone ++ (kept.takeWhile (old ∘ Recording.entry) ++ before),recording,after,?_,agent,nonce_,?_,?_⟩
    · rw [List.append_assoc,← whole]
    · -- the first entry that stays is young enough, and later ones are younger
      have first : ∀ head tail, kept.dropWhile (old ∘ Recording.entry) = head :: tail →
          now-v03ReplayTtlSeconds ≤ head.time := by
        intro head tail shape
        have stays := List.head_dropWhile_not (old ∘ Recording.entry) (by rw [shape]; simp)
        have above : decide (head.entry.2 < now-v03ReplayTtlSeconds) = false := by simpa [shape,old] using stays
        exact not_lt.mp (of_decide_eq_false above)
      have inOrder : (kept.dropWhile (old ∘ Recording.entry)).Pairwise (·.time ≤ ·.time) :=
        (List.pairwise_append.mp known.inOrder).2.1.sublist (List.dropWhile_suffix _).sublist
      cases shape : kept.dropWhile (old ∘ Recording.entry) with
      | nil => simp [shape] at young
      | cons head tail =>
        rw [shape] at young inOrder
        obtain rfl | later := List.mem_cons.mp young
        · exact first _ _ shape
        · exact (first _ _ shape).trans ((List.pairwise_cons.mp inOrder).1 recording later)
    · have length := congrArg List.length whole
      simp only [List.length_append,List.length_cons] at length
      omega
  · rintro ⟨before,recording,after,shape,rfl,rfl,young,recent⟩
    refine ⟨recording.entry,?_,rfl⟩
    have inside : recording ∈ kept := by
      obtain ⟨rest,rfl,right⟩ | ⟨rest,left,right⟩ := List.append_eq_append_iff.mp shape
      · simp [right]
      cases rest with
      | nil =>
        rw [List.nil_append] at right
        simp [← right]
      | cons first rest =>
        obtain rfl := (List.cons.inj right).1
        have rest_ : after = rest ++ kept := (List.cons.inj right).2
        obtain early | full := lost before recording rest left
        · linarith
        · rw [rest_,List.length_append] at recent
          omega
    have stays : (kept.map Recording.entry).takeWhile old ++ (kept.map Recording.entry).dropWhile old =
        kept.map Recording.entry := List.takeWhile_append_dropWhile
    have member : recording.entry ∈
        (kept.map Recording.entry).takeWhile old ++ (kept.map Recording.entry).dropWhile old := by
      rw [stays]
      exact List.mem_map_of_mem inside
    obtain dropped | stays := List.mem_append.mp member
    · have dead : recording.time < now-v03ReplayTtlSeconds := by
        simpa [old,Recording.entry] using List.mem_takeWhile_imp dropped
      linarith
    · exact stays

theorem Remembers.later (known : Remembers store log clock) (le : clock ≤ now) : Remembers store log now where
  split := by
    obtain ⟨gone,kept,shape,items,few,lost⟩ := known.split
    refine ⟨gone,kept,shape,items,few,?_⟩
    intro before recording after here
    exact (lost before recording after here).imp_left fun early => by linarith
  inOrder := known.inOrder
  past recording inside := (known.past recording inside).trans le

end Store

section Sessions
variable {codec : Codec} {hmac : String → String → String → Except Exc Bool} {s : Session} {call : SignedCall}

/-- The store is the end of what was accepted, and whoever was accepted is held with the
key of the request. -/
structure Session.Sound (codec : Codec) (s : Session) : Prop where
  remembers : Remembers s.replay s.accepted s.clock
  bound : ∀ recording ∈ s.accepted, recording.request.scheme = "ed25519+nonce"
  held : ∀ recording ∈ s.accepted, edKey s.keys recording.request.agentId ≠ ""
  agrees : ∀ recording ∈ s.accepted, headerPubkey codec recording.request = "" ∨
    headerPubkey codec recording.request = edKey s.keys recording.request.agentId

theorem Session.start_sound (keys : AuthKeys) (clock : ℚ) : (Session.start keys clock).Sound codec where
  remembers := Remembers.empty clock
  bound := by simp [Session.start]
  held := by simp [Session.start]
  agrees := by simp [Session.start]

def Session.reads (s : Session) (call : SignedCall) : ℚ := s.clock+call.waited
def Session.records (s : Session) (call : SignedCall) : ℚ := s.reads call+call.took

theorem Session.clock_le_records (s : Session) (call : SignedCall) : s.clock ≤ s.records call := by
  have waited : (0:ℚ) ≤ call.waited := call.waited.2
  have took : (0:ℚ) ≤ call.took := call.took.2
  rw [Session.records,Session.reads]
  linarith

theorem Session.receive_cases (codec : Codec) (hmac : String → String → String → Except Exc Bool) (s : Session)
    (call : SignedCall) :
    ((s.receive codec hmac call).accepted = s.accepted ∧ ((s.receive codec hmac call).replay = s.replay ∨
      (s.receive codec hmac call).replay = sweptStore s.replay (s.records call-v03ReplayTtlSeconds)) ∧
      ¬(call.request.scheme = "ed25519+nonce" ∧
        (call.request.agentId,call.request.nonce) ∉ (sweptStore s.replay (s.records call-v03ReplayTtlSeconds)).keys ∧
        (verifyRequest codec hmac s.keys call.eligible (wholeSeconds (s.reads call)) call.request true).2.1 = true)) ∨
    (call.request.scheme = "ed25519+nonce" ∧
      (call.request.agentId,call.request.nonce) ∉ (sweptStore s.replay (s.records call-v03ReplayTtlSeconds)).keys ∧
      (verifyRequest codec hmac s.keys call.eligible (wholeSeconds (s.reads call)) call.request true).2.1 = true ∧
      (s.receive codec hmac call).keys =
        (verifyRequest codec hmac s.keys call.eligible (wholeSeconds (s.reads call)) call.request true).1 ∧
      (s.receive codec hmac call).accepted = s.accepted ++ [⟨call.request,s.records call⟩] ∧
      ∃ recorded : ReplayStore, recorded = (sweptStore s.replay (s.records call-v03ReplayTtlSeconds)).set
          (call.request.agentId,call.request.nonce) (s.records call) ∧
        (s.receive codec hmac call).replay.items = recorded.items.drop (recorded.size-v03ReplayStoreMax)) := by
  have shape : s.receive codec hmac call =
      let checked := replayCheckAndRecord s.replay call.request.agentId call.request.nonce (s.records call)
      let answer := verifyRequest codec hmac s.keys call.eligible (wholeSeconds (s.reads call)) call.request
      ⟨(answer checked.2).1,if call.request.bound && (answer true).2.1 then checked.1 else s.replay,s.records call,
        if call.request.bound && (answer checked.2).2.1 then s.accepted ++ [⟨call.request,s.records call⟩]
        else s.accepted⟩ := rfl
  rw [shape]
  by_cases bound : call.request.scheme = "ed25519+nonce"
  · have is : call.request.bound = true := decide_eq_true bound
    by_cases known : (call.request.agentId,call.request.nonce) ∈
        (sweptStore s.replay (s.records call-v03ReplayTtlSeconds)).keys
    · have checked : replayCheckAndRecord s.replay call.request.agentId call.request.nonce (s.records call) =
          (sweptStore s.replay (s.records call-v03ReplayTtlSeconds),false) := if_pos known
      have refused : (verifyRequest codec hmac s.keys call.eligible (wholeSeconds (s.reads call)) call.request
          false).2.1 = false := by
        apply Bool.eq_false_iff.mpr
        intro accepted
        cases (accepted_bound bound accepted).2.1
      left
      simp only [checked,refused,is,Bool.true_and]
      refine ⟨rfl,?_,fun fresh => fresh.2.1 known⟩
      split
      · exact .inr rfl
      · exact .inl rfl
    · have checked : (replayCheckAndRecord s.replay call.request.agentId call.request.nonce (s.records call)).2 =
        true := by
        rw [replayCheckAndRecord,if_neg known]
      simp only [checked,is,Bool.true_and]
      by_cases valid : (verifyRequest codec hmac s.keys call.eligible (wholeSeconds (s.reads call)) call.request
          true).2.1 = true
      · right
        refine ⟨bound,known,valid,trivial,if_pos valid,_,rfl,?_⟩
        rw [if_pos valid,replayCheckAndRecord,if_neg known]
        rfl
      · left
        exact ⟨if_neg valid,.inl (if_neg valid),fun fresh => valid fresh.2.2⟩
  · have isNot : call.request.bound = false := decide_eq_false bound
    left
    simp only [isNot,Bool.false_and]
    exact ⟨rfl,.inl rfl,fun fresh => bound fresh.1⟩

theorem Session.Sound.receive (sound : s.Sound codec) (call : SignedCall) :
    (s.receive codec hmac call).Sound codec := by
  have le := s.clock_le_records call
  have keeps {agentId : String} (held : edKey s.keys agentId ≠ "") :
      edKey (s.receive codec hmac call).keys agentId = edKey s.keys agentId := verifyRequest_holds held
  obtain ⟨same,store,_⟩ | ⟨bound,new,valid,keys,added,recorded,rfl,trimmed⟩ := s.receive_cases codec hmac call
  · constructor
    · rw [same]
      obtain store | store := store
      · rw [store]
        exact sound.remembers.later le
      · rw [store]
        exact sound.remembers.swept le
    · rw [same]
      exact sound.bound
    · intro recording inside
      rw [same] at inside
      rw [keeps (sound.held recording inside)]
      exact sound.held recording inside
    · intro recording inside
      rw [same] at inside
      rw [keeps (sound.held recording inside)]
      exact sound.agrees recording inside
  · obtain ⟨_,_,held,agrees,_⟩ := accepted_bound bound valid
    rw [← keys] at held agrees
    constructor
    · rw [added]
      exact (sound.remembers.swept le).recorded new trimmed
    · rw [added,List.forall_mem_append]
      exact ⟨sound.bound,by simpa using bound⟩
    · rw [added,List.forall_mem_append]
      refine ⟨?_,by simpa using held⟩
      intro recording inside
      rw [keeps (sound.held recording inside)]
      exact sound.held recording inside
    · rw [added,List.forall_mem_append]
      refine ⟨?_,by simpa using agrees⟩
      intro recording inside
      rw [keeps (sound.held recording inside)]
      exact sound.agrees recording inside

/-- A request that repeats an accepted one and still passes the window and its signature
comes while the store remembers its nonce. -/
def Session.InTime (codec : Codec) (s : Session) (call : SignedCall) : Prop :=
  ∀ recording ∈ s.accepted, recording.request.alike call.request →
    requestRefusal codec (wholeSeconds (s.reads call)) call.request = none →
    ed25519Verify codec call.request.message call.request.signature (edKey s.keys call.request.agentId) = true →
    Remembered s.accepted call.request.agentId call.request.nonce (s.records call)

theorem SignedRequest.alike.scheme {a b : SignedRequest} (alike : a.alike b) : a.scheme = b.scheme := by
  rw [SignedRequest.scheme,alike.2.2.2.2.2.1,SignedRequest.scheme]

theorem SignedRequest.alike.header {a b : SignedRequest} (alike : a.alike b) :
    headerPubkey codec a = headerPubkey codec b := by
  rw [headerPubkey,alike.2.2.2.1,headerPubkey]

theorem Session.receive_once (sound : s.Sound codec) (once : s.Once) :
    (s.receive codec hmac call).Once ↔ s.InTime codec call := by
  have knows := @Remembers.knows s.replay s.accepted s.clock (s.records call) call.request.agentId call.request.nonce
    sound.remembers (s.clock_le_records call)
  constructor
  · intro next recording inside alike unrefused verified
    by_contra forgotten
    have bound : call.request.scheme = "ed25519+nonce" := alike.scheme ▸ sound.bound recording inside
    have valid : (verifyRequest codec hmac s.keys call.eligible (wholeSeconds (s.reads call)) call.request
        true).2.1 = true := by
      apply (verifyRequest_held bound ?_ ?_).mpr ⟨unrefused,verified,rfl⟩
      · exact alike.1 ▸ sound.held recording inside
      · rw [← alike.header,← alike.1]
        exact sound.agrees recording inside
    obtain ⟨_,_,never⟩ | ⟨_,_,_,_,added,_⟩ := s.receive_cases codec hmac call
    · exact never ⟨bound,mt knows.mp forgotten,valid⟩
    · rw [Once,added] at next
      exact (List.pairwise_append.mp next).2.2 recording inside _ (List.mem_singleton_self _) alike
  · intro inTime
    obtain ⟨same,_⟩ | ⟨bound,new,valid,_,added,_⟩ := s.receive_cases codec hmac call
    · rw [Once,same]
      exact once
    · rw [Once,added,List.pairwise_append]
      refine ⟨once,List.pairwise_singleton _ _,?_⟩
      intro recording inside last at_ alike
      obtain rfl := List.mem_singleton.mp at_
      obtain ⟨unrefused,_,_,_,verified⟩ := accepted_bound bound valid
      rw [verifyRequest_holds (alike.1 ▸ sound.held recording inside)] at verified
      exact new (knows.mpr (inTime recording inside alike unrefused verified))

/-- In a run of the process, no request is accepted twice exactly when every repeat that
passes the window and its signature comes while its nonce is remembered. -/
theorem accepted_once_iff (codec : Codec) (hmac : String → String → String → Except Exc Bool) (keys : AuthKeys)
    (clock : ℚ) (calls : List SignedCall) :
    (∀ k, ((calls.take k).foldl (Session.receive codec hmac) (Session.start keys clock)).Once) ↔
      ∀ (k : ℕ) call, calls[k]? = some call →
        ((calls.take k).foldl (Session.receive codec hmac) (Session.start keys clock)).InTime codec call :=
  Runs.always_iff (I := Session.Sound codec) (P := Session.Once) (Q := Session.InTime codec)
    (fun _ call sound => sound.receive call) (fun _ _ sound once => Session.receive_once sound once) calls _
    (Session.start_sound keys clock) List.Pairwise.nil

def clockCodec : Codec := { plainCodec with parseInt := fun s => if s = "1300" then some 1300 else none }

def annHeld : AuthKeys := fun agentId => if agentId = "ann" then some ⟨"","",keyNamed 'a'⟩ else none

def aheadRequest : SignedRequest where
  agentId := "ann"
  signature := keyNamed 'a'
  timestamp := "1300"
  didKey := ""
  nonce := "n1"
  sigScheme := "ed25519+nonce"
  body := ""
  method := "GET"
  urlPath := "/api/members"
  requireMethodBinding := false

theorem ahead_passes (now : Int) (window : (now-1300).natAbs ≤ 300) :
    requestRefusal clockCodec now aheadRequest = none := by
  have scheme : aheadRequest.scheme = "ed25519+nonce" := by decide
  have parsed : clockCodec.parseInt aheadRequest.timestamp = some 1300 := rfl
  rw [requestRefusal,scheme,parsed]
  simp [aheadRequest,keyNamed,window]

theorem replayed_after_sweep : ¬ ∀ codec hmac keys clock (calls : List SignedCall),
    (calls.foldl (Session.receive codec hmac) (Session.start keys clock)).Once := by
  intro always
  let first : SignedCall := ⟨aheadRequest,fun _ => true,0,0⟩
  let second : SignedCall := ⟨aheadRequest,fun _ => true,⟨1201/2,by norm_num⟩,0⟩
  let hmac : String → String → String → Except Exc Bool := fun _ _ _ => .ok false
  let before := Session.start annHeld 1000
  have held : edKey annHeld "ann" = keyNamed 'a' := rfl
  have some_ : edKey before.keys "ann" ≠ "" := by
    change keyNamed 'a' ≠ ""
    decide
  have verified : ed25519Verify clockCodec aheadRequest.message aheadRequest.signature (keyNamed 'a') = true := rfl
  have whole : wholeSeconds (before.reads first) = 1000 := by decide +kernel
  have valid : (verifyRequest clockCodec hmac annHeld first.eligible (wholeSeconds (before.reads first)) aheadRequest
      true).2.1 = true := by
    apply (verifyRequest_held (by decide) ?_ ?_).mpr ⟨ahead_passes _ ?_,?_,rfl⟩
    · exact some_
    · exact .inl rfl
    · rw [whole]
      decide
    · change ed25519Verify _ _ _ (edKey annHeld "ann") = true
      rw [held]
      exact verified
  obtain ⟨_,_,never⟩ | ⟨_,_,_,_,added,_⟩ := before.receive_cases clockCodec hmac first
  · refine never ⟨by decide,?_,valid⟩
    simp [before,Session.start,sweptStore,OrderedDict.tailFrom,OrderedDict.keys,OrderedDict.empty]
  have start : before.Sound clockCodec := Session.start_sound annHeld 1000
  have sound : (before.receive clockCodec hmac first).Sound clockCodec := start.receive first
  have once : (before.receive clockCodec hmac first).Once := by
    rw [Session.Once,added]
    exact List.pairwise_singleton _ _
  have twice : ((before.receive clockCodec hmac first).receive clockCodec hmac second).Once :=
    always clockCodec hmac annHeld 1000 [first,second]
  have inside : ⟨aheadRequest,before.records first⟩ ∈ (before.receive clockCodec hmac first).accepted := by
    rw [added]
    exact List.mem_singleton_self _
  have window : (wholeSeconds ((before.receive clockCodec hmac first).reads second)-1300).natAbs ≤ 300 := by
    change (wholeSeconds (1000+0+0+1201/2)-1300).natAbs ≤ 300
    decide +kernel
  have still : edKey (before.receive clockCodec hmac first).keys "ann" = keyNamed 'a' := by
    rw [← held]
    exact verifyRequest_holds some_
  have remembered := (Session.receive_once sound once).mp twice _ inside ⟨rfl,rfl,rfl,rfl,rfl,rfl,rfl⟩
    (ahead_passes _ window) (still ▸ verified)
  obtain ⟨earlier,recording,later,shape,_,_,young,_⟩ := remembered
  rw [added] at shape
  have one : recording ∈ [(⟨aheadRequest,before.records first⟩ : Recording)] := by
    change recording ∈ before.accepted ++ _
    rw [shape]
    simp
  obtain rfl := List.mem_singleton.mp one
  change (1000+0+0+1201/2+0-600 : ℚ) ≤ 1000+0+0 at young
  norm_num at young

end Sessions
end Orrery.Chapter
