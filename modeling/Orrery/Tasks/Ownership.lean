import Orrery.Tasks.Calls

/-! Whose a task is (community_member/a2a_rpc.py over a2a_auth.py): it is its creator's,
by the did:key that the request of the creator has named. Which key has verified a
request is another matter, where the request brings a key beside its did:key. -/
namespace Orrery.Tasks
open Foundation Json Runs Chapter

section Holding
variable {env : StoreEnv} {e : Chance} {s : Store} {send : Send}

/-- The task of the send is there, and the caller of the send may write to it. -/
def Held (send : Send) (s : Store) : Prop :=
  ∃ t, s.tasks send.creation.taskId = some t ∧ creatorPermits t send.caller = true

theorem permits_congr {t t' : Task} (same : t'.creatorDidKey = t.creatorDidKey) (caller : Option CallerIdentity) :
    creatorPermits t' caller = creatorPermits t caller := by
  rw [creatorPermits,creatorPermits,same]

theorem row_creator (env : StoreEnv) (e : Chance) {taskId : String} {t : Task} (act : Act)
    (found : s.tasks taskId = some t) : ∃ t', (exec env e act s).2.tasks taskId = some t' ∧ t'.creatorDidKey = t.creatorDidKey := by
  by_cases changed : (exec env e act s).2.tasks taskId = s.tasks taskId
  · exact ⟨t,changed.trans found,rfl⟩
  · obtain ⟨t',rewrites⟩ := exec_row changed
    exact ⟨t',by rw [rewrites.tasks,Function.update_self],rewrites.kept t found⟩

theorem Held.after (held : Held send s) (act : Act) : Held send (exec env e act s).2 := by
  obtain ⟨t,found,permitted⟩ := held
  obtain ⟨t',found',same⟩ := row_creator env e act found
  exact ⟨t',found',by rw [permits_congr same,permitted]⟩

theorem permits_made {caller : Option CallerIdentity} {t : Task}
    (made : t.creatorDidKey = (caller.map CallerIdentity.didKey).filter (· ≠ "")) : creatorPermits t caller = true := by
  rw [creatorPermits,made]
  cases caller with
  | none => rfl
  | some c =>
    by_cases nameless : c.didKey = ""
    · simp [Option.filter,nameless]
    · simp [Option.filter,nameless]

theorem held_accepted {caller : Option CallerIdentity} {own : Send} (mine : (Act.accept send).By caller)
    (goes : (exec env e (.accept send) s).1.onwards (some send) = some own) :
    Held own (exec env e (.accept send) s).2 := by
  obtain rfl : send = own := Option.some.inj (onwards_some goes)
  change Held send (acceptSend env e s send).2
  rcases acceptSend_cases env e s send with refused | ⟨t,rewrites⟩
  · cases goes.symm.trans (refused.2 (some send))
  · refine ⟨t,by rw [rewrites.tasks,Function.update_self],?_⟩
    cases found : s.tasks send.creation.taskId with
    | none =>
      obtain ⟨send',same',made⟩ := rewrites.made found
      cases same'
      obtain ⟨-,rfl,created⟩ := mine
      exact permits_made (made.trans created)
    | some t' =>
      rw [permits_congr (rewrites.kept t' found)]
      cases rewrites.writes with
      | accepted _ _ permitted => exact permitted t' found
      | continued _ goes' => cases goes'.1

end Holding

section Runs
variable {env : RpcEnv}

/-- The did:key of a request whose caller is verified is that of the verifying key. -/
def Keyed (env : RpcEnv) (request : Request) : Prop :=
  ∀ key caller, verified env.toCallerEnv request.headers request.body request.now = .ok (some (key,caller)) →
    caller.didKey ≠ "" ∧ didKeyBytes env.toCallerEnv caller.didKey = some key

def keyed (env : RpcEnv) (_ : Calls) : Turn Request Chance → Prop
  | .start _ request => Keyed env request
  | .advance _ _ => True

structure Fits (env : RpcEnv) (request : Request) (p : Program Outcome) (s : Store) : Prop where
  keyed : Keyed env request
  held : ∃ current, Chained (Act.By (callerOf env request)) current p ∧ ∀ send, current = some send → Held send s

variable {calls calls' : Calls} {request : Request} {act : Act} {resume : Answer → Program Outcome} {s : Store}

theorem Fits.mine (fits : Fits env request (.call act resume) s) : act.By (callerOf env request) := by
  obtain ⟨current,chained,-⟩ := fits.held
  exact chained.1

theorem Fits.others (fits : Fits env request p s) (e : Chance) (act : Act) :
    Fits env request p (exec env.toStoreEnv e act s).2 := by
  obtain ⟨current,chained,held⟩ := fits.held
  exact ⟨fits.keyed,current,chained,fun send own => (held send own).after act⟩

theorem Fits.answered (fits : Fits env request (.call act resume) s) (e : Chance) :
    Fits env request (resume (exec env.toStoreEnv e act s).1) (exec env.toStoreEnv e act s).2 := by
  obtain ⟨current,⟨mine,follows,rest⟩,held⟩ := fits.held
  refine ⟨fits.keyed,_,rest _,?_⟩
  intro send onwards
  have sends := onwards_some onwards
  by_cases goes : act.continues = true
  · exact (held send ((follows goes).trans sends)).after act
  · cases act with
    | accept send' => exact held_accepted mine onwards
    | cancel named caller => cases sends
    | get named => cases sends
    | _ => exact absurd rfl goes

theorem fits_turn (all : calls.AllFit (Fits env)) {move : Turn Request Chance} (allowed : keyed env calls move)
    (stepped : turn env calls move = some calls') : calls'.AllFit (Fits env) := by
  cases move with
  | start id request =>
    obtain rfl := Pool.step_start stepped
    exact all.settle ⟨allowed,none,serve_chained env request,fun _ own => nomatch own⟩
  | advance id e =>
    obtain ⟨request,act,resume,live,rfl⟩ := Pool.step_advance stepped
    apply Pool.AllFit.advanced ((all id _ live).answered e)
    exact fun other task _ live' => (all other task live').others e act

theorem writer_permitted (all : calls.AllFit (Fits env)) {id : Nat} {e : Chance} {p : Program Outcome} {taskId : String}
    (live : calls.live.lookup id = some ⟨request,p⟩) (stepped : turn env calls (.advance id e) = some calls')
    (changed : calls'.store.tasks taskId ≠ calls.store.tasks taskId) {t : Task}
    (found : calls.store.tasks taskId = some t) : callerOf env request ≠ none ∧
      creatorPermits t (callerOf env request) = true := by
  obtain ⟨request',act,resume,live',rfl⟩ := Pool.step_advance stepped
  cases live.symm.trans live'
  have fits := all id _ live
  have mine := fits.mine
  rw [Pool.settle_store] at changed
  obtain ⟨t',rewrites⟩ := exec_row changed
  cases rewrites.writes with
  | accepted send _ permitted =>
    obtain ⟨given,own,-⟩ := mine
    exact ⟨given,by rw [← own]; exact permitted t found⟩
  | canceled caller t'' found' permitted _ =>
    obtain ⟨given,own⟩ := mine
    cases found.symm.trans found'
    exact ⟨given,by rw [← own]; exact permitted⟩
  | continued _ goes =>
    obtain ⟨current,⟨-,follows,-⟩,held⟩ := fits.held
    obtain ⟨goes,send,sends,rfl⟩ := goes
    obtain ⟨t'',found',permitted⟩ := held send ((follows goes).trans sends)
    cases found.symm.trans found'
    have own : callerOf env request ≠ none ∧ send.caller = callerOf env request := by
      cases act <;> cases sends <;> exact ⟨mine.1,mine.2.1⟩
    exact ⟨own.1,by rw [← own.2]; exact permitted⟩

theorem reached_fits {start : Calls} (all : start.AllFit (Fits env)) (run : Reached (turn env) (keyed env) start calls) :
    calls.AllFit (Fits env) := by
  apply run.invariant (P := fun calls => calls.AllFit (Fits env))
  · exact all
  · exact fun s move s' before allowed stepped => fits_turn before allowed stepped

theorem creator_stays {start : Calls} {taskId : String} {t : Task} (found : start.store.tasks taskId = some t)
    (run : Reached (turn env) (keyed env) start calls) :
    ∃ t', calls.store.tasks taskId = some t' ∧ t'.creatorDidKey = t.creatorDidKey := by
  apply run.invariant (P := fun calls : Calls => ∃ t', calls.store.tasks taskId = some t' ∧
    t'.creatorDidKey = t.creatorDidKey)
  · exact ⟨t,found,rfl⟩
  · intro s move s' before _ stepped
    obtain ⟨t',found',same⟩ := before
    cases move with
    | start id request =>
      obtain rfl := Pool.step_start stepped
      exact ⟨t',by rwa [Pool.settle_store],same⟩
    | advance id e =>
      obtain ⟨request,act,resume,-,rfl⟩ := Pool.step_advance stepped
      obtain ⟨t'',found'',same'⟩ := row_creator env.toStoreEnv e act found'
      rw [Pool.settle_store]
      exact ⟨t'',found'',same'.trans same⟩

theorem made_creator (all : calls.AllFit (Fits env)) {id : Nat} {e : Chance} {p : Program Outcome} {taskId : String}
    (live : calls.live.lookup id = some ⟨request,p⟩) (stepped : turn env calls (.advance id e) = some calls')
    (free : calls.store.tasks taskId = none) (made : calls'.store.tasks taskId ≠ none) :
    callerOf env request ≠ none ∧ ∃ t, calls'.store.tasks taskId = some t ∧
      t.creatorDidKey = ((callerOf env request).map CallerIdentity.didKey).filter (· ≠ "") := by
  obtain ⟨request',act,resume,live',rfl⟩ := Pool.step_advance stepped
  cases live.symm.trans live'
  have mine := (all id _ live).mine
  rw [Pool.settle_store] at made ⊢
  obtain ⟨t,rewrites⟩ := exec_row (fun same => made (same.trans free))
  obtain ⟨send,rfl,created⟩ := rewrites.made free
  exact ⟨mine.1,t,(congrFun rewrites.tasks taskId).trans (Function.update_self ..),created.trans mine.2.2⟩

theorem callerOf_some {caller : CallerIdentity} (proved : callerOf env request = some caller) :
    ∃ key, verified env.toCallerEnv request.headers request.body request.now = .ok (some (key,caller)) := by
  unfold callerOf verifyCaller at proved
  cases run : verified env.toCallerEnv request.headers request.body request.now with
  | error e =>
    rw [run] at proved
    cases proved
  | ok found =>
    rw [run] at proved
    cases found with
    | none => cases proved
    | some pair =>
      cases proved
      exact ⟨pair.1,rfl⟩

/-- The request has been verified with this key, whose holder has signed it. -/
def SignedWith (env : RpcEnv) (signed : Bytes → String → Prop) (request : Request) (key : Bytes) : Prop :=
  (∃ caller, verified env.toCallerEnv request.headers request.body request.now = .ok (some (key,caller))) ∧
    signed key (requestText env.toCallerEnv request.headers request.body)

/-- The key that has signed the creation of a task signs every later request that changes
it, in every run whose callers name the did:key of the key that they are verified with. -/
theorem only_creator_writes {signed : Bytes → String → Prop}
    (unforgeable : ∀ key message signature, env.nacl key message signature = .valid → signed key message)
    {store : Store} {before created later written : Calls} {creating writing : Nat} {e e' : Chance}
    {request request' : Request} {p p' : Program Outcome} {taskId : String} {key : Bytes}
    (run : Reached (turn env) (keyed env) ⟨store,∅,[]⟩ before)
    (creator : before.live.lookup creating = some ⟨request,p⟩)
    (creates : turn env before (.advance creating e) = some created)
    (free : before.store.tasks taskId = none) (made : created.store.tasks taskId ≠ none)
    (signs : SignedWith env signed request key) (run' : Reached (turn env) (keyed env) created later)
    (writer : later.live.lookup writing = some ⟨request',p'⟩)
    (writes : turn env later (.advance writing e') = some written)
    (changed : written.store.tasks taskId ≠ later.store.tasks taskId) : SignedWith env signed request' key := by
  have all := reached_fits (Pool.AllFit.opened store) run
  have all' := fits_turn all (show keyed env before (.advance creating e) from trivial) creates
  obtain ⟨given,t,found,own⟩ := made_creator all creator creates free made
  obtain ⟨t',found',same⟩ := creator_stays found run'
  have all'' := reached_fits all' run'
  obtain ⟨given',permitted⟩ := writer_permitted all'' writer writes changed found'
  obtain ⟨c,caller⟩ := Option.ne_none_iff_exists'.mp given
  obtain ⟨c',caller'⟩ := Option.ne_none_iff_exists'.mp given'
  obtain ⟨own',proved⟩ := callerOf_some caller
  obtain ⟨key',proved'⟩ := callerOf_some caller'
  obtain ⟨named,keyOf⟩ := (all creating _ creator).keyed own' c proved
  obtain ⟨-,keyOf'⟩ := (all'' writing _ writer).keyed key' c' proved'
  have did : t'.creatorDidKey = some c.didKey := by
    rw [same,own,caller]
    simp [Option.filter,named]
  have dids : c'.didKey = c.didKey := by
    rw [caller',creatorPermits,did] at permitted
    simpa [Option.filter,named] using permitted
  obtain ⟨⟨c'',proved''⟩,-⟩ := signs
  cases proved.symm.trans proved''
  rw [dids,keyOf] at keyOf'
  obtain rfl := Option.some.inj keyOf'
  obtain ⟨signature,valid⟩ := (verified_ok proved').signed
  exact ⟨⟨c',proved'⟩,unforgeable _ _ _ valid⟩

end Runs

section Samples

def plainRpc : RpcEnv where
  toCodec := { plainCodec with parseInt := fun text => if text = "0" then some 0 else none }
  lower := id
  available := true
  parseFloat _ := 0
  floatRepr _ := ['0']
  modelValidate _ := none
  invalidTask _ _ := .other "ValidationError" ""
  validateRequest
    | .obj [("method",.str method),("params",params)] => .ok ⟨.null,method,params⟩
    | _ => .error (.other "ValidationError" "")
  validateMessage _ := .ok ⟨.user,[.data [("tool",.str "ping")]],"m1",none,none⟩
  cosigner := none

def didNamed (key : Char) : String :=
  String.ofList ("did:key:z".toList ++ [Char.ofNat 0xed,Char.ofNat 1] ++ List.replicate 32 key)

def calling (method : String) (key : Char) (further : List (String × String)) : Request where
  headers := [("x-agent-id","peer"),("x-agent-signature",keyNamed key),("x-agent-timestamp","0")] ++ further
  body := "body"
  content := .obj [("method",.str method),("params",.obj [("id",.str "t1"),("message",.obj [])])]
  now := 0
  streamed := false
  mintedTask := "minted"
  mintedContext := "minted"

def bySelf (method : String) (key : Char) : Request := calling method key [("x-agent-did-key",didNamed key)]

def asOther (method : String) (key other : Char) : Request :=
  calling method key [("x-agent-public-key",keyNamed key),("x-agent-did-key",didNamed other)]

def plainChance : Chance := ⟨"2026","m2","a1",.ok "pong",false⟩

def noCalls : Calls := ⟨⟨fun _ => none,[]⟩,∅,[]⟩

def meeting (second : Request) : Option (Calls × Calls × Calls × Calls) := do
  let asked ← turn plainRpc noCalls (.start 0 (bySelf "tasks/send" 'v'))
  let created ← turn plainRpc asked (.advance 0 plainChance)
  let later ← turn plainRpc created (.start 1 second)
  let written ← turn plainRpc later (.advance 1 plainChance)
  return (asked,created,later,written)

def stateOf (calls : Calls) : Option TaskState := (calls.store.tasks "t1").map fun t => t.status.state

def statesOf (second : Request) : Option (List (Option TaskState)) :=
  (meeting second).map fun run => [stateOf run.1,stateOf run.2.1,stateOf run.2.2.1,stateOf run.2.2.2]

def provedKey (request : Request) : Option Bytes :=
  match verified plainRpc.toCallerEnv request.headers request.body request.now with
  | .ok (some (key,_)) => some key
  | _ => none

theorem statesOf_bySelf : statesOf (bySelf "tasks/cancel" 'v') =
    some [none,some .submitted,some .submitted,some .canceled] := by
  decide +kernel

theorem statesOf_asOther : statesOf (asOther "tasks/cancel" 'a' 'v') =
    some [none,some .submitted,some .submitted,some .canceled] := by
  decide +kernel

def naming (key : Char) : Bytes := List.replicate 32 (UInt8.ofNat key.toNat)

theorem proved_bySelf : provedKey (bySelf "tasks/send" 'v') = some (naming 'v') ∧
    provedKey (bySelf "tasks/cancel" 'v') = some (naming 'v') ∧
    provedKey (asOther "tasks/cancel" 'a' 'v') = some (naming 'a') := by
  decide +kernel

def Signs (key : Bytes) (message : String) : Prop := ∃ signature, plainRpc.nacl key message signature = .valid

theorem signedWith_iff {request : Request} {key own : Bytes} (proved : provedKey request = some own) :
    SignedWith plainRpc Signs request key ↔ key = own := by
  unfold provedKey at proved
  split at proved
  next own' caller run =>
    cases proved
    constructor
    · rintro ⟨⟨caller',run'⟩,-⟩
      cases run.symm.trans run'
      rfl
    · rintro rfl
      exact ⟨⟨caller,run⟩,(verified_ok run).signed⟩
  next => cases proved

structure Meets (second : Request) (asked created later written : Calls) (p p' : Program Outcome) : Prop where
  begins : turn plainRpc noCalls (.start 0 (bySelf "tasks/send" 'v')) = some asked
  creator : asked.live.lookup 0 = some ⟨bySelf "tasks/send" 'v',p⟩
  creates : turn plainRpc asked (.advance 0 plainChance) = some created
  free : asked.store.tasks "t1" = none
  made : created.store.tasks "t1" ≠ none
  begins' : turn plainRpc created (.start 1 second) = some later
  writer : later.live.lookup 1 = some ⟨second,p'⟩
  writes : turn plainRpc later (.advance 1 plainChance) = some written
  changed : written.store.tasks "t1" ≠ later.store.tasks "t1"

theorem meets {second : Request}
    (states : statesOf second = some [none,some .submitted,some .submitted,some .canceled]) :
    ∃ asked created later written p p', Meets second asked created later written p p' := by
  obtain ⟨run,met,states⟩ := Option.map_eq_some_iff.mp states
  simp only [meeting,Option.bind_eq_bind,Option.bind_eq_some_iff] at met
  obtain ⟨asked,begins,created,creates,later,begins',written,writes,met⟩ := met
  obtain rfl := Option.some.inj met
  simp only [List.cons.injEq,and_true,stateOf,Option.map_eq_none_iff] at states
  obtain ⟨free,submitted,submitted',canceled⟩ := states
  obtain ⟨request,act,resume,live,-⟩ := Pool.step_advance creates
  obtain ⟨request',act',resume',live',-⟩ := Pool.step_advance writes
  obtain rfl := Pool.started_op begins live
  obtain rfl := Pool.started_op begins' live'
  refine ⟨asked,created,later,written,_,_,begins,live,creates,free,?_,begins',live',writes,?_⟩
  · intro none
    rw [none] at submitted
    cases submitted
  · intro same
    rw [same] at canceled
    cases submitted'.symm.trans canceled

def keyedCheck (request : Request) : Bool :=
  match verified plainRpc.toCallerEnv request.headers request.body request.now with
  | .ok (some (key,caller)) => caller.didKey ≠ "" && didKeyBytes plainRpc.toCallerEnv caller.didKey = some key
  | _ => true

theorem keyed_of_check {request : Request} (checked : keyedCheck request = true) : Keyed plainRpc request := by
  intro key caller run
  rw [keyedCheck,run] at checked
  simpa using checked

theorem keyed_bySelf : Keyed plainRpc (bySelf "tasks/send" 'v') ∧ Keyed plainRpc (bySelf "tasks/cancel" 'v') :=
  ⟨keyed_of_check (by decide +kernel),keyed_of_check (by decide +kernel)⟩

theorem self_canceled : SignedWith plainRpc Signs (bySelf "tasks/cancel" 'v') (naming 'v') := by
  obtain ⟨asked,created,later,written,p,p',met⟩ := meets statesOf_bySelf
  have first : keyed plainRpc noCalls (.start 0 (bySelf "tasks/send" 'v')) := keyed_bySelf.1
  have second : keyed plainRpc created (.start 1 (bySelf "tasks/cancel" 'v')) := keyed_bySelf.2
  have begun := Reached.step .start first met.begins
  have further := Reached.step .start second met.begins'
  exact only_creator_writes (fun _ _ signature valid => ⟨signature,valid⟩) begun met.creator met.creates met.free met.made
    ((signedWith_iff proved_bySelf.1).mpr rfl) further met.writer met.writes met.changed

/-- A peer cancels the task of another whose did:key it names beside its own key. -/
theorem other_canceled : ∃ asked created later written p p',
    Meets (asOther "tasks/cancel" 'a' 'v') asked created later written p p' ∧
      SignedWith plainRpc Signs (bySelf "tasks/send" 'v') (naming 'v') ∧
      ¬ SignedWith plainRpc Signs (asOther "tasks/cancel" 'a' 'v') (naming 'v') := by
  obtain ⟨asked,created,later,written,p,p',met⟩ := meets statesOf_asOther
  refine ⟨asked,created,later,written,p,p',met,(signedWith_iff proved_bySelf.1).mpr rfl,?_⟩
  rw [signedWith_iff proved_bySelf.2.2]
  decide

end Samples

end Orrery.Tasks
