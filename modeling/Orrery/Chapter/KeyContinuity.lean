import Orrery.Foundation.Runs
import Orrery.Chapter.MemberKeys

/-! Continuity of a member's key: what a step of the chapter can make of the key that is
held for a member, and what the steps of a run have to keep for it. -/
namespace Orrery.Chapter
open Foundation Json Runs

section System
variable (env : ContinuityEnv)

def KeyTask.carries : KeyTask → Option (String × String)
  | .pin agentId key _ _ | .pinning agentId key _ _ _ _ | .patching agentId key _ _ _ _ _ _ =>
    (tryBuildDidKeyFromEd25519 env.toCodec key).map fun did => (agentId,did)
  | .posting agentId member _ _ _ =>
    if looksLikeEd25519 member.publicKey then
      (tryBuildDidKeyFromEd25519 env.toCodec member.publicKey).map fun did => (agentId,did)
    else none
  | _ => none

/-- No background write that carries a key of the agent is on its way. -/
def MemberKeys.Quiet (s : MemberKeys) (agentId : String) : Prop :=
  ∀ task ∈ s.tasks, ∀ did, task.carries env ≠ some (agentId,did)

structure FirstKey (s : MemberKeys) (agentId key : String) : Prop where
  held : looksLikeEd25519 key = true → edKey s.authKeys agentId = key ∨ edKey s.authKeys agentId = "" ∨
    s.members agentId = none ∧ s.Quiet env agentId
  shaped : (tryBuildDidKeyFromEd25519 env.toCodec key).isSome → looksLikeEd25519 key = true

def Unkeyed (existing : Option Member) : Prop := (existing.map Member.publicKey).getD "" = ""

/-- A join that waited for its invite ends while the id is no member's, and a rotation that
waited for its record while the store holds the key that it found. -/
structure KeyTask.Settled (s : MemberKeys) (answer : DbAnswer) (task : KeyTask) : Prop where
  join : ∀ reg, task = .joining reg → answer = .answered → s.members (sanitizeAgentId reg.agentId) = none ∧
    (reg.publicKey ≠ "" → FirstKey env s (sanitizeAgentId reg.agentId) reg.publicKey)
  rotation : ∀ call found, task = .recording call found → edKey s.authKeys call.agent = newKeyOf call.attestation ∨
    edKey s.authKeys call.agent = found ∧ s.Quiet env call.agent

def Settled (s : MemberKeys) : MemberMove → Prop
  | .register reg gate =>
    let existing := s.members (sanitizeAgentId reg.agentId)
    awaitsInvite existing gate = false → (∃ member, registerMember existing gate reg = .ok member) →
      Unkeyed existing → reg.publicKey ≠ "" → FirstKey env s (sanitizeAgentId reg.agentId) reg.publicKey
  | .resume i answer _ => ∀ task, s.tasks[i]? = some task → task.Settled env s answer
  | _ => True

structure KeyContinues (s s' : MemberKeys) (agentId : String) : Prop where
  member : (s'.members agentId).isSome
  held : edKey s'.authKeys agentId = edKey s.authKeys agentId ∨
    ∃ call found, .recording call found ∈ s.tasks ∧ call.agent = agentId ∧
      (verifyAttestation env.toCodec env.chapterId call.now call.attestation (edKey s.authKeys agentId) 300).1 = true ∧
      edKey s'.authKeys agentId = newKeyOf call.attestation
  durable : durableDid (s'.agents agentId) = durableDid (s.agents agentId) ∨
    ∃ did, tryBuildDidKeyFromEd25519 env.toCodec (edKey s.authKeys agentId) = some did ∧
      durableDid (s'.agents agentId) = some (.str did)

/-- A key of a record that is an Ed25519 key, or looks like one, is the key of the store. -/
def RecordsHeld (s : MemberKeys) : Prop :=
  ∀ agentId member, s.members agentId = some member → member.publicKey ≠ "" →
    looksLikeEd25519 member.publicKey = true ∨ (tryBuildDidKeyFromEd25519 env.toCodec member.publicKey).isSome →
    edKey s.authKeys agentId = member.publicKey

structure KeyTask.Due (s : MemberKeys) (task : KeyTask) : Prop where
  carried : ∀ agentId did, task.carries env = some (agentId,did) →
    tryBuildDidKeyFromEd25519 env.toCodec (edKey s.authKeys agentId) = some did
  verified : ∀ call found, task = .rotating call found ∨ task = .recording call found →
    (s.members call.agent).isSome ∧
      (verifyAttestation env.toCodec env.chapterId call.now call.attestation found 300).1 = true

structure MemberKeys.Sound (s : MemberKeys) : Prop where
  records : RecordsHeld env s
  due : ∀ task ∈ s.tasks, task.Due env s

variable {env} {s : MemberKeys}

theorem tryBuild_empty : tryBuildDidKeyFromEd25519 env.toCodec "" = none := by
  rw [tryBuildDidKeyFromEd25519,env.b64decode_empty]
  rfl

theorem MemberKeys.Sound.quiet {agentId : String} (sound : s.Sound env) (unheld : edKey s.authKeys agentId = "") :
    s.Quiet env agentId := by
  intro task inside did carries
  have built := (sound.due task inside).carried agentId did carries
  rw [unheld,tryBuild_empty] at built
  cases built

theorem MemberKeys.Sound.start {task : KeyTask} (sound : s.Sound env) (due : task.Due env s) :
    (s.start task).Sound env := by
  refine ⟨sound.records,?_⟩
  intro other inside
  obtain before | now := List.mem_append.mp inside
  · exact ⟨(sound.due other before).carried,(sound.due other before).verified⟩
  · rw [List.mem_singleton.mp now]
    exact ⟨due.carried,due.verified⟩

theorem KeyTask.Due.idle {task : KeyTask} (free : task.carries env = none)
    (other : ∀ call found, task ≠ .rotating call found ∧ task ≠ .recording call found) : task.Due env s := by
  refine ⟨?_,?_⟩
  · intro agentId did carries
    rw [free] at carries
    cases carries
  · rintro call found (same | same)
    · exact absurd same (other call found).1
    · exact absurd same (other call found).2

theorem MemberKeys.Sound.rekey {agentId : String} {members : String → Option Member} {authKeys : AuthKeys}
    (sound : s.Sound env) (others : ∀ other ≠ agentId, members other = s.members other ∧
      edKey authKeys other = edKey s.authKeys other)
    (own : edKey authKeys agentId = edKey s.authKeys agentId ∨ s.Quiet env agentId)
    (kept : (s.members agentId).isSome → (members agentId).isSome)
    (record : ∀ member, members agentId = some member → member.publicKey ≠ "" →
      looksLikeEd25519 member.publicKey = true ∨ (tryBuildDidKeyFromEd25519 env.toCodec member.publicKey).isSome →
      edKey authKeys agentId = member.publicKey) :
    MemberKeys.Sound env { s with members := members, authKeys := authKeys } := by
  refine ⟨?_,?_⟩
  · intro other member found
    by_cases same : other = agentId
    · subst same
      exact record member found
    · obtain ⟨members_same,keys_same⟩ := others other same
      dsimp only at found ⊢
      rw [members_same] at found
      rw [keys_same]
      exact sound.records other member found
  · intro task inside
    obtain ⟨carried,verified⟩ := sound.due task inside
    refine ⟨?_,?_⟩
    · intro other did carries
      by_cases same : other = agentId
      · subst same
        obtain unchanged | quiet := own
        · dsimp only
          rw [unchanged]
          exact carried other did carries
        · exact absurd carries (quiet task inside did)
      · dsimp only
        rw [(others other same).2]
        exact carried other did carries
    · intro call found which
      obtain ⟨member,valid⟩ := verified call found which
      refine ⟨?_,valid⟩
      by_cases same : call.agent = agentId
      · dsimp only
        rw [same] at member ⊢
        exact kept member
      · dsimp only
        rw [(others _ same).1]
        exact member

theorem Untouched.continuous {s s' : MemberKeys} (same : Untouched s s') {agentId : String}
    (known : (s.members agentId).isSome) : KeyContinues env s s' agentId := by
  obtain ⟨members,authKeys,agents⟩ := same
  exact ⟨by rw [members]; exact known,.inl (by rw [authKeys]),.inl (by rw [agents])⟩

section Registering
variable {reg : MemberRegistration} {gate : JoinGate} {member : Member}

theorem registerKey_held (sound : s.Sound env)
    (accepted : registrationRefusal (s.members (sanitizeAgentId reg.agentId)) reg = none)
    (keyed : ¬ Unkeyed (s.members (sanitizeAgentId reg.agentId))) :
    edKey (registerKey s.authKeys (sanitizeAgentId reg.agentId) reg.publicKey) (sanitizeAgentId reg.agentId) =
      edKey s.authKeys (sanitizeAgentId reg.agentId) := by
  rw [edKey_registerKey]
  split
  next given =>
    cases found : s.members (sanitizeAgentId reg.agentId) with
    | none =>
      rw [found] at keyed
      exact absurd rfl keyed
    | some existing =>
      rw [found] at accepted keyed
      have same := registrationRefusal_key accepted keyed given.1
      rw [same] at given ⊢
      exact (sound.records _ existing found given.1 (.inl given.2)).symm
  next => rfl

theorem registerKey_own (sound : s.Sound env)
    (accepted : registrationRefusal (s.members (sanitizeAgentId reg.agentId)) reg = none)
    (first : Unkeyed (s.members (sanitizeAgentId reg.agentId)) → reg.publicKey ≠ "" →
      FirstKey env s (sanitizeAgentId reg.agentId) reg.publicKey) :
    edKey (registerKey s.authKeys (sanitizeAgentId reg.agentId) reg.publicKey) (sanitizeAgentId reg.agentId) =
      edKey s.authKeys (sanitizeAgentId reg.agentId) ∨
    (s.members (sanitizeAgentId reg.agentId) = none ∨ edKey s.authKeys (sanitizeAgentId reg.agentId) = "") ∧
      s.Quiet env (sanitizeAgentId reg.agentId) := by
  by_cases unkeyed : Unkeyed (s.members (sanitizeAgentId reg.agentId))
  · rw [edKey_registerKey]
    split
    next given =>
      obtain held | unheld | ⟨nobody,quiet⟩ := (first unkeyed given.1).held given.2
      · exact .inl held.symm
      · exact .inr ⟨.inr unheld,sound.quiet unheld⟩
      · exact .inr ⟨.inl nobody,quiet⟩
    next => exact .inl rfl
  · exact .inl (registerKey_held sound accepted unkeyed)

theorem registerKey_record (sound : s.Sound env)
    (accepted : registrationRefusal (s.members (sanitizeAgentId reg.agentId)) reg = none)
    (first : Unkeyed (s.members (sanitizeAgentId reg.agentId)) → reg.publicKey ≠ "" →
      FirstKey env s (sanitizeAgentId reg.agentId) reg.publicKey)
    (keyed : (memberRecord (s.members (sanitizeAgentId reg.agentId)) reg).publicKey ≠ "")
    (isKey : looksLikeEd25519 (memberRecord (s.members (sanitizeAgentId reg.agentId)) reg).publicKey = true ∨
      (tryBuildDidKeyFromEd25519 env.toCodec
        (memberRecord (s.members (sanitizeAgentId reg.agentId)) reg).publicKey).isSome) :
    edKey (registerKey s.authKeys (sanitizeAgentId reg.agentId) reg.publicKey) (sanitizeAgentId reg.agentId) =
      (memberRecord (s.members (sanitizeAgentId reg.agentId)) reg).publicKey := by
  by_cases given : reg.publicKey = ""
  · -- the record keeps its key, and so does the store
    have kept : (memberRecord (s.members (sanitizeAgentId reg.agentId)) reg).publicKey =
        ((s.members (sanitizeAgentId reg.agentId)).map Member.publicKey).getD "" := by
      simp [memberRecord,orText,given]
    rw [kept] at keyed isKey ⊢
    rw [edKey_registerKey,if_neg (by simp [given])]
    cases found : s.members (sanitizeAgentId reg.agentId) with
    | none =>
      rw [found] at keyed
      exact absurd rfl keyed
    | some existing =>
      rw [found] at keyed isKey
      exact sound.records _ existing found keyed isKey
  · have written : (memberRecord (s.members (sanitizeAgentId reg.agentId)) reg).publicKey = reg.publicKey := by
      simp [memberRecord,orText,given]
    rw [written] at isKey ⊢
    by_cases unkeyed : Unkeyed (s.members (sanitizeAgentId reg.agentId))
    · have shaped : looksLikeEd25519 reg.publicKey = true := by
        obtain shaped | built := isKey
        · exact shaped
        · exact (first unkeyed given).shaped built
      rw [edKey_registerKey,if_pos ⟨given,shaped⟩]
    · rw [registerKey_held sound accepted unkeyed]
      cases found : s.members (sanitizeAgentId reg.agentId) with
      | none =>
        rw [found] at unkeyed
        exact absurd rfl unkeyed
      | some existing =>
        rw [found] at accepted unkeyed
        have same := registrationRefusal_key accepted unkeyed given
        rw [same] at isKey ⊢
        exact sound.records _ existing found unkeyed isKey

theorem MemberKeys.Sound.registered (sound : s.Sound env)
    (accepted : registerMember (s.members (sanitizeAgentId reg.agentId)) gate reg = .ok member)
    (first : Unkeyed (s.members (sanitizeAgentId reg.agentId)) → reg.publicKey ≠ "" →
      FirstKey env s (sanitizeAgentId reg.agentId) reg.publicKey) :
    (s.registered (s.members (sanitizeAgentId reg.agentId)) reg member).Sound env := by
  obtain ⟨allowed,rfl⟩ := registerMember_ok accepted
  have base : MemberKeys.Sound env { s with
      members := Function.update s.members (sanitizeAgentId reg.agentId)
        (some (memberRecord (s.members (sanitizeAgentId reg.agentId)) reg))
      authKeys := registerKey s.authKeys (sanitizeAgentId reg.agentId) reg.publicKey } := by
    apply sound.rekey
    · intro other apart
      exact ⟨Function.update_of_ne apart ..,edKey_registerKey_other apart⟩
    · exact (registerKey_own sound allowed first).imp_right And.right
    · intro _
      rw [Function.update_self]
      rfl
    · intro member found keyed isKey
      rw [Function.update_self] at found
      obtain rfl := Option.some.inj found
      exact registerKey_record sound allowed first keyed isKey
  unfold MemberKeys.registered
  dsimp only
  split
  next pins =>
    apply base.start
    refine ⟨?_,?_⟩
    · intro agentId did carries
      obtain ⟨other,built,same⟩ := Option.map_eq_some_iff.mp carries
      obtain ⟨rfl,rfl⟩ := Prod.mk.inj same
      have shaped := (first pins.2.1 pins.2.2).shaped (by rw [built]; rfl)
      dsimp only
      rw [edKey_registerKey,if_pos ⟨pins.2.2,shaped⟩,built]
    · rintro call found (same | same) <;> cases same
  next =>
    apply base.start
    apply KeyTask.Due.idle rfl
    intro call found
    exact ⟨KeyTask.noConfusion,KeyTask.noConfusion⟩

theorem registered_continuous (sound : s.Sound env)
    (accepted : registerMember (s.members (sanitizeAgentId reg.agentId)) gate reg = .ok member)
    (first : Unkeyed (s.members (sanitizeAgentId reg.agentId)) → reg.publicKey ≠ "" →
      FirstKey env s (sanitizeAgentId reg.agentId) reg.publicKey)
    {agentId : String} (known : (s.members agentId).isSome) (held : edKey s.authKeys agentId ≠ "") :
    KeyContinues env s (s.registered (s.members (sanitizeAgentId reg.agentId)) reg member) agentId := by
  obtain ⟨allowed,rfl⟩ := registerMember_ok accepted
  obtain ⟨members,authKeys,agents⟩ := registered_fields s (s.members (sanitizeAgentId reg.agentId)) reg
    (memberRecord (s.members (sanitizeAgentId reg.agentId)) reg)
  refine ⟨?_,.inl ?_,.inl (by rw [agents])⟩
  · rw [members]
    by_cases same : agentId = sanitizeAgentId reg.agentId
    · rw [same,Function.update_self]
      rfl
    · rw [Function.update_of_ne same]
      exact known
  · rw [authKeys]
    by_cases same : agentId = sanitizeAgentId reg.agentId
    · rw [same] at known held ⊢
      obtain kept | ⟨nobody | unheld,_⟩ := registerKey_own sound allowed first
      · exact kept
      · rw [nobody] at known
        cases known
      · exact absurd unheld held
    · exact edKey_registerKey_other same

end Registering

section Requesting
variable {r : SignedRequest} {now : Int} {fresh authPath : Bool}

theorem requestKeys_held {agentId : String} (held : edKey s.authKeys agentId ≠ "") :
    edKey (s.requestKeys env r now fresh) agentId = edKey s.authKeys agentId := by
  unfold MemberKeys.requestKeys
  obtain same | ⟨unheld,pubkey,_,stored⟩ := verifyRequest_keys
  · rw [same]
  · rw [stored]
    apply edKey_store_other
    rintro rfl
    exact held unheld

theorem MemberKeys.Sound.request (sound : s.Sound env) : (s.request env r now fresh authPath).Sound env := by
  have base : MemberKeys.Sound env { s with authKeys := s.requestKeys env r now fresh } := by
    unfold MemberKeys.requestKeys
    obtain same | ⟨unheld,pubkey,some_key,stored⟩ := verifyRequest_keys
    · rw [same]
      exact sound
    · rw [stored]
      apply sound.rekey
      · intro other apart
        exact ⟨rfl,edKey_store_other apart _ _ _⟩
      · exact .inr (sound.quiet unheld)
      · exact id
      · intro member found keyed isKey
        have own := sound.records _ member found keyed isKey
        rw [unheld] at own
        exact absurd own.symm keyed
  obtain same | same := request_cases
  · rw [same]
    exact base
  · rw [same]
    apply base.start
    apply KeyTask.Due.idle rfl
    intro call found
    exact ⟨KeyTask.noConfusion,KeyTask.noConfusion⟩

theorem request_continuous {agentId : String} (known : (s.members agentId).isSome)
    (held : edKey s.authKeys agentId ≠ "") : KeyContinues env s (s.request env r now fresh authPath) agentId := by
  obtain same | same := request_cases
  · rw [same]
    exact ⟨known,.inl (requestKeys_held held),.inl rfl⟩
  · rw [same]
    exact ⟨known,.inl (requestKeys_held held),.inl rfl⟩

end Requesting

section Rotating

theorem verified_tryBuild {attestation : Dict} {now : Seconds} {key : String}
    (valid : (verifyAttestation env.toCodec env.chapterId now attestation key 300).1 = true) :
    (tryBuildDidKeyFromEd25519 env.toCodec key).isSome := by
  obtain ⟨ts,verified,_⟩ := (verifyAttestation_true now 300).mp valid
  obtain ⟨oldPub,decoded,rest⟩ := bind_success _ _ _ verified.signed
  obtain ⟨_,constructed,_⟩ := bind_success _ _ _ rest
  have length := env.verifyKey_length oldPub constructed
  rw [tryBuildDidKeyFromEd25519,decoded]
  dsimp only
  rw [if_pos length]
  rfl

theorem MemberKeys.Sound.rotate (sound : s.Sound env) (attestation : Dict) (now : Seconds) (read write : DbAnswer) :
    (s.rotate env attestation now read write).Sound env := by
  unfold MemberKeys.rotate
  split
  next agentId named =>
    dsimp only
    split
    next existing found =>
      split
      · exact sound
      split
      next valid =>
        apply sound.start
        have free : ∀ call found, (KeyTask.rotating call found).carries env = none := fun _ _ => rfl
        refine ⟨fun agentId did carries => absurd carries (by rw [free]; simp),?_⟩
        have same : orText existing.publicKey (edKey s.authKeys (sanitizeAgentId agentId)) =
            edKey s.authKeys (sanitizeAgentId agentId) := by
          by_cases keyed : existing.publicKey = ""
          · rw [orText,if_pos keyed]
          · rw [orText,if_neg keyed] at valid ⊢
            exact (sound.records _ existing found keyed (.inr (verified_tryBuild valid))).symm
        rw [same] at valid
        rintro call found' (which | which)
        · cases which
          refine ⟨?_,valid⟩
          dsimp only
          rw [found]
          rfl
        · cases which
      · exact sound
    · exact sound
  · exact sound

theorem MemberKeys.Sound.rotated {call : RotationCall} {found : String} (sound : s.Sound env)
    (settled : edKey s.authKeys call.agent = newKeyOf call.attestation ∨
      edKey s.authKeys call.agent = found ∧ s.Quiet env call.agent) : (s.rotated env call).Sound env := by
  have base : MemberKeys.Sound env { s with
      members := Function.update s.members call.agent ((s.members call.agent).map fun member =>
        { member with publicKey := newKeyOf call.attestation })
      authKeys := replaceAgentKey s.authKeys call.agent (newKeyOf call.attestation) } := by
    apply sound.rekey
    · intro other apart
      exact ⟨Function.update_of_ne apart ..,edKey_replace_other apart _⟩
    · rw [edKey_replace]
      exact settled.imp Eq.symm And.right
    · rw [Function.update_self,Option.isSome_map]
      exact id
    · intro member written _ _
      rw [Function.update_self] at written
      obtain ⟨before,_,rfl⟩ := Option.map_eq_some_iff.mp written
      exact edKey_replace _
  exact ⟨base.records,fun task inside => ⟨(base.due task inside).carried,(base.due task inside).verified⟩⟩

theorem rotated_continuous {call : RotationCall} {found agentId : String} {before : MemberKeys}
    (same : Untouched before s) (recording : .recording call found ∈ before.tasks)
    (due : (KeyTask.recording call found).Due env s)
    (settled : edKey s.authKeys call.agent = newKeyOf call.attestation ∨
      edKey s.authKeys call.agent = found ∧ s.Quiet env call.agent)
    (known : (s.members agentId).isSome) : KeyContinues env before (s.rotated env call) agentId := by
  obtain ⟨_,authKeys,agents⟩ := same
  refine ⟨?_,?_,.inl ?_⟩
  · change (Function.update s.members _ _ agentId).isSome
    by_cases own : agentId = call.agent
    · rw [own,Function.update_self,Option.isSome_map,← own]
      exact known
    · rw [Function.update_of_ne own]
      exact known
  · change edKey (replaceAgentKey s.authKeys _ _) agentId = _ ∨ ∃ _ _, _ ∧ _ ∧ _ ∧
      edKey (replaceAgentKey s.authKeys _ _) agentId = _
    by_cases own : agentId = call.agent
    · subst own
      rw [edKey_replace,← authKeys]
      obtain already | ⟨unchanged,_⟩ := settled
      · exact .inl already.symm
      · refine .inr ⟨call,found,recording,rfl,?_,rfl⟩
        rw [unchanged]
        exact (due.verified call found (.inr rfl)).2
    · left
      rw [edKey_replace_other own,authKeys]
  · change durableDid (s.agents agentId) = _
    rw [agents]

end Rotating

section Resuming
variable {answer : DbAnswer} {moment : String} {task : KeyTask}

theorem Quiet.dropped {agentId : String} (quiet : s.Quiet env agentId) (i : Nat) : (s.dropped i).Quiet env agentId :=
  fun task inside => quiet task (List.mem_of_mem_eraseIdx inside)

theorem MemberKeys.Sound.dropped (sound : s.Sound env) (i : Nat) : (s.dropped i).Sound env := by
  refine ⟨sound.records,?_⟩
  intro task inside
  obtain ⟨carried,verified⟩ := sound.due task (List.mem_of_mem_eraseIdx inside)
  exact ⟨carried,verified⟩

theorem FirstKey.dropped {agentId key : String} (first : FirstKey env s agentId key) (i : Nat) :
    FirstKey env (s.dropped i) agentId key := by
  refine ⟨?_,first.shaped⟩
  intro shaped
  obtain held | unheld | ⟨nobody,quiet⟩ := first.held shaped
  · exact .inl held
  · exact .inr (.inl unheld)
  · exact .inr (.inr ⟨nobody,Quiet.dropped quiet i⟩)

theorem KeyTask.Settled.dropped (settled : task.Settled env s answer) (i : Nat) :
    task.Settled env (s.dropped i) answer := by
  refine ⟨?_,?_⟩
  · intro reg same consumed
    obtain ⟨nobody,first⟩ := settled.join reg same consumed
    exact ⟨nobody,fun given => (first given).dropped i⟩
  · intro call found same
    obtain already | ⟨unchanged,quiet⟩ := settled.rotation call found same
    · exact .inl already
    · exact .inr ⟨unchanged,Quiet.dropped quiet i⟩

theorem MemberKeys.Sound.pinEnded (sound : s.Sound env) (agentId : String) (persists : Bool) :
    (s.pinEnded agentId persists).Sound env := by
  unfold MemberKeys.pinEnded
  split
  · apply sound.start
    apply KeyTask.Due.idle rfl
    intro call found
    exact ⟨KeyTask.noConfusion,KeyTask.noConfusion⟩
  · exact sound

theorem joined_answered {reg : MemberRegistration} {member : Member}
    (accepted : registerMember none ⟨.invite,false,decide (answer = .answered),.null⟩ reg = .ok member) :
    answer = .answered := by
  unfold registerMember joinRefusal at accepted
  split at accepted
  · cases accepted
  · simp only [Bool.false_eq_true,if_false] at accepted
    split at accepted
    · cases accepted
    next free =>
      split at free
      next consumed => simpa using consumed
      next => cases free

theorem KeyTask.Due.pass {other : KeyTask} (due : task.Due env s) (same : other.carries env = task.carries env)
    (plain : ∀ call found, other ≠ .rotating call found ∧ other ≠ .recording call found) : other.Due env s := by
  refine ⟨?_,?_⟩
  · intro agentId did carries
    rw [same] at carries
    exact due.carried agentId did carries
  · rintro call found (which | which)
    · exact absurd which (plain call found).1
    · exact absurd which (plain call found).2

theorem MemberKeys.Sound.persistsNext {agentId : String} {keySource : Option String} (sound : s.Sound env)
    {member : Member} (found : s.members agentId = some member) :
    (s.start (.posting agentId member keySource moment 0)).Sound env := by
  apply sound.start
  refine ⟨?_,?_⟩
  · intro other did carries
    dsimp only [KeyTask.carries] at carries
    split at carries
    next shaped =>
      obtain ⟨built,made,same⟩ := Option.map_eq_some_iff.mp carries
      obtain ⟨rfl,rfl⟩ := Prod.mk.inj same
      have keyed : member.publicKey ≠ "" := by
        intro empty
        rw [empty,tryBuild_empty] at made
        cases made
      rw [sound.records agentId member found keyed (.inl shaped),made]
    next => cases carries
  · rintro call found (same | same) <;> cases same

theorem MemberKeys.Sound.pinRead {agentId key source : String} {persists : Bool} (sound : s.Sound env)
    (due : (KeyTask.pin agentId key source persists).Due env s) :
    (s.pinRead env agentId key source persists answer).Sound env := by
  unfold MemberKeys.pinRead
  split
  · exact sound.pinEnded agentId persists
  split
  · exact sound
  split
  · exact sound.pinEnded agentId persists
  split
  · exact sound
  split
  · exact sound.pinEnded agentId persists
  · apply sound.start
    exact due.pass rfl fun _ _ => ⟨KeyTask.noConfusion,KeyTask.noConfusion⟩

theorem MemberKeys.Sound.agents (sound : s.Sound env) (agents : String → Option TableRow) :
    MemberKeys.Sound env { s with agents := agents } :=
  ⟨sound.records,fun task inside => ⟨(sound.due task inside).carried,(sound.due task inside).verified⟩⟩

theorem MemberKeys.Sound.goOn (sound : s.Sound env) (due : task.Due env s) (settled : task.Settled env s answer) :
    (s.goOn env answer moment task).Sound env := by
  cases task with
  | joining reg =>
    dsimp only [MemberKeys.goOn]
    split
    next member accepted =>
      obtain ⟨nobody,first⟩ := settled.join reg rfl (joined_answered accepted)
      rw [← nobody] at accepted ⊢
      exact sound.registered accepted fun _ => first
    next => exact sound
  | established agentId =>
    dsimp only [MemberKeys.goOn]
    split
    · exact sound
    · apply sound.start
      refine ⟨?_,?_⟩
      · intro other did carries
        obtain ⟨built,made,same⟩ := Option.map_eq_some_iff.mp carries
        obtain ⟨rfl,rfl⟩ := Prod.mk.inj same
        exact made
      · rintro call found (same | same) <;> cases same
  | pin agentId key source persists => exact sound.pinRead due
  | pinning agentId key source persists facts provider =>
    dsimp only [MemberKeys.goOn]
    split
    · split
      · apply sound.start
        exact due.pass rfl fun _ _ => ⟨KeyTask.noConfusion,KeyTask.noConfusion⟩
      · exact sound
    · exact sound.pinEnded agentId persists
  | patching agentId key source made persists facts provider revoked =>
    dsimp only [MemberKeys.goOn]
    split
    · exact (sound.agents _).pinEnded agentId persists
    · exact sound
    · exact sound.pinEnded agentId persists
  | persist agentId keySource =>
    dsimp only [MemberKeys.goOn]
    split
    next member found => exact sound.persistsNext found
    · exact sound
  | posting agentId member keySource made attempts =>
    dsimp only [MemberKeys.goOn]
    split
    · exact sound.agents _
    · split
      · apply sound.start
        exact due.pass rfl fun _ _ => ⟨KeyTask.noConfusion,KeyTask.noConfusion⟩
      · exact sound
    · exact sound
  | rotating call found =>
    dsimp only [MemberKeys.goOn]
    split
    · exact sound
    · apply sound.start
      refine ⟨fun agentId did carries => absurd carries (Option.some_ne_none (agentId,did)).symm,?_⟩
      rintro other held (same | same)
      · cases same
      · cases same
        exact due.verified call found (.inl rfl)
  | recording call found =>
    dsimp only [MemberKeys.goOn]
    split
    · exact sound
    · exact sound.rotated (settled.rotation call found rfl)

section Step
variable {before : MemberKeys} {agentId : String}

theorem KeyContinues.after (same : Untouched before s) (inside : ∀ task ∈ s.tasks, task ∈ before.tasks)
    {s' : MemberKeys}
    (next : KeyContinues env s s' agentId) : KeyContinues env before s' agentId := by
  obtain ⟨_,authKeys,agents⟩ := same
  obtain ⟨member,held,durable⟩ := next
  rw [authKeys] at held durable
  rw [agents] at durable
  refine ⟨member,held.imp_right ?_,durable⟩
  rintro ⟨call,found,recording,rest⟩
  exact ⟨call,found,inside _ recording,rest⟩

theorem KeyContinues.untouched {s' s'' : MemberKeys} (next : KeyContinues env s s' agentId) (same : Untouched s' s'') :
    KeyContinues env s s'' agentId := by
  obtain ⟨members,authKeys,agents⟩ := same
  obtain ⟨member,held,durable⟩ := next
  rw [← members] at member
  rw [← authKeys] at held
  rw [← agents] at durable
  exact ⟨member,held,durable⟩

theorem patched_continuous {target key source moment did : String} {persists : Bool} {facts provider : Dict}
    {revoked : Bool}
    (due : (KeyTask.patching target key source moment persists facts provider revoked).Due env s)
    (built : tryBuildDidKeyFromEd25519 env.toCodec key = some did) (known : (s.members agentId).isSome) :
    KeyContinues env s (s.patched target (pinnedFacts facts provider did source moment revoked)) agentId := by
  obtain same | ⟨rfl,landed⟩ := durableDid_patched target facts provider did source moment revoked agentId
  · exact ⟨known,.inl rfl,.inl same⟩
  · refine ⟨known,.inl rfl,.inr ⟨did,?_,landed⟩⟩
    apply due.carried agentId did
    change (tryBuildDidKeyFromEd25519 env.toCodec key).map _ = _
    rw [built]
    rfl

theorem persisted_continuous {target : String} {member : Member} {keySource : Option String} {moment : String}
    {attempts : Nat} (due : (KeyTask.posting target member keySource moment attempts).Due env s)
    (known : (s.members agentId).isSome) :
      KeyContinues env s (s.persisted env target member keySource moment) agentId := by
  obtain same | ⟨rfl,shaped,did,built,landed⟩ := durableDid_persisted target member keySource moment agentId
  · exact ⟨known,.inl rfl,.inl same⟩
  · refine ⟨known,.inl rfl,.inr ⟨did,?_,landed⟩⟩
    apply due.carried agentId did
    change (if looksLikeEd25519 member.publicKey then
      (tryBuildDidKeyFromEd25519 env.toCodec member.publicKey).map _ else none) = _
    rw [if_pos shaped,built]
    rfl

/-- A coroutine that goes on changes no key that is held, unless it is a rotation that ends. -/
theorem goOn_continuous (sound : s.Sound env) (due : task.Due env s) (settled : task.Settled env s answer)
    (same : Untouched before s) (earlier : ∀ other ∈ s.tasks, other ∈ before.tasks) (inside : task ∈ before.tasks)
    (known : (s.members agentId).isSome) (held : edKey s.authKeys agentId ≠ "") :
    KeyContinues env before (s.goOn env answer moment task) agentId := by
  have kept : ∀ {s' : MemberKeys}, Untouched s s' → KeyContinues env before s' agentId :=
    fun further => (further.continuous known).after same earlier
  cases task with
  | joining reg =>
    dsimp only [MemberKeys.goOn]
    split
    next member accepted =>
      obtain ⟨nobody,first⟩ := settled.join reg rfl (joined_answered accepted)
      rw [← nobody] at accepted ⊢
      exact (registered_continuous sound accepted (fun _ => first) known held).after same earlier
    next => exact kept (.refl s)
  | established agentId =>
    dsimp only [MemberKeys.goOn]
    split
    · exact kept (.refl s)
    · exact kept (.start s _)
  | pin agentId key source persists => exact kept (.pinRead env s agentId key source persists answer)
  | pinning agentId key source persists facts provider =>
    dsimp only [MemberKeys.goOn]
    split
    · split
      · exact kept (.start s _)
      · exact kept (.refl s)
    · exact kept (.pinEnded s agentId persists)
  | patching target key source made persists facts provider revoked =>
    dsimp only [MemberKeys.goOn]
    split
    next did built =>
      have landed := (patched_continuous due built known).after same earlier
      have ended : Untouched (s.patched target (pinnedFacts facts provider did source made revoked))
        ((s.patched target (pinnedFacts facts provider did source made revoked)).pinEnded target persists) :=
          .pinEnded ..
      exact landed.untouched ended
    · exact kept (.refl s)
    · exact kept (.pinEnded s target persists)
  | persist agentId keySource =>
    dsimp only [MemberKeys.goOn]
    split
    · exact kept (.start s _)
    · exact kept (.refl s)
  | posting target member keySource made attempts =>
    dsimp only [MemberKeys.goOn]
    split
    · exact (persisted_continuous due known).after same earlier
    · split
      · exact kept (.start s _)
      · exact kept (.refl s)
    · exact kept (.refl s)
  | rotating call found =>
    dsimp only [MemberKeys.goOn]
    split
    · exact kept (.refl s)
    · exact kept (.start s _)
  | recording call found =>
    dsimp only [MemberKeys.goOn]
    split
    · exact kept (.refl s)
    · exact rotated_continuous same inside due (settled.rotation call found rfl) known

theorem MemberKeys.Sound.step {move : MemberMove} {s' : MemberKeys} (sound : s.Sound env) (settled : Settled env s move)
    (next : s.step env move = some s') : s'.Sound env := by
  cases move with
  | register reg gate =>
    obtain rfl := Option.some.inj next
    unfold MemberKeys.register
    dsimp only
    split
    · apply sound.start
      exact .idle rfl fun _ _ => ⟨KeyTask.noConfusion,KeyTask.noConfusion⟩
    next waits =>
      split
      next member accepted =>
        apply sound.registered accepted
        apply settled _ ⟨member,accepted⟩
        simpa [(registerMember_ok accepted).1] using waits
      next => exact sound
  | request r now fresh authPath =>
    obtain rfl := Option.some.inj next
    exact sound.request
  | rotate attestation now read write =>
    obtain rfl := Option.some.inj next
    exact sound.rotate attestation now read write
  | resume i answer moment =>
    obtain ⟨task,found,rfl⟩ := Option.map_eq_some_iff.mp next
    have due := sound.due task (List.mem_of_getElem? found)
    exact (sound.dropped i).goOn ⟨due.carried,due.verified⟩ ((settled task found).dropped i)

theorem step_continuous {move : MemberMove} {s' : MemberKeys} (sound : s.Sound env) (settled : Settled env s move)
    (next : s.step env move = some s') (known : (s.members agentId).isSome) (held : edKey s.authKeys agentId ≠ "") :
    KeyContinues env s s' agentId := by
  cases move with
  | register reg gate =>
    obtain rfl := Option.some.inj next
    unfold MemberKeys.register
    dsimp only
    split
    · exact (Untouched.start s _).continuous known
    next waits =>
      split
      next member accepted =>
        refine registered_continuous sound accepted (settled ?_ ⟨member,accepted⟩) known held
        simpa [(registerMember_ok accepted).1] using waits
      next => exact (Untouched.refl s).continuous known
  | request r now fresh authPath =>
    obtain rfl := Option.some.inj next
    exact request_continuous known held
  | rotate attestation now read write =>
    obtain rfl := Option.some.inj next
    exact (rotate_untouched attestation now read write).continuous known
  | resume i answer moment =>
    obtain ⟨task,found,rfl⟩ := Option.map_eq_some_iff.mp next
    have inside := List.mem_of_getElem? found
    have due := sound.due task inside
    exact goOn_continuous (sound.dropped i) ⟨due.carried,due.verified⟩ ((settled task found).dropped i) ⟨rfl,rfl,rfl⟩
      (fun other => List.mem_of_mem_eraseIdx) inside known held

end Step
end Resuming

/-- In every run whose steps are settled, from any chapter without work under way in whose
records no key is another than that of the store: no step changes the key that is held for
a member, unless a rotation ends whose attestation verifies under it, and none changes the
durable did to that of another key. -/
theorem key_continuous {start s s' : MemberKeys} {move : MemberMove} (idle : start.tasks = [])
    (records : RecordsHeld env start) (run : Reached (MemberKeys.step env) (Settled env) start s)
    (settled : Settled env s move) (next : s.step env move = some s') {agentId : String}
    (known : (s.members agentId).isSome) (held : edKey s.authKeys agentId ≠ "") : KeyContinues env s s' agentId := by
  have initially : start.Sound env := by
    refine ⟨records,?_⟩
    rw [idle]
    simp
  have sound : s.Sound env := run.invariant initially fun _ _ _ sound ok next => sound.step ok next
  exact step_continuous sound settled next known held

end System

def lengthCodec : Codec := { plainCodec with
  verifyKey := fun bytes =>
    if bytes.length = 32 then .ok () else .error (.valueError "The key must be exactly 32 bytes long")
  parseInt := fun s => if s = "0" then some 0 else none }

def acmeEnv : ContinuityEnv where
  toCodec := lengthCodec
  chapterId := "acme"
  pgRequest := true
  castText _ := none
  hmac _ _ _ := .ok false
  verifyKey_length bytes made := by
    change (if bytes.length = 32 then Except.ok () else Except.error (Exc.valueError _)) = _ at made
    split at made
    next length => exact length
    next => cases made

def chapterOf (agentId key : String) (member : Member) : MemberKeys where
  members other := if other = agentId then some member else none
  authKeys := if key = "" then fun _ => none else replaceAgentKey (fun _ => none) agentId key
  agents _ := none
  rotations := []
  tasks := []

def bobMember : Member := { annMember with publicKey := keyNamed 'a' }

def bobRotation : RotationCall :=
  ⟨"bob",handover (keyNamed 'a') (keyNamed 'b') "n1",keyNamed 'a',epoch,.answered,.answered⟩

def bobRecording : MemberKeys := { chapterOf "bob" (keyNamed 'a') bobMember with
  tasks := [.recording bobRotation (keyNamed 'a')] }

theorem bob_edKey : edKey (chapterOf "bob" (keyNamed 'a') bobMember).authKeys "bob" = keyNamed 'a' := by
  rw [chapterOf,if_neg (by decide),edKey_replace]

theorem bob_rotates : (chapterOf "bob" (keyNamed 'a') bobMember).step acmeEnv
    (.rotate bobRotation.attestation epoch .answered .answered) =
      some ((chapterOf "bob" (keyNamed 'a') bobMember).start (.rotating bobRotation (keyNamed 'a'))) := by
  have valid : (verifyAttestation acmeEnv.toCodec acmeEnv.chapterId epoch bobRotation.attestation
    (keyNamed 'a') 300).1 =
      true := by decide +kernel
  have named : get bobRotation.attestation "agent_id" = some (.str "bob") := rfl
  have safe : sanitizeAgentId "bob" = "bob" := by decide +kernel
  have found : (chapterOf "bob" (keyNamed 'a') bobMember).members "bob" = some bobMember := rfl
  have stored : orText bobMember.publicKey (keyNamed 'a') = keyNamed 'a' := by decide +kernel
  have sovereign : bobMember.origin ≠ "openclaw" := by decide +kernel
  have keyed : keyNamed 'a' ≠ "" := by decide +kernel
  unfold MemberKeys.step MemberKeys.rotate
  simp only [named,safe,found,bob_edKey,stored,valid,sovereign,keyed,if_true,or_false]
  rw [if_neg (by decide)]
  rfl

theorem bob_records : ((chapterOf "bob" (keyNamed 'a') bobMember).start (.rotating bobRotation (keyNamed 'a'))).step
    acmeEnv
    (.resume 0 .answered "") = some bobRecording := by
  have unseen : nonceSeen acmeEnv.toRotationEnv [] bobRotation = false := by decide +kernel
  have going : (chapterOf "bob" (keyNamed 'a') bobMember).goOn acmeEnv .answered ""
    (.rotating bobRotation (keyNamed 'a')) =
      bobRecording := by
    dsimp only [MemberKeys.goOn]
    rw [if_neg]
    · rfl
    · rw [not_or]
      exact ⟨by rw [Bool.not_eq_true]; exact unseen,by decide⟩
  exact congrArg some going

theorem bob_recordsHeld : RecordsHeld acmeEnv (chapterOf "bob" (keyNamed 'a') bobMember) := by
  intro agentId member found _ _
  dsimp only [chapterOf] at found
  split at found
  next own =>
    obtain rfl := Option.some.inj found
    rw [own,bob_edKey]
    rfl
  next => cases found

theorem bobRecording_settled : Settled acmeEnv bobRecording (.resume 0 .answered "") := by
  intro task found
  obtain rfl := Option.some.inj found
  refine ⟨fun reg same => KeyTask.noConfusion same,?_⟩
  intro call found same
  cases same
  refine .inr ⟨bob_edKey,?_⟩
  intro task inside did
  rw [List.mem_singleton.mp inside]
  exact (Option.some_ne_none _).symm

theorem bob_continuous : ∃ s', bobRecording.step acmeEnv (.resume 0 .answered "") = some s' ∧
    edKey s'.authKeys "bob" = keyNamed 'b' ∧ KeyContinues acmeEnv bobRecording s' "bob" := by
  have next : bobRecording.step acmeEnv (.resume 0 .answered "") =
      some ((chapterOf "bob" (keyNamed 'a') bobMember).rotated acmeEnv bobRotation) := rfl
  have run : Reached (MemberKeys.step acmeEnv) (Settled acmeEnv)
      (chapterOf "bob" (keyNamed 'a') bobMember) bobRecording := by
    have first : Settled acmeEnv (chapterOf "bob" (keyNamed 'a') bobMember)
      (.rotate bobRotation.attestation epoch .answered .answered) := trivial
    refine .step (.step .start first bob_rotates) ?_ bob_records
    intro task found
    obtain rfl := Option.some.inj found
    exact ⟨fun reg same => KeyTask.noConfusion same,fun call found same => KeyTask.noConfusion same⟩
  have held : edKey bobRecording.authKeys "bob" ≠ "" := by
    rw [show edKey bobRecording.authKeys "bob" = keyNamed 'a' from bob_edKey]
    decide
  refine ⟨_,next,?_,key_continuous rfl bob_recordsHeld run bobRecording_settled next rfl held⟩
  exact edKey_replace _

def annRequest : SignedRequest where
  agentId := "ann"
  signature := keyNamed 'a'
  timestamp := "0"
  didKey := didKeyZ ++ String.ofList ([Char.ofNat 0xed,Char.ofNat 1] ++ List.replicate 32 'a')
  nonce := ""
  sigScheme := "ed25519"
  body := ""
  method := "GET"
  urlPath := "/api/members"
  requireMethodBinding := false

def otherRegistration : MemberRegistration := { annRegistration with
  publicKey := String.ofList (List.replicate 43 'b' ++ ['=']) }

theorem other_registers : registerMember (some annMember) openGate otherRegistration =
    .ok (memberRecord (some annMember) otherRegistration) := by
  have allowed : registrationRefusal (some annMember) otherRegistration = none := by
    unfold registrationRefusal
    rw [if_neg (by decide +kernel),if_neg (by decide +kernel)]
    dsimp only
    rw [if_neg (by decide +kernel),if_neg (by decide +kernel)]
  rw [registerMember,allowed]

def annSigned : MemberKeys := (chapterOf "ann" "" annMember).request acmeEnv annRequest 0 true true

theorem annSigned_edKey : edKey annSigned.authKeys "ann" = keyNamed 'a' := by
  decide +kernel

theorem annSigned_members : annSigned.members = (chapterOf "ann" "" annMember).members := by
  unfold annSigned
  obtain same | same := @request_cases acmeEnv (chapterOf "ann" "" annMember) annRequest 0 true true
  · rw [same]
  · rw [same]
    rfl

theorem annSigned_unrotated (call : RotationCall) (found : String) : .recording call found ∉ annSigned.tasks := by
  unfold annSigned
  obtain same | same := @request_cases acmeEnv (chapterOf "ann" "" annMember) annRequest 0 true true
  · rw [same]
    exact List.not_mem_nil
  · rw [same]
    intro inside
    exact KeyTask.noConfusion (List.mem_singleton.mp inside)

/-- A member whose key came with a signed request has no key in the record, and a
registration that nobody has signed replaces it. -/
theorem ann_replaced : RecordsHeld acmeEnv (chapterOf "ann" "" annMember) ∧
    Reached (MemberKeys.step acmeEnv) Free (chapterOf "ann" "" annMember) annSigned ∧
    (annSigned.members "ann").isSome ∧ edKey annSigned.authKeys "ann" ≠ "" ∧
    ∃ s', annSigned.step acmeEnv (.register otherRegistration openGate) = some s' ∧
      ¬ KeyContinues acmeEnv annSigned s' "ann" := by
  have own : sanitizeAgentId otherRegistration.agentId = "ann" := by decide +kernel
  have found : annSigned.members (sanitizeAgentId otherRegistration.agentId) = some annMember := by
    rw [own,annSigned_members]
    rfl
  have known : (annSigned.members "ann").isSome := by
    rw [annSigned_members]
    rfl
  have held : edKey annSigned.authKeys "ann" ≠ "" := by
    rw [annSigned_edKey]
    decide
  refine ⟨?_,?_,known,held,_,rfl,?_⟩
  · intro agentId member stored keyed
    dsimp only [chapterOf] at stored
    split at stored
    · obtain rfl := Option.some.inj stored
      exact absurd rfl keyed
    · cases stored
  · have request : (chapterOf "ann" "" annMember).step acmeEnv (.request annRequest 0 true true) = some annSigned := rfl
    exact .step .start trivial request
  · have registers : annSigned.register otherRegistration openGate =
        annSigned.registered (some annMember) otherRegistration (memberRecord (some annMember) otherRegistration) := by
      unfold MemberKeys.register
      simp only [found,other_registers]
      rw [if_neg (by simp [awaitsInvite])]
    obtain ⟨_,authKeys,_⟩ := registered_fields annSigned (some annMember) otherRegistration
      (memberRecord (some annMember) otherRegistration)
    rw [registers]
    intro continuous
    have replaced : edKey (annSigned.registered (some annMember) otherRegistration
        (memberRecord (some annMember) otherRegistration)).authKeys "ann" = otherRegistration.publicKey := by
      rw [authKeys,own,edKey_registerKey,if_pos (by decide +kernel)]
    obtain same | ⟨call,found,recording,_⟩ := continuous.held
    · rw [replaced,annSigned_edKey] at same
      revert same
      decide +kernel
    · exact annSigned_unrotated call found recording

end Orrery.Chapter
