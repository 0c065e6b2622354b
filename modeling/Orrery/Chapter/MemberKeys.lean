import Orrery.Chapter.AuthKeys
import Orrery.Chapter.MemberRotation
import Orrery.Chapter.Registration

/-! The key of a member in its three places: the record of `members`, the key store of the
request signatures, and `agent_facts.provider.did` of the durable row. Registrations,
signed requests, rotations and background writes (server/chapter_agent.py) are coroutines
that are cut where they await, and any of them may go on next. -/
namespace Orrery.Chapter
open Foundation Json

/-- Ed25519 keys have 32 bytes, and no other bytes make a verifying key. -/
structure ContinuityEnv extends RotationEnv where
  hmac : String → String → String → Except Exc Bool
  verifyKey_length : ∀ bytes, verifyKey bytes = .ok () → bytes.length = 32

/-- Where a coroutine goes on. A rotation has the key of the store that it found when it
began. -/
inductive KeyTask
  | joining (reg : MemberRegistration)
  | established (agentId : String)
  | pin (agentId key source : String) (persists : Bool)
  | pinning (agentId key source : String) (persists : Bool) (facts provider : Dict)
  | patching (agentId key source moment : String) (persists : Bool) (facts provider : Dict) (afterRevocation : Bool)
  | persist (agentId : String) (keySource : Option String)
  | posting (agentId : String) (member : Member) (keySource : Option String) (moment : String) (attempts : Nat)
  | rotating (call : RotationCall) (found : String)
  | recording (call : RotationCall) (found : String)

structure MemberKeys where
  members : String → Option Member
  authKeys : AuthKeys
  agents : String → Option TableRow
  rotations : List RotationRow
  tasks : List KeyTask

inductive MemberMove
  | register (reg : MemberRegistration) (gate : JoinGate)
  | request (r : SignedRequest) (now : Int) (fresh authPath : Bool)
  | rotate (attestation : Dict) (now : Seconds) (read write : DbAnswer)
  | resume (i : Nat) (answer : DbAnswer) (moment : String)

def keySourceRegistered : String := "registered"
def keySourcePinnedRegistration : String := "pinned_registration"
def keySourcePinnedTofuHeader : String := "pinned_tofu_header"
def keySourceRevoked : String := "revoked"
def persistMaxAttempts : Nat := 4

def MemberKeys.start (s : MemberKeys) (task : KeyTask) : MemberKeys := { s with tasks := s.tasks ++ [task] }

def MemberKeys.dropped (s : MemberKeys) (i : Nat) : MemberKeys := { s with tasks := s.tasks.eraseIdx i }

def agentsDefaults : TableRow := fun column => if column = "agent_facts" then some (.obj []) else none

def factsOf (row : TableRow) : Dict :=
  match row "agent_facts" with
  | some (.obj facts) => facts
  | _ => []

def providerOf (facts : Dict) : Option Dict :=
  match get facts "provider" with
  | none => some []
  | some (.obj provider) => some provider
  | some other => if other.truthy then none else some []

def afterRevocation (facts : Dict) : Option Bool :=
  match get facts keyProvenanceKey with
  | none => some false
  | some (.obj provenance) => some (eqStr (get provenance "source") keySourceRevoked)
  | some other => if other.truthy then none else some false

def pinnedFacts (facts provider : Dict) (did source moment : String) (revoked : Bool) : Dict :=
  setItem (setItem facts "provider" (.obj (setItem provider "did" (.str did)))) keyProvenanceKey
    (.obj [("source",.str source),("attested",.bool false),("at",.str moment),("after_revocation",.bool revoked)])

def durableDid (row : Option TableRow) : Option Json :=
  jsonbField (jsonbField (row.bind fun columns => columns "agent_facts") "provider") "did"

section System
variable (env : ContinuityEnv)

def registerKey (keys : AuthKeys) (agentId publicKey : String) : AuthKeys :=
  if publicKey = "" then keys
  else if looksLikeEd25519 publicKey then replaceAgentKey keys agentId publicKey
  else storeAgentKey keys agentId publicKey "" ""

def MemberKeys.registered (s : MemberKeys) (existing : Option Member) (reg : MemberRegistration) (member : Member) :
    MemberKeys :=
  let safeId := sanitizeAgentId reg.agentId
  let existingKey := (existing.map Member.publicKey).getD ""
  let s := { s with
    members := Function.update s.members safeId (some member)
    authKeys := registerKey s.authKeys safeId reg.publicKey }
  if existing.isSome ∧ existingKey = "" ∧ reg.publicKey ≠ "" then
    s.start (.pin safeId reg.publicKey keySourcePinnedRegistration true)
  else s.start (.persist safeId
    (if existing.isNone ∧ reg.publicKey ≠ "" then some keySourceRegistered else none))

def awaitsInvite (existing : Option Member) (gate : JoinGate) : Bool :=
  existing.isNone && !gate.admitting && decide (gate.policy = .invite)

def MemberKeys.register (s : MemberKeys) (reg : MemberRegistration) (gate : JoinGate) : MemberKeys :=
  let existing := s.members (sanitizeAgentId reg.agentId)
  if registrationRefusal existing reg = none ∧ awaitsInvite existing gate then s.start (.joining reg)
  else match registerMember existing gate reg with
  | .ok member => s.registered existing reg member
  | .error _ => s

def MemberKeys.request (s : MemberKeys) (r : SignedRequest) (now : Int) (fresh authPath : Bool) : MemberKeys :=
  let (authKeys,valid,reason) :=
    verifyRequest env.toCodec env.hmac s.authKeys (fun agentId => (s.members agentId).isSome) now r fresh
  let signerIsMember := (s.members r.agentId).isSome || isSelfAuthenticatingPath r.urlPath
  let s := { s with authKeys := authKeys }
  if valid ∧ signerIsMember ∧ authPath ∧ reason = "tofu_accepted" then s.start (.established r.agentId) else s

def MemberKeys.rotate (s : MemberKeys) (attestation : Dict) (now : Seconds) (read write : DbAnswer) : MemberKeys :=
  match get attestation "agent_id" with
  | some (.str agentId) =>
    let safeId := sanitizeAgentId agentId
    match s.members safeId with
    | some existing =>
      let storedKey := orText existing.publicKey (edKey s.authKeys safeId)
      if agentId = "" ∨ safeId = "" ∨ existing.origin = "openclaw" ∨ storedKey = "" then s
      else if (verifyAttestation env.toCodec env.chapterId now attestation storedKey 300).1 then
        s.start (.rotating ⟨safeId,attestation,storedKey,now,read,write⟩ (edKey s.authKeys safeId))
      else s
    | none => s
  | _ => s

def MemberKeys.rotated (s : MemberKeys) (call : RotationCall) : MemberKeys := { s with
  members := Function.update s.members call.agent ((s.members call.agent).map fun member =>
    { member with publicKey := newKeyOf call.attestation })
  authKeys := replaceAgentKey s.authKeys call.agent (newKeyOf call.attestation)
  rotations := s.rotations ++
    (if call.write = .answered then insertRow env.toRotationEnv s.rotations call else none).toList }

def MemberKeys.pinEnded (s : MemberKeys) (agentId : String) (persists : Bool) : MemberKeys :=
  if persists then s.start (.persist agentId none) else s

def hasRecordedRotation (s : MemberKeys) (agentId : String) : DbAnswer → Option Bool
  | .answered => some (s.rotations.any fun row => row.chapterId == env.chapterId && row.agentId == agentId)
  | .noAnswer => some false
  | .raised _ => none

def MemberKeys.pinRead (s : MemberKeys) (agentId key source : String) (persists : Bool)
    (answer : DbAnswer) : MemberKeys :=
  if (tryBuildDidKeyFromEd25519 env.toCodec key).isNone ∨ env.pgRequest = false ∨ answer = .noAnswer then
    s.pinEnded agentId persists
  else if answer ≠ .answered then s
  else match s.agents agentId with
  | none => s.pinEnded agentId persists
  | some row =>
    match providerOf (factsOf row) with
    | none => s
    | some provider =>
      if ((get provider "did").map truthy).getD false then s.pinEnded agentId persists
      else s.start (.pinning agentId key source persists (factsOf row) provider)

def MemberKeys.patched (s : MemberKeys) (agentId : String) (facts : Dict) : MemberKeys := { s with
  agents := Function.update s.agents agentId ((s.agents agentId).map fun row =>
    Function.update row "agent_facts" (some (.obj facts))) }

def MemberKeys.persisted (s : MemberKeys) (agentId : String) (member : Member) (keySource : Option String)
    (moment : String) :
    MemberKeys := { s with
  agents := Function.update s.agents agentId (some ((persistUpsert env.toCodec env.chapterId agentId member keySource
    moment).carriedOut agentsTypes agentsDefaults (s.agents agentId))) }

def MemberKeys.goOn (s : MemberKeys) (answer : DbAnswer) (moment : String) : KeyTask → MemberKeys
  | .joining reg =>
    match registerMember none ⟨.invite,false,decide (answer = .answered),.null⟩ reg with
    | .ok member => s.registered none reg member
    | .error _ => s
  | .established agentId =>
    if edKey s.authKeys agentId = "" then s
    else s.start (.pin agentId (edKey s.authKeys agentId) keySourcePinnedTofuHeader false)
  | .pin agentId key source persists => s.pinRead env agentId key source persists answer
  | .pinning agentId key source persists facts provider =>
    if hasRecordedRotation env s agentId answer = some false then
      match afterRevocation facts with
      | some revoked => s.start (.patching agentId key source moment persists facts provider revoked)
      | none => s
    else s.pinEnded agentId persists
  | .patching agentId key source made persists facts provider revoked =>
    match answer, tryBuildDidKeyFromEd25519 env.toCodec key with
    | .answered, some did => (s.patched agentId (pinnedFacts facts provider did source made revoked)).pinEnded agentId
      persists
    | .raised _, _ => s
    | _, _ => s.pinEnded agentId persists
  | .persist agentId keySource =>
    match s.members agentId with
    | some member => s.start (.posting agentId member keySource moment 0)
    | none => s
  | .posting agentId member keySource made attempts =>
    match answer with
    | .answered => s.persisted env agentId member keySource made
    | .noAnswer =>
      if attempts+1 < persistMaxAttempts then s.start (.posting agentId member keySource made (attempts+1)) else s
    | .raised _ => s
  | .rotating call found =>
    if nonceSeen env.toRotationEnv s.rotations call ∨ env.pgRequest = false then s else s.start (.recording call found)
  | .recording call _ =>
    match call.write with
    | .raised _ => s
    | _ => s.rotated env call

def MemberKeys.step (s : MemberKeys) : MemberMove → Option MemberKeys
  | .register reg gate => some (s.register reg gate)
  | .request r now fresh authPath => some (s.request env r now fresh authPath)
  | .rotate attestation now read write => some (s.rotate env attestation now read write)
  | .resume i answer moment =>
    s.tasks[i]?.map fun task => (s.dropped i).goOn env answer moment task

variable {env} {s : MemberKeys}

theorem edKey_registerKey {keys : AuthKeys} {agentId publicKey : String} :
    edKey (registerKey keys agentId publicKey) agentId =
      if publicKey ≠ "" ∧ looksLikeEd25519 publicKey = true then publicKey else edKey keys agentId := by
  unfold registerKey
  by_cases given : publicKey = ""
  · rw [if_pos given,if_neg (by simp [given])]
  rw [if_neg given]
  by_cases shaped : looksLikeEd25519 publicKey = true
  · rw [if_pos shaped,if_pos ⟨given,shaped⟩,edKey_replace]
  · rw [if_neg shaped,if_neg (by simp [shaped]),edKey_store]
    rfl

theorem edKey_registerKey_other {keys : AuthKeys} {agentId publicKey other : String} (apart : other ≠ agentId) :
    edKey (registerKey keys agentId publicKey) other = edKey keys other := by
  unfold registerKey
  split
  · rfl
  split
  · exact edKey_replace_other apart _
  · exact edKey_store_other apart _ _ _

theorem registrationRefusal_key {existing : Member} {reg : MemberRegistration}
    (accepted : registrationRefusal (some existing) reg = none) (keyed : existing.publicKey ≠ "")
    (given : reg.publicKey ≠ "") : reg.publicKey = existing.publicKey := by
  unfold registrationRefusal at accepted
  split at accepted
  · cases accepted
  split at accepted
  · cases accepted
  dsimp only at accepted
  split at accepted
  · cases accepted
  split at accepted
  · cases accepted
  next unrefused => exact Classical.not_not.mp fun other => unrefused ⟨keyed,given,other⟩

theorem registered_fields (s : MemberKeys) (existing : Option Member) (reg : MemberRegistration) (member : Member) :
    (s.registered existing reg member).members = Function.update s.members (sanitizeAgentId reg.agentId) (some member) ∧
    (s.registered existing reg member).authKeys = registerKey s.authKeys (sanitizeAgentId reg.agentId) reg.publicKey ∧
    (s.registered existing reg member).agents = s.agents := by
  unfold MemberKeys.registered
  dsimp only
  split <;> exact ⟨rfl,rfl,rfl⟩

section Requesting
variable {r : SignedRequest} {now : Int} {fresh authPath : Bool}

def MemberKeys.requestKeys (env : ContinuityEnv) (s : MemberKeys) (r : SignedRequest) (now : Int)
    (fresh : Bool) : AuthKeys :=
  (verifyRequest env.toCodec env.hmac s.authKeys (fun agentId => (s.members agentId).isSome) now r fresh).1

theorem request_cases : s.request env r now fresh authPath = { s with authKeys := s.requestKeys env r now fresh } ∨
    s.request env r now fresh authPath =
      MemberKeys.start { s with authKeys := s.requestKeys env r now fresh } (.established r.agentId) := by
  unfold MemberKeys.request
  dsimp only
  split
  · exact .inr rfl
  · exact .inl rfl

end Requesting

theorem get_pinnedFacts (facts provider : Dict) (did source moment : String) (revoked : Bool) :
    get (pinnedFacts facts provider did source moment revoked) "provider" =
      some (.obj (setItem provider "did" (.str did))) := by
  rw [pinnedFacts,get_setItem_other _ _ _ _ (by decide),get_setItem_self]

theorem durableDid_patched (agentId : String) (facts provider : Dict) (did source moment : String) (revoked : Bool)
    (other : String) :
    durableDid ((s.patched agentId (pinnedFacts facts provider did source moment revoked)).agents other) =
        durableDid (s.agents other) ∨
      other = agentId ∧
        durableDid ((s.patched agentId (pinnedFacts facts provider did source moment revoked)).agents other) =
          some (.str did) := by
  change durableDid (Function.update s.agents agentId _ other) = _ ∨ _ ∧
    durableDid (Function.update s.agents agentId _ other) = _
  by_cases own : other = agentId
  · subst own
    rw [Function.update_self]
    cases found : s.agents other with
    | none => exact .inl rfl
    | some row =>
      refine .inr ⟨rfl,?_⟩
      simp only [durableDid,Option.map_some,Option.bind_some,Function.update_self,jsonbField,get_pinnedFacts,
        get_setItem_self]
  · rw [Function.update_of_ne own]
    exact .inl rfl

theorem persistUpsert_unfactual {agentId : String} {member : Member} {keySource : Option String} {moment : String}
    (made : memberFacts env.toCodec member keySource moment = none) (stored : Option TableRow) :
    (persistUpsert env.toCodec env.chapterId agentId member keySource moment).carriedOut agentsTypes agentsDefaults
      stored
      "agent_facts" = stored.elim (some (.obj [])) fun row => row "agent_facts" := by
  have absent : "agent_facts" ∉ (memberRow env.toCodec env.chapterId agentId member keySource moment).map Prod.fst := by
    simp [memberRow,made]
  cases stored with
  | none =>
    have unset : (get (memberRow env.toCodec env.chapterId agentId member keySource moment) "agent_facts").isSome =
        false := by
      rw [get_absent absent]
      rfl
    simp only [Upsert.carriedOut,persistUpsert,buildUpsert,unset]
    rfl
  | some row =>
    change (persistUpsert env.toCodec env.chapterId agentId member keySource moment).onConflict agentsTypes row _ = _
    rw [persistUpsert,onConflict_column (List.cons_ne_nil _ _),if_neg fun written => absent written.1]
    rfl

theorem persistUpsert_factual {agentId : String} {member : Member} {keySource : Option String} {moment : String}
    {facts : Dict} (made : memberFacts env.toCodec member keySource moment = some facts) (stored : Option TableRow) :
    (persistUpsert env.toCodec env.chapterId agentId member keySource moment).carriedOut agentsTypes agentsDefaults
      stored
      "agent_facts" = stored.elim (some (.obj facts)) fun row =>
        (row "agent_facts").map fun old => jsonbConcat old (.obj facts) := by
  have written : get (memberRow env.toCodec env.chapterId agentId member keySource moment) "agent_facts" =
      some (.obj facts) := by
    simp [memberRow,made,get_cons]
  cases stored with
  | none =>
    simp only [Upsert.carriedOut,Upsert.excluded,persistUpsert,buildUpsert,written]
    rfl
  | some row =>
    change (persistUpsert env.toCodec env.chapterId agentId member keySource moment).onConflict agentsTypes row _ = _
    have inside : "agent_facts" ∈ (memberRow env.toCodec env.chapterId agentId member keySource moment).map
        Prod.fst := by
      simp [memberRow,made]
    rw [persistUpsert,onConflict_column (List.cons_ne_nil _ _),if_pos ⟨inside,by decide⟩,if_pos (by decide),written]
    rw [Option.elim_some]
    cases row "agent_facts" <;> rfl

theorem memberFacts_provider {member : Member} {keySource : Option String} {moment : String} {facts : Dict}
    (written : memberFacts env.toCodec member keySource moment = some facts) :
    looksLikeEd25519 member.publicKey = true ∧ ∃ did more, tryBuildDidKeyFromEd25519 env.toCodec member.publicKey =
      some did ∧
      facts = ("provider",.obj [("did",.str did)]) :: more ∧ get more "provider" = none := by
  unfold memberFacts at written
  split at written
  next shaped =>
    obtain ⟨did,built,rfl⟩ := Option.map_eq_some_iff.mp written
    refine ⟨shaped,did,_,built,rfl,?_⟩
    apply get_absent
    cases keySource with
    | none => exact List.not_mem_nil
    | some source => simp [keyProvenanceKey]
  next => cases written

theorem jsonbConcat_provider (old : Json) {did : String} {more : Dict} (last : get more "provider" = none) :
    jsonbField (some (jsonbConcat old (.obj (("provider",.obj [("did",.str did)]) :: more)))) "provider" =
        jsonbField (some old) "provider" ∨
      jsonbField (some (jsonbConcat old (.obj (("provider",.obj [("did",.str did)]) :: more)))) "provider" =
        some (.obj [("did",.str did)]) := by
  cases old with
  | obj a =>
    right
    have later : jsonbField (some (jsonbConcat (.obj (setItem a "provider" (.obj [("did",.str did)]))) (.obj more)))
        "provider" = some (.obj [("did",.str did)]) := by
      rw [jsonbField_concat last]
      exact get_setItem_self ..
    exact later
  | null => exact .inl rfl
  | bool b => exact .inl rfl
  | int i => exact .inl rfl
  | float q => exact .inl rfl
  | str s => exact .inl rfl
  | arr items => exact .inl rfl

theorem durableDid_persisted (agentId : String) (member : Member) (keySource : Option String) (moment : String)
    (other : String) :
    durableDid ((s.persisted env agentId member keySource moment).agents other) = durableDid (s.agents other) ∨
      other = agentId ∧ looksLikeEd25519 member.publicKey = true ∧ ∃ did,
        tryBuildDidKeyFromEd25519 env.toCodec member.publicKey = some did ∧
        durableDid ((s.persisted env agentId member keySource moment).agents other) = some (.str did) := by
  change durableDid (Function.update s.agents agentId _ other) = _ ∨ _ ∧ _ ∧ ∃ _, _ ∧
    durableDid (Function.update s.agents agentId _ other) = _
  by_cases own : other = agentId
  · subst own
    rw [Function.update_self]
    cases made : memberFacts env.toCodec member keySource moment with
    | none =>
      left
      simp only [durableDid,Option.bind_some,persistUpsert_unfactual made]
      cases s.agents other <;> rfl
    | some facts =>
      obtain ⟨shaped,did,more,built,rfl,last⟩ := memberFacts_provider made
      simp only [durableDid,Option.bind_some,persistUpsert_factual made]
      cases s.agents other with
      | none => exact .inr ⟨trivial,shaped,did,built,rfl⟩
      | some row =>
        cases stored : row "agent_facts" with
        | none =>
          left
          simp only [Option.elim_some,Option.bind_some,stored,Option.map_none]
        | some old =>
          simp only [Option.elim_some,Option.bind_some,stored,Option.map_some]
          obtain same | written := jsonbConcat_provider old last
          · left
            rw [same]
          · right
            rw [written]
            exact ⟨trivial,shaped,did,built,rfl⟩
  · rw [Function.update_of_ne own]
    exact .inl rfl

def Untouched (s s' : MemberKeys) : Prop := s'.members = s.members ∧ s'.authKeys = s.authKeys ∧ s'.agents = s.agents

theorem Untouched.refl (s : MemberKeys) : Untouched s s := ⟨rfl,rfl,rfl⟩

theorem Untouched.start (s : MemberKeys) (task : KeyTask) : Untouched s (s.start task) := ⟨rfl,rfl,rfl⟩

theorem Untouched.pinEnded (s : MemberKeys) (agentId : String) (persists : Bool) :
    Untouched s (s.pinEnded agentId persists) := by
  unfold MemberKeys.pinEnded
  split
  · exact .start s _
  · exact .refl s

theorem rotate_untouched (attestation : Dict) (now : Seconds) (read write : DbAnswer) :
    Untouched s (s.rotate env attestation now read write) := by
  unfold MemberKeys.rotate
  split
  · dsimp only
    split
    · split
      · exact .refl s
      · split
        · exact .start s _
        · exact .refl s
    · exact .refl s
  · exact .refl s

theorem Untouched.pinRead (env : ContinuityEnv) (s : MemberKeys) (agentId key source : String) (persists : Bool)
    (answer : DbAnswer) : Untouched s (s.pinRead env agentId key source persists answer) := by
  unfold MemberKeys.pinRead
  split
  · exact .pinEnded s agentId persists
  split
  · exact .refl s
  split
  · exact .pinEnded s agentId persists
  split
  · exact .refl s
  split
  · exact .pinEnded s agentId persists
  · exact .start s _

end System
end Orrery.Chapter
