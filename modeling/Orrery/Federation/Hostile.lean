import Orrery.Federation.Attestation

/-! Discovery among hostile listings: the passes of `discover` with an encoder that may refuse
a record. What a record raises leaves the loop over all of them, and with it the cycle. -/
namespace Orrery.Federation
open Foundation Json Chapter

structure HostileEnv extends DiscoveryEnv where
  canonicalize : Dict → Except Exc String
  canonical_eq : ∀ record message, canonicalize record = .ok message → canonical record = message

section Passes
variable (env : HostileEnv) (sweep : Sweep)

def checkAttestation (accepts : Json → Bool) : Option Json → Except Exc (Option Json)
  | none => return none
  | some att => do
    let (valid,_) ← verify env.toSigningEnv env.canonicalize sweep.now att
    return if valid && accepts att then some att else none

def shapedId (agent : Dict) : Bool :=
  orgShaped (env.toCodec.str (((present agent "agent_id").or (present agent "name")).getD (.str "")))

def ownSubject (agent : Dict) (att : Json) : Bool :=
  let regId := env.toCodec.str ((present agent "agent_id").getD (.str ""))
  !(regId != "" && subjectOf env.toDiscoveryEnv att != "" && regId != subjectOf env.toDiscoveryEnv att)

def dirSubject (rec : Dict) (att : Json) : Bool :=
  let recId := env.toCodec.str ((present rec "agent_id").getD (.str ""))
  !(recId != "" && subjectOf env.toDiscoveryEnv att != recId)

def placeAgent (listing : Listing) (shaped : Bool) (regEp : String) (attested : Option Json) : Listing :=
  let ep := (attested.map (endpointOf env.toDiscoveryEnv)).getD regEp
  let listing := listing.note ep attested
  if ep = "" ∨ ep = env.myEndpoint ∨ ep ∈ listing.seen then listing
  else if !shaped then listing
  else if attested.isNone && sweep.enforcing then listing
  else listing.enqueue ep

def considered (allowlist : List String) (agent : Dict) (regEp : String) : Bool :=
  shapedId env agent || ((attestationField agent).isSome && allowlist.contains regEp)

def readAgent (allowlist : List String) (listing : Listing) : Json → Except Exc Listing
  | .obj agent => do
    let regEp ← endpointField agent
    if !considered env allowlist agent regEp then return listing
    else do
      let attested ← checkAttestation env sweep (ownSubject env agent) (attestationField agent)
      return placeAgent env sweep listing (shapedId env agent) regEp attested
  | value => .error (.attributeError s!"'{value.typeName}' object has no attribute 'get'")

def placeRecord (state : Listing × Nat) : Option Json → (Listing × Nat) × Bool
  | none => (state,false)
  | some att =>
    let ep := endpointOf env.toDiscoveryEnv att
    if ep = "" ∨ ep = env.myEndpoint then (state,false)
    else if ep ∈ state.1.seen then ((state.1.attest ep att,state.2),false)
    else if state.2 ≥ directoryProbeCap then ((state.1.attest ep att,state.2),true)
    else (((state.1.attest ep att).enqueue ep,state.2+1),false)

def readRecord (state : Listing × Nat) : Json → Except Exc ((Listing × Nat) × Bool)
  | .obj rec => do
    return placeRecord env state (← checkAttestation env sweep (dirSubject env rec) (attestationField rec))
  | _ => return (state,false)

def readRecords : Listing × Nat → List Json → Except Exc (Listing × Nat)
  | state, [] => return state
  | state, rec :: rest => do
    let (state,stop) ← readRecord env sweep state rec
    if stop then return state else readRecords state rest

def recordsOf : Option Json → List Json
  | none => []
  | some data =>
    match agentsOf data with
    | .arr records => records
    | _ => []

def registryAnswer : Json := (if env.registryUrl = "" then none else sweep.registry).getD (.arr [])

def readListings : Except Exc Listing := do
  let start := knownPass env.toDiscoveryEnv sweep
  let agents ← iterate (agentsOf (registryAnswer env sweep))
  let listing ← agents.foldlM (readAgent env sweep start.seen) start
  let state ← (sweep.directories.map recordsOf).foldlM (readRecords env sweep) (listing,0)
  return state.1

end Passes

section Cycles
variable (env : HostileEnv)

def Sweep.guarded (sweep : Sweep) : Sweep := { sweep with
  record := fun id => (sweep.record id).filter fun doc =>
    match doc with
    | .obj fields => (checkAttestation env sweep (fun _ => true) (attestationField fields)).isOk
    | _ => true }

/-- A cycle of `discover`: the endpoints whose health was checked, what the admission step
ran on, and the peers after it. -/
structure Cycle where
  probed : List String
  answers : Option (List Found)
  state : FederationState

def cycle (s : FederationState) (sweep : Sweep) : Cycle :=
  match readListings env sweep with
  | .error _ => ⟨[],none,s⟩
  | .ok listing =>
    let found := foundBy env.toDiscoveryEnv sweep listing
    let prior := fun c => ((s.peers c).map Peer.online).getD false
    match admitAll env.toDiscoveryEnv (sweep.guarded env) listing prior s [] found with
    | (s,_,true) => ⟨listing.queue,some found,s⟩
    | (s,discovered,false) => ⟨listing.queue,some found,s.miss discovered⟩

/-- Every endpoint of the allowlist is checked, and the admission step runs on what those
answer. -/
def Untroubled (s : FederationState) (sweep : Sweep) : Prop :=
  ∃ answers, (cycle env s sweep).answers = some answers ∧
    ∀ ep ∈ sweep.known, rstripSlash ep ≠ env.myEndpoint → rstripSlash ep ∈ (cycle env s sweep).probed ∧
      ∀ answer, checkChapterEndpoint env.toDiscoveryEnv sweep (rstripSlash ep) = some answer →
        ⟨answer.1,rstripSlash ep,answer.2⟩ ∈ answers

end Cycles

section Conditions
variable (env : HostileEnv) (sweep : Sweep)

def Refused (att : Json) : Prop := ∃ signed e, readAttestation env.toSigningEnv att = .ok signed ∧
  env.canonicalize signed.record = .error e

def Readable (allowlist : List String) (value : Json) : Prop := ∃ agent regEp, value = .obj agent ∧
  endpointField agent = .ok regEp ∧
  (considered env allowlist agent regEp = true → ∀ att, attestationField agent = some att → ¬ Refused env att)

/-- The same for a record of a directory, where all but objects are passed over. -/
def Sound (value : Json) : Prop := ∀ rec, value = .obj rec → ∀ att, attestationField rec = some att → ¬ Refused env att

def directoryStep (state : Listing × Nat) : Json → (Listing × Nat) × Bool
  | .obj rec => placeRecord env state ((attestationField rec).filter fun att =>
      (verifyRecord env.toDiscoveryEnv sweep.now att).1 && dirSubject env rec att)
  | _ => (state,false)

def reached : Listing × Nat → List Json → List Json
  | _, [] => []
  | state, rec :: rest =>
    rec :: if (directoryStep env sweep state rec).2 then [] else reached (directoryStep env sweep state rec).1 rest

def registryPass : Except Exc Listing := do
  let start := knownPass env.toDiscoveryEnv sweep
  let agents ← iterate (agentsOf (registryAnswer env sweep))
  agents.foldlM (registryRecord env.toDiscoveryEnv sweep start.seen) start

/-- The registry answers with a list of readable records, or with nothing to go through, and
the encoder refuses none of the attestations that the directories are reached at. -/
structure Digestible : Prop where
  registry : ∃ agents, iterate (agentsOf (registryAnswer env sweep)) = .ok agents ∧
    ∀ agent ∈ agents, Readable env (knownPass env.toDiscoveryEnv sweep).seen agent
  directories : ∀ listing, registryPass env sweep = .ok listing → ∀ before directory after,
    sweep.directories = before ++ directory :: after →
    ∀ rec ∈ reached env sweep (before.foldl (directoryPass env.toDiscoveryEnv sweep) (listing,0)) (recordsOf directory),
      Sound env rec

end Conditions
section Reading
variable {env : HostileEnv} {sweep : Sweep} {allowlist : List String} {listing : Listing}

theorem verifyRecord_read (now : ℚ) (att : Json) : verifyRecord env.toDiscoveryEnv now att =
    match readAttestation env.toSigningEnv att with
    | .error reason => (false,reason)
    | .ok signed => if !ed25519Verify env.toCodec (env.canonical signed.record) signed.sig signed.pubkey
        then (false,"invalid_signature") else freshness now signed.issuedAt signed.expiresAt := by
  cases att with
  | obj attestation =>
    unfold verifyRecord readAttestation
    dsimp only
    cases get attestation "record" with
    | none => rfl
    | some record =>
      cases record with
      | obj record =>
        cases get attestation "sig" with
        | none => rfl
        | some sig =>
          cases sig with
          | str sig =>
            dsimp only
            by_cases empty : sig = ""
            · rw [if_pos empty,if_pos empty]
            · rw [if_neg empty,if_neg empty]
              by_cases missing : (requiredRecordFields.any fun field => (get record field).isNone) = true
              · rw [if_pos missing,if_pos missing]
              · rw [if_neg missing,if_neg missing]
                cases (get record "issued_at").bind intOf with
                | none => rfl
                | some issuedAt =>
                  cases (get record "expires_at").bind intOf with
                  | none => rfl
                  | some expiresAt =>
                    dsimp only
                    by_cases inverted : issuedAt > expiresAt
                    · rw [if_pos inverted,if_pos inverted]
                    · rw [if_neg inverted,if_neg inverted]
                      cases keyOf env.toSigningEnv (env.toCodec.str ((get record "did").getD .null)) <;> rfl
          | _ => rfl
      | _ => rfl
  | _ => rfl

theorem verify_refused {now : ℚ} {att : Json} (refused : Refused env att) :
    ∃ e, verify env.toSigningEnv env.canonicalize now att = .error e := by
  obtain ⟨signed,e,read,failed⟩ := refused
  rw [verify_read,read]
  dsimp only
  rw [failed]
  exact ⟨e,rfl⟩

theorem verify_encoded {now : ℚ} {att : Json} (encoded : ¬ Refused env att) :
    verify env.toSigningEnv env.canonicalize now att = .ok (verifyRecord env.toDiscoveryEnv now att) := by
  rw [verify_read,verifyRecord_read]
  cases read : readAttestation env.toSigningEnv att with
  | error reason => rfl
  | ok signed =>
    dsimp only
    cases canonical : env.canonicalize signed.record with
    | error e => exact absurd ⟨signed,e,read,canonical⟩ encoded
    | ok message =>
      rw [env.canonical_eq _ _ canonical]
      rfl

theorem checkAttestation_encoded {accepts : Json → Bool} {given : Option Json}
    (encoded : ∀ att, given = some att → ¬ Refused env att) : checkAttestation env sweep accepts given =
      .ok (given.filter fun att => (verifyRecord env.toDiscoveryEnv sweep.now att).1 && accepts att) := by
  cases given with
  | none => rfl
  | some att =>
    rw [checkAttestation,verify_encoded (encoded att rfl),ok_bind,Option.filter_some]
    rfl

theorem checkAttestation_refused {accepts : Json → Bool} {att : Json} (refused : Refused env att) :
    ∃ e, checkAttestation env sweep accepts (some att) = .error e := by
  obtain ⟨e,failed⟩ := @verify_refused env sweep.now att refused
  exact ⟨e,by rw [checkAttestation,failed]; rfl⟩

theorem registryRecord_obj {agent : Dict} {regEp : String} (field : endpointField agent = .ok regEp) :
    registryRecord env.toDiscoveryEnv sweep allowlist listing (.obj agent) =
      if !considered env allowlist agent regEp then .ok listing
      else .ok (placeAgent env sweep listing (shapedId env agent) regEp ((attestationField agent).filter fun att =>
        (verifyRecord env.toDiscoveryEnv sweep.now att).1 && ownSubject env agent att)) := by
  rw [registryRecord,field,ok_bind]
  unfold considered
  rw [Bool.not_or]
  dsimp only
  rw [show orgShaped _ = shapedId env agent from rfl]
  split
  next => rfl
  next =>
    have own : registryAttestation env.toDiscoveryEnv sweep agent = (attestationField agent).filter fun att =>
      (verifyRecord env.toDiscoveryEnv sweep.now att).1 && ownSubject env agent att := rfl
    rw [own]
    unfold placeAgent
    dsimp only
    split
    next => rfl
    next =>
      split
      next => rfl
      next => split <;> rfl

theorem readAgent_readable {value : Json} (readable : Readable env allowlist value) :
    ∃ next, readAgent env sweep allowlist listing value = .ok next ∧
      registryRecord env.toDiscoveryEnv sweep allowlist listing value = .ok next := by
  obtain ⟨agent,regEp,rfl,field,encoded⟩ := readable
  rw [registryRecord_obj field,readAgent,field,ok_bind]
  cases passes : considered env allowlist agent regEp with
  | false => exact ⟨listing,rfl,rfl⟩
  | true =>
    rw [checkAttestation_encoded (encoded passes)]
    exact ⟨_,rfl,rfl⟩

theorem readAgent_unreadable {value : Json} (unreadable : ¬ Readable env allowlist value) :
    ∃ e, readAgent env sweep allowlist listing value = .error e := by
  cases value with
  | obj agent =>
    rw [readAgent]
    cases field : endpointField agent with
    | error e => exact ⟨e,rfl⟩
    | ok regEp =>
      rw [ok_bind]
      have refused : considered env allowlist agent regEp = true ∧ ∃ att, attestationField agent = some att ∧ Refused env att := by
        by_contra none
        refine unreadable ⟨agent,regEp,rfl,field,fun passes att given refused => none ⟨passes,att,given,refused⟩⟩
      obtain ⟨passes,att,given,refused⟩ := refused
      obtain ⟨e,failed⟩ := @checkAttestation_refused env sweep (ownSubject env agent) att refused
      rw [passes,given,failed]
      exact ⟨e,rfl⟩
  | _ => exact ⟨_,rfl⟩

theorem readAgents_iff (agents : List Json) : ∀ listing next,
    agents.foldlM (readAgent env sweep allowlist) listing = .ok next ↔
      (∀ agent ∈ agents, Readable env allowlist agent) ∧
      agents.foldlM (registryRecord env.toDiscoveryEnv sweep allowlist) listing = .ok next := by
  induction agents with
  | nil => simp
  | cons agent agents ih =>
    intro listing next
    rw [List.foldlM_cons,List.foldlM_cons,List.forall_mem_cons]
    by_cases readable : Readable env allowlist agent
    · obtain ⟨further,ok,ok'⟩ := @readAgent_readable env sweep allowlist listing agent readable
      rw [ok,ok',ok_bind,ok_bind,ih,and_iff_right readable]
    · obtain ⟨e,failed⟩ := @readAgent_unreadable env sweep allowlist listing agent readable
      rw [failed]
      exact iff_of_false (fun ok => nomatch ok) fun both => readable both.1.1

theorem registryRecords_ok {agents : List Json} (readable : ∀ agent ∈ agents, Readable env allowlist agent) :
    ∀ listing, ∃ next, agents.foldlM (registryRecord env.toDiscoveryEnv sweep allowlist) listing = .ok next := by
  induction agents with
  | nil => exact fun listing => ⟨listing,rfl⟩
  | cons agent agents ih =>
    intro listing
    obtain ⟨further,-,ok⟩ := @readAgent_readable env sweep allowlist listing agent (readable agent List.mem_cons_self)
    rw [List.foldlM_cons,ok,ok_bind]
    exact ih (fun other inside => readable other (List.mem_cons_of_mem _ inside)) further

end Reading

section Directories
variable {env : HostileEnv} {sweep : Sweep} {state next : Listing × Nat}

theorem directoryRecords_step (rec : Json) (rest : List Json) :
    directoryRecords env.toDiscoveryEnv sweep state (rec :: rest) =
      if (directoryStep env sweep state rec).2 then (directoryStep env sweep state rec).1
      else directoryRecords env.toDiscoveryEnv sweep (directoryStep env sweep state rec).1 rest := by
  obtain ⟨listing,admitted⟩ := state
  cases rec with
  | obj rec =>
    have own : ((attestationField rec).filter fun att => (verifyRecord env.toDiscoveryEnv sweep.now att).1 &&
        !(env.toCodec.str ((present rec "agent_id").getD (.str "")) != "" && subjectOf env.toDiscoveryEnv att !=
          env.toCodec.str ((present rec "agent_id").getD (.str "")))) = (attestationField rec).filter fun att =>
      (verifyRecord env.toDiscoveryEnv sweep.now att).1 && dirSubject env rec att := rfl
    rw [directoryRecords,own,directoryStep]
    cases (attestationField rec).filter _ with
    | none => rfl
    | some att =>
      dsimp only [placeRecord]
      split
      next => rfl
      next =>
        split
        next => rfl
        next => split <;> rfl
  | _ => rfl

theorem readRecord_sound {rec : Json} (sound : Sound env rec) :
    readRecord env sweep state rec = .ok (directoryStep env sweep state rec) := by
  cases rec with
  | obj rec =>
    rw [readRecord,checkAttestation_encoded (sound rec rfl)]
    rfl
  | _ => rfl

theorem readRecord_unsound {rec : Json} (unsound : ¬ Sound env rec) : ∃ e, readRecord env sweep state rec = .error e := by
  cases rec with
  | obj rec =>
    have refused : ∃ att, attestationField rec = some att ∧ Refused env att := by
      by_contra none
      refine unsound fun rec' same att given refused => none ⟨att,?_,refused⟩
      cases same
      exact given
    obtain ⟨att,given,refused⟩ := refused
    obtain ⟨e,failed⟩ := @checkAttestation_refused env sweep (dirSubject env rec) att refused
    exact ⟨e,by rw [readRecord,given,failed]; rfl⟩
  | _ => exact absurd (fun rec same => nomatch same) unsound

theorem readRecords_iff (records : List Json) : ∀ state next, readRecords env sweep state records = .ok next ↔
    (∀ rec ∈ reached env sweep state records, Sound env rec) ∧
      next = directoryRecords env.toDiscoveryEnv sweep state records := by
  induction records with
  | nil =>
    intro state next
    rw [readRecords,reached,directoryRecords]
    exact ⟨fun ok => ⟨List.forall_mem_nil _,(Except.ok.inj ok).symm⟩,fun both => congrArg Except.ok both.2.symm⟩
  | cons rec records ih =>
    intro state next
    rw [readRecords,reached,List.forall_mem_cons,directoryRecords_step]
    by_cases sound : Sound env rec
    · rw [readRecord_sound sound,ok_bind,and_iff_right sound]
      dsimp only
      split
      next =>
        exact ⟨fun ok => ⟨List.forall_mem_nil _,(Except.ok.inj ok).symm⟩,fun both => congrArg Except.ok both.2.symm⟩
      next => exact ih _ _
    · obtain ⟨e,failed⟩ := @readRecord_unsound env sweep state rec sound
      rw [failed]
      exact iff_of_false (fun ok => by cases ok) fun both => sound both.1.1

theorem directoryPass_records (directory : Option Json) : directoryPass env.toDiscoveryEnv sweep state directory =
    directoryRecords env.toDiscoveryEnv sweep state (recordsOf directory) := by
  cases directory with
  | none => rfl
  | some data =>
    unfold directoryPass recordsOf
    dsimp only
    cases agentsOf data <;> rfl

theorem readDirectories_iff (directories : List (Option Json)) : ∀ state next,
    (directories.map recordsOf).foldlM (readRecords env sweep) state = .ok next ↔
      (∀ before directory after, directories = before ++ directory :: after →
        ∀ rec ∈ reached env sweep (before.foldl (directoryPass env.toDiscoveryEnv sweep) state) (recordsOf directory),
          Sound env rec) ∧
      next = directories.foldl (directoryPass env.toDiscoveryEnv sweep) state := by
  induction directories with
  | nil =>
    intro state next
    refine ⟨fun ok => ⟨fun before directory after same => ?_,(Except.ok.inj ok).symm⟩,fun both => congrArg Except.ok both.2.symm⟩
    simp at same
  | cons directory directories ih =>
    intro state next
    rw [List.map_cons,List.foldlM_cons,List.foldl_cons]
    constructor
    · intro ok
      obtain ⟨further,first,ok⟩ := bind_success _ _ _ ok
      obtain ⟨sound,rfl⟩ := (readRecords_iff ..).mp first
      rw [← directoryPass_records] at ok
      obtain ⟨others,rfl⟩ := (ih ..).mp ok
      refine ⟨fun before directory' after same => ?_,rfl⟩
      cases before with
      | nil =>
        obtain ⟨rfl,-⟩ := List.cons.inj same
        exact sound
      | cons head before =>
        have front := (List.cons.inj same).1
        subst front
        exact others before directory' after (List.cons.inj same).2
    · rintro ⟨sound,rfl⟩
      have first := (@readRecords_iff env sweep (recordsOf directory) state _).mpr ⟨sound [] directory directories rfl,rfl⟩
      rw [first,ok_bind,← directoryPass_records]
      exact (ih ..).mpr ⟨fun before directory' after same => sound (directory :: before) directory' after
        (congrArg (directory :: ·) same),rfl⟩

end Directories

section Queues
variable {env : HostileEnv} {sweep : Sweep} {allowlist : List String} {listing next : Listing}

theorem placeAgent_queue (shaped : Bool) (regEp : String) (attested : Option Json) :
    listing.queue ⊆ (placeAgent env sweep listing shaped regEp attested).queue := by
  have noted (ep : String) : (listing.note ep attested).queue = listing.queue := by
    cases attested with
    | none => rfl
    | some att =>
      rw [Listing.note]
      split <;> rfl
  unfold placeAgent
  dsimp only
  split
  · rw [noted]
    exact List.Subset.refl _
  · split
    · rw [noted]
      exact List.Subset.refl _
    · split
      · rw [noted]
        exact List.Subset.refl _
      · rw [Listing.enqueue,noted]
        exact List.subset_append_left _ _

theorem readAgent_queue {value : Json} (passed : readAgent env sweep allowlist listing value = .ok next) :
    listing.queue ⊆ next.queue := by
  cases value with
  | obj agent =>
    rw [readAgent] at passed
    obtain ⟨regEp,-,passed⟩ := bind_success _ _ _ passed
    split at passed
    · cases passed
      exact List.Subset.refl _
    · obtain ⟨attested,-,passed⟩ := bind_success _ _ _ passed
      cases passed
      exact placeAgent_queue ..
  | _ => cases passed

theorem placeRecord_queue (state : Listing × Nat) (attested : Option Json) :
    state.1.queue ⊆ (placeRecord env state attested).1.1.queue := by
  cases attested with
  | none => exact List.Subset.refl _
  | some att =>
    unfold placeRecord
    dsimp only
    split
    · exact List.Subset.refl _
    · split
      · exact List.Subset.refl _
      · split
        · exact List.Subset.refl _
        · exact List.subset_append_left _ _

theorem readRecords_queue (records : List Json) : ∀ state next, readRecords env sweep state records = .ok next →
    state.1.queue ⊆ next.1.queue := by
  induction records with
  | nil =>
    intro state next passed
    cases passed
    exact List.Subset.refl _
  | cons rec records ih =>
    intro state next passed
    obtain ⟨⟨further,stop⟩,first,passed⟩ := bind_success _ _ _ passed
    have step : state.1.queue ⊆ further.1.queue := by
      cases rec with
      | obj rec =>
        obtain ⟨attested,-,placed⟩ := bind_success _ _ _ first
        have kept := @placeRecord_queue env state attested
        rw [Except.ok.inj placed] at kept
        exact kept
      | _ =>
        cases first
        exact List.Subset.refl _
    cases stop with
    | true =>
      cases passed
      exact step
    | false => exact List.Subset.trans step (ih _ _ passed)

theorem foldlM_queue {σ α : Type} {queue : σ → List String} {f : σ → α → Except Exc σ}
    (step : ∀ s a t, f s a = .ok t → queue s ⊆ queue t) (items : List α) :
    ∀ s t, items.foldlM f s = .ok t → queue s ⊆ queue t := by
  induction items with
  | nil =>
    intro s t passed
    cases passed
    exact List.Subset.refl _
  | cons a items ih =>
    intro s t passed
    rw [List.foldlM_cons] at passed
    obtain ⟨u,first,passed⟩ := bind_success _ _ _ passed
    exact List.Subset.trans (step s a u first) (ih u t passed)

end Queues

section Disturbance
variable {env : HostileEnv} {sweep : Sweep} {listing : Listing}

theorem readListings_iff : (∃ listing, readListings env sweep = .ok listing) ↔ Digestible env sweep := by
  constructor
  · rintro ⟨listing,passed⟩
    obtain ⟨agents,listed,passed⟩ := bind_success _ _ _ passed
    obtain ⟨before,read,passed⟩ := bind_success _ _ _ passed
    obtain ⟨state,directories,-⟩ := bind_success _ _ _ passed
    obtain ⟨readable,total⟩ := (readAgents_iff ..).mp read
    refine ⟨⟨agents,listed,readable⟩,fun listing' total' => ?_⟩
    have pass : registryPass env sweep = .ok before := by
      rw [registryPass,listed]
      exact total
    cases pass.symm.trans total'
    exact ((readDirectories_iff ..).mp directories).1
  · intro digestible
    obtain ⟨agents,listed,readable⟩ := digestible.registry
    obtain ⟨listing,total⟩ := @registryRecords_ok env sweep _ agents readable (knownPass env.toDiscoveryEnv sweep)
    have pass : registryPass env sweep = .ok listing := by
      rw [registryPass,listed]
      exact total
    have read := (readAgents_iff ..).mpr ⟨readable,total⟩
    have directories := (readDirectories_iff ..).mpr ⟨digestible.directories listing pass,rfl⟩
    rw [readListings,listed,ok_bind,read,ok_bind,directories]
    exact ⟨_,rfl⟩

theorem directoryRecords_guarded (records : List Json) : ∀ state,
    directoryRecords env.toDiscoveryEnv (sweep.guarded env) state records =
      directoryRecords env.toDiscoveryEnv sweep state records := by
  have step (state : Listing × Nat) (rec : Json) :
      directoryStep env (sweep.guarded env) state rec = directoryStep env sweep state rec := by
    cases rec <;> rfl
  induction records with
  | nil => exact fun _ => rfl
  | cons rec records ih =>
    intro state
    rw [directoryRecords_step,directoryRecords_step,step,ih]

/-- Where nothing raises, a cycle is one of `discover`. -/
theorem cycle_discover (digestible : Digestible env sweep) (s : FederationState) :
    (cycle env s sweep).state = discover env.toDiscoveryEnv s (sweep.guarded env) := by
  obtain ⟨listing,passed⟩ := readListings_iff.mpr digestible
  have total : listingOf env.toDiscoveryEnv (sweep.guarded env) = .ok listing := by
    obtain ⟨agents,listed,passed⟩ := bind_success _ _ _ passed
    obtain ⟨before,read,passed⟩ := bind_success _ _ _ passed
    obtain ⟨state,directories,passed⟩ := bind_success _ _ _ passed
    cases passed
    obtain ⟨-,rfl⟩ := (readDirectories_iff ..).mp directories
    have pass : directoryPass env.toDiscoveryEnv (sweep.guarded env) = directoryPass env.toDiscoveryEnv sweep := by
      funext state directory
      rw [directoryPass_records,directoryPass_records,directoryRecords_guarded]
    have record : registryRecord env.toDiscoveryEnv (sweep.guarded env) = registryRecord env.toDiscoveryEnv sweep := by
      funext allowlist listing value
      cases value <;> rfl
    have start : knownPass env.toDiscoveryEnv (sweep.guarded env) = knownPass env.toDiscoveryEnv sweep := rfl
    have answer : (if env.registryUrl = "" then none else (sweep.guarded env).registry).getD (.arr []) =
      registryAnswer env sweep := rfl
    rw [listingOf,answer,listed,ok_bind,record,start,((readAgents_iff ..).mp read).2,pass]
    rfl
  have found : foundBy env.toDiscoveryEnv (sweep.guarded env) listing = foundBy env.toDiscoveryEnv sweep listing := rfl
  unfold cycle discover
  rw [passed,total]
  dsimp only
  rw [found]
  generalize admitAll _ _ _ _ _ _ _ = admitted
  obtain ⟨s',discovered,raised⟩ := admitted
  cases raised <;> rfl

theorem readListings_known (passed : readListings env sweep = .ok listing) {ep : String} (known : ep ∈ sweep.known)
    (other : rstripSlash ep ≠ env.myEndpoint) : rstripSlash ep ∈ listing.queue := by
  obtain ⟨agents,-,passed⟩ := bind_success _ _ _ passed
  obtain ⟨before,read,passed⟩ := bind_success _ _ _ passed
  obtain ⟨state,directories,passed⟩ := bind_success _ _ _ passed
  cases passed
  have start : rstripSlash ep ∈ (knownPass env.toDiscoveryEnv sweep).queue :=
    List.mem_filter.mpr ⟨List.mem_map_of_mem known,decide_eq_true other⟩
  have first := @foldlM_queue _ _ Listing.queue _ (fun _ _ _ => readAgent_queue) _ _ _ read
  have second := @foldlM_queue _ _ (fun state : Listing × Nat => state.1.queue) _
    (fun _ _ _ => readRecords_queue _ _ _) _ _ _ directories
  exact second (first start)

/-- A cycle checks the whole allowlist and admits what answers exactly where the listings can
be gone through. -/
theorem undisturbed_iff {s : FederationState} : Untroubled env s sweep ↔ Digestible env sweep := by
  rw [← readListings_iff]
  unfold Untroubled cycle
  cases passed : readListings env sweep with
  | error e => exact iff_of_false (fun ⟨_,ran,_⟩ => nomatch ran) fun ⟨_,ok⟩ => nomatch ok
  | ok listing =>
    refine iff_of_true ?_ ⟨listing,rfl⟩
    dsimp only
    have admits : ∀ ep ∈ sweep.known, rstripSlash ep ≠ env.myEndpoint → rstripSlash ep ∈ listing.queue ∧
        ∀ answer, checkChapterEndpoint env.toDiscoveryEnv sweep (rstripSlash ep) = some answer →
          ⟨answer.1,rstripSlash ep,answer.2⟩ ∈ foundBy env.toDiscoveryEnv sweep listing := by
      intro ep known other
      have queued := readListings_known passed known other
      refine ⟨queued,fun answer answered => List.mem_filterMap.mpr ⟨_,queued,?_⟩⟩
      rw [answered]
      rfl
    split <;> exact ⟨_,rfl,admits⟩

end Disturbance

section Samples

def plainHostile : HostileEnv where
  toDiscoveryEnv := plainDiscovery
  canonicalize record := .ok (plainDiscovery.canonical record)
  canonical_eq _ _ encoded := Except.ok.inj encoded

def numberListed : Sweep := { answeredAs "org-b" with
  known := ["x"]
  registry := some (.arr [.int 1]) }

theorem emptyRecord_discovered :
    let sweep : Sweep := { numberListed with registry := some (.arr [.obj []]) }
    (cycle plainHostile noPeers sweep).state = discover plainDiscovery noPeers (sweep.guarded plainHostile) :=
  cycle_discover (readListings_iff.mp ⟨_,rfl⟩) noPeers

theorem numberListed_aborts : checkChapterEndpoint plainDiscovery numberListed "x" = some ("org-b",.int 0) ∧
    (cycle plainHostile noPeers numberListed).probed = [] ∧ (cycle plainHostile noPeers numberListed).answers = none ∧
    ¬ Untroubled plainHostile noPeers numberListed := by
  have aborted : cycle plainHostile noPeers numberListed = ⟨[],none,noPeers⟩ := rfl
  refine ⟨?_,by rw [aborted],by rw [aborted],fun ⟨answers,ran,_⟩ => ?_⟩
  · change (if "org-b" = "" ∨ "org-b" = "me" then none else some ("org-b",Json.int 0)) = _
    exact if_neg (by decide)
  · rw [aborted] at ran
    cases ran

end Samples
end Orrery.Federation
