import Mathlib.Data.List.DropRight
import Orrery.Foundation.Runs
import Orrery.Federation.Signing

/-! Discovery of federation peers (server/federation_discovery.py): the passes of `discover`
over the registry and the directories, the probes of the endpoints, and the admission of
what answers, with the dids that are pinned on the way. -/
namespace Orrery.Federation
open Foundation Json Chapter

structure DiscoveryEnv extends SigningEnv where
  agentId : String
  myEndpoint : String
  registryUrl : String

inductive PinAnswer
  | mismatch (pinned : String)
  | other

/-- What one cycle finds outside: the responses of the registry and of the directories, what
`/health` of an endpoint and the record of an id give, and how a call of `check_and_pin_did`
ends. -/
structure Sweep where
  now : ℚ
  known : List String
  enforcing : Bool
  registry : Option Json
  directories : List (Option Json)
  health : String → Option Json
  record : String → Option Json
  pin : String → String → String → PinAnswer

section Attestations
variable (env : DiscoveryEnv)

def requiredRecordFields : List String := ["v","agent_id","did","endpoint","issued_at","expires_at"]

def intOf : Json → Option Int
  | .int i => some i
  | .bool b => some (if b then 1 else 0)
  | _ => none

def notBeforeSkew : ℚ := 300

def verifyRecord (now : ℚ) : Json → Bool × String
  | .obj attestation =>
    match get attestation "record", get attestation "sig" with
    | some (.obj record), some (.str sig) =>
      if sig = "" then (false,"malformed")
      else if requiredRecordFields.any fun field => (get record field).isNone then (false,"malformed")
      else match (get record "issued_at").bind intOf, (get record "expires_at").bind intOf with
      | some issuedAt, some expiresAt =>
        if issuedAt > expiresAt then (false,"malformed")
        else match keyOf env.toSigningEnv (env.toCodec.str ((get record "did").getD .null)) with
        | none => (false,"unsupported_did")
        | some pubkey =>
          if !ed25519Verify env.toCodec (env.canonical record) sig pubkey then (false,"invalid_signature")
          else if now > expiresAt then (false,"expired")
          else if now < issuedAt-notBeforeSkew then (false,"not_yet_valid")
          else (true,"ok")
      | _, _ => (false,"malformed")
    | _, _ => (false,"malformed")
  | _ => (false,"malformed")

def recordOf : Json → Dict
  | .obj attestation =>
    match get attestation "record" with
    | some (.obj record) => record
    | _ => []
  | _ => []

def didOf (att : Json) : String := env.toCodec.str ((get (recordOf att) "did").getD .null)

def subjectOf (att : Json) : String := env.toCodec.str ((get (recordOf att) "agent_id").getD (.str ""))

def endpointOf (att : Json) : String := rstripSlash (env.toCodec.str ((get (recordOf att) "endpoint").getD .null))

end Attestations

/-- What the passes over the listings gather; `attested` is `attested_dids`, with the
attestation in the place of its did, the newest first. -/
structure Listing where
  seen : List String
  queue : List String
  attested : List (String × Json)

def Listing.attestedAt (listing : Listing) (ep : String) : Option Json := listing.attested.lookup ep

section Passes
variable (env : DiscoveryEnv) (sweep : Sweep)

def present (d : Dict) (key : String) : Option Json := (get d key).filter truthy

def attestationField (d : Dict) : Option Json :=
  match get d "attestation" with
  | none | some .null => none
  | some att => some att

def contains (part text : List Char) : Bool := text.tails.any fun tail => part.isPrefixOf tail

def orgShaped (recId : String) : Bool :=
  ["chapter","nanda","org"].any fun part => contains part.toList (recId.toList.map Char.toLower)

def endpointField (agent : Dict) : Except Exc String :=
  match present agent "endpoint" with
  | none => .ok ""
  | some (.str s) => .ok (rstripSlash s)
  | some value => .error (.attributeError s!"'{value.typeName}' object has no attribute 'rstrip'")

def Listing.attest (listing : Listing) (ep : String) (att : Json) : Listing :=
  { listing with attested := (ep,att) :: listing.attested }

def Listing.note (listing : Listing) (ep : String) : Option Json → Listing
  | some att => if ep ≠ "" then listing.attest ep att else listing
  | none => listing

def Listing.enqueue (listing : Listing) (ep : String) : Listing :=
  { listing with seen := ep :: listing.seen, queue := listing.queue ++ [ep] }

def registryAttestation (agent : Dict) : Option Json :=
  (attestationField agent).filter fun att =>
    let regId := env.toCodec.str ((present agent "agent_id").getD (.str ""))
    (verifyRecord env sweep.now att).1 &&
      !(regId != "" && subjectOf env att != "" && regId != subjectOf env att)

def registryRecord (allowlist : List String) (listing : Listing) : Json → Except Exc Listing
  | .obj agent => do
    let regEp ← endpointField agent
    let shaped := orgShaped (env.toCodec.str (((present agent "agent_id").or (present agent "name")).getD (.str "")))
    if !shaped && !((attestationField agent).isSome && allowlist.contains regEp) then return listing
    else
      let attested := registryAttestation env sweep agent
      let ep := (attested.map (endpointOf env)).getD regEp
      let listing := listing.note ep attested
      if ep = "" ∨ ep = env.myEndpoint ∨ ep ∈ listing.seen then return listing
      else if !shaped then return listing
      else if attested.isNone && sweep.enforcing then return listing
      else return listing.enqueue ep
  | value => .error (.attributeError s!"'{value.typeName}' object has no attribute 'get'")

def agentsOf : Json → Json
  | .obj fields => (get fields "agents").getD (.obj fields)
  | data => data

def directoryProbeCap : Nat := 25

/-- The records of one directory; the number is that of the peers admitted so far. -/
def directoryRecords : Listing × Nat → List Json → Listing × Nat
  | state, [] => state
  | (listing,admitted), .obj rec :: rest =>
    let recId := env.toCodec.str ((present rec "agent_id").getD (.str ""))
    let attested := (attestationField rec).filter fun att =>
      (verifyRecord env sweep.now att).1 && !(recId != "" && subjectOf env att != recId)
    match attested with
    | none => directoryRecords (listing,admitted) rest
    | some att =>
      let ep := endpointOf env att
      if ep = "" ∨ ep = env.myEndpoint then directoryRecords (listing,admitted) rest
      else if ep ∈ listing.seen then directoryRecords (listing.attest ep att,admitted) rest
      -- the break leaves this directory only
      else if admitted ≥ directoryProbeCap then (listing.attest ep att,admitted)
      else directoryRecords ((listing.attest ep att).enqueue ep,admitted+1) rest
  | state, _ :: rest => directoryRecords state rest

def directoryPass (state : Listing × Nat) : Option Json → Listing × Nat
  | none => state
  | some data =>
    match agentsOf data with
    | .arr records => directoryRecords env sweep state records
    | _ => state

def knownPass : Listing :=
  let endpoints := (sweep.known.map rstripSlash).filter (· ≠ env.myEndpoint)
  ⟨endpoints,endpoints,[]⟩

def listingOf : Except Exc Listing := do
  let start := knownPass env sweep
  let agents ← iterate (agentsOf ((if env.registryUrl = "" then none else sweep.registry).getD (.arr [])))
  let listing ← agents.foldlM (registryRecord env sweep start.seen) start
  return (sweep.directories.foldl (directoryPass env sweep) (listing,0)).1

def checkChapterEndpoint (ep : String) : Option (String × Json) :=
  match sweep.health ep with
  | some (.obj hdata) =>
    match get hdata "agent_id", get hdata "members" with
    | some agentId, some members =>
      let chapterId := env.toCodec.str agentId
      if chapterId = "" ∨ chapterId = env.agentId then none else some (chapterId,members)
    | _, _ => none
  | _ => none

def fetchRecordAttestation (chapterId endpoint : String) : Option Json :=
  if env.registryUrl = "" then none
  else match sweep.record chapterId with
  | some (.obj doc) =>
    (attestationField doc).filter fun att => (verifyRecord env sweep.now att).1 && subjectOf env att == chapterId &&
      endpointOf env att == rstripSlash endpoint
  | _ => none

end Passes

structure Source where
  att : Json
  moment : ℚ

structure SourcedDid where
  did : String
  source : Option Source

structure Peer where
  endpoint : String
  did : Option SourcedDid
  online : Bool

structure PinCall where
  chapterId : String
  did : String
  endpoint : String
  source : Option Source

structure FederationState where
  peers : String → Option Peer
  failures : String → Nat
  calls : List PinCall

structure Found where
  chapterId : String
  endpoint : String
  members : Json

section Admission
variable (env : DiscoveryEnv) (sweep : Sweep)

def sourced (att : Json) : SourcedDid := ⟨didOf env att,some ⟨att,sweep.now⟩⟩

def didFor (listing : Listing) (s : FederationState) (found : Found) : Option SourcedDid :=
  ((listing.attestedAt found.endpoint).map (sourced env sweep)).or
    ((((s.peers found.chapterId).bind Peer.did).filter fun d => d.did ≠ "").or
      ((fetchRecordAttestation env sweep found.chapterId found.endpoint).map (sourced env sweep)))

def FederationState.enter (s : FederationState) (found : Found) (did : Option SourcedDid) : FederationState :=
  { s with
    peers := Function.update s.peers found.chapterId (some ⟨found.endpoint,did,true⟩)
    failures := Function.update s.failures found.chapterId 0 }

def FederationState.called (s : FederationState) (found : Found) (did : SourcedDid) : FederationState :=
  { s with calls := s.calls ++ [⟨found.chapterId,did.did,found.endpoint,did.source⟩] }

def admitPeer (listing : Listing) (s : FederationState) (found : Found) : FederationState × Bool :=
  match didFor env sweep listing s found with
  | none => (s.enter found none,true)
  | some did =>
    match sweep.pin found.chapterId did.did found.endpoint with
    | .mismatch pinned =>
      if sweep.enforcing then (s.called found did,false)
      else ((s.called found did).enter found (some ⟨pinned,none⟩),true)
    | .other => ((s.called found did).enter found (some did),true)

def memberCount (members : Json) : Option Int := if members.truthy then env.toCodec.int members else some 0

def admitAll (listing : Listing) (prior : String → Bool) : FederationState → List String → List Found →
    FederationState × List String × Bool
  | s, discovered, [] => (s,discovered,false)
  | s, discovered, found :: rest =>
    match admitPeer env sweep listing s found with
    | (s,false) => admitAll listing prior s discovered rest
    | (s,true) =>
      if !prior found.chapterId && (memberCount env found.members).isNone then (s,found.chapterId :: discovered,true)
      else admitAll listing prior s (found.chapterId :: discovered) rest

def maxFederationFailures : Nat := 3

/-- The peers that were not discovered: offline, or removed after some failures. -/
def FederationState.miss (s : FederationState) (discovered : List String) : FederationState :=
  let missed := fun c => (s.peers c).isSome && !discovered.contains c
  { s with
    peers := fun c =>
      if missed c then
        if s.failures c+1 ≥ maxFederationFailures then none else (s.peers c).map fun peer =>
            { peer with online := false }
      else s.peers c
    failures := fun c =>
      if missed c then if s.failures c+1 ≥ maxFederationFailures then 0 else s.failures c+1
      else s.failures c }

def foundBy (listing : Listing) : List Found :=
  listing.queue.filterMap fun ep => (checkChapterEndpoint env sweep ep).map fun answer => ⟨answer.1,ep,answer.2⟩

def discover (s : FederationState) (sweep : Sweep) : FederationState :=
  match listingOf env sweep with
  | .error _ => s
  | .ok listing =>
    let prior := fun c => ((s.peers c).map Peer.online).getD false
    match admitAll env sweep listing prior s [] (foundBy env sweep listing) with
    | (s,_,true) => s
    | (s,discovered,false) => s.miss discovered

end Admission

section Pinning
variable (env : DiscoveryEnv)

structure Attests (source : Source) (did chapterId endpoint : String) : Prop where
  verified : (verifyRecord env source.moment source.att).1 = true
  signed : didOf env source.att = did
  subject : subjectOf env source.att = chapterId
  endpoint : endpointOf env source.att = rstripSlash endpoint

/-- Every did that was pinned, and every did of a peer, is attested for it where it comes
from an attestation. -/
structure Pinned (s : FederationState) : Prop where
  calls : ∀ call ∈ s.calls, ∀ source, call.source = some source →
    Attests env source call.did call.chapterId call.endpoint
  peers : ∀ c peer, s.peers c = some peer → ∀ did, peer.did = some did → ∀ source, did.source = some source →
    Attests env source did.did c peer.endpoint

/-- An endpoint that is attested in this cycle answers as the org that its attestation
names; one that is not answers, alone, as a peer whose attested did is from this endpoint. -/
structure Honest (s : FederationState) (sweep : Sweep) : Prop where
  answers : ∀ listing, listingOf env sweep = .ok listing → ∀ found ∈ foundBy env sweep listing, ∀ att,
    listing.attestedAt found.endpoint = some att → subjectOf env att = found.chapterId
  stays : ∀ listing, listingOf env sweep = .ok listing → ∀ found ∈ foundBy env sweep listing,
    listing.attestedAt found.endpoint = none →
    (∀ other ∈ foundBy env sweep listing, other.chapterId = found.chapterId → other.endpoint = found.endpoint) ∧
    ∀ peer did, s.peers found.chapterId = some peer → peer.did = some did → did.source.isSome = true →
      peer.endpoint = found.endpoint

variable {env} {sweep : Sweep} {listing : Listing}

theorem rstripSlash_rstripSlash (s : String) : rstripSlash (rstripSlash s) = rstripSlash s := by
  unfold rstripSlash
  rw [String.toList_ofList,List.reverse_reverse,List.dropWhile_idempotent]

def Listing.Certified (env : DiscoveryEnv) (sweep : Sweep) (listing : Listing) : Prop :=
  ∀ pair ∈ listing.attested, (verifyRecord env sweep.now pair.2).1 = true ∧ endpointOf env pair.2 = pair.1

theorem Listing.Certified.attest (certified : listing.Certified env sweep) {att : Json} {ep : String}
    (verified : (verifyRecord env sweep.now att).1 = true) (place : endpointOf env att = ep) :
    (listing.attest ep att).Certified env sweep :=
  List.forall_mem_cons.mpr ⟨⟨verified,place⟩,certified⟩

theorem Listing.Certified.attestedAt (certified : listing.Certified env sweep) {ep : String} {att : Json}
    (found : listing.attestedAt ep = some att) : (verifyRecord env sweep.now att).1 = true ∧ endpointOf env att =
      ep := by
  obtain ⟨before,after,whole,_⟩ := List.lookup_eq_some_iff.mp found
  exact certified (ep,att) (by rw [whole]; exact List.mem_append_right _ (List.mem_cons_self ..))

theorem Listing.Certified.note (certified : listing.Certified env sweep) {attested : Option Json} {ep : String}
    (verified : ∀ att, attested = some att → (verifyRecord env sweep.now att).1 = true)
    (place : ∀ att, attested = some att → endpointOf env att = ep) :
    (listing.note ep attested).Certified env sweep := by
  cases attested with
  | none => exact certified
  | some att =>
    by_cases named : ep ≠ ""
    · rw [Listing.note,if_pos named]
      exact certified.attest (verified att rfl) (place att rfl)
    · rw [Listing.note,if_neg named]
      exact certified

theorem registryAttestation_verified {agent : Dict} {att : Json}
    (own : registryAttestation env sweep agent = some att) :
    (verifyRecord env sweep.now att).1 = true := by
  have checked := (Option.filter_eq_some_iff.mp own).2
  simp only [Bool.and_eq_true] at checked
  exact checked.1

theorem registryRecord_certified {allowlist : List String} {agent : Json} {next : Listing}
    (certified : listing.Certified env sweep) (passed : registryRecord env sweep allowlist listing agent = .ok next) :
    next.Certified env sweep := by
  unfold registryRecord at passed
  split at passed
  next agent =>
    obtain ⟨regEp,_,passed⟩ := bind_success _ _ _ passed
    dsimp only at passed
    split at passed
    · cases passed
      exact certified
    · have noted : (listing.note (((registryAttestation env sweep agent).map (endpointOf env)).getD regEp)
          (registryAttestation env sweep agent)).Certified env sweep := by
        apply certified.note
        · intro att own
          exact registryAttestation_verified own
        · intro att own
          rw [own]
          rfl
      split at passed
      · cases passed
        exact noted
      · split at passed
        · cases passed
          exact noted
        · split at passed
          · cases passed
            exact noted
          · cases passed
            exact noted
  next => cases passed

theorem directoryRecords_certified {records : List Json} : ∀ {listing : Listing} {admitted : Nat},
    listing.Certified env sweep → (directoryRecords env sweep (listing,admitted) records).1.Certified env sweep := by
  induction records with
  | nil =>
    intro listing admitted certified
    exact certified
  | cons record rest ih =>
    intro listing admitted certified
    cases record with
    | obj rec =>
      rw [directoryRecords]
      dsimp only
      split
      · exact ih certified
      next att own =>
        have checked := (Option.filter_eq_some_iff.mp own).2
        simp only [Bool.and_eq_true] at checked
        have noted := certified.attest checked.1 rfl
        split
        · exact ih certified
        · split
          · exact ih noted
          · split
            · exact noted
            · exact ih noted
    | null => exact ih certified
    | bool b => exact ih certified
    | int i => exact ih certified
    | float q => exact ih certified
    | str s => exact ih certified
    | arr items => exact ih certified

theorem directoryPass_certified {directory : Option Json} {state : Listing × Nat}
    (certified : state.1.Certified env sweep) : (directoryPass env sweep state directory).1.Certified env sweep := by
  unfold directoryPass
  split
  · exact certified
  · split
    · exact directoryRecords_certified certified
    · exact certified

theorem foldlM_certified {allowlist : List String} (agents : List Json) : ∀ {listing next : Listing},
    listing.Certified env sweep → agents.foldlM (registryRecord env sweep allowlist) listing = .ok next →
    next.Certified env sweep := by
  induction agents with
  | nil =>
    intro listing next certified passed
    cases passed
    exact certified
  | cons agent rest ih =>
    intro listing next certified passed
    rw [List.foldlM_cons] at passed
    obtain ⟨middle,first,passed⟩ := bind_success _ _ _ passed
    exact ih (registryRecord_certified certified first) passed

theorem foldl_certified (directories : List (Option Json)) : ∀ {state : Listing × Nat},
    state.1.Certified env sweep → (directories.foldl (directoryPass env sweep) state).1.Certified env sweep := by
  induction directories with
  | nil =>
    intro state certified
    exact certified
  | cons directory rest ih =>
    intro state certified
    exact ih (directoryPass_certified certified)

theorem listingOf_certified (passed : listingOf env sweep = .ok listing) : listing.Certified env sweep := by
  unfold listingOf at passed
  obtain ⟨agents,_,passed⟩ := bind_success _ _ _ passed
  obtain ⟨middle,registry,passed⟩ := bind_success _ _ _ passed
  cases passed
  apply foldl_certified
  refine foldlM_certified agents ?_ registry
  intro pair absent
  cases absent

theorem didFor_attests {s : FederationState} {found : Found} (certified : listing.Certified env sweep)
    (subject : ∀ att, listing.attestedAt found.endpoint = some att → subjectOf env att = found.chapterId)
    (carried : listing.attestedAt found.endpoint = none → ∀ peer did, s.peers found.chapterId = some peer →
      peer.did = some did → did.source.isSome = true → peer.endpoint = found.endpoint)
    (pinned : Pinned env s) {did : SourcedDid} (resolved : didFor env sweep listing s found = some did)
    {source : Source}
    (attested : did.source = some source) : Attests env source did.did found.chapterId found.endpoint := by
  unfold didFor at resolved
  rw [Option.or_eq_some_iff] at resolved
  rcases resolved with listed | ⟨unlisted,resolved⟩
  · obtain ⟨att,own,rfl⟩ := Option.map_eq_some_iff.mp listed
    cases attested
    obtain ⟨verified,place⟩ := certified.attestedAt own
    refine ⟨verified,rfl,subject att own,?_⟩
    rw [← place,endpointOf,rstripSlash_rstripSlash]
  · rw [Option.or_eq_some_iff] at resolved
    rcases resolved with kept | ⟨_,fetched⟩
    · obtain ⟨kept,_⟩ := Option.filter_eq_some_iff.mp kept
      obtain ⟨peer,known,kept⟩ := Option.bind_eq_some_iff.mp kept
      have attests := pinned.peers _ peer known did kept source attested
      rwa [carried (Option.map_eq_none_iff.mp unlisted) peer did known kept (by rw [attested]; rfl)] at attests
    · obtain ⟨att,raw,rfl⟩ := Option.map_eq_some_iff.mp fetched
      cases attested
      unfold fetchRecordAttestation at raw
      split at raw
      · cases raw
      · split at raw
        · have checked := (Option.filter_eq_some_iff.mp raw).2
          simp only [Bool.and_eq_true,beq_iff_eq] at checked
          exact ⟨checked.1.1,rfl,checked.1.2,checked.2⟩
        · cases raw

theorem Pinned.enter {s : FederationState} (pinned : Pinned env s) {found : Found} {did : Option SourcedDid}
    (attests : ∀ d, did = some d → ∀ source, d.source = some source →
      Attests env source d.did found.chapterId found.endpoint) : Pinned env (s.enter found did) := by
  refine ⟨pinned.calls,?_⟩
  intro c peer known d own source attested
  by_cases same : c = found.chapterId
  · subst same
    have entered : (s.enter found did).peers found.chapterId = some ⟨found.endpoint,did,true⟩ := Function.update_self ..
    cases entered.symm.trans known
    exact attests d own source attested
  · have kept : (s.enter found did).peers c = s.peers c := Function.update_of_ne same ..
    exact pinned.peers c peer (kept.symm.trans known) d own source attested

theorem Pinned.called {s : FederationState} (pinned : Pinned env s) {found : Found} {did : SourcedDid}
    (attests : ∀ source, did.source = some source → Attests env source did.did found.chapterId found.endpoint) :
    Pinned env (s.called found did) := by
  refine ⟨?_,pinned.peers⟩
  intro call made source attested
  rcases List.mem_append.mp made with old | new
  · exact pinned.calls call old source attested
  · rw [List.mem_singleton.mp new] at attested ⊢
    exact attests source attested

theorem admitPeer_pinned {s : FederationState} {found : Found} (pinned : Pinned env s)
    (attests : ∀ did, didFor env sweep listing s found = some did → ∀ source, did.source = some source →
      Attests env source did.did found.chapterId found.endpoint) :
    Pinned env (admitPeer env sweep listing s found).1 ∧
      ∀ c, (admitPeer env sweep listing s found).1.peers c = s.peers c ∨
        c = found.chapterId ∧ ∃ peer, (admitPeer env sweep listing s found).1.peers c = some peer ∧ peer.endpoint =
          found.endpoint := by
  have entered (s' : FederationState) (same : s'.peers = s.peers) (did : Option SourcedDid) (c : String) :
      (s'.enter found did).peers c = s.peers c ∨
        c = found.chapterId ∧ ∃ peer, (s'.enter found did).peers c = some peer ∧ peer.endpoint = found.endpoint := by
    by_cases own : c = found.chapterId
    · right
      subst own
      exact ⟨rfl,_,Function.update_self ..,rfl⟩
    · left
      exact (Function.update_of_ne own ..).trans (congrFun same c)
  unfold admitPeer
  split
  next =>
    refine ⟨pinned.enter ?_,entered s rfl none⟩
    intro d absent
    cases absent
  next did resolved =>
    have called := pinned.called (attests did resolved)
    split
    · split
      · exact ⟨called,fun c => Or.inl rfl⟩
      · refine ⟨called.enter ?_,entered _ rfl _⟩
        intro d own source attested
        cases own
        cases attested
    · refine ⟨called.enter ?_,entered _ rfl _⟩
      intro d own source attested
      cases own
      exact attests did resolved source attested

def Entered (before : FederationState) (founds : List Found) (s : FederationState) : Prop :=
  ∀ c peer, s.peers c = some peer → before.peers c = some peer ∨
    ∃ found ∈ founds, found.chapterId = c ∧ peer.endpoint = found.endpoint

theorem admitAll_pinned {before : FederationState} (listed : listingOf env sweep = .ok listing)
    (honest : Honest env before sweep) {prior : String → Bool} (rest : List Found) : ∀ {s : FederationState}
    {discovered : List String}, (∀ found ∈ rest, found ∈ foundBy env sweep listing) → Pinned env s →
    Entered before (foundBy env sweep listing) s →
      Pinned env (admitAll env sweep listing prior s discovered rest).1 := by
  induction rest with
  | nil =>
    intro s discovered _ pinned _
    exact pinned
  | cons found rest ih =>
    intro s discovered inside pinned entered
    have member := inside found (List.mem_cons_self ..)
    have carried : listing.attestedAt found.endpoint = none → ∀ peer did, s.peers found.chapterId = some peer →
        peer.did = some did → did.source.isSome = true → peer.endpoint = found.endpoint := by
      intro unlisted peer did known own attested
      obtain ⟨alone,stays⟩ := honest.stays listing listed found member unlisted
      rcases entered _ peer known with old | ⟨other,listed,same,place⟩
      · exact stays peer did old own attested
      · exact place.trans (alone other listed same)
    obtain ⟨kept,wrote⟩ := admitPeer_pinned pinned fun did resolved source attested =>
      didFor_attests (listingOf_certified listed) (honest.answers listing listed found member) carried pinned
        resolved attested
    have further : Entered before (foundBy env sweep listing) (admitPeer env sweep listing s found).1 := by
      intro c peer known
      rcases wrote c with same | ⟨rfl,other,own,place⟩
      · exact entered c peer (same.symm.trans known)
      · cases own.symm.trans known
        exact Or.inr ⟨found,member,rfl,place⟩
    have later : ∀ found ∈ rest, found ∈ foundBy env sweep listing := fun found below =>
      inside found (List.mem_cons_of_mem _ below)
    unfold admitAll
    split
    next s' refused =>
      rw [refused] at kept further
      exact ih later kept further
    next s' admitted =>
      rw [admitted] at kept further
      split
      · exact kept
      · exact ih later kept further

theorem Pinned.miss {s : FederationState} (pinned : Pinned env s) (discovered : List String) :
    Pinned env (s.miss discovered) := by
  refine ⟨pinned.calls,?_⟩
  intro c peer known did own source attested
  unfold FederationState.miss at known
  dsimp only at known
  split at known
  · split at known
    · cases known
    · obtain ⟨old,same,rfl⟩ := Option.map_eq_some_iff.mp known
      exact pinned.peers c old same did own source attested
  · exact pinned.peers c peer known did own source attested

theorem discover_pinned {s : FederationState} (pinned : Pinned env s) (honest : Honest env s sweep) :
    Pinned env (discover env s sweep) := by
  unfold discover
  split
  · exact pinned
  next listing listed =>
    have admitted : Pinned env (admitAll env sweep listing (fun c => ((s.peers c).map Peer.online).getD false) s []
        (foundBy env sweep listing)).1 :=
      admitAll_pinned listed honest _ (fun found inside => inside) pinned (fun c peer known => Or.inl known)
    dsimp only
    split
    next s' discovered raised =>
      rw [raised] at admitted
      exact admitted
    next s' discovered done =>
      rw [done] at admitted
      exact admitted.miss discovered

def noPeers : FederationState := ⟨fun _ => none,fun _ => 0,[]⟩

/-- In every run of cycles whose every cycle meets the conditions, whatever the registry,
the directories and the endpoints say otherwise: a did that comes from an attestation is
pinned, and a peer admitted with it, for the org and the endpoint that it attests only. -/
theorem pinned_as_attested (env : DiscoveryEnv) {s : FederationState}
    (run : Runs.Reached (fun s sweep => some (discover env s sweep)) (Honest env) noPeers s) : Pinned env s := by
  apply run.invariant
  · exact ⟨fun call absent => absurd absent List.not_mem_nil,fun c peer absent => by cases absent⟩
  · intro s sweep s' pinned honest next
    cases next
    exact discover_pinned pinned honest

def plainDiscovery : DiscoveryEnv where
  toSigningEnv := plainSigning
  agentId := "me"
  myEndpoint := ""
  registryUrl := "registry"

def attestationOfA : Json := .obj [
  ("record",.obj [("v",.int 1),("agent_id",.str "org-a"),("did",.str pinOfA.1),("endpoint",.str "x"),
    ("issued_at",.int 0),("expires_at",.int 10)]),
  ("sig",.str (keyNamed 'a'))]

def answeredAs (who : String) : Sweep where
  now := 0
  known := []
  enforcing := true
  registry := some (.arr [.obj [("agent_id",.str "org-a"),("endpoint",.str "x"),("attestation",attestationOfA)]])
  directories := []
  health _ := some (.obj [("agent_id",.str who),("members",.int 0)])
  record _ := none
  pin _ _ _ := .other

theorem attestationOfA_verifies : (verifyRecord plainDiscovery 0 attestationOfA).1 = true := by decide +kernel

def listedOrg : Dict := [("agent_id",.str "org-a"),("endpoint",.str "x"),("attestation",attestationOfA)]

theorem listedOrg_attested (who : String) :
    registryAttestation plainDiscovery (answeredAs who) listedOrg = some attestationOfA := by
  have given : attestationField listedOrg = some attestationOfA := rfl
  unfold registryAttestation
  rw [given,Option.filter_some,if_pos]
  rw [Bool.and_eq_true]
  exact ⟨attestationOfA_verifies,by decide +kernel⟩

theorem answeredAs_listing (who : String) :
    listingOf plainDiscovery (answeredAs who) = .ok ⟨["x"],["x"],[("x",attestationOfA)]⟩ := by
  have place : endpointOf plainDiscovery attestationOfA = "x" := by decide +kernel
  have shaped : orgShaped (plainDiscovery.toCodec.str
    (((present listedOrg "agent_id").or (present listedOrg "name")).getD
      (.str ""))) = true := by decide +kernel
  have record : registryRecord plainDiscovery (answeredAs who) [] ⟨[],[],[]⟩ (.obj listedOrg) =
      .ok ⟨["x"],["x"],[("x",attestationOfA)]⟩ := by
    have field : endpointField listedOrg = .ok "x" := rfl
    rw [registryRecord,field]
    change (if _ then _ else _) = _
    rw [shaped,listedOrg_attested,Option.map_some,Option.getD_some,place]
    rfl
  have agents : iterate (agentsOf ((if plainDiscovery.registryUrl = "" then none else (answeredAs who).registry).getD
      (.arr []))) = .ok [.obj listedOrg] := rfl
  have start : knownPass plainDiscovery (answeredAs who) = ⟨[],[],[]⟩ := rfl
  unfold listingOf
  rw [start,agents]
  change ((registryRecord plainDiscovery (answeredAs who) [] ⟨[],[],[]⟩ (.obj listedOrg)) >>= _) >>= _ = _
  rw [record]
  rfl

theorem answeredAs_founds {who : String} (named : who ≠ "") (peer : who ≠ "me") :
    foundBy plainDiscovery (answeredAs who) ⟨["x"],["x"],[("x",attestationOfA)]⟩ = [⟨who,"x",.int 0⟩] := by
  have answer : checkChapterEndpoint plainDiscovery (answeredAs who) "x" = some (who,.int 0) := by
    change (if who = "" ∨ who = "me" then none else some (who,Json.int 0)) = some (who,.int 0)
    exact if_neg (not_or.mpr ⟨named,peer⟩)
  unfold foundBy
  rw [List.filterMap_cons,answer]
  rfl

theorem answeredAs_calls {who : String} (named : who ≠ "") (peer : who ≠ "me") :
    (discover plainDiscovery noPeers (answeredAs who)).calls =
      [⟨who,didOf plainDiscovery attestationOfA,"x",some ⟨attestationOfA,0⟩⟩] := by
  unfold discover
  rw [answeredAs_listing]
  dsimp only
  rw [answeredAs_founds named peer]
  rfl

theorem answeredAs_subject : Pinned plainDiscovery (discover plainDiscovery noPeers (answeredAs "org-a")) := by
  apply pinned_as_attested
  refine .step .start ?_ rfl
  have own : ∀ listing, listingOf plainDiscovery (answeredAs "org-a") = .ok listing →
      ∀ found ∈ foundBy plainDiscovery (answeredAs "org-a") listing, found = ⟨"org-a","x",.int 0⟩ ∧
        listing.attestedAt found.endpoint = some attestationOfA := by
    intro listing listed found inside
    cases (answeredAs_listing "org-a").symm.trans listed
    rw [answeredAs_founds (by decide) (by decide)] at inside
    obtain rfl := List.mem_singleton.mp inside
    exact ⟨rfl,rfl⟩
  constructor
  · intro listing listed found inside att attested
    obtain ⟨rfl,here⟩ := own listing listed found inside
    cases here.symm.trans attested
    decide +kernel
  · intro listing listed found inside unlisted
    obtain ⟨_,here⟩ := own listing listed found inside
    cases here.symm.trans unlisted

/-- An endpoint that was attested for one org says that it is another one. -/
theorem answeredAs_another : ¬ Pinned plainDiscovery (discover plainDiscovery noPeers (answeredAs "org-b")) := by
  intro pinned
  have another : "org-b" ≠ "" ∧ "org-b" ≠ "me" := by decide
  have calls := answeredAs_calls another.1 another.2
  have attests := pinned.calls ⟨"org-b",didOf plainDiscovery attestationOfA,"x",some ⟨attestationOfA,0⟩⟩
    (by rw [calls]; exact List.mem_singleton_self _) _ rfl
  exact absurd attests.subject (by decide +kernel)

end Pinning
end Orrery.Federation
