import Orrery.Foundation.JsonCompare
import Orrery.Index.Registry

/-! What the pins of the lean index are worth: which refused writes leave one behind, and
when the records of pinned ids are what their keys attested. -/
namespace Orrery.Index
open Foundation Json Chapter Federation

section Unchanged
variable {env : IndexEnv} {settings : Settings} {s : Service} {write : Write} {tables tables' : Tables} {e : Entry}
  {decision : Decision} {agentId : String} {body : Dict} {now : ℚ}

/-- The first attested write of its id passes the gate, and a check behind the gate
refuses it: the id has a record already (POST), or it is new and the index is full. -/
def LeavesPin (env : IndexEnv) (settings : Settings) (s : Service) (write : Write) : Prop :=
  ∃ e decision, entry env settings s write = some e ∧
    s.tables.admission env e.agentId e.body e.now = some decision ∧ decision.pinDid ≠ none ∧ e.blocked = true

theorem Refused.unique (first : Refused env settings s write tables) {refusal : Refusal} {s' : Service}
    (run : handle env settings write s = .error refusal s') : s'.tables = tables := by
  obtain ⟨_,_,same,kept⟩ := first
  rw [run] at same
  cases same
  exact kept

theorem Accepted.not_refused (accepted : Accepted env settings s write tables) {refusal : Refusal} {s' : Service} :
    handle env settings write s ≠ .error refusal s' := by
  intro run
  obtain ⟨_,_,same,_⟩ := accepted
  rw [run] at same
  cases same

theorem admission_cases (passed : tables.admission env agentId body now = some decision) :
    (field body "attestation" = .null ∧ tables.pinnedDid agentId = none ∧ decision.pinDid = none) ∨
      ∃ reading did, wellFormed (field body "attestation") = some reading ∧
        reading.Attests env.toGateEnv agentId did now ∧ endpointMismatch env.toGateEnv body reading.record = false ∧
        (tables.pinnedDid agentId = some did ∧ decision.pinDid = none ∨
          tables.pinnedDid agentId = none ∧ decision.pinDid = some did) := by
  unfold Tables.admission at passed
  split at passed
  next evaluated =>
    split at passed
    next allowed =>
      cases passed
      exact evaluateWrite_allowed evaluated allowed
    next => cases passed
  next => cases passed

theorem pinnedDid_none : tables.pinnedDid agentId = none ↔ tables.didPins.lookup agentId = none :=
  Option.map_eq_none_iff

theorem gated_unpinning (unpinning : decision.pinDid = none) : tables.gated agentId now decision = tables := by
  rw [Tables.gated,unpinning]

theorem gated_pinning {did : String} (pinning : decision.pinDid = some did)
    (unpinned : tables.pinnedDid agentId = none) :
    tables.gated agentId now decision = { tables with didPins := tables.didPins.insert agentId ⟨did,now⟩ } := by
  rw [Tables.gated,pinning]
  dsimp only
  rw [Tables.pin,pinnedDid_none.mp unpinned]

theorem gated_changes (passed : tables.admission env agentId body now = some decision)
    (pinning : decision.pinDid ≠ none) :
    tables.gated agentId now decision ≠ tables := by
  intro same
  rcases admission_cases passed with ⟨_,_,unpinning⟩ | ⟨reading,did,_,_,_,⟨_,unpinning⟩ | ⟨unpinned,pins⟩⟩
  · exact pinning unpinning
  · exact pinning unpinning
  · rw [gated_pinning pins unpinned] at same
    have absent := pinnedDid_none.mp unpinned
    rw [← same,AList.lookup_insert] at absent
    cases absent

def gardenDid : String :=
  didKeyZ ++ plainCodec.b58encode (multicodecPrefix ++ List.replicate 32 75)

def gardenAttestation (endpoint : String) : Json :=
  .obj [("record",.obj [("v",.int 1),("agent_id",.str "garden"),("did",.str gardenDid),("endpoint",.str endpoint),
    ("issued_at",.int 0),("expires_at",.int 10)]),("sig",.str (keyNamed 'K'))]

def gardenBody (endpoint : Json) : Dict :=
  [("agent_id",.str "garden"),("endpoint",endpoint),("attestation",gardenAttestation "https://garden")]

/-- A refused write changes neither table, the first attested writes that are refused
behind the gate apart: their ids stay pinned. -/
theorem refusal_changes_nothing_iff (on : settings.gate = true) (s : Service) (write : Write) :
    (∀ refusal s', handle env settings write s = .error refusal s' → s'.tables = s.tables) ↔
      ¬ LeavesPin env settings s write := by
  constructor
  · rintro unchanged ⟨e,decision,entered,passed,pinning,blocked⟩
    obtain ⟨refusal,s',run,left⟩ := handle_blocked on entered passed blocked
    have same := unchanged refusal s' run
    rw [left] at same
    exact gated_changes passed pinning same
  · intro harmless refusal s' run
    cases entered : entry env settings s write with
    | none =>
      cases write with
      | delete agentId request =>
        have deleted : Refused env settings s (.delete agentId request) s.tables ∨
            Accepted env settings s (.delete agentId request) (s.tables.delete agentId) :=
              handle_delete s agentId request
        rcases deleted with refused | accepted
        · exact refused.unique run
        · exact absurd run accepted.not_refused
      | post request => exact (handle_unentered (fun _ _ => by simp) entered).unique run
      | put agentId request => exact (handle_unentered (fun _ _ => by simp) entered).unique run
    | some e =>
      cases passed : s.tables.admission env e.agentId e.body e.now with
      | none => exact (handle_refused on entered passed).unique run
      | some decision =>
        cases blocked : e.blocked with
        | true =>
          rw [(handle_blocked on entered passed blocked).unique run]
          apply gated_unpinning
          by_contra pinning
          exact harmless ⟨e,decision,entered,passed,pinning,blocked⟩
        | false => exact absurd run (handle_stored on entered passed blocked).not_refused

def openGarden : Tables := Tables.store ⟨∅,∅⟩ "garden" [("agent_id",.str "garden")] 0

theorem gardenBody_arrives (tables : Tables) : arriving plainEnv openSettings ⟨tables,[]⟩
    (bodyRequest (gardenBody (.str "https://garden"))) = some (.obj (gardenBody (.str "https://garden"))) :=
  arriving_bodyRequest tables (by simp [Proper,ProperFields,gardenBody,gardenAttestation]) (by decide +kernel)

theorem openGarden_refusal : (∀ refusal s', handle plainEnv openSettings
      (.post (bodyRequest (gardenBody (.str "https://garden")))) ⟨openGarden,[]⟩ = .error refusal s' →
      s'.tables = openGarden) ↔
    ¬ LeavesPin plainEnv openSettings ⟨openGarden,[]⟩ (.post (bodyRequest (gardenBody (.str "https://garden")))) :=
  refusal_changes_nothing_iff rfl ⟨openGarden,[]⟩ _

/-- The 409 for an id with an open record leaves the pin. -/
theorem conflict_leaves_pin : ¬ ∀ refusal s', handle plainEnv openSettings
    (.post (bodyRequest (gardenBody (.str "https://garden")))) ⟨openGarden,[]⟩ = .error refusal s' →
    s'.tables = openGarden := by
  intro unchanged
  have entered := (entry_post (e := _)).mpr ⟨_,gardenBody_arrives openGarden,by decide +kernel,rfl⟩
  have passed : openGarden.admission plainEnv "garden" (gardenBody (.str "https://garden")) 0 =
      some ⟨true,"tofu_pin",some gardenDid⟩ := by decide +kernel
  obtain ⟨refusal,s',run,left⟩ := handle_blocked rfl entered passed rfl
  exact gated_changes passed (by decide) (left.symm.trans (unchanged refusal s' run))

end Unchanged

def serve (env : IndexEnv) (settings : Settings) (s : Service) (write : Write) : Service :=
  Effect.final (handle env settings write s)

def EndpointAgrees (env : GateEnv) (endpoint : Option Json) (record : Dict) : Prop :=
  ∀ value, endpoint = some value → value.truthy = true →
    ∃ text, value = .str text ∧ rstripSlash text = rstripSlash (env.str (field record "endpoint"))

def Row.Attested (env : GateEnv) (row : Row) (agentId did : String) : Prop :=
  ∃ reading, wellFormed (field row.doc "attestation") = some reading ∧ reading.Attests env agentId did row.updatedAt ∧
    EndpointAgrees env (get row.doc "endpoint") reading.record

/-- The records of pinned ids are attested by the did:keys of their pins. -/
def Tables.PinnedAttested (env : GateEnv) (tables : Tables) : Prop :=
  ∀ agentId row pin, tables.agents.lookup agentId = some row → tables.didPins.lookup agentId = some pin →
    row.Attested env agentId pin.did

def Tables.OpenUnattested (tables : Tables) : Prop :=
  ∀ agentId row, tables.agents.lookup agentId = some row → tables.didPins.lookup agentId = none →
    field row.doc "attestation" = .null

def Entry.endpoint (tables : Tables) (e : Entry) : Option Json :=
  (get e.body "endpoint").or ((tables.agents.lookup e.agentId).bind fun row => get row.doc "endpoint")

/-- An attested write that the gate lets through pins no id that has a record it does not
replace, and comes with the attested endpoint where it is stored. -/
def BringsAttested (env : IndexEnv) (settings : Settings) (s : Service) (write : Write) : Prop :=
  ∀ e decision reading, entry env settings s write = some e →
    s.tables.admission env e.agentId e.body e.now = some decision →
    wellFormed (field e.body "attestation") = some reading →
    (e.blocked = true → decision.pinDid ≠ none → s.tables.agents.lookup e.agentId = none) ∧
      (e.blocked = false → EndpointAgrees env.toGateEnv (e.endpoint s.tables) reading.record)

section Merging

theorem get_update {body : Dict} (distinct : (body.map Prod.fst).Nodup) (key : String) (doc : Dict) :
    get (update doc body) key = (get body key).or (get doc key) := get_assigned distinct key doc

theorem get_mergedDoc {body : Dict} (distinct : (body.map Prod.fst).Nodup) (agentId : String) (existing : Option Dict)
    {key : String} (other : key ≠ "agent_id") :
    get (mergedDoc agentId existing body) key = (get body key).or (existing.bind fun doc => get doc key) := by
  have fresh : get [("agent_id",Json.str agentId)] key = none := by
    rw [get_cons,if_neg (by simpa using Ne.symm other)]
    rfl
  unfold mergedDoc
  rw [get_setItem_other _ _ _ _ other,get_update distinct]
  cases existing with
  | none => rw [fresh]; rfl
  | some doc =>
    dsimp only
    split
    next empty =>
      rw [fresh,List.isEmpty_iff.mp empty]
      rfl
    next => rfl

end Merging

section Entered
variable {env : IndexEnv} {settings : Settings} {s : Service} {write : Write} {e : Entry}

theorem arriving_distinct {request : Request} {body : Dict}
    (arrived : arriving env settings s request = some (.obj body)) : (body.map Prod.fst).Nodup := by
  obtain ⟨s',received,_⟩ := arriving_some arrived
  obtain ⟨_,t,_,read⟩ := (Effect.bind_ok _ _ _ _ _).mp received
  unfold readBody at read
  split at read
  next => cases read
  next value capped =>
    cases read
    obtain ⟨_,_,capped⟩ := bind_success _ _ _ capped
    obtain ⟨raw,_,capped⟩ := bind_success _ _ _ capped
    split at capped
    next => cases capped
    next =>
      split at capped
      next loaded =>
        cases capped
        exact env.loads_distinct raw body loaded
      next => cases capped

theorem entry_doc (entered : entry env settings s write = some e) (free : e.blocked = false) {key : String}
    (other : key ≠ "agent_id") : get e.doc key =
      (get e.body key).or ((s.tables.agents.lookup e.agentId).bind fun row => get row.doc key) := by
  cases write with
  | post request =>
    obtain ⟨body,_,_,rfl⟩ := entry_post.mp entered
    have absent : s.tables.agents.lookup (bodyAgentId env body) = none := by
      simpa using (Bool.or_eq_false_iff.mp free).1
    dsimp only
    rw [absent,Option.bind_none,Option.or_none]
  | put agentId request =>
    obtain ⟨body,arrived,rfl⟩ := entry_put.mp entered
    dsimp only
    rw [get_mergedDoc (arriving_distinct arrived) _ _ other]
    cases s.tables.agents.lookup agentId <;> rfl
  | delete agentId request => cases entered

end Entered

section Served
variable {env : IndexEnv} {settings : Settings} {s : Service} {write : Write} {tables : Tables} {e : Entry}
  {decision : Decision} {reading : Reading} {did : String}

theorem Refused.serves (refused : Refused env settings s write tables) : (serve env settings s write).tables =
    tables := by
  obtain ⟨_,_,run,same⟩ := refused
  rw [serve,run]
  exact same

theorem Accepted.serves (accepted : Accepted env settings s write tables) :
    (serve env settings s write).tables = tables := by
  obtain ⟨_,_,run,same⟩ := accepted
  rw [serve,run]
  exact same

theorem serve_cases (env : IndexEnv) (on : settings.gate = true) (s : Service) (write : Write) :
    ((serve env settings s write).tables = s.tables ∧ ∀ e decision, entry env settings s write = some e →
        s.tables.admission env e.agentId e.body e.now ≠ some decision) ∨
      (entry env settings s write = none ∧ ∃ agentId, (serve env settings s write).tables = s.tables.delete agentId) ∨
      ∃ e decision, entry env settings s write = some e ∧
        s.tables.admission env e.agentId e.body e.now = some decision ∧
        (e.blocked = true ∧ (serve env settings s write).tables = s.tables.gated e.agentId e.now decision ∨
          e.blocked = false ∧ (serve env settings s write).tables =
            (s.tables.gated e.agentId e.now decision).store e.agentId e.doc e.now) := by
  cases entered : entry env settings s write with
  | none =>
    cases write with
    | delete agentId request =>
      have deleted : Refused env settings s (.delete agentId request) s.tables ∨
          Accepted env settings s (.delete agentId request) (s.tables.delete agentId) := handle_delete s agentId request
      rcases deleted with refused | accepted
      · exact Or.inl ⟨refused.serves,nofun⟩
      · exact Or.inr (Or.inl ⟨rfl,agentId,accepted.serves⟩)
    | post request => exact Or.inl ⟨(handle_unentered (fun _ _ => by simp) entered).serves,nofun⟩
    | put agentId request => exact Or.inl ⟨(handle_unentered (fun _ _ => by simp) entered).serves,nofun⟩
  | some e =>
    cases passed : s.tables.admission env e.agentId e.body e.now with
    | none =>
      refine Or.inl ⟨(handle_refused on entered passed).serves,?_⟩
      intro e' decision same
      cases same
      rw [passed]
      nofun
    | some decision =>
      refine Or.inr (Or.inr ⟨e,decision,rfl,passed,?_⟩)
      cases blocked : e.blocked with
      | true => exact Or.inl ⟨rfl,(handle_blocked on entered passed blocked).serves⟩
      | false => exact Or.inr ⟨rfl,(handle_stored on entered passed blocked).serves⟩

theorem lookup_delete {tables : Tables} {agentId other : String} {row : Row}
    (found : (tables.delete agentId).agents.lookup other = some row) : tables.agents.lookup other = some row := by
  rw [Tables.delete] at found
  by_cases same : other = agentId
  · rw [same,AList.lookup_erase] at found
    cases found
  · rwa [AList.lookup_erase_ne same] at found

theorem lookup_gated {tables : Tables} {agentId other : String} {now : ℚ} (apart : other ≠ agentId) :
    (tables.gated agentId now decision).didPins.lookup other = tables.didPins.lookup other := by
  unfold Tables.gated
  split
  next =>
    unfold Tables.pin
    split
    next => rfl
    next => exact AList.lookup_insert_ne apart
  next => rfl

theorem gated_attested {agentId : String} {body : Dict} {now : ℚ}
    (passed : tables.admission env agentId body now = some decision)
    (read : wellFormed (field body "attestation") = some reading) :
    ∃ pin, (tables.gated agentId now decision).didPins.lookup agentId = some pin ∧
      reading.Attests env.toGateEnv agentId pin.did now := by
  rcases admission_cases passed with ⟨absent,_,_⟩ | ⟨reading',did,read',attests,_,⟨pinned,unpinning⟩ | ⟨unpinned,pins⟩⟩
  · rw [absent] at read
    cases read
  · rw [read] at read'
    cases read'
    obtain ⟨pin,found,rfl⟩ := Option.map_eq_some_iff.mp pinned
    exact ⟨pin,by rw [gated_unpinning unpinning,found],attests⟩
  · rw [read] at read'
    cases read'
    exact ⟨⟨did,now⟩,by rw [gated_pinning pins unpinned]; exact AList.lookup_insert _,attests⟩

theorem gated_open {agentId : String} {body : Dict} {now : ℚ}
    (passed : tables.admission env agentId body now = some decision)
    (unread : wellFormed (field body "attestation") = none) :
    field body "attestation" = .null ∧ tables.didPins.lookup agentId = none ∧
      tables.gated agentId now decision = tables := by
  rcases admission_cases passed with ⟨absent,unpinned,unpinning⟩ | ⟨_,_,read,_⟩
  · exact ⟨absent,pinnedDid_none.mp unpinned,gated_unpinning unpinning⟩
  · rw [unread] at read
    cases read

theorem openUnattested_serve (on : settings.gate = true) (open_ : s.tables.OpenUnattested) (write : Write) :
    (serve env settings s write).tables.OpenUnattested := by
  rcases serve_cases env on s write with ⟨same,_⟩ | ⟨_,agentId,same⟩ | ⟨e,decision,entered,passed,outcome⟩
  · rw [same]
    exact open_
  · rw [same]
    exact fun other row found unpinned => open_ other row (lookup_delete found) unpinned
  · have gated : (s.tables.gated e.agentId e.now decision).OpenUnattested := by
      intro other row found unpinned
      rw [gated_agents] at found
      apply open_ other row found
      by_cases here : other = e.agentId
      · cases read : wellFormed (field e.body "attestation") with
        | none => rw [here]; exact (gated_open passed read).2.1
        | some reading =>
          obtain ⟨pin,pinned,_⟩ := gated_attested passed read
          rw [here,pinned] at unpinned
          cases unpinned
      · rwa [lookup_gated here] at unpinned
    rcases outcome with ⟨_,same⟩ | ⟨free,same⟩
    · rw [same]
      exact gated
    · rw [same]
      intro other row found unpinned
      by_cases here : other = e.agentId
      · rw [here,Tables.store,AList.lookup_insert] at found
        cases found
        cases read : wellFormed (field e.body "attestation") with
        | some reading =>
          obtain ⟨pin,pinned,_⟩ := gated_attested passed read
          rw [here] at unpinned
          exact absurd (pinned.symm.trans unpinned) nofun
        | none =>
          obtain ⟨absent,free_,_⟩ := gated_open passed read
          rw [field,entry_doc entered free (by decide)]
          cases named : get e.body "attestation" with
          | some value =>
            rw [field,named] at absent
            exact absent
          | none =>
            cases stored : s.tables.agents.lookup e.agentId with
            | none => rfl
            | some row => exact open_ e.agentId row stored free_
      · rw [Tables.store,AList.lookup_insert_ne here] at found
        exact gated other row found unpinned

theorem pinnedAttested_store {tables : Tables} {agentId : String} {doc : Dict} {now : ℚ} {pin : Pin}
    (others : ∀ other row pin, other ≠ agentId → tables.agents.lookup other = some row →
      tables.didPins.lookup other = some pin → row.Attested env.toGateEnv other pin.did)
    (pinned : tables.didPins.lookup agentId = some pin) :
    (tables.store agentId doc now).PinnedAttested env.toGateEnv ↔
      Row.Attested env.toGateEnv ⟨doc,now⟩ agentId pin.did := by
  constructor
  · intro attested
    exact attested agentId ⟨doc,now⟩ pin (AList.lookup_insert _) pinned
  · intro attested other row pin' found pinned'
    by_cases here : other = agentId
    · rw [here,Tables.store,AList.lookup_insert] at found
      rw [here] at pinned' ⊢
      obtain rfl : pin = pin' := Option.some.inj (pinned.symm.trans pinned')
      cases found
      exact attested
    · rw [Tables.store,AList.lookup_insert_ne here] at found
      exact others other row pin' here found pinned'

theorem pinnedAttested_blocked {tables : Tables} {agentId : String} {body : Dict} {now : ℚ}
    (open_ : tables.OpenUnattested) (attested : tables.PinnedAttested env.toGateEnv)
    (passed : tables.admission env agentId body now = some decision)
    (read : wellFormed (field body "attestation") = some reading)
    (others : ∀ other row pin, other ≠ agentId →
      (tables.gated agentId now decision).agents.lookup other = some row →
      (tables.gated agentId now decision).didPins.lookup other = some pin → row.Attested env.toGateEnv other pin.did) :
    (tables.gated agentId now decision).PinnedAttested env.toGateEnv ↔
      (decision.pinDid ≠ none → tables.agents.lookup agentId = none) := by
  constructor
  · intro spoiled pinning
    obtain ⟨pin,pinned,_⟩ := gated_attested passed read
    cases stored : tables.agents.lookup agentId with
    | none => rfl
    | some row =>
      obtain ⟨reading',read',_⟩ := spoiled agentId row pin (by rw [gated_agents,stored]) pinned
      rcases admission_cases passed with ⟨_,_,unpinning⟩ | ⟨_,_,_,_,_,⟨_,unpinning⟩ | ⟨unpinned,_⟩⟩
      · exact absurd unpinning pinning
      · exact absurd unpinning pinning
      · rw [open_ agentId row stored (pinnedDid_none.mp unpinned)] at read'
        cases read'
  · intro new
    by_cases unpinning : decision.pinDid = none
    · rw [gated_unpinning unpinning]
      exact attested
    · intro other row pin found pinned
      by_cases here : other = agentId
      · rw [here,gated_agents,new unpinning] at found
        cases found
      · exact others other row pin here found pinned

theorem attested_doc (entered : entry env settings s write = some e) (free : e.blocked = false)
    (read : wellFormed (field e.body "attestation") = some reading)
    (attests : reading.Attests env.toGateEnv e.agentId did e.now) :
    Row.Attested env.toGateEnv ⟨e.doc,e.now⟩ e.agentId did ↔
      EndpointAgrees env.toGateEnv (e.endpoint s.tables) reading.record := by
  have carried : field e.doc "attestation" = field e.body "attestation" := by
    rw [field,entry_doc entered free (by decide)]
    cases named : get e.body "attestation" with
    | some value => rw [field,named]; rfl
    | none =>
      rw [field,named] at read
      cases read
  have place : get e.doc "endpoint" = e.endpoint s.tables := entry_doc entered free (by decide)
  constructor
  · intro premise
    obtain ⟨reading',read',_,agrees⟩ := premise
    dsimp only at read' agrees
    rw [carried,read] at read'
    cases read'
    rwa [place] at agrees
  · intro agrees
    exact ⟨reading,carried ▸ read,attests,place ▸ agrees⟩

theorem pinnedAttested_serve (on : settings.gate = true) (open_ : s.tables.OpenUnattested)
    (attested : s.tables.PinnedAttested env.toGateEnv) (write : Write) :
    (serve env settings s write).tables.PinnedAttested env.toGateEnv ↔ BringsAttested env settings s write := by
  rcases serve_cases env on s write with ⟨same,stopped⟩ | ⟨missing,agentId,same⟩ |
    ⟨e,decision,entered,passed,outcome⟩
  · rw [same]
    exact iff_of_true attested fun e decision _ entered passed => absurd passed (stopped e decision entered)
  · rw [same]
    refine iff_of_true (fun other row pin found pinned => attested other row pin (lookup_delete found) pinned) ?_
    intro e decision reading entered
    rw [missing] at entered
    cases entered
  · have others : ∀ other row pin, other ≠ e.agentId →
        (s.tables.gated e.agentId e.now decision).agents.lookup other = some row →
        (s.tables.gated e.agentId e.now decision).didPins.lookup other = some pin →
        row.Attested env.toGateEnv other pin.did := by
      intro other row pin apart found pinned
      rw [gated_agents] at found
      rw [lookup_gated apart] at pinned
      exact attested other row pin found pinned
    have brings : BringsAttested env settings s write ↔ ∀ reading,
        wellFormed (field e.body "attestation") = some reading →
        (e.blocked = true → decision.pinDid ≠ none → s.tables.agents.lookup e.agentId = none) ∧
          (e.blocked = false → EndpointAgrees env.toGateEnv (e.endpoint s.tables) reading.record) := by
      constructor
      · exact fun all reading read => all e decision reading entered passed read
      · intro this e' decision' reading entered' passed' read
        rw [entered] at entered'
        cases entered'
        rw [passed] at passed'
        cases passed'
        exact this reading read
    rw [brings]
    cases read : wellFormed (field e.body "attestation") with
    | none =>
      obtain ⟨_,unpinned,still⟩ := gated_open passed read
      rw [still] at outcome others
      refine iff_of_true ?_ nofun
      rcases outcome with ⟨_,same⟩ | ⟨_,same⟩
      · rw [same]
        exact attested
      · rw [same]
        intro other row pin found pinned
        by_cases here : other = e.agentId
        · rw [here] at pinned
          exact absurd (unpinned.symm.trans pinned) nofun
        · rw [Tables.store,AList.lookup_insert_ne here] at found
          exact others other row pin here found pinned
    | some reading =>
      rcases outcome with ⟨blocked,same⟩ | ⟨free,same⟩
      · rw [same,pinnedAttested_blocked open_ attested passed read others]
        simp [blocked]
      · obtain ⟨pin,pinned,attests⟩ := gated_attested passed read
        rw [same,pinnedAttested_store others pinned,attested_doc entered free read attests]
        simp [free]

/-- In every state of a run from the empty index the records of pinned ids are attested,
exactly when every write of the run brings what it needs to. -/
theorem pinned_records_attested_iff (on : settings.gate = true) (writes : List Write) :
    (∀ k, ((writes.take k).foldl (serve env settings) Service.empty).tables.PinnedAttested env.toGateEnv) ↔
      ∀ (k : Nat) write, writes[k]? = some write →
        BringsAttested env settings ((writes.take k).foldl (serve env settings) Service.empty) write := by
  have keeps : ∀ s write, s.tables.OpenUnattested → (serve env settings s write).tables.OpenUnattested :=
    fun s write open_ => openUnattested_serve on open_ write
  have precisely : ∀ s write, s.tables.OpenUnattested → s.tables.PinnedAttested env.toGateEnv →
      ((serve env settings s write).tables.PinnedAttested env.toGateEnv ↔ BringsAttested env settings s write) :=
    fun s write open_ attested => pinnedAttested_serve on open_ attested write
  apply Runs.always_iff (P := fun s : Service => s.tables.PinnedAttested env.toGateEnv) keeps precisely writes
  · intro agentId row found
    cases found
  · intro agentId row pin found
    cases found

theorem garden_run : (∀ k, (([.post (bodyRequest (gardenBody (.str "https://garden")))].take k).foldl
      (serve plainEnv openSettings) Service.empty).tables.PinnedAttested plainEnv.toGateEnv) ↔
    ∀ (k : Nat) write, ([.post (bodyRequest (gardenBody (.str "https://garden")))] : List Write)[k]? = some write →
      BringsAttested plainEnv openSettings (([.post (bodyRequest (gardenBody (.str "https://garden")))].take k).foldl
        (serve plainEnv openSettings) Service.empty) write :=
  pinned_records_attested_iff rfl _

/-- An endpoint in a list is not compared with the attested one, and is stored. -/
theorem listed_endpoint_unattested :
    ¬ ∀ k, (([.post (bodyRequest (gardenBody (.arr [.str "https://weeds"])))].take k).foldl
    (serve plainEnv openSettings) Service.empty).tables.PinnedAttested plainEnv.toGateEnv := by
  intro attested
  have stored := attested 1
  rw [List.take_succ_cons,List.take_zero,List.foldl_cons,List.foldl_nil] at stored
  have arrives : arriving plainEnv openSettings Service.empty (bodyRequest (gardenBody (.arr [.str "https://weeds"]))) =
      some (.obj (gardenBody (.arr [.str "https://weeds"]))) :=
    arriving_bodyRequest _ (by simp [Proper,ProperFields,ProperItems,gardenBody,gardenAttestation]) (by decide +kernel)
  have named : bodyAgentId plainEnv (gardenBody (.arr [.str "https://weeds"])) = "garden" := by decide +kernel
  have entered := entry_post.mpr ⟨_,arrives,by rw [named]; decide,rfl⟩
  rw [named] at entered
  have passed : Service.empty.tables.admission plainEnv "garden" (gardenBody (.arr [.str "https://weeds"])) 0 =
      some ⟨true,"tofu_pin",some gardenDid⟩ := by decide +kernel
  have unattested : Service.empty.tables.OpenUnattested := fun _ _ found => by cases found
  have vacuous : Service.empty.tables.PinnedAttested plainEnv.toGateEnv := fun _ _ _ found => by cases found
  have brings := (pinnedAttested_serve rfl unattested vacuous _).mp stored
  rcases admission_cases passed with ⟨absent,_,_⟩ | ⟨reading,did,read,_⟩
  · have signed : (field (gardenBody (.arr [.str "https://weeds"])) "attestation").truthy = true := by decide +kernel
    rw [absent] at signed
    cases signed
  · obtain ⟨text,same,_⟩ := (brings _ _ reading entered passed read).2 rfl _ rfl rfl
    cases same

end Served

end Orrery.Index
