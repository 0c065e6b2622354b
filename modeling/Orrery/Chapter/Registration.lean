import Orrery.Chapter.Identity
import Orrery.Chapter.PgStore

/-! Registration of members (server/chapter_agent.py): the checks of `register_member`, the
record it writes, and the upsert by which `_persist_member_to_db` stores it. -/
namespace Orrery.Chapter
open Foundation Json

def isSpace (c : Char) : Bool :=
  (9 ≤ c.toNat && c.toNat ≤ 13) || (28 ≤ c.toNat && c.toNat ≤ 32) || c.toNat == 0x85 || c.toNat == 0xa0 ||
    c.toNat == 0x1680 || (0x2000 ≤ c.toNat && c.toNat ≤ 0x200a) || c.toNat == 0x2028 || c.toNat == 0x2029 ||
    c.toNat == 0x202f || c.toNat == 0x205f || c.toNat == 0x3000

def strip (text : List Char) : List Char := ((text.dropWhile isSpace).reverse.dropWhile isSpace).reverse

def removeMarker (marker : List Char) : Nat → List Char → List Char
  | _, [] => []
  | skip+1, _ :: rest => removeMarker marker skip rest
  | 0, c :: rest =>
    if marker.isPrefixOf (c :: rest) then removeMarker marker (marker.length-1) rest
    else c :: removeMarker marker 0 rest

def promptMarkers : List String := ["<|system|>","<|user|>","<|assistant|>","[INST]","[/INST]","<<SYS>>","<</SYS>>"]

def sanitizeText (text : String) (maxLength : Nat) : String :=
  let clean := (text.toList.take maxLength).filter (· ≠ '\x00')
  String.ofList (strip (promptMarkers.foldl (fun text marker => removeMarker marker.toList 0 text) clean))

def idChar (c : Char) : Bool :=
  c.isAlphanum || c == '-' || c == '_' || c == '@' || c == '.'

def sanitizeAgentId (agentId : String) : String := String.ofList ((agentId.toList.filter idChar).take 64)

structure MemberRegistration where
  agentId : String
  name : String
  description : String := ""
  endpoint : String := ""
  skills : List String := []
  personality : String := ""
  voice : String := "helpful"
  virtual : Bool := true
  publicKey : String := ""
  origin : String := "sovereign"
  inviteToken : String := ""
  agentKind : String := "member"

structure Member where
  name : String
  description : String
  skills : List String
  endpoint : String
  personality : String
  voice : String
  virtual : Bool
  publicKey : String
  origin : String
  agentKind : String
  others : Dict

inductive Response
  | json (content : Dict)
  | status (code : Nat) (content : Dict)

inductive JoinPolicy
  | opened
  | invite
  | approval
deriving DecidableEq

/-- What the gate for new joins finds: the policy, whether the id is being admitted, whether
the invite could be consumed, and the id of the approval that was proposed. -/
structure JoinGate where
  policy : JoinPolicy
  admitting : Bool
  inviteConsumed : Bool
  approvalId : Json

def validOrigins : List String := ["openclaw","openclaw_sandboxed","sovereign"]

def originOf (reg : MemberRegistration) : String :=
  let raw := if reg.origin = "" then "sovereign" else reg.origin
  String.ofList ((strip raw.toList).map Char.toLower)

def publicationNotice : Json := .obj [
  ("published_fields",.arr [.str "name",.str "description",.str "skills",.str "endpoint"]),
  ("audience",.str "every signed member of this org, federation peers, and any crawler that resolves this member's AgentFacts or catalog entry"),
  ("detail",.str ("The name, description, skills and endpoint you supplied are PUBLISHED. Do not put " ++
    "an email address, phone number, postal address or anything else private in them. " ++
    "There is no per-member opt-out today."))]

def safeSkills (reg : MemberRegistration) : List String := (reg.skills.take 20).map fun s => sanitizeText s 50

def registrationRefusal (existing : Option Member) (reg : MemberRegistration) : Option Response :=
  if sanitizeAgentId reg.agentId = "" ∨ sanitizeText reg.name 100 = "" then
    some (.json [("error",.str "agent_id and name required")])
  else if originOf reg ∉ validOrigins then
    some (.json [("error",.str "invalid origin: must be one of ['openclaw', 'openclaw_sandboxed', 'sovereign']")])
  else match existing with
  | none => none
  | some member =>
    if member.origin ≠ "" ∧ member.origin ≠ originOf reg then
      some (.json [("error",.str s!"origin mismatch: agent already registered as {member.origin}"),
        ("existing_origin",.str member.origin)])
    else if member.publicKey ≠ "" ∧ reg.publicKey ≠ "" ∧ reg.publicKey ≠ member.publicKey then
      some (.status 403 [("error",.str "key_change_requires_rotation"),
        ("detail",.str ("Changing a registered agent's key is a signed rotation; " ++
          "use POST /api/members/rotate (attested by the current key)."))])
    else none

def joinRefusal (gate : JoinGate) : Option Response :=
  if gate.admitting then none
  else match gate.policy with
  | .opened => none
  | .invite =>
    if gate.inviteConsumed then none
    else some (.status 403 [("error",.str "invite_required"),
      ("detail",.str "This org requires a valid invite to join. Ask an admin or leader for one.")])
  | .approval => some (.json [("status",.str "pending_approval"),("approval_id",gate.approvalId),
      ("detail",.str "Your request to join is pending a leader's approval."),("publication_notice",publicationNotice)])

def memberRecord (existing : Option Member) (reg : MemberRegistration) : Member where
  name := sanitizeText reg.name 100
  description := orText (sanitizeText reg.description 500) ((existing.map Member.description).getD "")
  skills := if (safeSkills reg).isEmpty then (existing.map Member.skills).getD [] else safeSkills reg
  endpoint := orText (sanitizeText reg.endpoint 200) ((existing.map Member.endpoint).getD "")
  personality := sanitizeText reg.personality 500
  voice := sanitizeText reg.voice 20
  virtual := reg.virtual
  publicKey := orText reg.publicKey ((existing.map Member.publicKey).getD "")
  origin := originOf reg
  agentKind := if reg.agentKind = "service" then "service" else "member"
  others := (existing.map Member.others).getD []

def registerMember (existing : Option Member) (gate : JoinGate) (reg : MemberRegistration) : Except Response Member :=
  match registrationRefusal existing reg with
  | some refusal => .error refusal
  | none =>
    match existing with
    | some _ => .ok (memberRecord existing reg)
    | none =>
      match joinRefusal gate with
      | some refusal => .error refusal
      | none => .ok (memberRecord none reg)

def keyProvenanceKey : String := "key_provenance"

def keyProvenance (source moment : String) : Json :=
  .obj [("source",.str source),("attested",.bool false),("at",.str moment)]

def looksLikeEd25519 (publicKey : String) : Bool := publicKey.length == 44 && publicKey.toList.getLast? == some '='

section Persist
variable (codec : Codec) (chapter : String)

def memberConfig (member : Member) : Dict :=
  [("parent_chapter",.str chapter),("voice",.str member.voice),("personality",.str member.personality),
    ("virtual",.bool member.virtual),("registered_via",.str "api"),("endpoint",.str member.endpoint)]

def memberFacts (member : Member) (keySource : Option String) (moment : String) : Option Dict :=
  if looksLikeEd25519 member.publicKey then
    (tryBuildDidKeyFromEd25519 codec member.publicKey).map fun did =>
      ("provider",.obj [("did",.str did)]) :: (keySource.map fun source => (keyProvenanceKey,
        keyProvenance source moment)).toList
  else none

def memberRow (agentId : String) (member : Member) (keySource : Option String) (moment : String) : Dict :=
  [("agent_id",.str agentId),("name",.str member.name),("description",.str member.description),
    ("skills",.arr (member.skills.map .str)),("origin",.str member.origin),("status",.str "active"),
    ("chapter_role",.str (if member.agentKind = "service" then "service" else "member")),
    ("profile_type",.str "member"),("config",.obj (memberConfig chapter member)),
    ("nest_registered",.bool false),("trust_score",.int 0)] ++
  (memberFacts codec member keySource moment).toList.map fun facts => ("agent_facts",.obj facts)

def agentsTypes : List (String × String) :=
  [("agent_id","text"),("name","text"),("description","text"),("skills","text[]"),("status","text"),
    ("nest_registered","boolean"),("agent_facts","jsonb"),("config","jsonb"),("profile_type","text"),
    ("chapter_role","text"),("trust_score","real"),("origin","text")]

def persistUpsert (agentId : String) (member : Member) (keySource : Option String) (moment : String) : Upsert :=
  buildUpsert "agents" (memberRow codec chapter agentId member keySource moment) ["agent_id"] ["config","agent_facts"]

def ownedConfig : List String := ["parent_chapter","voice","personality","virtual","registered_via","endpoint"]

def ownedFacts : List String := ["provider",keyProvenanceKey]

structure Kept (stored after : TableRow) : Prop where
  chapterRole : after "chapter_role" = stored "chapter_role"
  trustScore : after "trust_score" = stored "trust_score"
  status : after "status" = stored "status"
  config : ∀ key, key ∉ ownedConfig → jsonbField (after "config") key = jsonbField (stored "config") key
  facts : ∀ key, key ∉ ownedFacts → jsonbField (after "agent_facts") key = jsonbField (stored "agent_facts") key

variable {codec chapter} {agentId : String} {member : Member} {keySource : Option String} {moment : String}
  {stored : TableRow}

theorem memberConfig_unowned {key : String} (unowned : key ∉ ownedConfig) : get (memberConfig chapter member) key =
    none :=
  get_absent unowned

theorem memberFacts_unowned {facts : Dict} (written : memberFacts codec member keySource moment = some facts)
    {key : String}
    (unowned : key ∉ ownedFacts) : get facts key = none := by
  unfold memberFacts at written
  split at written
  · obtain ⟨did,_,rfl⟩ := Option.map_eq_some_iff.mp written
    apply get_absent
    intro inside
    cases keySource with
    | none => exact unowned (List.mem_cons.mpr (Or.inl (List.mem_singleton.mp inside)))
    | some source => exact unowned inside
  · cases written

theorem persistUpsert_columns (codec : Codec) (chapter agentId : String) (member : Member) (keySource : Option String)
    (moment : String) (stored : TableRow) :
    (persistUpsert codec chapter agentId member keySource moment).onConflict agentsTypes stored "status" =
        some (.str "active") ∧
      (persistUpsert codec chapter agentId member keySource moment).onConflict agentsTypes stored "trust_score" =
        some (.float 0) ∧
      (persistUpsert codec chapter agentId member keySource moment).onConflict agentsTypes stored "chapter_role" =
        some (.str (if member.agentKind = "service" then "service" else "member")) := by
  unfold persistUpsert
  rw [onConflict_column (List.cons_ne_nil _ _),onConflict_column (List.cons_ne_nil _ _),
    onConflict_column (List.cons_ne_nil _ _)]
  refine ⟨?_,?_,?_⟩
  · simp [memberRow,get_cons,literalFor]
  · simp [memberRow,get_cons,literalFor,agentsTypes,List.lookup_cons]
  · simp [memberRow,get_cons,literalFor]

theorem persistUpsert_config {key : String} (unowned : key ∉ ownedConfig) :
    jsonbField ((persistUpsert codec chapter agentId member keySource moment).onConflict agentsTypes stored "config")
      key =
      jsonbField (stored "config") key := by
  have written : (persistUpsert codec chapter agentId member keySource moment).onConflict agentsTypes stored "config" =
      (stored "config").map fun old => jsonbConcat old (.obj (memberConfig chapter member)) := by
    unfold persistUpsert
    rw [onConflict_column (List.cons_ne_nil _ _)]
    cases stored "config" <;> simp [memberRow,get_cons,literalFor]
  rw [written]
  cases stored "config" with
  | none => rfl
  | some old => exact jsonbField_concat (memberConfig_unowned unowned)

theorem persistUpsert_facts {key : String} (unowned : key ∉ ownedFacts) :
    jsonbField ((persistUpsert codec chapter agentId member keySource moment).onConflict agentsTypes stored
      "agent_facts")
      key = jsonbField (stored "agent_facts") key := by
  unfold persistUpsert
  rw [onConflict_column (List.cons_ne_nil _ _)]
  cases made : memberFacts codec member keySource moment with
  | none =>
    have absent : "agent_facts" ∉ (memberRow codec chapter agentId member keySource moment).map Prod.fst := by
      simp [memberRow,made]
    rw [if_neg fun written => absent written.1]
  | some facts =>
    have written : get (memberRow codec chapter agentId member keySource moment) "agent_facts" = some (.obj facts) := by
      simp [memberRow,made,get_cons]
    have inside : "agent_facts" ∈ (memberRow codec chapter agentId member keySource moment).map Prod.fst := by
      simp [memberRow,made]
    rw [if_pos ⟨inside,by decide⟩,if_pos (by decide),written]
    cases stored "agent_facts" with
    | none => rfl
    | some old => exact jsonbField_concat (memberFacts_unowned made unowned)

theorem registerMember_ok {existing : Option Member} {gate : JoinGate} {reg : MemberRegistration}
    (accepted : registerMember existing gate reg = .ok member) :
    registrationRefusal existing reg = none ∧ member = memberRecord existing reg := by
  unfold registerMember at accepted
  split at accepted
  · cases accepted
  next allowed =>
    refine ⟨allowed,?_⟩
    split at accepted
    · exact (Except.ok.inj accepted).symm
    · split at accepted
      · cases accepted
      · exact (Except.ok.inj accepted).symm

/-- For every stored row and every registration that is accepted: the upsert keeps the role,
the trust and the status of the member, and the keys of `config` and `agent_facts` that are
not its own, exactly if the row held the role, the trust and the status of a fresh member. -/
theorem reregistration_keeps_iff {existing : Option Member} {gate : JoinGate} {reg : MemberRegistration}
    (accepted : registerMember existing gate reg = .ok member) (stored : TableRow) :
    Kept stored ((persistUpsert codec chapter (sanitizeAgentId reg.agentId) member keySource moment).onConflict
      agentsTypes
      stored) ↔
    stored "status" = some (.str "active") ∧ stored "trust_score" = some (.float 0) ∧
      stored "chapter_role" = some (.str (if reg.agentKind = "service" then "service" else "member")) := by
  obtain ⟨_,rfl⟩ := registerMember_ok accepted
  have role : (if (memberRecord existing reg).agentKind = "service" then "service" else "member") =
      if reg.agentKind = "service" then "service" else "member" := by
    dsimp only [memberRecord]
    split <;> rfl
  obtain ⟨status,trust,chapterRole⟩ := persistUpsert_columns codec chapter (sanitizeAgentId reg.agentId)
    (memberRecord existing reg) keySource moment stored
  rw [role] at chapterRole
  constructor
  · intro kept
    exact ⟨kept.status.symm.trans status,kept.trustScore.symm.trans trust,kept.chapterRole.symm.trans chapterRole⟩
  · rintro ⟨active,zero,fresh⟩
    exact ⟨chapterRole.trans fresh.symm,trust.trans zero.symm,status.trans active.symm,
      fun key unowned => persistUpsert_config unowned,fun key unowned => persistUpsert_facts unowned⟩

def annRegistration : MemberRegistration := { agentId := "ann", name := "Ann" }

def annMember : Member := memberRecord none annRegistration

def openGate : JoinGate := ⟨.opened,false,false,.null⟩

theorem ann_registers : registerMember (some annMember) openGate annRegistration =
    .ok (memberRecord (some annMember) annRegistration) := by
  have allowed : registrationRefusal (some annMember) annRegistration = none := by
    unfold registrationRefusal
    rw [if_neg (by decide +kernel),if_neg (by decide +kernel)]
    dsimp only
    rw [if_neg (by decide +kernel),if_neg (by decide +kernel)]
  rw [registerMember,allowed]

def agentsRow (role : String) (trust : ℚ) (status : String) : TableRow := fun column =>
  if column = "chapter_role" then some (.str role)
  else if column = "trust_score" then some (.float trust)
  else if column = "status" then some (.str status)
  else none

theorem freshRow_kept : Kept (agentsRow "member" 0 "active") ((persistUpsert plainCodec "acme"
    (sanitizeAgentId annRegistration.agentId) (memberRecord (some annMember) annRegistration) none "").onConflict
      agentsTypes
      (agentsRow "member" 0 "active")) :=
  (reregistration_keeps_iff ann_registers _).mpr ⟨rfl,rfl,rfl⟩

/-- A leader whom the others trust registers again, and is a plain member without trust. -/
theorem leaderRow_overwritten :
    registerMember (some annMember) openGate annRegistration = .ok (memberRecord (some annMember) annRegistration) ∧
    ¬ Kept (agentsRow "leader" 80 "active") ((persistUpsert plainCodec "acme" (sanitizeAgentId annRegistration.agentId)
      (memberRecord (some annMember) annRegistration) none "").onConflict agentsTypes
        (agentsRow "leader" 80 "active")) := by
  refine ⟨ann_registers,fun kept => ?_⟩
  have written := (persistUpsert_columns plainCodec "acme" (sanitizeAgentId annRegistration.agentId)
    (memberRecord (some annMember) annRegistration) none "" (agentsRow "leader" 80 "active")).2.2
  have role : (if (memberRecord (some annMember) annRegistration).agentKind = "service" then "service" else "member") =
      "member" := by decide
  have stored : agentsRow "leader" 80 "active" "chapter_role" = some (.str "leader") := rfl
  rw [kept.chapterRole,stored,role] at written
  simp at written

end Persist
end Orrery.Chapter
