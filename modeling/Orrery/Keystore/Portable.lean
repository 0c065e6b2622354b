import Orrery.Foundation.Effect
import Orrery.Keystore.Blob

/-! The bundle that carries an agent to another machine (community_member/portable.py): what
`build_bundle` reads of the home of an agent, and what `restore_bundle` leaves in another
one. A JSON file is given by what `json.loads` makes of its text. -/
namespace Orrery.Keystore
open Foundation Json Base64

structure Profile where
  agentId : String := ""
  name : String := ""
  description : String := ""
  skills : List String := []
  interests : List String := []
  chapterUrl : String := ""
  provider : String := ""
  model : String := ""
  linkedinUrl : String := ""
  publicKey : String := ""
deriving DecidableEq

structure Config extends Profile where
  privateKey : String := ""

abbrev JsonFile := Option (Option Json)

structure Home where
  keys : Except Exc (String → Option String)
  config : JsonFile
  agent : JsonFile
  memory : JsonFile
  consent : Option Bytes
  habits : Option Bytes
  graduations : Option Bytes

@[ext]
structure Bundle where
  formatVersion : Int
  exportedAt : String
  agentId : String
  name : String
  config : Profile
  publicKey : String
  privateKey : String
  agentState : Json
  memory : Json
  consentDb : Option String
  habitsDb : Option String
  graduationsDb : Option String

def bundleFormatVersion : Int := 1

section Building

def Home.loadPrivateKey (agentId : String) (home : Home) : Except Exc (Option String) :=
  if agentId = "" then .ok none else home.keys.map (· agentId)

def loadAgentState (home : Home) : Json := home.agent.join.getD (.obj [])

def loadMemory (home : Home) : Json := home.memory.join.getD (.arr [])

def readB64 (file : Option Bytes) : Option String := file.map b64encode

def buildBundle (exportedAt : String) (config : Config) (home : Home) : Except Exc Bundle := do
  let pk ← Home.loadPrivateKey config.agentId home
  return {
    formatVersion := bundleFormatVersion
    exportedAt := exportedAt
    agentId := config.agentId
    name := config.name
    config := config.toProfile
    publicKey := config.publicKey
    privateKey := pk.getD ""
    agentState := loadAgentState home
    memory := loadMemory home
    consentDb := readB64 home.consent
    habitsDb := readB64 home.habits
    graduationsDb := readB64 home.graduations }

end Building

section Restoring

abbrev Restoring := Effect Exc Home

def onlyIf (condition : Prop) [Decidable condition] (body : Restoring Unit) : Restoring Unit :=
  if condition then body else pure ()

def Home.storePrivateKey (agentId privateKeyB64 : String) : Restoring Unit := fun home =>
  if agentId = "" then .error (.valueError "agent_id is required") home
  else if privateKeyB64 = "" then .error (.valueError "private_key_b64 is required") home
  else match home.keys with
  | .error e => .error e home
  | .ok keys => .ok () { home with keys := .ok (Function.update keys agentId (some privateKeyB64)) }

def Config.saved (config : Config) : Dict :=
  [("agent_id",.str config.agentId),("name",.str config.name),("description",.str config.description),
    ("skills",.arr (config.skills.map .str)),("interests",.arr (config.interests.map .str)),
    ("chapter_url",.str config.chapterUrl),("provider",.str config.provider),("api_key",.str ""),
    ("api_key_encrypted",.null),("model",.str config.model),("linkedin_url",.str config.linkedinUrl),
    ("private_key",.str ""),("public_key",.str config.publicKey)]

def saveConfig (config : Config) : Restoring Unit := do
  onlyIf (config.agentId ≠ "" ∧ config.privateKey ≠ "") (Home.storePrivateKey config.agentId config.privateKey)
  modify fun home => { home with config := some (some (.obj config.saved)) }

def writeB64 (write : Bytes → Home → Home) (b64 : Option String) : Restoring Unit :=
  match b64.filter (· ≠ "") with
  | none => pure ()
  | some text => fun home =>
    match b64decode text with
    | .ok bytes => .ok () (write bytes home)
    | .error e => .error e home

def restoreBundle (bundle : Bundle) : Restoring Config := do
  if bundle.formatVersion ≠ bundleFormatVersion then
    Effect.raise (.valueError
      s!"Unsupported bundle format_version {bundle.formatVersion} (this build expects {bundleFormatVersion})")
  else
    let config : Config := { toProfile := bundle.config, privateKey := bundle.privateKey }
    onlyIf (bundle.privateKey ≠ "") (Home.storePrivateKey config.agentId bundle.privateKey)
    saveConfig config
    onlyIf bundle.agentState.truthy (modify fun home => { home with agent := some (some bundle.agentState) })
    onlyIf bundle.memory.truthy (modify fun home => { home with memory := some (some bundle.memory) })
    writeB64 (fun bytes home => { home with consent := some bytes }) bundle.consentDb
    writeB64 (fun bytes home => { home with habits := some bytes }) bundle.habitsDb
    writeB64 (fun bytes home => { home with graduations := some bytes }) bundle.graduationsDb
    return config

end Restoring

section Replacing
variable {exportedAt later : String} {config : Config} {source target : Home} {bundle : Bundle}

def filled (file : Option Bytes) : Option Bytes := file.filter (· ≠ [])

theorem b64encode_empty (bytes : Bytes) : b64encode bytes = "" ↔ bytes = [] := by
  constructor
  · intro empty
    have read := b64decode_b64encode bytes
    rw [empty] at read
    exact (Except.ok.inj read).symm
  · rintro rfl
    rfl

theorem readB64_filled (file : Option Bytes) : (readB64 file).filter (· ≠ "") = (filled file).map b64encode := by
  cases file with
  | none => rfl
  | some bytes => by_cases empty : bytes = [] <;> simp [readB64,filled,Option.filter,b64encode_empty,empty]

def overwritten (file held : Option Bytes) : Option Bytes := (filled file).or held

theorem writeB64_read (write : Option Bytes → Home → Home) (held : Home → Option Bytes)
    (same : ∀ home, write (held home) home = home) (file : Option Bytes) (home : Home) :
    writeB64 (fun bytes => write (some bytes)) (readB64 file) home = .ok () (write (overwritten file (held home)) home) := by
  unfold writeB64
  rw [readB64_filled]
  cases given : filled file with
  | none => simp [overwritten,given,same]
  | some bytes => simp [overwritten,given,b64decode_b64encode]

def Home.restored (home : Home) (bundle : Bundle) (source : Home) : Home where
  keys := if bundle.privateKey = "" then home.keys
    else home.keys.map fun keys => Function.update keys bundle.agentId (some bundle.privateKey)
  config := some (some (.obj (Config.saved { toProfile := bundle.config, privateKey := bundle.privateKey })))
  agent := if bundle.agentState.truthy then some (some bundle.agentState) else home.agent
  memory := if bundle.memory.truthy then some (some bundle.memory) else home.memory
  consent := overwritten source.consent home.consent
  habits := overwritten source.habits home.habits
  graduations := overwritten source.graduations home.graduations

structure BuiltFrom (bundle : Bundle) (source : Home) : Prop where
  version : bundle.formatVersion = bundleFormatVersion
  agentId : bundle.agentId = bundle.config.agentId
  name : bundle.name = bundle.config.name
  publicKey : bundle.publicKey = bundle.config.publicKey
  key : bundle.privateKey ≠ "" → bundle.agentId ≠ ""
  consent : bundle.consentDb = readB64 source.consent
  habits : bundle.habitsDb = readB64 source.habits
  graduations : bundle.graduationsDb = readB64 source.graduations

theorem buildBundle_from (built : buildBundle exportedAt config source = .ok bundle) : BuiltFrom bundle source := by
  obtain ⟨pk,loaded,made⟩ := bind_success _ _ _ built
  cases made
  refine ⟨rfl,rfl,rfl,rfl,?_,rfl,rfl,rfl⟩
  intro held nameless
  have nothing : Home.loadPrivateKey config.agentId source = .ok none := if_pos nameless
  cases nothing.symm.trans loaded
  exact held rfl

def Bundle.restoredConfig (bundle : Bundle) : Config := { toProfile := bundle.config, privateKey := bundle.privateKey }

theorem storePrivateKey_ok {agentId key : String} {keys : String → Option String} (named : agentId ≠ "") (given : key ≠ "")
    (opens : target.keys = .ok keys) : Home.storePrivateKey agentId key target =
      .ok () { target with keys := .ok (Function.update keys agentId (some key)) } := by
  rw [Home.storePrivateKey,if_neg named,if_neg given,opens]

theorem saveConfig_keyless (keyless : config.privateKey = "") :
    saveConfig config target = .ok () { target with config := some (some (.obj config.saved)) } := by
  simp [saveConfig,onlyIf,keyless]

theorem saveConfig_keyed {keys : String → Option String} (named : config.agentId ≠ "") (given : config.privateKey ≠ "")
    (opens : target.keys = .ok keys) : saveConfig config target = .ok () { target with
      keys := .ok (Function.update keys config.agentId (some config.privateKey)),
      config := some (some (.obj config.saved)) } := by
  simp [saveConfig,onlyIf,Effect.bind_apply,named,given,storePrivateKey_ok named given opens]

theorem restoreFiles (built : BuiltFrom bundle source) (home : Home) : (do
    onlyIf bundle.agentState.truthy (modify fun home => { home with agent := some (some bundle.agentState) })
    onlyIf bundle.memory.truthy (modify fun home => { home with memory := some (some bundle.memory) })
    writeB64 (fun bytes home => { home with consent := some bytes }) bundle.consentDb
    writeB64 (fun bytes home => { home with habits := some bytes }) bundle.habitsDb
    writeB64 (fun bytes home => { home with graduations := some bytes }) bundle.graduationsDb
    return bundle.restoredConfig : Restoring Config) home = .ok bundle.restoredConfig
      { home with
        agent := if bundle.agentState.truthy then some (some bundle.agentState) else home.agent
        memory := if bundle.memory.truthy then some (some bundle.memory) else home.memory
        consent := overwritten source.consent home.consent
        habits := overwritten source.habits home.habits
        graduations := overwritten source.graduations home.graduations } := by
  have consent := writeB64_read (fun file home => { home with consent := file }) Home.consent fun _ => rfl
  have habits := writeB64_read (fun file home => { home with habits := file }) Home.habits fun _ => rfl
  have graduations := writeB64_read (fun file home => { home with graduations := file }) Home.graduations fun _ => rfl
  rw [built.consent,built.habits,built.graduations]
  by_cases state : bundle.agentState.truthy = true <;> by_cases memory : bundle.memory.truthy = true <;>
    simp [onlyIf,Effect.bind_apply,state,memory,consent,habits,graduations,-bind_pure_comp]

theorem restoreBundle_ok (built : BuiltFrom bundle source)
    (opens : bundle.privateKey ≠ "" → ∃ keys, target.keys = .ok keys) :
    restoreBundle bundle target = .ok bundle.restoredConfig (target.restored bundle source) := by
  unfold restoreBundle
  rw [if_neg (not_not.mpr built.version)]
  dsimp only
  by_cases given : bundle.privateKey = ""
  · rw [onlyIf,if_neg (not_not.mpr given),pure_bind,Effect.bind_apply]
    have saved := @saveConfig_keyless bundle.restoredConfig target given
    rw [Bundle.restoredConfig] at saved
    rw [saved]
    dsimp only
    refine (restoreFiles built _).trans ?_
    simp [Home.restored,given,Bundle.restoredConfig]
  · obtain ⟨keys,opened⟩ := opens given
    have named : bundle.config.agentId ≠ "" := built.agentId ▸ built.key given
    have stored := storePrivateKey_ok named given opened
    have saved := @saveConfig_keyed bundle.restoredConfig
      { target with keys := .ok (Function.update keys bundle.config.agentId (some bundle.privateKey)) } _ named given rfl
    rw [Bundle.restoredConfig] at saved
    rw [onlyIf,if_pos given,Effect.bind_apply,stored]
    dsimp only
    rw [Effect.bind_apply,saved]
    dsimp only
    refine (restoreFiles built _).trans ?_
    simp [Home.restored,given,Bundle.restoredConfig,opened,built.agentId,Except.map]

theorem restoreBundle_closed (built : BuiltFrom bundle source) (given : bundle.privateKey ≠ "") {e : Exc}
    (closed : target.keys = .error e) : restoreBundle bundle target = .error e target := by
  have named : bundle.config.agentId ≠ "" := built.agentId ▸ built.key given
  unfold restoreBundle
  rw [if_neg (not_not.mpr built.version)]
  dsimp only
  rw [onlyIf,if_pos given,Effect.bind_apply,Home.storePrivateKey,if_neg named,if_neg given,closed]

/-- The bundle is restored, and the one that is built of it then is the same but for its
time. -/
def Replaces (later : String) (bundle : Bundle) (target : Home) : Prop :=
  ∃ config target' again, restoreBundle bundle target = .ok config target' ∧
    buildBundle later config target' = .ok again ∧ { again with exportedAt := bundle.exportedAt } = bundle

/-- Every part of the bundle has something in it, or is what the home has there already; and
where the bundle has a key, the keystore of the home opens. -/
structure Covers (bundle : Bundle) (target : Home) : Prop where
  key : if bundle.privateKey = "" then ∃ found, Home.loadPrivateKey bundle.agentId target = .ok found ∧ found.getD "" = ""
    else ∃ keys, target.keys = .ok keys
  agentState : bundle.agentState.truthy = true ∨ loadAgentState target = bundle.agentState
  memory : bundle.memory.truthy = true ∨ loadMemory target = bundle.memory
  consent : (∃ text, bundle.consentDb = some text ∧ text ≠ "") ∨ readB64 target.consent = bundle.consentDb
  habits : (∃ text, bundle.habitsDb = some text ∧ text ≠ "") ∨ readB64 target.habits = bundle.habitsDb
  graduations : (∃ text, bundle.graduationsDb = some text ∧ text ≠ "") ∨
    readB64 target.graduations = bundle.graduationsDb

theorem readB64_injective : Function.Injective readB64 := by
  rintro (_ | one) (_ | other) same
  · rfl
  · cases same
  · cases same
  · have read := congrArg b64decode (Option.some.inj same)
    rw [b64decode_b64encode,b64decode_b64encode] at read
    rw [Except.ok.inj read]

theorem readB64_filled_iff (file : Option Bytes) :
    (∃ text, readB64 file = some text ∧ text ≠ "") ↔ (filled file).isSome = true := by
  have kept := congrArg Option.isSome (readB64_filled file)
  rw [Option.isSome_map] at kept
  rw [← kept]
  cases readB64 file <;> simp [Option.filter]

theorem overwritten_iff (file held : Option Bytes) : readB64 (overwritten file held) = readB64 file ↔
    (∃ text, readB64 file = some text ∧ text ≠ "") ∨ readB64 held = readB64 file := by
  rw [readB64_filled_iff,readB64_injective.eq_iff,readB64_injective.eq_iff,overwritten]
  cases file with
  | none => simp [filled]
  | some bytes => by_cases empty : bytes = [] <;> simp [filled,Option.filter,empty]

theorem restored_state (home : Home) : loadAgentState (home.restored bundle source) = bundle.agentState ↔
    bundle.agentState.truthy = true ∨ loadAgentState home = bundle.agentState := by
  by_cases given : bundle.agentState.truthy = true <;> simp [loadAgentState,Home.restored,given]

theorem restored_memory (home : Home) : loadMemory (home.restored bundle source) = bundle.memory ↔
    bundle.memory.truthy = true ∨ loadMemory home = bundle.memory := by
  by_cases given : bundle.memory.truthy = true <;> simp [loadMemory,Home.restored,given]

theorem restored_key (built : BuiltFrom bundle source)
    (opens : bundle.privateKey ≠ "" → ∃ keys, target.keys = .ok keys) (found : Option String) :
    Home.loadPrivateKey bundle.agentId (target.restored bundle source) = .ok found ↔
      if bundle.privateKey = "" then Home.loadPrivateKey bundle.agentId target = .ok found
      else found = some bundle.privateKey := by
  by_cases given : bundle.privateKey = ""
  · simp [Home.restored,Home.loadPrivateKey,given]
  · obtain ⟨keys,opened⟩ := opens given
    have loaded : Home.loadPrivateKey bundle.agentId (target.restored bundle source) = .ok (some bundle.privateKey) := by
      simp [Home.loadPrivateKey,Home.restored,given,opened,Except.map,built.key given]
    rw [if_neg given,loaded,Except.ok.injEq]
    exact eq_comm

theorem buildBundle_ok {found : Option String} {home : Home} (later : String)
    (loaded : Home.loadPrivateKey config.agentId home = .ok found) : buildBundle later config home = .ok {
      formatVersion := bundleFormatVersion
      exportedAt := later
      agentId := config.agentId
      name := config.name
      config := config.toProfile
      publicKey := config.publicKey
      privateKey := found.getD ""
      agentState := loadAgentState home
      memory := loadMemory home
      consentDb := readB64 home.consent
      habitsDb := readB64 home.habits
      graduationsDb := readB64 home.graduations } := by
  rw [buildBundle,loaded]
  rfl

/-- The bundle built anew equals the one restored exactly where each of its parts has
something in it, or the home had the same there before. -/
theorem replaces_iff (built : buildBundle exportedAt config source = .ok bundle) :
    Replaces later bundle target ↔ Covers bundle target := by
  have known := buildBundle_from built
  by_cases opens : bundle.privateKey ≠ "" → ∃ keys, target.keys = .ok keys
  · have restored := restoreBundle_ok known opens
    have own : bundle.restoredConfig.agentId = bundle.agentId := known.agentId.symm
    constructor
    · rintro ⟨config',target',again,done,made,same⟩
      cases restored.symm.trans done
      obtain ⟨found,loaded,made⟩ := bind_success _ _ _ made
      cases made
      rw [own,restored_key known opens] at loaded
      obtain ⟨_,_,_,_,_,_,key,state,memory,consent,habits,graduations⟩ := Bundle.ext_iff.mp same
      refine ⟨?_,(restored_state target).mp state,(restored_memory target).mp memory,?_,?_,?_⟩
      · by_cases given : bundle.privateKey = ""
        · rw [if_pos given] at loaded ⊢
          exact ⟨found,loaded,key.trans given⟩
        · rw [if_neg given]
          exact opens given
      · exact known.consent ▸ (overwritten_iff _ _).mp (consent.trans known.consent)
      · exact known.habits ▸ (overwritten_iff _ _).mp (habits.trans known.habits)
      · exact known.graduations ▸ (overwritten_iff _ _).mp (graduations.trans known.graduations)
    · intro covers
      obtain ⟨found,loaded,key⟩ : ∃ found, Home.loadPrivateKey bundle.agentId (target.restored bundle source) = .ok found ∧
          found.getD "" = bundle.privateKey := by
        have key := covers.key
        by_cases given : bundle.privateKey = ""
        · rw [if_pos given] at key
          obtain ⟨found,loaded,none⟩ := key
          exact ⟨found,(restored_key known opens found).mpr (by rwa [if_pos given]),none.trans given.symm⟩
        · exact ⟨some bundle.privateKey,(restored_key known opens _).mpr (by rw [if_neg given]),rfl⟩
      have made := @buildBundle_ok bundle.restoredConfig _ _ later (own ▸ loaded)
      refine ⟨_,_,_,restored,made,Bundle.ext known.version.symm rfl known.agentId.symm known.name.symm rfl
        known.publicKey.symm key ((restored_state target).mpr covers.agentState)
        ((restored_memory target).mpr covers.memory) ?_ ?_ ?_⟩
      · exact ((overwritten_iff _ _).mpr (known.consent ▸ covers.consent)).trans known.consent.symm
      · exact ((overwritten_iff _ _).mpr (known.habits ▸ covers.habits)).trans known.habits.symm
      · exact ((overwritten_iff _ _).mpr (known.graduations ▸ covers.graduations)).trans known.graduations.symm
  · obtain ⟨given,closed⟩ := Classical.not_imp.mp opens
    have raised : ∃ e, target.keys = .error e := by
      cases held : target.keys with
      | error e => exact ⟨e,rfl⟩
      | ok keys => exact absurd ⟨keys,held⟩ closed
    obtain ⟨e,held⟩ := raised
    constructor
    · rintro ⟨_,_,_,done,_⟩
      cases (restoreBundle_closed known given held).symm.trans done
    · intro covers
      have key := covers.key
      rw [if_neg given] at key
      exact absurd key closed

def freshHome : Home := ⟨.ok fun _ => none,none,none,none,none,none,none⟩

def usedHome (agentId key : String) : Home where
  keys := .ok fun asked => if asked = agentId then some key else none
  config := none
  agent := some (some (.obj [("id",.str agentId)]))
  memory := some (some (.arr [.str "note"]))
  consent := some [1]
  habits := some [2]
  graduations := some [3]

def carried (config : Config) (home : Home) : Bundle where
  formatVersion := bundleFormatVersion
  exportedAt := ""
  agentId := config.agentId
  name := config.name
  config := config.toProfile
  publicKey := config.publicKey
  privateKey := ((Home.loadPrivateKey config.agentId home).toOption.join).getD ""
  agentState := loadAgentState home
  memory := loadMemory home
  consentDb := readB64 home.consent
  habitsDb := readB64 home.habits
  graduationsDb := readB64 home.graduations

/-- An agent that has every file is the same one on a machine where another was. -/
theorem replaces_used : Replaces "" (carried { agentId := "ann" } (usedHome "ann" "a")) (usedHome "bob" "b") :=
  (@replaces_iff "" "" { agentId := "ann" } (usedHome "ann" "a") _ _ rfl).mpr
    ⟨⟨_,rfl⟩,.inl rfl,.inl rfl,.inl ⟨_,rfl,by decide⟩,.inl ⟨_,rfl,by decide⟩,.inl ⟨_,rfl,by decide⟩⟩

/-- A new agent is restored where another was, and what that one approved, its habits and
its graduations are still there. -/
theorem graduations_remain : ∃ bundle, buildBundle "" { agentId := "ann" } freshHome = .ok bundle ∧
    (∃ config target, restoreBundle bundle (usedHome "bob" "b") = .ok config target ∧ config.agentId = "ann" ∧
      target.consent = some [1] ∧ target.habits = some [2] ∧ target.graduations = some [3]) ∧
    ¬ Replaces "" bundle (usedHome "bob" "b") := by
  have built : buildBundle "" { agentId := "ann" } freshHome = .ok (carried { agentId := "ann" } freshHome) := rfl
  have restored := @restoreBundle_ok _ (usedHome "bob" "b") _ (buildBundle_from built) (absurd rfl)
  refine ⟨_,built,⟨_,_,restored,rfl,rfl,rfl,rfl⟩,?_⟩
  rintro ⟨_,_,_,done,again,same⟩
  cases restored.symm.trans done
  obtain ⟨_,_,made⟩ := bind_success _ _ _ again
  cases made
  cases congrArg Bundle.graduationsDb same

end Replacing
end Orrery.Keystore
