import Orrery.Keystore.Vault

/-! The keys that a process has at hand: what a load leaves behind when it has returned a
key, so that the next one returns it without a prompt, and what a store adds. -/
namespace Orrery.Keystore
open Foundation Json

def undisturbed (probe : Probing) : Loading where
  selects := true
  probe := probe
  getPassword := true
  vault := ⟨true,true,.done⟩

def Host.secret (env : Environment) (h : Host) : Backend → Option String
  | .keyring => none
  | .passphrase => h.cached
  | .device => some env.digest

/-- The keychain has the key, or the vault file, as it is written now, under a passphrase at hand. -/
inductive Kept (env : Environment) (h : Host) (agentId key : String) : Backend → Prop
  | entry (held : h.entries agentId = some key) (filled : key ≠ "") : Kept env h agentId key .keyring
  | file {backend : Backend} {pass : String} {payload : Json} {vault : Dict} (atHand : h.secret env backend = some pass)
      (present : h.vault = some (some payload)) (current : isLegacyBlob payload = false)
      (opened : (decryptValue env.toHashing payload pass).bind (vaultOf env) = some vault)
      (held : get vault agentId = some (.str key)) : Kept env h agentId key backend

/-- A process has a key at hand in the backend that it has resolved. -/
structure Settled (env : Environment) (h : Host) (agentId key : String) : Prop where
  named : agentId ≠ ""
  kept : ∃ backend, h.backend = some backend ∧ Kept env h agentId key backend

def Host.content (env : Environment) (h : Host) (pass : String) : Option Dict :=
  match h.vault with
  | none => some []
  | some text => text.bind fun payload => (decryptValue env.toHashing payload pass).bind (vaultOf env)

def Host.preferences (h : Host) : Json := (h.record.map fun text => text.getD (.obj [])).getD (.obj [])

def Host.notes (h : Host) : Option (Dict × Dict) :=
  match h.preferences with
  | .obj fields => match (get fields "agents").getD (.obj []) with
    | .obj agents => some (fields,agents)
    | _ => none
  | _ => none

def Host.withNote (h : Host) (fields agents : Dict) (agentId : String) (backend : Backend) : Host :=
  h.withRecord (some (some (ordered (.obj (noted fields agents agentId backend)))))

structure Ready (env : Environment) (target : Backend) (h : Host) : Prop where
  backend : h.backend = some target
  notes : ∃ fields agents, h.notes = some (fields,agents)
  content : target ≠ .keyring → ∃ pass vault, h.secret env target = some pass ∧ h.content env pass = some vault

structure Storing.Smooth (o : Storing) (target : Backend) : Prop where
  entry : target = .keyring → o.setPassword = true
  file : target ≠ .keyring → o.vault.opens = true ∧ o.vault.rewrites = .done ∧ o.vaultWrites = .done
  metaReads : o.metaReads = true
  metaWrites : o.metaWrites = .done

def Host.Records (h : Host) (target : Backend) : Prop :=
  ∃ fields, h.record = some (some (.obj fields)) ∧ get fields "current_backend" = some (.str target.name)

section Facts
variable {env : Environment} {h h' : Host} {agentId key passphrase : String} {backend : Backend} {verifies : Bool}

theorem secret_given {pass : String} (atHand : h.secret env backend = some pass) : pass ≠ "" := by
  cases backend with
  | keyring => cases atHand
  | passphrase => simpa using (Option.filter_eq_some_iff.mp atHand).2
  | device =>
    cases atHand
    exact env.digest_filled

theorem passphrase_atHand {pass : String} (atHand : h.secret env backend = some pass) :
    passphraseForBackend env verifies backend h = .ok pass h := by
  cases backend with
  | keyring => cases atHand
  | device =>
    cases atHand
    rfl
  | passphrase =>
    change h.cached = some pass at atHand
    simp only [passphraseForBackend,Effect.bind_apply,Effect.get_apply,atHand,Effect.pure_apply]

structure Host.Beside (h h' : Host) : Prop where
  entries : h'.entries = h.entries
  vault : h'.vault = h.vault
  record : h'.record = h.record
  backend : h'.backend = h.backend

instance : IsPreorder Host Host.Beside where
  refl _ := ⟨rfl,rfl,rfl,rfl⟩
  trans _ _ _ first second := ⟨second.entries.trans first.entries,second.vault.trans first.vault,
    second.record.trans first.record,second.backend.trans first.backend⟩

theorem getpass_beside : Effect.Keeps Host.Beside getpass := by
  intro h
  unfold getpass
  split <;> exact ⟨rfl,rfl,rfl,rfl⟩

theorem remember_beside (passphrase : String) : Effect.Keeps Host.Beside (remember passphrase) :=
  fun _ => ⟨rfl,rfl,rfl,rfl⟩

theorem verify_beside : Effect.Keeps Host.Beside (verify env verifies passphrase) := by
  intro h
  unfold verify
  split <;> exact ⟨rfl,rfl,rfl,rfl⟩

theorem promptForNewPassphrase_beside (attempts : ℕ) : Effect.Keeps Host.Beside (promptForNewPassphrase attempts) := by
  induction attempts with
  | zero => exact Effect.keeps_raise _
  | succ attempts ih =>
    refine Effect.keeps_bind getpass_beside fun first => ?_
    split
    · exact ih
    · refine Effect.keeps_bind getpass_beside fun confirm => ?_
      split
      · exact ih
      · exact Effect.keeps_pure first

theorem unlock_beside (attempts : ℕ) : Effect.Keeps Host.Beside (unlock env verifies attempts) := by
  induction attempts with
  | zero => exact Effect.keeps_raise _
  | succ attempts ih =>
    refine Effect.keeps_bind ?_ fun attempt => Effect.keeps_bind verify_beside fun opened => ?_
    · exact Effect.keeps_attempt getpass_beside Effect.keeps_pure fun _ => Effect.keeps_raise _
    · split
      · exact remember_beside attempt
      · exact ih

theorem environmentPassphrase_beside : Effect.Keeps Host.Beside (environmentPassphrase env verifies) := by
  refine Effect.keeps_bind Effect.keeps_get fun h => ?_
  split
  · refine Effect.keeps_bind verify_beside fun opened => ?_
    split
    · exact remember_beside _
    · exact Effect.keeps_raise _
  · split
    · exact Effect.keeps_raise _
    · exact remember_beside _

theorem passphraseForBackend_beside (backend : Backend) :
    Effect.Keeps Host.Beside (passphraseForBackend env verifies backend) := by
  cases backend with
  | keyring => exact Effect.keeps_raise _
  | device => exact Effect.keeps_pure _
  | passphrase =>
    refine Effect.keeps_bind Effect.keeps_get fun h => ?_
    split
    · exact Effect.keeps_pure _
    · split
      · exact environmentPassphrase_beside
      · split
        · exact unlock_beside 3
        · exact Effect.keeps_bind (promptForNewPassphrase_beside 3) fun newPass => remember_beside newPass

theorem remember_cached {pass : String} (given : passphrase ≠ "") (run : remember passphrase h = .ok pass h') :
    h'.cached = some pass := by
  cases run
  exact Option.filter_eq_some_iff.mpr ⟨rfl,by simpa using given⟩

theorem verify_given {opened : Bool} (run : verify env verifies passphrase h = .ok opened h') (yes : opened = true) :
    passphrase ≠ "" := by
  unfold verify at run
  split at run
  · cases run
    obtain ⟨plaintext,found⟩ := Option.isSome_iff_exists.mp yes
    obtain ⟨payload,_,decrypted⟩ := Option.bind_eq_some_iff.mp found
    exact decryptValue_given decrypted
  · cases run

theorem unlock_cached (attempts : ℕ) : ∀ {h : Host} {pass : String},
    unlock env verifies attempts h = .ok pass h' → h'.cached = some pass := by
  induction attempts with
  | zero =>
    intro h pass run
    cases run
  | succ attempts ih =>
    intro h pass run
    obtain ⟨attempt,h₁,_,run⟩ := (Effect.bind_ok ..).mp run
    obtain ⟨opened,h₂,verified,run⟩ := (Effect.bind_ok ..).mp run
    split at run
    next yes => exact remember_cached (verify_given verified yes) run
    next => exact ih run

theorem promptForNewPassphrase_given (attempts : ℕ) : ∀ {h : Host} {pass : String},
    promptForNewPassphrase attempts h = .ok pass h' → pass ≠ "" := by
  induction attempts with
  | zero =>
    intro h pass run
    cases run
  | succ attempts ih =>
    intro h pass run
    obtain ⟨first,h₁,_,run⟩ := (Effect.bind_ok ..).mp run
    split at run
    next => exact ih run
    next long =>
      obtain ⟨confirm,h₂,_,run⟩ := (Effect.bind_ok ..).mp run
      split at run
      next => exact ih run
      next =>
        cases run
        rintro rfl
        exact long (by decide)

theorem environmentPassphrase_cached {pass : String} (given : env.passphrase ≠ "")
    (run : environmentPassphrase env verifies h = .ok pass h') : h'.cached = some pass := by
  simp only [environmentPassphrase,Effect.bind_apply,Effect.get_apply] at run
  split at run
  · obtain ⟨opened,h₁,_,run⟩ := (Effect.bind_ok ..).mp run
    split at run
    · exact remember_cached given run
    · cases run
  · split at run
    · cases run
    · exact remember_cached given run

theorem passphrase_found {pass : String} (run : passphraseForBackend env verifies backend h = .ok pass h') :
    h'.secret env backend = some pass := by
  cases backend with
  | keyring => cases run
  | device =>
    cases run
    rfl
  | passphrase =>
    cases atHand : h.cached with
    | some cached =>
      rw [passphrase_atHand (show h.secret env .passphrase = some cached from atHand)] at run
      cases run
      exact atHand
    | none =>
      simp only [passphraseForBackend,Effect.bind_apply,Effect.get_apply,atHand] at run
      split at run
      next given => exact environmentPassphrase_cached given run
      next =>
        split at run
        next => exact unlock_cached 3 run
        next =>
          obtain ⟨newPass,h₁,prompted,run⟩ := (Effect.bind_ok ..).mp run
          exact remember_cached (promptForNewPassphrase_given 3 prompted) run

end Facts

section Stores
variable {env : Environment} {h : Host} {backend : Backend} {pass : String} {vault : Dict}

structure Host.Around (h h' : Host) : Prop where
  entries : h'.entries = h.entries
  record : h'.record = h.record
  backend : h'.backend = h.backend
  cache : h'.cache = h.cache

theorem Host.Around.secret {h' : Host} (around : h.Around h') (backend : Backend) :
    h'.secret env backend = h.secret env backend := by
  cases backend with
  | keyring => rfl
  | device => rfl
  | passphrase => exact congrArg (Option.filter _) around.cache

theorem Host.Around.notes {h' : Host} (around : h.Around h') : h'.notes = h.notes := by
  rw [Host.notes,Host.preferences,around.record]
  rfl

theorem vaultOf_proper {plaintext : String} (read : vaultOf env plaintext = some vault) :
    Proper env.parseFloat env.floatRepr (.obj vault) := by
  obtain ⟨data,loaded,rfl⟩ := Option.map_eq_some_iff.mp read
  cases data with
  | obj fields => exact loads_proper env.floats loaded
  | _ => exact proper_empty

theorem writeVault_done (atHand : h.secret env backend = some pass)
    (proper : Proper env.parseFloat env.floatRepr (.obj vault)) :
    ∃ h' payload, writeVault env .done vault backend h = .ok () h' ∧ h.Around h' ∧ h'.vault = some (some payload) ∧
      isLegacyBlob payload = false ∧
      (decryptValue env.toHashing payload pass).bind (vaultOf env) = some (sortFields (orderedFields vault)) := by
  have filled : String.ofList (dumps env.floatRepr .sorted (.obj vault)) ≠ "" := by
    intro empty
    have written := dumps_length_pos .sorted proper
    rw [String.ofList_eq_empty_iff.mp empty] at written
    exact absurd written (lt_irrefl 0)
  obtain ⟨payload,made⟩ := encryptValue_some env.toHashing filled (secret_given atHand)
    (env.urandom h.drawn saltLength) (env.urandom (h.drawn+1) nonceLength)
  refine ⟨{ h with vault := some (some payload), drawn := h.drawn+2 },payload,?_,⟨rfl,rfl,rfl,rfl⟩,rfl,
    encrypted_current made,?_⟩
  · simp only [writeVault,Effect.bind_apply,passphrase_atHand atHand,urandom,made]
    rfl
  · rw [decrypt_encrypt made,Option.bind_some,vaultOf,String.toList_ofList,
      loads_dumps Layout.sorted_readable rfl proper]
    rfl

theorem writeVault_writes {writing : Writing} {h' : Host} (atHand : h.secret env backend = some pass)
    (run : writeVault env writing vault backend h = .ok () h') : writing = .done := by
  simp only [writeVault,Effect.bind_apply,passphrase_atHand atHand,urandom] at run
  cases made : encryptValue env.toHashing (String.ofList (dumps env.floatRepr .sorted (.obj vault))) pass
      (env.urandom h.drawn saltLength) (env.urandom (h.drawn+1) nonceLength) with
  | none =>
    rw [made] at run
    cases run
  | some payload =>
    rw [made] at run
    cases writing with
    | done => rfl
    | refused => cases run
    | torn => cases run

theorem content_proper (holds : h.content env pass = some vault) :
    Proper env.parseFloat env.floatRepr (.obj vault) := by
  unfold Host.content at holds
  split at holds
  next =>
    cases holds
    exact proper_empty
  next text _ =>
    obtain ⟨payload,_,holds⟩ := Option.bind_eq_some_iff.mp holds
    obtain ⟨plaintext,_,read⟩ := Option.bind_eq_some_iff.mp holds
    exact vaultOf_proper read

theorem readVault_ready {reading : Reading} (atHand : h.secret env backend = some pass)
    (holds : h.content env pass = some vault) (opens : reading.opens = true) (rewrites : reading.rewrites = .done) :
    ∃ h', readVault env reading backend h = .ok vault h' ∧ h.Around h' := by
  have proper := content_proper holds
  unfold Host.content at holds
  simp only [readVault,Effect.bind_apply,Effect.get_apply]
  split at holds
  next absent =>
    cases holds
    rw [absent]
    exact ⟨h,rfl,rfl,rfl,rfl,rfl⟩
  next text present =>
    obtain ⟨payload,rfl,opened⟩ := Option.bind_eq_some_iff.mp holds
    simp only [present,opens,Bool.true_eq_false,if_false,Effect.bind_apply,passphrase_atHand atHand,opened]
    by_cases legacy : isLegacyBlob payload = true
    · obtain ⟨h',_,done,around,_⟩ := writeVault_done atHand proper
      simp only [legacy,if_true,rewrites,Effect.bind_apply,done]
      exact ⟨h',rfl,around⟩
    · rw [if_neg legacy]
      exact ⟨h,rfl,rfl,rfl,rfl,rfl⟩

theorem readVault_current {reading : Reading} {payload : Json} (atHand : h.secret env backend = some pass)
    (present : h.vault = some (some payload)) (current : isLegacyBlob payload = false)
    (opened : (decryptValue env.toHashing payload pass).bind (vaultOf env) = some vault)
    (opens : reading.opens = true) :
    readVault env reading backend h = .ok vault h := by
  simp only [readVault,Effect.bind_apply,Effect.get_apply,present,opens,Bool.true_eq_false,if_false,
    passphrase_atHand atHand,opened,current]
  rfl

theorem readMeta_preferences : readMeta true h = .ok h.preferences h := by
  unfold readMeta Host.preferences
  cases h.record <;> rfl

theorem writeMeta_done {fields agents : Dict} (usable : h.notes = some (fields,agents)) (agentId : String) :
    writeMeta true .done agentId backend h = .ok () (h.withNote fields agents agentId backend) := by
  unfold Host.notes at usable
  simp only [writeMeta,Effect.bind_apply,readMeta_preferences]
  split at usable
  next fields' is =>
    simp only [is]
    split at usable
    next agents' inside =>
      cases usable
      simp only [inside]
      rfl
    next => cases usable
  next => cases usable

theorem withNote_records (fields agents : Dict) (agentId : String) (backend : Backend) (h : Host) :
    (h.withNote fields agents agentId backend).Records backend ∧
      ∃ fields' agents', (h.withNote fields agents agentId backend).notes = some (fields',agents') := by
  refine ⟨⟨_,rfl,?_⟩,?_⟩
  · rw [get_sortFields,noted,get_setItem_self]
    rfl
  · simp only [Host.notes,Host.preferences,Host.withNote,Host.withRecord,Option.map_some,Option.getD_some,ordered,
      get_sortFields]
    rw [noted,get_setItem_other _ _ _ _ (by decide),get_setItem_self]
    exact ⟨_,_,rfl⟩

theorem currentBackend_resolved {selects : Bool} {probe : Probing} (resolved : h.backend = some backend) :
    currentBackend env selects probe h = .ok backend h := by
  simp only [currentBackend,Effect.bind_apply,Effect.get_apply,resolved]
  rfl

variable {o : Storing} {agentId key : String}

/-- A store in which nothing fails keeps its key, and every other one. -/
theorem store_smooth (ready : Ready env backend h) (smooth : o.Smooth backend) (named : agentId ≠ "")
    (filled : key ≠ "") :
    ∃ h', storePrivateKey env o agentId (.str key) h = .ok backend h' ∧ Ready env backend h' ∧ h'.Records backend ∧
      Kept env h' agentId key backend ∧ ∀ other held, (other = agentId → held = key) →
        Kept env h other held backend → Kept env h' other held backend := by
  obtain ⟨fields,agents,usable⟩ := ready.notes
  have valid : ¬(agentId = "" ∨ (Json.str key).truthy = false) := by simp [named,truthy,filled]
  simp only [storePrivateKey,if_neg valid,Effect.bind_apply,currentBackend_resolved ready.backend]
  by_cases keyring : backend = .keyring
  · subst keyring
    obtain ⟨h₁,entered,entries,record,same⟩ : ∃ h₁, setPassword true agentId (.str key) h = .ok () h₁ ∧
        h₁.entries = Function.update h.entries agentId (some key) ∧ h₁.record = h.record ∧ h₁.backend = h.backend :=
      ⟨_,rfl,rfl,rfl,rfl⟩
    have usable₁ : h₁.notes = some (fields,agents) := by
      rw [← usable,Host.notes,Host.preferences,record]
      rfl
    obtain ⟨recorded,again⟩ := withNote_records fields agents agentId .keyring h₁
    simp only [if_true,smooth.entry rfl,Effect.bind_apply,entered,smooth.metaReads,smooth.metaWrites,
      writeMeta_done usable₁]
    refine ⟨_,rfl,⟨same.trans ready.backend,again,fun other => absurd rfl other⟩,recorded,.entry ?_ filled,?_⟩
    · change h₁.entries agentId = some key
      rw [entries,Function.update_self]
    · rintro other held equal (⟨found,given⟩ | ⟨atHand,_,_,_,_⟩)
      · refine .entry ?_ given
        change h₁.entries other = some held
        by_cases itself : other = agentId
        · rw [entries,itself,equal itself,Function.update_self]
        · rw [entries,Function.update_of_ne itself,found]
      · cases atHand
  · obtain ⟨pass,vault,atHand,holds⟩ := ready.content keyring
    obtain ⟨opens,rewrites,vaultWrites⟩ := smooth.file keyring
    obtain ⟨h₁,read,around⟩ := readVault_ready atHand holds opens rewrites
    have atHand₁ : h₁.secret env backend = some pass := (around.secret backend).trans atHand
    have proper : Proper env.parseFloat env.floatRepr (.obj (setItem vault agentId (.str key))) :=
      proper_setItem (content_proper holds) agentId trivial
    obtain ⟨h₂,payload,done,around₂,present,fresh,opened⟩ := writeVault_done atHand₁ proper
    have atHand₂ : h₂.secret env backend = some pass := (around₂.secret backend).trans atHand₁
    have usable₂ : h₂.notes = some (fields,agents) := (around₂.notes.trans around.notes).trans usable
    obtain ⟨recorded,again⟩ := withNote_records fields agents agentId backend h₂
    have keeps {other held : String} (inside : get (setItem vault agentId (.str key)) other = some (.str held)) :
        Kept env (h₂.withNote fields agents agentId backend) other held backend := by
      refine .file atHand₂ present fresh opened ?_
      rw [get_sortFields,inside]
      rfl
    have content : (h₂.withNote fields agents agentId backend).content env pass =
        some (sortFields (orderedFields (setItem vault agentId (.str key)))) := by
      simp only [Host.content,Host.withNote,Host.withRecord,present]
      exact opened
    simp only [if_neg keyring,Effect.bind_apply,read,vaultWrites,done,smooth.metaReads,smooth.metaWrites,
      writeMeta_done usable₂]
    refine ⟨_,rfl,⟨(around₂.backend.trans around.backend).trans ready.backend,again,fun _ => ⟨pass,_,atHand₂,content⟩⟩,
      recorded,keeps (get_setItem_self ..),?_⟩
    rintro other held same (⟨_,_⟩ | ⟨atHand',present',_,opened',inside⟩)
    · exact absurd rfl keyring
    · obtain rfl := Option.some.inj (atHand'.symm.trans atHand)
      rw [Host.content,present'] at holds
      obtain rfl := Option.some.inj (opened'.symm.trans holds)
      apply keeps
      by_cases itself : other = agentId
      · rw [itself,same itself,get_setItem_self]
      · rw [get_setItem_other _ _ _ _ itself,inside]

end Stores

section Loads
variable {env : Environment} {h h' : Host} {backend : Backend} {agentId key : String} {vault : Dict}

theorem Settled.loads (settled : Settled env h agentId key) (probe : Probing) :
    loadPrivateKey env (undisturbed probe) agentId h = .ok (some (.str key)) h := by
  obtain ⟨backend,resolved,kept⟩ := settled.kept
  simp only [loadPrivateKey,if_neg settled.named,Effect.bind_apply,currentBackend_resolved resolved]
  cases kept with
  | entry held filled =>
    have given : (h.entries agentId).filter (· ≠ "") = some key :=
      Option.filter_eq_some_iff.mpr ⟨held,by simpa using filled⟩
    simp only [if_true,entry,undisturbed,given]
    rfl
  | file atHand present current opened held =>
    have elsewhere : backend ≠ .keyring := by
      rintro rfl
      cases atHand
    have read : readVault env ⟨true,true,.done⟩ backend h = .ok _ h :=
      readVault_current atHand present current opened rfl
    simp only [if_neg elsewhere,Effect.bind_apply,undisturbed,read,held,Effect.pure_apply]

theorem currentBackend_resolves {selects : Bool} {probe : Probing}
    (run : currentBackend env selects probe h = .ok backend h') : h'.backend = some backend := by
  cases resolved : h.backend with
  | some known =>
    rw [currentBackend_resolved resolved] at run
    cases run
    exact resolved
  | none =>
    simp only [currentBackend,Effect.bind_apply,Effect.get_apply,resolved] at run
    split at run
    next => cases run; rfl
    next => cases run

theorem readVault_leaves {reading : Reading} (run : readVault env reading backend h = .ok vault h')
    (held : get vault agentId = some (.str key)) : h'.backend = h.backend ∧ Kept env h' agentId key backend := by
  simp only [readVault,Effect.bind_apply,Effect.get_apply] at run
  cases file : h.vault with
  | none =>
    rw [file] at run
    cases run
    cases held
  | some text =>
    simp only [file] at run
    split at run
    next => cases run
    next =>
      cases text with
      | none => cases run
      | some payload =>
        obtain ⟨pass,h₁,asked,run⟩ := (Effect.bind_ok ..).mp run
        have atHand := passphrase_found asked
        have beside : h.Beside h₁ := by
          have kept := @passphraseForBackend_beside env reading.verifies backend h
          rwa [asked] at kept
        have present : h₁.vault = some (some payload) := beside.vault.trans file
        cases opened : (decryptValue env.toHashing payload pass).bind (vaultOf env) with
        | none =>
          rw [opened] at run
          cases run
        | some read =>
          simp only [opened] at run
          by_cases legacy : isLegacyBlob payload = true
          · rw [if_pos legacy] at run
            obtain ⟨_,h₂,written,run⟩ := (Effect.bind_ok ..).mp run
            cases run
            obtain ⟨plaintext,_,loaded⟩ := Option.bind_eq_some_iff.mp opened
            rw [writeVault_writes atHand written] at written
            obtain ⟨h₃,payload',done,around,present',current,reopened⟩ := writeVault_done atHand (vaultOf_proper loaded)
            rw [done] at written
            cases written
            refine ⟨around.backend.trans beside.backend,.file ((around.secret backend).trans atHand) present' current
              reopened ?_⟩
            rw [get_sortFields,held]
            rfl
          · rw [if_neg legacy] at run
            cases run
            exact ⟨beside.backend,.file atHand present (by simpa using legacy) opened held⟩

theorem loaded_settled {o : Loading} (run : loadPrivateKey env o agentId h = .ok (some (.str key)) h') :
    Settled env h' agentId key := by
  unfold loadPrivateKey at run
  split at run
  next => cases run
  next named =>
    obtain ⟨backend,h₁,current,run⟩ := (Effect.bind_ok ..).mp run
    have resolved := currentBackend_resolves current
    split at run
    next keyring =>
      unfold entry at run
      split at run
      next =>
        injection run with found same
        subst same
        obtain ⟨_,given,equal⟩ := Option.map_eq_some_iff.mp found
        cases equal
        obtain ⟨held,filled⟩ := Option.filter_eq_some_iff.mp given
        exact ⟨named,backend,resolved,keyring ▸ .entry held (by simpa using filled)⟩
      next => cases run
    next =>
      obtain ⟨vault,h₂,read,run⟩ := (Effect.bind_ok ..).mp run
      injection run with held same
      subst same
      obtain ⟨kept,at_hand⟩ := readVault_leaves read held
      exact ⟨named,backend,kept.trans resolved,at_hand⟩

end Loads
end Orrery.Keystore
