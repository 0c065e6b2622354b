import Orrery.Keystore.AtHand

/-! `rotate_backend`, which moves every key to another backend, with a failure at any of
its steps. -/
namespace Orrery.Keystore
open Foundation Json

structure Rotating where
  targetProbe : Probing
  selects : Bool
  probe : Probing
  agentsRead : Bool
  getPassword : String → Bool
  vault : Reading
  deletePassword : String → Bool
  unlink : Bool
  store : String → Storing
  stampReads : Bool
  stamp : Writing

structure Summary where
  migrated : ℕ
  source : Backend
  target : Backend
  noop : Bool

def agentIds (reads : Bool) : Action (List String) := do
  let preferences ← readMeta reads
  match ← getField preferences "agents" with
  | none => return []
  | some (.obj agents) => return agents.map Prod.fst
  | some other => if other.truthy then Effect.raise .attributeError else return []

def readEntries (works : String → Bool) : List String → Action Dict
  | [] => return []
  | agentId :: rest => do
    let key ← entry (works agentId) agentId
    let pairs ← readEntries works rest
    return match key with
      | some key => (agentId,key) :: pairs
      | none => pairs

def deleteEntries (works : String → Bool) (h : Host) : List String → Host
  | [] => h
  | agentId :: rest =>
    deleteEntries works
      (if works agentId then { h with entries := Function.update h.entries agentId none } else h) rest

section Functions
variable (env : Environment) (o : Rotating)

def readSource (source : Backend) : Action Dict :=
  if source = .keyring then do
    let ids ← agentIds o.agentsRead
    readEntries o.getPassword ids
  else readVault env o.vault source

def switchTo (target : Backend) (newPassphrase : Option String) : Action Unit := do
  modify fun h => { h with backend := some target, cache := none }
  if target = .passphrase then
    match newPassphrase.filter (· ≠ "") with
    | none => Effect.raise .wrongPassphrase
    | some passphrase => modify fun h => { h with cache := some passphrase }

def tearDown (source : Backend) (pairs : Dict) (h : Host) : Host :=
  if source = .keyring then deleteEntries o.deletePassword h (pairs.map Prod.fst)
  else if o.unlink then h.withVault none else h

def writeAll : Dict → Action Unit
  | [] => return
  | (agentId,key) :: rest => do
    let _ ← storePrivateKey env (o.store agentId) agentId key
    writeAll rest

def stampMeta (target : Backend) : Action Unit := do
  match ← readMeta o.stampReads with
  | .obj fields => writeText o.stamp Host.withRecord (ordered (.obj (setItem fields "current_backend" (.str target.name))))
  | _ => Effect.raise .typeError

def migrate (source target : Backend) (newPassphrase : Option String) (pairs : Dict) : Action Summary := do
  switchTo target newPassphrase
  modify (tearDown o source pairs)
  writeAll env o pairs
  stampMeta o target
  return ⟨pairs.length,source,target,false⟩

def keychainAnswers (target : Backend) : Action Bool :=
  if target = .keyring then probeKeyring o.targetProbe else return true

def rotateBackend (targetBackend : String) (newPassphrase : Option String) : Action Summary :=
  match Backend.named targetBackend with
  | none => Effect.raise .valueError
  | some target => do
    if ← keychainAnswers o target then
      let source ← currentBackend env o.selects o.probe
      if source = target then return ⟨0,source,target,true⟩
      else
        let pairs ← readSource env o source
        migrate env o source target newPassphrase pairs
    else Effect.raise .runtimeError

end Functions

section Claim
variable (env : Environment) (probe : Probing)

/-- A key that a load has returned before: loading it again changes nothing. -/
def Returned (h : Host) (agentId key : String) : Prop :=
  loadPrivateKey env (undisturbed probe) agentId h = .ok (some (.str key)) h

def Answers (h : Host) (agentId key : String) : Prop :=
  ∃ h', loadPrivateKey env (undisturbed probe) agentId h = .ok (some (.str key)) h'

def Host.restarted (before after : Host) : Host :=
  { after with backend := none, cache := none, typed := before.cache.toList }

def Survives (o : Rotating) (targetBackend : String) (newPassphrase : Option String) (h : Host) : Prop :=
  match rotateBackend env o targetBackend newPassphrase h with
  | .ok _ h' => ∀ agentId key, Returned env probe h agentId key → Answers env probe h' agentId key ∧
      ∃ backend, h'.backend = some backend ∧ backend.name = targetBackend
  | .error _ h' => ∀ agentId key, Returned env probe h agentId key → Answers env probe h' agentId key ∧
      Answers env probe (h.restarted h') agentId key

def Host.listed (h : Host) : Option (List String) :=
  match h.preferences with
  | .obj fields => match get fields "agents" with
    | none => some []
    | some (.obj agents) => some (agents.map Prod.fst)
    | some other => if other.truthy then none else some []
  | _ => none

def SourceReads (o : Rotating) (h : Host) : Backend → Prop
  | .keyring => (h.record.isSome → o.agentsRead = true) ∧
      ∃ ids, h.listed = some ids ∧ ∀ agentId ∈ ids, o.getPassword agentId = true
  | _ => o.vault.opens = true

def Host.probed (h : Host) (left : Option String) : Host :=
  { h with entries := Function.update h.entries keystoreProbe left }

def Untouched (o : Rotating) (targetBackend : String) : Prop :=
  targetBackend ≠ Backend.keyring.name ∨ o.targetProbe = .refused

def InUse (o : Rotating) (targetBackend : String) (h : Host) : Prop :=
  Backend.named targetBackend = h.backend ∧ (targetBackend = Backend.keyring.name → o.targetProbe = .works)

def Halts (o : Rotating) (targetBackend : String) (h : Host) : Prop :=
  Backend.named targetBackend = none ∨
  targetBackend = Backend.keyring.name ∧ o.targetProbe ≠ .works ∨
  Backend.named targetBackend ≠ h.backend ∧ ∃ source, h.backend = some source ∧ ¬SourceReads o h source

def Environment.Prefers (target : Backend) : Prop :=
  match Backend.named env.keystore with
  | some backend => backend = target
  | none => env.keystore ≠ "auto"

def newSecret (newPassphrase : Option String) : Backend → String
  | .device => env.digest
  | _ => newPassphrase.getD ""

structure Carries (o : Rotating) (newPassphrase : Option String) (h : Host) (source target : Backend) : Prop where
  resolved : h.backend = some source
  apart : source ≠ target
  answers : target = .keyring → o.targetProbe = .works
  reads : SourceReads o h source
  listed : source = .keyring → ∀ ids, h.listed = some ids → "" ∉ ids ∧
    ∀ agentId key, Returned env probe h agentId key → agentId ∈ ids
  stored : ∀ pass vault, h.secret env source = some pass → h.content env pass = some vault →
    ∀ item ∈ vault, item.1 ≠ "" ∧ ∃ key, key ≠ "" ∧ item.2 = .str key
  given : target = .passphrase → ∃ pass, newPassphrase = some pass ∧ pass ≠ ""
  room : target ≠ .keyring → source ≠ .keyring ∧ o.unlink = true ∨
    ∃ vault, h.content env (newSecret env newPassphrase target) = some vault
  notes : ∃ fields agents, h.notes = some (fields,agents)
  stores : ∀ agentId key, Returned env probe h agentId key → (o.store agentId).Smooth target
  stamped : o.stampReads = true ∧ o.stamp = .done ∨
    target ≠ .passphrase ∧ env.Prefers target ∧ (o.stampReads = true → o.stamp = .refused)

/-- When the keys survive: there are none, or the backend is in use already, or the
rotation raises before it switches and a fresh process returned them before it, or it
carries every key over. -/
def HoldsWhen (o : Rotating) (targetBackend : String) (newPassphrase : Option String) (h : Host) : Prop :=
  (∀ agentId key, ¬Returned env probe h agentId key) ∨
  (InUse o targetBackend h ∨ Halts o targetBackend h ∧ ∀ agentId key, Returned env probe h agentId key →
    ∀ left, (Untouched o targetBackend → left = h.entries keystoreProbe) →
      Answers env probe (h.restarted (h.probed left)) agentId key) ∧
    (¬Untouched o targetBackend → h.backend = some .keyring → ∀ key, ¬Returned env probe h keystoreProbe key) ∨
  ∃ source target, Backend.named targetBackend = some target ∧ Carries env probe o newPassphrase h source target

end Claim

section Steps
variable {env : Environment} {probe : Probing} {o : Rotating} {h h' : Host} {agentId key : String} {source target : Backend}

theorem returned_iff : Returned env probe h agentId key ↔ Settled env h agentId key :=
  ⟨loaded_settled,fun settled => settled.loads probe⟩

theorem returned_once {other : String} (first : Returned env probe h agentId key)
    (second : Returned env probe h agentId other) : other = key := by
  have same := first.symm.trans second
  injection same with found
  injection found with found
  injection found with found
  exact found.symm

theorem Kept.probed {left : Option String} (kept : Kept env h agentId key source)
    (apart : source = .keyring → agentId ≠ keystoreProbe) : Kept env (h.probed left) agentId key source := by
  cases kept with
  | entry held filled =>
    refine .entry ?_ filled
    change Function.update h.entries keystoreProbe left agentId = some key
    rw [Function.update_of_ne (apart rfl),held]
  | file atHand present current opened held => exact .file (by cases source <;> exact atHand) present current opened held

theorem Settled.probed {left : Option String} (settled : Settled env h agentId key)
    (apart : h.backend = some .keyring → agentId ≠ keystoreProbe) : Settled env (h.probed left) agentId key := by
  obtain ⟨backend,resolved,kept⟩ := settled.kept
  exact ⟨settled.named,backend,resolved,kept.probed fun keyring => apart (keyring ▸ resolved)⟩

theorem probed_entry (h : Host) : h.probed (h.entries keystoreProbe) = h := by
  rw [Host.probed,Function.update_eq_self]

theorem keychainAnswers_probed (o : Rotating) (target : Backend) (h : Host) :
    ∃ left, (keychainAnswers o target h = .ok (decide (target = .keyring → o.targetProbe = .works)) (h.probed left)) ∧
      (Untouched o target.name → left = h.entries keystoreProbe) := by
  by_cases keyring : target = .keyring
  · subst keyring
    rw [keychainAnswers,if_pos rfl]
    cases answer : o.targetProbe with
    | works => exact ⟨none,rfl,fun untouched => by cases answer.symm.trans (untouched.resolve_left (absurd rfl))⟩
    | refused =>
      refine ⟨h.entries keystoreProbe,?_,fun _ => rfl⟩
      rw [probed_entry]
      rfl
    | stranded => exact ⟨some "ok",rfl,fun untouched => by cases answer.symm.trans (untouched.resolve_left (absurd rfl))⟩
  · refine ⟨h.entries keystoreProbe,?_,fun _ => rfl⟩
    rw [keychainAnswers,if_neg keyring,probed_entry]
    simp [keyring]

def Host.pairOf (h : Host) (agentId : String) : Option (String × Json) :=
  ((h.entries agentId).filter (· ≠ "")).map fun key => (agentId,.str key)

theorem readEntries_reads {works : String → Bool} (ids : List String) : (∀ agentId ∈ ids, works agentId = true) →
    readEntries works ids h = .ok (ids.filterMap h.pairOf) h := by
  induction ids with
  | nil => exact fun _ => rfl
  | cons agentId rest ih =>
    intro all
    have first := all agentId List.mem_cons_self
    have further := ih fun other inside => all other (List.mem_cons_of_mem _ inside)
    simp only [readEntries,Effect.bind_apply,entry,first,if_true,further,Effect.pure_apply,List.filterMap_cons,Host.pairOf]
    cases (h.entries agentId).filter (· ≠ "") <;> rfl

theorem readEntries_fails {works : String → Bool} (ids : List String) : (¬∀ agentId ∈ ids, works agentId = true) →
    ∃ e, readEntries works ids h = .error e h := by
  induction ids with
  | nil => exact fun missed => absurd nofun missed
  | cons agentId rest ih =>
    intro missed
    simp only [readEntries,Effect.bind_apply,entry]
    by_cases first : works agentId = true
    · obtain ⟨e,failed⟩ := ih fun all => missed (List.forall_mem_cons.mpr ⟨first,all⟩)
      exact ⟨e,by simp only [first,if_true,failed]⟩
    · exact ⟨_,by rw [if_neg first]⟩

theorem readMeta_readable {reads : Bool} (readable : h.record.isSome → reads = true) :
    readMeta reads h = .ok h.preferences h := by
  unfold readMeta Host.preferences
  cases present : h.record with
  | none => rfl
  | some text =>
    rw [present] at readable
    simp only [readable rfl,if_true]
    rfl

theorem agentIds_listed {reads : Bool} (readable : h.record.isSome → reads = true) :
    (∀ ids, h.listed = some ids → agentIds reads h = .ok ids h) ∧
      (h.listed = none → ∃ e, agentIds reads h = .error e h) := by
  have found {listed : List String} : (∀ ids, some listed = some ids → (pure listed : Action (List String)) h = .ok ids h) ∧
      (some listed = none → ∃ e, (pure listed : Action (List String)) h = .error e h) :=
    ⟨fun _ same => Option.some.inj same ▸ rfl,fun missing => absurd missing (Option.some_ne_none listed)⟩
  have broken : (∀ ids, none = some ids → (Effect.raise .attributeError : Action (List String)) h = .ok ids h) ∧
      ((none : Option (List String)) = none → ∃ e, (Effect.raise .attributeError : Action (List String)) h = .error e h) :=
    ⟨fun ids missing => absurd missing.symm (Option.some_ne_none ids),fun _ => ⟨_,rfl⟩⟩
  have otherwise (value : Json) : (∀ ids, (if value.truthy then none else some []) = some ids →
      (if value.truthy then Effect.raise .attributeError else pure [] : Action (List String)) h = .ok ids h) ∧
      ((if value.truthy then none else some ([] : List String)) = none →
        ∃ e, (if value.truthy then Effect.raise .attributeError else pure [] : Action (List String)) h = .error e h) := by
    by_cases truthy : value.truthy = true
    · rw [if_pos truthy,if_pos truthy]
      exact broken
    · rw [if_neg truthy,if_neg truthy]
      exact found
  simp only [agentIds,Effect.bind_apply,readMeta_readable readable,Host.listed]
  cases h.preferences with
  | obj fields =>
    simp only [getField,Effect.pure_apply]
    cases get fields "agents" with
    | none => exact found
    | some agents => cases agents with
      | obj listed => exact found
      | _ => exact otherwise _
  | _ => exact broken

theorem agentIds_unread {reads : Bool} (unread : ¬(h.record.isSome → reads = true)) :
    agentIds reads h = .error .osError h := by
  obtain ⟨present,off⟩ := Classical.not_imp.mp unread
  obtain ⟨text,present⟩ := Option.isSome_iff_exists.mp present
  simp only [agentIds,Effect.bind_apply,readMeta,present,off]
  rfl

theorem readSource_fails (settled : Settled env h agentId key) (resolved : h.backend = some source)
    (missed : ¬SourceReads o h source) : ∃ e, readSource env o source h = .error e h := by
  obtain ⟨backend,same,kept⟩ := settled.kept
  obtain rfl := Option.some.inj (same.symm.trans resolved)
  cases kept with
  | entry held filled =>
    simp only [readSource,if_true,Effect.bind_apply]
    by_cases readable : h.record.isSome → o.agentsRead = true
    · obtain ⟨found,broken⟩ := agentIds_listed readable
      cases listed : h.listed with
      | none =>
        obtain ⟨e,failed⟩ := broken listed
        exact ⟨e,by rw [failed]⟩
      | some ids =>
        obtain ⟨e,failed⟩ := readEntries_fails (h := h) ids fun all => missed ⟨readable,ids,listed,all⟩
        exact ⟨e,by simp only [found ids listed,failed]⟩
    · exact ⟨_,by rw [agentIds_unread readable]⟩
  | file atHand present current opened held =>
    have elsewhere : backend ≠ .keyring := by
      rintro rfl
      cases atHand
    have closed : o.vault.opens = false := by
      cases backend with
      | keyring => exact absurd rfl elsewhere
      | passphrase => simpa [SourceReads] using missed
      | device => simpa [SourceReads] using missed
    simp only [readSource,if_neg elsewhere,readVault,Effect.bind_apply,Effect.get_apply,present,closed,if_true]
    exact ⟨_,rfl⟩

structure PairsOf (env : Environment) (h : Host) (pairs : Dict) : Prop where
  sound : ∀ item ∈ pairs, ∃ key, key ≠ "" ∧ item.2 = .str key ∧ Settled env h item.1 key
  complete : ∀ agentId key, Settled env h agentId key → (agentId,.str key) ∈ pairs

theorem PairsOf.once {pairs : Dict} (all : PairsOf env h pairs) {value other : Json} (first : (agentId,value) ∈ pairs)
    (second : (agentId,other) ∈ pairs) : value = other := by
  obtain ⟨key,_,rfl,one⟩ := all.sound _ first
  obtain ⟨key',_,rfl,two⟩ := all.sound _ second
  rw [returned_once (one.loads .works) (two.loads .works)]

theorem pairs_of_entries {newPassphrase : Option String} (carries : Carries env probe o newPassphrase h .keyring target) :
    ∃ pairs, readSource env o .keyring h = .ok pairs h ∧ PairsOf env h pairs := by
  obtain ⟨readable,ids,listed,all⟩ := carries.reads
  obtain ⟨named,within⟩ := carries.listed rfl ids listed
  refine ⟨ids.filterMap h.pairOf,?_,?_,?_⟩
  · simp only [readSource,if_true,Effect.bind_apply,(agentIds_listed readable).1 ids listed,readEntries_reads ids all]
  · intro item inside
    obtain ⟨agentId,member,found⟩ := List.mem_filterMap.mp inside
    obtain ⟨key,given,rfl⟩ := Option.map_eq_some_iff.mp found
    obtain ⟨held,filled⟩ := Option.filter_eq_some_iff.mp given
    have filled : key ≠ "" := by simpa using filled
    refine ⟨key,filled,rfl,?_,.keyring,carries.resolved,.entry held filled⟩
    rintro rfl
    exact named member
  · intro agentId key settled
    obtain ⟨backend,resolved,kept⟩ := settled.kept
    obtain rfl := Option.some.inj (resolved.symm.trans carries.resolved)
    cases kept with
    | entry held filled =>
      refine List.mem_filterMap.mpr ⟨agentId,within agentId key (settled.loads probe),?_⟩
      rw [Host.pairOf,held,Option.filter_some,if_pos (by simpa using filled)]
      rfl
    | file atHand => cases atHand

theorem pairs_of_file {newPassphrase : Option String} (carries : Carries env probe o newPassphrase h source target)
    (elsewhere : source ≠ .keyring) (settled : Settled env h agentId key) (left : Option String) :
    ∃ pairs, readSource env o source (h.probed left) = .ok pairs (h.probed left) ∧ PairsOf env h pairs := by
  obtain ⟨backend,resolved,kept⟩ := settled.kept
  obtain rfl := Option.some.inj (resolved.symm.trans carries.resolved)
  cases kept with
  | entry => exact absurd rfl elsewhere
  | @file _ pass payload vault atHand present current opened held =>
    have content : h.content env pass = some vault := by
      simp only [Host.content,present]
      exact opened
    have reads : o.vault.opens = true := by
      have reads := carries.reads
      cases backend with
      | keyring => exact absurd rfl elsewhere
      | passphrase => exact reads
      | device => exact reads
    have atHand' : (h.probed left).secret env backend = some pass := by cases backend <;> exact atHand
    refine ⟨vault,?_,?_,?_⟩
    · rw [readSource,if_neg elsewhere]
      exact readVault_current atHand' present current opened reads
    · rintro ⟨other,value⟩ inside
      obtain ⟨named,key,filled,rfl⟩ := carries.stored pass vault atHand content _ inside
      exact ⟨key,filled,rfl,named,backend,resolved,.file atHand present current opened
        ((get_iff (content_proper content).1 other _).mpr inside)⟩
    · rintro other value ⟨_,backend',resolved',kept⟩
      obtain rfl := Option.some.inj (resolved'.symm.trans resolved)
      cases kept with
      | entry => exact absurd rfl elsewhere
      | file atHand₂ present₂ _ opened₂ held₂ =>
        obtain rfl := Option.some.inj (atHand₂.symm.trans atHand)
        cases present₂.symm.trans present
        obtain rfl := Option.some.inj (opened₂.symm.trans opened)
        exact (get_iff (content_proper content).1 other _).mp held₂

theorem writeAll_smooth (pairs : Dict) : ∀ {h : Host}, Ready env target h →
    (∀ item ∈ pairs, item.1 ≠ "" ∧ (∃ key, key ≠ "" ∧ item.2 = .str key) ∧ (o.store item.1).Smooth target) →
    (∀ agentId value other, (agentId,value) ∈ pairs → (agentId,other) ∈ pairs → value = other) →
    ∃ h', writeAll env o pairs h = .ok () h' ∧ Ready env target h' ∧ (pairs ≠ [] ∨ h.Records target → h'.Records target) ∧
      (∀ agentId key, (agentId,.str key) ∈ pairs → Kept env h' agentId key target) ∧
      ∀ agentId key, (∀ value, (agentId,value) ∈ pairs → value = .str key) → Kept env h agentId key target →
        Kept env h' agentId key target := by
  induction pairs with
  | nil => exact fun {h} ready _ _ => ⟨h,rfl,ready,fun records => records.resolve_left (absurd rfl),nofun,fun _ _ _ => id⟩
  | cons item rest ih =>
    intro h ready all once
    obtain ⟨agentId,value⟩ := item
    obtain ⟨named,⟨key,filled,rfl⟩,smooth⟩ := all _ List.mem_cons_self
    obtain ⟨h₁,stored,ready₁,records₁,kept,keeps⟩ := store_smooth ready smooth named filled
    have later {other : String × Json} (inside : other ∈ rest) : other ∈ (agentId,.str key) :: rest :=
      List.mem_cons_of_mem _ inside
    obtain ⟨h₂,written,ready₂,records₂,further,keeps₂⟩ := ih ready₁ (fun other inside => all other (later inside))
      fun agentId value other first second => once agentId value other (later first) (later second)
    refine ⟨h₂,?_,ready₂,fun _ => records₂ (.inr records₁),?_,?_⟩
    · change (storePrivateKey env (o.store agentId) agentId (.str key) >>= fun _ => writeAll env o rest) h = _
      rw [Effect.bind_apply,stored]
      exact written
    · intro other held inside
      obtain same | inside := List.mem_cons.mp inside
      · cases same
        exact keeps₂ _ _ (fun value again => once _ _ _ (later again) List.mem_cons_self) kept
      · exact further other held inside
    · intro other held consistent before
      refine keeps₂ other held (fun value again => consistent value (later again))
        (keeps other held (fun same => ?_) before)
      subst same
      exact (Json.str.inj (consistent _ List.mem_cons_self)).symm

theorem deleteEntries_same {works : String → Bool} (ids : List String) : ∀ h : Host,
    (deleteEntries works h ids).backend = h.backend ∧ (deleteEntries works h ids).cache = h.cache ∧
      (deleteEntries works h ids).record = h.record ∧ (deleteEntries works h ids).vault = h.vault := by
  induction ids with
  | nil => exact fun h => ⟨rfl,rfl,rfl,rfl⟩
  | cons agentId rest ih =>
    intro h
    rw [deleteEntries]
    split
    · exact ih _
    · exact ih h

theorem tearDown_same (o : Rotating) (source : Backend) (pairs : Dict) (h : Host) :
    (tearDown o source pairs h).backend = h.backend ∧ (tearDown o source pairs h).cache = h.cache ∧
      (tearDown o source pairs h).record = h.record ∧
      (tearDown o source pairs h).vault = if source ≠ .keyring ∧ o.unlink = true then none else h.vault := by
  unfold tearDown
  by_cases keyring : source = .keyring
  · rw [if_pos keyring,if_neg fun other => other.1 keyring]
    exact deleteEntries_same _ h
  · rw [if_neg keyring]
    by_cases gone : o.unlink = true
    · rw [if_pos gone,if_pos ⟨keyring,gone⟩]
      exact ⟨rfl,rfl,rfl,rfl⟩
    · rw [if_neg gone,if_neg fun other => gone other.2]
      exact ⟨rfl,rfl,rfl,rfl⟩

theorem switchTo_given {newPassphrase : Option String}
    (given : target = .passphrase → ∃ pass, newPassphrase = some pass ∧ pass ≠ "") (h : Host) :
    ∃ h', switchTo target newPassphrase h = .ok () h' ∧ h'.backend = some target ∧ h'.record = h.record ∧
      h'.vault = h.vault ∧ (target ≠ .keyring → h'.secret env target = some (newSecret env newPassphrase target)) := by
  cases target with
  | keyring => exact ⟨_,rfl,rfl,rfl,rfl,fun other => absurd rfl other⟩
  | device => exact ⟨_,rfl,rfl,rfl,rfl,fun _ => rfl⟩
  | passphrase =>
    obtain ⟨pass,rfl,filled⟩ := given rfl
    have kept : (some pass).filter (· ≠ "") = some pass := by simp [filled]
    refine ⟨{ h with backend := some .passphrase, cache := some pass },?_,rfl,rfl,rfl,fun _ => kept⟩
    simp only [switchTo,Effect.bind_apply,Effect.modify_apply,if_true,kept]

theorem Carries.ready {newPassphrase : Option String} (carries : Carries env probe o newPassphrase h source target)
    (left : Option String) (pairs : Dict) : ∃ h', switchTo target newPassphrase (h.probed left) = .ok () h' ∧
      Ready env target (tearDown o source pairs h') := by
  obtain ⟨h',switched,resolved,record,vault,atHand⟩ := @switchTo_given env target newPassphrase carries.given (h.probed left)
  obtain ⟨backend',cache',record',vault'⟩ := tearDown_same o source pairs h'
  obtain ⟨fields,agents,usable⟩ := carries.notes
  refine ⟨h',switched,backend'.trans resolved,⟨fields,agents,?_⟩,fun elsewhere => ?_⟩
  · rw [← usable,Host.notes,Host.preferences,record',record]
    rfl
  · have secret : (tearDown o source pairs h').secret env target = h'.secret env target := by
      cases target with
      | keyring => rfl
      | device => rfl
      | passphrase => exact congrArg (Option.filter _) cache'
    have holds : ∃ vault, (tearDown o source pairs h').content env (newSecret env newPassphrase target) = some vault := by
      unfold Host.content
      rw [vault',vault]
      by_cases gone : source ≠ .keyring ∧ o.unlink = true
      · rw [if_pos gone]
        exact ⟨[],rfl⟩
      · rw [if_neg gone]
        exact (carries.room elsewhere).resolve_left gone
    obtain ⟨vault,holds⟩ := holds
    exact ⟨_,vault,secret.trans (atHand elsewhere),holds⟩

theorem stampMeta_done {fields agents : Dict} (usable : h.notes = some (fields,agents)) (reads : o.stampReads = true)
    (done : o.stamp = .done) : stampMeta o target h =
      .ok () (h.withRecord (some (some (ordered (.obj (setItem fields "current_backend" (.str target.name))))))) := by
  unfold Host.notes at usable
  simp only [stampMeta,Effect.bind_apply,reads,readMeta_preferences,done]
  split at usable
  next fields' is =>
    simp only [is]
    split at usable
    next => cases usable; rfl
    next => cases usable
  next => cases usable

theorem stampMeta_refused (records : h.Records target) (refused : o.stampReads = true → o.stamp = .refused) :
    stampMeta o target h = .error .osError h := by
  obtain ⟨fields,present,_⟩ := records
  simp only [stampMeta,Effect.bind_apply,readMeta,present]
  by_cases reads : o.stampReads = true
  · rw [if_pos reads,refused reads]
    rfl
  · rw [if_neg reads]

theorem load_resolved (named : agentId ≠ "") (run : currentBackend env true probe h = .ok target h') :
    loadPrivateKey env (undisturbed probe) agentId h = loadPrivateKey env (undisturbed probe) agentId h' := by
  simp only [loadPrivateKey,if_neg named,Effect.bind_apply,undisturbed,run,
    currentBackend_resolved (currentBackend_resolves run)]

theorem persistedBackend_name (backend : Backend) : persistedBackend (some (.str backend.name)) = some backend := by
  cases backend <;> rfl

theorem currentBackend_prefers (fresh : h.backend = none) (records : h.Records target) (prefers : env.Prefers target) :
    currentBackend env true probe h = .ok target { h with backend := some target } := by
  obtain ⟨fields,present,preferred⟩ := records
  have selected : selectedBackend env true h = .ok (some target) h := by
    unfold Environment.Prefers at prefers
    unfold selectedBackend
    split at prefers
    next backend named =>
      subst prefers
      rw [named]
      rfl
    next unnamed =>
      simp only [unnamed,if_neg prefers,Effect.bind_apply,readMeta,present,if_true,Option.getD_some,getField,
        Effect.pure_apply,preferred,persistedBackend_name]
  simp only [currentBackend,Effect.bind_apply,Effect.get_apply,fresh,resolve,selected]
  rfl

theorem Kept.restarted {before : Host} (kept : Kept env h agentId key target) (named : agentId ≠ "")
    (open_ : target ≠ .passphrase) (records : h.Records target) (prefers : env.Prefers target) :
    Answers env probe (before.restarted h) agentId key := by
  have current := @currentBackend_prefers env probe (before.restarted h) target rfl records prefers
  refine ⟨_,(load_resolved named current).trans (Settled.loads ⟨named,target,rfl,?_⟩ probe)⟩
  cases kept with
  | entry held filled => exact .entry held filled
  | file atHand present current opened held =>
    refine .file (?_ : _ = some _) present current opened held
    cases target with
    | keyring => cases atHand
    | passphrase => exact absurd rfl open_
    | device => exact atHand

theorem inUse_returns {targetBackend : String} (newPassphrase : Option String) (inUse : InUse o targetBackend h)
    (resolved : h.backend = some source) : source.name = targetBackend ∧
      ∃ left, (∃ summary, rotateBackend env o targetBackend newPassphrase h = .ok summary (h.probed left)) ∧
        (Untouched o targetBackend → left = h.entries keystoreProbe) := by
  obtain ⟨same,answers⟩ := inUse
  rw [resolved] at same
  obtain rfl := Backend.name_of_named same
  obtain ⟨left,probed,untouched⟩ := keychainAnswers_probed o source h
  have works : source = .keyring → o.targetProbe = .works := fun keyring => answers (congrArg Backend.name keyring)
  refine ⟨rfl,left,⟨⟨0,source,source,true⟩,?_⟩,untouched⟩
  simp only [rotateBackend,same,Effect.bind_apply,probed,decide_eq_true works,if_true,
    currentBackend_resolved (h := h.probed left) resolved]
  rfl

theorem halts_raises {targetBackend : String} (newPassphrase : Option String) (halts : Halts o targetBackend h)
    (settled : Settled env h agentId key) : ∃ left,
      (∃ e, rotateBackend env o targetBackend newPassphrase h = .error e (h.probed left)) ∧
        (Untouched o targetBackend → left = h.entries keystoreProbe) := by
  cases known : Backend.named targetBackend with
  | none =>
    refine ⟨h.entries keystoreProbe,⟨.valueError,?_⟩,fun _ => rfl⟩
    rw [rotateBackend,known,probed_entry]
    rfl
  | some target =>
    obtain rfl := Backend.name_of_named known
    obtain ⟨left,probed,untouched⟩ := keychainAnswers_probed o target h
    refine ⟨left,?_,untouched⟩
    simp only [rotateBackend,known,Effect.bind_apply,probed]
    by_cases works : target = .keyring → o.targetProbe = .works
    · rw [decide_eq_true works,if_pos rfl]
      obtain unknown | refused | ⟨apart,source,resolved,missed⟩ := halts
      · cases known.symm.trans unknown
      · exact absurd (works (Backend.name_injective refused.1)) refused.2
      · have other : source ≠ target := by
          rintro rfl
          exact apart (known.trans resolved.symm)
        have settled' : Settled env (h.probed left) agentId key := by
          by_cases keyring : target = .keyring
          · refine settled.probed fun same => absurd ?_ other
            exact (Option.some.inj (resolved.symm.trans same)).trans keyring.symm
          · rwa [untouched (.inl fun same => keyring (Backend.name_injective same)),probed_entry]
        have missed' : ¬SourceReads o (h.probed left) source := by cases source <;> exact missed
        obtain ⟨e,failed⟩ := readSource_fails settled' resolved missed'
        refine ⟨e,?_⟩
        simp only [currentBackend_resolved (h := h.probed left) resolved,if_neg other,Effect.bind_apply,failed]
    · rw [if_neg (by simpa using works)]
      exact ⟨_,rfl⟩

theorem spared {targetBackend : String} {left : Option String} (settled : Settled env h agentId key)
    (same : Untouched o targetBackend → left = h.entries keystoreProbe)
    (unprobed : ¬Untouched o targetBackend → h.backend = some .keyring →
      ∀ key, ¬Returned env probe h keystoreProbe key) : Settled env (h.probed left) agentId key := by
  by_cases untouched : Untouched o targetBackend
  · rwa [same untouched,probed_entry]
  · refine settled.probed fun resolved => ?_
    rintro rfl
    exact unprobed untouched resolved key (settled.loads probe)

theorem answers_of {h : Host} (settled : Settled env h agentId key) : Answers env probe h agentId key :=
  ⟨h,settled.loads probe⟩

theorem Carries.rotates {targetBackend : String} {newPassphrase : Option String}
    (known : Backend.named targetBackend = some target) (carries : Carries env probe o newPassphrase h source target)
    (settled : Settled env h agentId key) :
    (∃ summary h', rotateBackend env o targetBackend newPassphrase h = .ok summary h' ∧ h'.backend = some target ∧
      ∀ agentId key, Settled env h agentId key → Kept env h' agentId key target) ∨
    ∃ e h', rotateBackend env o targetBackend newPassphrase h = .error e h' ∧ h'.backend = some target ∧
      h'.Records target ∧ target ≠ .passphrase ∧ env.Prefers target ∧
      ∀ agentId key, Settled env h agentId key → Kept env h' agentId key target := by
  obtain ⟨left,probed,untouched⟩ := keychainAnswers_probed o target h
  have read : ∃ pairs, readSource env o source (h.probed left) = .ok pairs (h.probed left) ∧ PairsOf env h pairs := by
    by_cases keyring : source = .keyring
    · subst keyring
      rw [untouched (.inl fun same => carries.apart (Backend.name_injective same).symm),probed_entry]
      exact pairs_of_entries carries
    · exact pairs_of_file carries keyring settled left
  obtain ⟨pairs,read,all⟩ := read
  obtain ⟨h₁,switched,ready⟩ := carries.ready left pairs
  have each : ∀ item ∈ pairs, item.1 ≠ "" ∧ (∃ key, key ≠ "" ∧ item.2 = .str key) ∧ (o.store item.1).Smooth target := by
    intro item inside
    obtain ⟨key,filled,is,kept⟩ := all.sound item inside
    exact ⟨kept.named,⟨key,filled,is⟩,carries.stores _ key (kept.loads probe)⟩
  obtain ⟨h₂,written,ready₂,records,kept,_⟩ := writeAll_smooth pairs ready each fun _ _ _ => all.once
  have kept : ∀ agentId key, Settled env h agentId key → Kept env h₂ agentId key target :=
    fun agentId key settled => kept agentId key (all.complete agentId key settled)
  have records : h₂.Records target := records (.inl (List.ne_nil_of_mem (all.complete agentId key settled)))
  obtain ⟨fields,agents,usable⟩ := ready₂.notes
  have stamped (result) (run : stampMeta o target h₂ = result) : rotateBackend env o targetBackend newPassphrase h =
      match result with
      | .ok _ h' => .ok ⟨pairs.length,source,target,false⟩ h'
      | .error e h' => .error e h' := by
    simp only [rotateBackend,known,Effect.bind_apply,probed,decide_eq_true carries.answers,if_true,
      currentBackend_resolved (h := h.probed left) carries.resolved,if_neg carries.apart,read,migrate,switched,
      Effect.modify_apply,written,run]
    cases result <;> rfl
  obtain ⟨reads,done⟩ | ⟨free,prefers,refused⟩ := carries.stamped
  · refine .inl ⟨_,_,stamped _ (stampMeta_done usable reads done),ready₂.backend,fun agentId key settled => ?_⟩
    cases kept agentId key settled with
    | entry held filled => exact .entry held filled
    | file atHand present current opened held =>
      exact .file (by cases target <;> exact atHand) present current opened held
  · exact .inr ⟨_,_,stamped _ (stampMeta_refused records refused),ready₂.backend,records,free,prefers,kept⟩

theorem keys_survive (o : Rotating) (targetBackend : String) (newPassphrase : Option String) (h : Host)
    (holds : HoldsWhen env probe o targetBackend newPassphrase h) : Survives env probe o targetBackend newPassphrase h := by
  by_cases any : ∃ agentId key, Returned env probe h agentId key
  · obtain ⟨agentId,key,returned⟩ := any
    have settled := returned_iff.mp returned
    obtain ⟨source,resolved,_⟩ := settled.kept
    unfold Survives
    obtain none | ⟨stops,unprobed⟩ | ⟨source,target,known,carries⟩ := holds
    · exact absurd returned (none agentId key)
    · obtain inUse | ⟨halts,fresh⟩ := stops
      · obtain ⟨named,left,⟨summary,run⟩,untouched⟩ := inUse_returns newPassphrase inUse resolved
        rw [run]
        intro agentId key returned
        exact ⟨answers_of (spared (returned_iff.mp returned) untouched unprobed),source,resolved,named⟩
      · obtain ⟨left,⟨e,run⟩,untouched⟩ := halts_raises newPassphrase halts settled
        rw [run]
        intro agentId key returned
        exact ⟨answers_of (spared (returned_iff.mp returned) untouched unprobed),fresh agentId key returned left untouched⟩
    · obtain ⟨summary,h',run,backend,kept⟩ | ⟨e,h',run,backend,records,free,prefers,kept⟩ := carries.rotates known settled
      · rw [run]
        intro agentId key returned
        have settled := returned_iff.mp returned
        exact ⟨answers_of ⟨settled.named,target,backend,kept _ _ settled⟩,target,backend,Backend.name_of_named known⟩
      · rw [run]
        intro agentId key returned
        have settled := returned_iff.mp returned
        have kept := kept _ _ settled
        exact ⟨answers_of ⟨settled.named,target,backend,kept⟩,kept.restarted settled.named free records prefers⟩
  · unfold Survives
    split <;> exact fun agentId key returned => absurd ⟨agentId,key,returned⟩ any

end Steps

def found (env : Environment) (probe : Probing) (h : Host) (agentId : String) : Option String :=
  match loadPrivateKey env (undisturbed probe) agentId h with
  | .ok (some (.str key)) _ => some key
  | _ => none

theorem Survives.found {env : Environment} {probe : Probing} {o : Rotating} {targetBackend agentId key : String}
    {newPassphrase : Option String} {h : Host} (survives : Survives env probe o targetBackend newPassphrase h)
    (returned : Returned env probe h agentId key) :
    found env probe (Effect.final (rotateBackend env o targetBackend newPassphrase h)) agentId = some key := by
  have answers : Answers env probe (Effect.final (rotateBackend env o targetBackend newPassphrase h)) agentId key := by
    unfold Survives at survives
    split at survives
    next run =>
      rw [run]
      exact (survives agentId key returned).1
    next run =>
      rw [run]
      exact (survives agentId key returned).1
  obtain ⟨h',loaded⟩ := answers
  rw [Keystore.found,loaded]

def desktop : Environment where
  pbkdf2 _ salt _ := salt
  hmac _ message := message
  parseFloat _ := 0
  floatRepr _ := "0.0".toList
  floats _ := rfl
  urandom _ length := List.replicate length 7
  keystore := ""
  passphrase := ""
  digest := "d1"
  digest_filled := by decide
  tty := true

def withKeychain : Host where
  entries agentId := if agentId = "agent-1" then some "a2V5" else none
  vault := none
  record := some (some (.obj [("agents",.obj [("agent-1",.obj [("backend",.str "keyring")])]),
    ("current_backend",.str "keyring")]))
  backend := some .keyring
  cache := none
  typed := []
  drawn := 0

/-- A rotation in which nothing fails but the write of the vault file. -/
def vaultWritten (writing : Writing) : Rotating where
  targetProbe := .works
  selects := true
  probe := .works
  agentsRead := true
  getPassword _ := true
  vault := ⟨true,true,.done⟩
  deletePassword _ := true
  unlink := true
  store _ := ⟨undisturbed .works,true,writing,true,.done⟩
  stampReads := true
  stamp := .done

theorem withKeychain_settled : Settled desktop withKeychain "agent-1" "a2V5" :=
  ⟨by decide,.keyring,rfl,.entry rfl (by decide)⟩

/-- The key is carried from the keychain to a vault under the device fingerprint. -/
theorem carried_to_device : HoldsWhen desktop .works (vaultWritten .done) "device" none withKeychain ∧
    Survives desktop .works (vaultWritten .done) "device" none withKeychain := by
  have within (agentId key : String) (returned : Returned desktop .works withKeychain agentId key) :
      agentId ∈ ["agent-1"] := by
    obtain ⟨_,backend,resolved,kept⟩ := returned_iff.mp returned
    cases resolved
    cases kept with
    | entry held =>
      by_contra other
      change (if agentId = "agent-1" then some "a2V5" else none) = some key at held
      rw [if_neg (by simpa using other)] at held
      cases held
    | file atHand => cases atHand
  have carries : Carries desktop .works (vaultWritten .done) none withKeychain .keyring .device := {
    resolved := rfl
    apart := nofun
    answers := nofun
    reads := ⟨fun _ => rfl,["agent-1"],rfl,fun _ _ => rfl⟩
    listed := by
      intro _ ids listed
      cases listed
      exact ⟨by decide,within⟩
    stored := nofun
    given := nofun
    room := fun _ => .inr ⟨[],rfl⟩
    notes := ⟨_,_,rfl⟩
    stores := fun _ _ _ => ⟨nofun,fun _ => ⟨rfl,rfl,rfl⟩,rfl,rfl⟩
    stamped := .inl ⟨rfl,rfl⟩ }
  have holds : HoldsWhen desktop .works (vaultWritten .done) "device" none withKeychain :=
    .inr (.inr ⟨.keyring,.device,rfl,carries⟩)
  exact ⟨holds,keys_survive _ _ _ _ holds⟩

/-- The entries are deleted before the vault file is written; when it cannot be, the only
copy of the key is gone. -/
theorem lost_between : ¬Survives desktop .works (vaultWritten .refused) "device" none withKeychain := by
  intro survives
  have kept := survives.found (withKeychain_settled.loads .works)
  have gone : found desktop .works (Effect.final (rotateBackend desktop (vaultWritten .refused) "device" none withKeychain))
      "agent-1" = none := by
    decide +kernel
  cases gone.symm.trans kept

end Orrery.Keystore
