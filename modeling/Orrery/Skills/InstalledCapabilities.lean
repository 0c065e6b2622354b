import Orrery.Skills.Install

/-! The capabilities of an installed skill. The author's signature covers the manifest, or
a package with one; what is written into the registry, and asked of the user later, is
what the chapter's record says beside it. -/
namespace Orrery.Skills
open Foundation Json Chapter
open Merkle (CollisionFree elements)

def manifestJson (env : InstallEnv) (package : Bytes) : Option Json :=
  match env.members package with
  | .ok members => do
    let member ← members.reverse.find? fun member => pathParts member.name = ["manifest.json"]
    loads env.parseFloat (← Keystore.decodeUtf8 member.content).toList
  | .error _ => none

inductive Covers (env : InstallEnv) (package : Bytes) : Dict → Prop
  | canonical (manifest : Dict) (proper : Proper env.parseFloat env.floatRepr (.obj manifest))
      (text : canonicalText env manifest = package) : Covers env package manifest
  | packaged (manifest : Dict)
      (noText : ∀ other, Proper env.parseFloat env.floatRepr (.obj other) → canonicalText env other ≠ package)
      (held : manifestJson env package = some (.obj manifest)) : Covers env package manifest

def SameCapabilities (recorded listed : List Json) : Prop := (recorded.map ordered).Perm (listed.map ordered)

/-- The capabilities of the entry are those that the author's signature covers. -/
def SignedCapabilities (env : InstallEnv) (signed : Bytes → Bytes → Prop) (entry : RegistryEntry) : Prop :=
  ∃ key package declared manifest listed, extractDidKey env entry.signingKeyDid = .ok (some key) ∧
    signed key package ∧ entry.contentSha256 = .str declared ∧ Hex.hex (env.sha256 package) = lower declared ∧
    Covers env package manifest ∧ capabilitiesOf manifest = .ok listed ∧ SameCapabilities entry.capabilities listed

/-- The capabilities of the record are those of the manifest that it comes with. -/
def RecordAgrees (env : InstallEnv) (skill : Dict) (content : Bytes) : Prop :=
  ∃ recorded manifest listed, capabilitiesOf skill = .ok recorded ∧
    (if (getOr skill "package_url" .null).truthy then Covers env content manifest
      else manifestWithAuthor skill = .ok manifest) ∧
    capabilitiesOf manifest = .ok listed ∧ SameCapabilities recorded listed

/-- Nobody but the holder of a key signs for it, and what is signed are hashes of packages. -/
def Unforgeable (env : InstallEnv) (signed : Bytes → Bytes → Prop) : Prop :=
  ∀ key message signature, env.nacl key message signature = .valid →
    ∃ package, signed key package ∧ Hex.hex (env.sha256 package) = lower message

section Order

theorem ordered_str {v : Json} {s : String} (same : ordered v = .str s) : v = .str s := by
  cases v with
  | str t => exact same
  | arr items => cases same
  | obj fields => cases same
  | _ => cases same

theorem SameCapabilities.trans {first second third : List Json} (left : SameCapabilities first second)
    (right : SameCapabilities second third) : SameCapabilities first third := List.Perm.trans left right

theorem elements_of_ordered {v w : Json} (same : ordered v = ordered w) {items : List Json}
    (listed : elements v = .ok items) : ∃ items', elements w = .ok items' ∧ SameCapabilities items items' := by
  cases v with
  | arr values =>
    obtain rfl := Except.ok.inj listed
    cases w with
    | arr values' =>
      rw [ordered,ordered,orderedItems_eq,orderedItems_eq] at same
      exact ⟨values',rfl,List.Perm.of_eq (Json.arr.inj same)⟩
    | _ => simp [ordered] at same
  | str text =>
    cases w with
    | str text' =>
      obtain rfl : text = text' := by simpa [ordered] using same
      exact ⟨items,listed,List.Perm.refl _⟩
    | _ => simp [ordered] at same
  | obj fields =>
    obtain rfl := Except.ok.inj listed
    cases w with
    | obj fields' =>
      rw [ordered,ordered] at same
      have keys : (fields.map Prod.fst).Perm (fields'.map Prod.fst) := by
        have own := (sortFields_perm (orderedFields fields)).map Prod.fst
        have other := (sortFields_perm (orderedFields fields')).map Prod.fst
        rw [Json.obj.inj same] at own
        have apart := own.symm.trans other
        rw [orderedFields_eq,orderedFields_eq,List.map_map,List.map_map] at apart
        exact apart
      have texts := keys.map fun key => ordered (.str key)
      rw [List.map_map,List.map_map] at texts
      refine ⟨_,rfl,?_⟩
      rw [SameCapabilities,List.map_map,List.map_map]
      exact texts
    | _ => simp [ordered] at same
  | _ => cases listed

theorem orElse_ordered {v w : Json} (same : ordered v = ordered w) (other : Json) :
    ordered (orElse v other) = ordered (orElse w other) := by
  have truths : v.truthy = w.truthy := by rw [← truthy_ordered,same,truthy_ordered]
  unfold orElse
  rw [truths]
  split
  · exact same
  · rfl

theorem getOr_ordered {d e : Dict} (same : ordered (.obj d) = ordered (.obj e)) (key : String) (default : Json) :
    ordered (getOr d key default) = ordered (getOr e key default) := by
  have found := get_of_ordered same key
  unfold getOr
  cases first : get d key with
  | none =>
    rw [first,Option.map_none,eq_comm,Option.map_eq_none_iff] at found
    rw [found]
  | some v =>
    rw [first,Option.map_some,eq_comm,Option.map_eq_some_iff] at found
    obtain ⟨w,second,alike⟩ := found
    rw [second]
    exact alike.symm

theorem capabilitiesOf_ordered {d e : Dict} (same : ordered (.obj d) = ordered (.obj e)) {items : List Json}
    (listed : capabilitiesOf d = .ok items) : ∃ items', capabilitiesOf e = .ok items' ∧ SameCapabilities items items' :=
  elements_of_ordered (orElse_ordered (getOr_ordered same "capabilities" .null) (.arr [])) listed

end Order

section Installs
variable {env : InstallEnv} {call : InstallCall env} {registry registry' : Registry} {entry : RegistryEntry}

structure Installed (env : InstallEnv) (call : InstallCall env) (registry : Registry) (entry : RegistryEntry)
    (registry' : Registry) (skill : Dict) (content : Bytes) : Prop where
  fetched : fetchSkill env call entry.skillId = .ok skill
  shipped : contentBytes env call skill = .ok content
  verified : verifySignedPackage env content entry.contentSha256 (getOr skill "signature" (.str ""))
    entry.signingKeyDid = .ok none
  recorded : capabilitiesOf skill = .ok entry.capabilities
  registered : register registry entry.skillId entry.toJson = .ok registry'

theorem installSkill_ok (accepted : installSkill env call registry = .ok (entry,registry')) :
    ∃ skill content, Installed env call registry entry registry' skill content := by
  unfold installSkill at accepted
  dsimp only at accepted
  split at accepted
  next => cases accepted
  next =>
    obtain ⟨answer,-,accepted⟩ := bind_success _ _ _ accepted
    obtain ⟨response,-,accepted⟩ := bind_success _ _ _ accepted
    split at accepted
    next => cases accepted
    next =>
      obtain ⟨digest,-,accepted⟩ := bind_success _ _ _ accepted
      split at accepted
      next => cases accepted
      next =>
        obtain ⟨skill,fetched,accepted⟩ := bind_success _ _ _ accepted
        obtain ⟨content,shipped,accepted⟩ := bind_success _ _ _ accepted
        obtain ⟨verdict,verified,accepted⟩ := bind_success _ _ _ accepted
        cases verdict with
        | some reason => cases accepted
        | none =>
          obtain ⟨isTarball,-,accepted⟩ := bind_success _ _ _ accepted
          obtain ⟨capabilities,recorded,accepted⟩ := bind_success _ _ _ accepted
          obtain ⟨saved,registered,accepted⟩ := bind_success _ _ _ accepted
          cases accepted
          exact ⟨skill,content,fetched,shipped,verified,recorded,registered⟩

structure Verified (env : InstallEnv) (content : Bytes) (contentSha256 signature signingKeyDid : Json) (key : Bytes)
    (declared : String) : Prop where
  text : contentSha256 = .str declared
  hash : Hex.hex (env.sha256 content) = lower declared
  keyed : extractDidKey env signingKeyDid = .ok (some key)
  signed : ∃ bytes, env.nacl key declared bytes = .valid

theorem verifySignedPackage_ok {content : Bytes} {contentSha256 signature signingKeyDid : Json}
    (verified : verifySignedPackage env content contentSha256 signature signingKeyDid = .ok none) :
    ∃ key declared, Verified env content contentSha256 signature signingKeyDid key declared := by
  unfold verifySignedPackage at verified
  split at verified
  next => cases verified
  split at verified
  next => cases verified
  split at verified
  next => cases verified
  split at verified
  next declared _ =>
    dsimp only at verified
    split at verified
    next => cases verified
    split at verified
    next => cases verified
    next hash =>
      obtain ⟨found,keyed,verified⟩ := bind_success _ _ _ verified
      cases found with
      | none => cases verified
      | some key =>
        dsimp only at verified
        split at verified
        next verdict =>
          obtain ⟨_,-,verdict⟩ := bind_success _ _ _ verdict
          obtain ⟨bytes,-,verdict⟩ := bind_success _ _ _ verdict
          exact ⟨key,declared,rfl,not_not.mp hash,keyed,bytes,Except.ok.inj verdict⟩
        next => cases verified
        next => cases verified
        next => cases verified
  next => cases verified

theorem proper_getOr {d : Dict} (proper : Proper env.parseFloat env.floatRepr (.obj d)) (key : String) {default : Json}
    (otherwise : Proper env.parseFloat env.floatRepr default) :
    Proper env.parseFloat env.floatRepr (getOr d key default) := by
  unfold getOr
  cases found : get d key with
  | none => exact otherwise
  | some v => exact (properFields_iff d).mp proper.2 (key,v) ((get_iff proper.1 key v).mp found)

theorem proper_orElse {v other : Json} (proper : Proper env.parseFloat env.floatRepr v)
    (otherwise : Proper env.parseFloat env.floatRepr other) : Proper env.parseFloat env.floatRepr (orElse v other) := by
  unfold orElse
  split
  · exact proper
  · exact otherwise

theorem fieldsOf_ok {v : Json} {d : Dict} (read : fieldsOf v = .ok d) : v = .obj d := by
  cases v with
  | obj fields => exact congrArg Json.obj (Except.ok.inj read)
  | _ => cases read

theorem fetchSkill_proper {id : String} {skill : Dict} (fetched : fetchSkill env call id = .ok skill) :
    Proper env.parseFloat env.floatRepr (.obj skill) := by
  unfold fetchSkill at fetched
  obtain ⟨answer,answered,fetched⟩ := bind_success _ _ _ fetched
  obtain ⟨detail,read,fetched⟩ := bind_success _ _ _ fetched
  rw [fieldsOf_ok read] at answered
  dsimp only at fetched
  split at fetched
  next => cases fetched
  next =>
    obtain ⟨record,read',fetched⟩ := bind_success _ _ _ fetched
    split at fetched
    next => cases fetched
    next =>
      obtain rfl : record = skill := Except.ok.inj fetched
      rw [← fieldsOf_ok read']
      exact proper_orElse (proper_getOr (call.detail_proper _ answered) "skill" trivial) proper_empty

theorem manifestWithAuthor_proper {skill manifest : Dict} (proper : Proper env.parseFloat env.floatRepr (.obj skill))
    (merged : manifestWithAuthor skill = .ok manifest) : Proper env.parseFloat env.floatRepr (.obj manifest) := by
  have own := proper_getOr proper "manifest" proper_empty
  unfold manifestWithAuthor at merged
  split at merged
  next fields same =>
    obtain rfl := Except.ok.inj merged
    rw [same] at own
    exact proper_setItem own "author_did" (proper_getOr proper "author_did" trivial)
  next => cases merged

theorem ordered_of_canonicalText {first second : Dict} (proper : Proper env.parseFloat env.floatRepr (.obj first))
    (proper' : Proper env.parseFloat env.floatRepr (.obj second))
    (same : canonicalText env first = canonicalText env second) : ordered (.obj first) = ordered (.obj second) := by
  have decoded := congrArg Keystore.decodeUtf8 same
  rw [canonicalText,canonicalText,Keystore.decodeUtf8_utf8,Keystore.decodeUtf8_utf8] at decoded
  have texts := String.ofList_injective (Option.some.inj decoded)
  exact ordered_of_unescapedDumps env.floatRepr_plain (JsonLines.plain_of rfl) (JsonLines.plain_of rfl)
    Layout.canonical_readable rfl proper proper' texts

theorem package_eq {package content : Bytes} {declared : String}
    (free : CollisionFree env.sha256 [package,content]) (signed : Hex.hex (env.sha256 package) = lower declared)
    (checked : Hex.hex (env.sha256 content) = lower declared) : package = content := by
  have digests : env.sha256 package = env.sha256 content := by
    have same := congrArg Hex.fromHex (signed.trans checked.symm)
    rw [Hex.fromHex_hex,Hex.fromHex_hex] at same
    exact Except.ok.inj same
  exact free.injective package (by simp) content (by simp) digests

theorem signed_iff {signed : Bytes → Bytes → Prop} {skill : Dict} {content : Bytes}
    (unforgeable : Unforgeable env signed)
    (free : ∀ key package, signed key package → CollisionFree env.sha256 [package,content])
    (installed : Installed env call registry entry registry' skill content) :
    SignedCapabilities env signed entry ↔ RecordAgrees env skill content := by
  obtain ⟨key,declared,verified⟩ := verifySignedPackage_ok installed.verified
  have proper := fetchSkill_proper installed.fetched
  have shipped := installed.shipped
  unfold contentBytes at shipped
  dsimp only at shipped
  constructor
  · intro covered
    obtain ⟨key',package,declared',manifest,listed,-,author,text,hash,covers,lists,same⟩ := covered
    obtain rfl : declared = declared' := Json.str.inj (verified.text.symm.trans text)
    obtain rfl := package_eq (free key' package author) hash verified.hash
    by_cases packaged : (getOr skill "package_url" .null).truthy = true
    · exact ⟨_,manifest,listed,installed.recorded,by rwa [if_pos packaged],lists,same⟩
    · rw [if_neg packaged] at shipped
      obtain ⟨merged,read,shipped⟩ := bind_success _ _ _ shipped
      obtain rfl := Except.ok.inj shipped
      have own := manifestWithAuthor_proper proper read
      cases covers with
      | packaged noText held => exact absurd rfl (noText merged own)
      | canonical proper' text' =>
        obtain ⟨listed',lists',same'⟩ := capabilitiesOf_ordered (ordered_of_canonicalText proper' own text') lists
        exact ⟨_,merged,listed',installed.recorded,by rwa [if_neg packaged],lists',same.trans same'⟩
  · intro agrees
    obtain ⟨recorded,manifest,listed,reads,shown,lists,same⟩ := agrees
    obtain rfl := Except.ok.inj (installed.recorded.symm.trans reads)
    obtain ⟨bytes,valid⟩ := verified.signed
    obtain ⟨package,author,hash⟩ := unforgeable key declared bytes valid
    obtain rfl := package_eq (free key package author) hash verified.hash
    refine ⟨key,package,declared,manifest,listed,verified.keyed,author,verified.text,hash,?_,lists,same⟩
    by_cases packaged : (getOr skill "package_url" .null).truthy = true
    · rwa [if_pos packaged] at shown
    · rw [if_neg packaged] at shown shipped
      obtain ⟨merged,read,shipped⟩ := bind_success _ _ _ shipped
      obtain rfl := Except.ok.inj (read.symm.trans shown)
      exact .canonical merged (manifestWithAuthor_proper proper read) (Except.ok.inj shipped)

end Installs

section Gate
variable {registry registry' : Registry} {entry : RegistryEntry}

theorem loadSkill_ok {imports : Imports} {id : String} {value : Json} {skill : LoadedSkill}
    (loads : loadSkill imports id value = .ok (some skill)) : skill.skillId = id ∧ ∃ fields, value = .obj fields ∧
      elements (getOr fields "capabilities" (.arr [])) = .ok skill.declaredCapabilities := by
  unfold loadSkill at loads
  obtain ⟨fields,read,loads⟩ := bind_success _ _ _ loads
  obtain ⟨path,-,loads⟩ := bind_success _ _ _ loads
  split at loads
  next => cases loads
  next =>
    obtain ⟨manifest,-,loads⟩ := bind_success _ _ _ loads
    obtain ⟨declared,lists,loads⟩ := bind_success _ _ _ loads
    cases loads
    exact ⟨rfl,fields,fieldsOf_ok read,lists⟩

theorem register_ok {id : String} {value : Json} (registered : register registry id value = .ok registry') :
    ∃ entries : Dict, loadInstalledRegistry registry' = ordered (.obj (setItem entries id value)) := by
  unfold register at registered
  split at registered
  next entries _ =>
    obtain rfl := Except.ok.inj registered
    exact ⟨entries,rfl⟩
  next => cases registered
  next => cases registered

theorem loaded_capabilities {imports : Imports} {id : String} {loaded : List LoadedSkill} {skill : LoadedSkill}
    (registered : register registry id entry.toJson = .ok registry')
    (loads : loadInstalledSkills imports registry' = .ok loaded) (inside : skill ∈ loaded)
    (named : skill.skillId = id) : skill.declaredCapabilities = entry.capabilities.map ordered := by
  obtain ⟨entries,held⟩ := register_ok registered
  rw [ordered] at held
  have distinct := loaded_distinct held
  unfold loadInstalledSkills at loads
  rw [held] at loads
  obtain ⟨found,run,loads⟩ := bind_success _ _ _ loads
  obtain rfl := Except.ok.inj loads
  obtain ⟨some',member,rfl⟩ := List.mem_filterMap.mp inside
  obtain ⟨field,listed,read⟩ := (mapM_reads run).mem member
  obtain ⟨same,fields,value,lists⟩ := loadSkill_ok read
  obtain rfl : id = field.1 := named.symm.trans same
  have own := (get_iff distinct field.1 field.2).mpr listed
  rw [get_sortFields,get_setItem_self,Option.map_some,Option.some_inj] at own
  rw [← own,RegistryEntry.toJson,ordered] at value
  have capabilities : getOr fields "capabilities" (.arr []) = .arr (entry.capabilities.map ordered) := by
    rw [getOr,← Json.obj.inj value,get_sortFields,← orderedItems_eq]
    rfl
  rw [capabilities] at lists
  exact (Except.ok.inj lists).symm

def Runs (env : RuntimeEnv) (call : Invocation) (s : Runtime) (skill : LoadedSkill) : Prop :=
  ∃ newer tool chapter time, (Effect.final (invokeTool env call s)).past = newer ++ s.past ∧
    .ran skill tool chapter time ∈ newer

theorem runs_admits {env : RuntimeEnv} {call : Invocation} {s : Runtime} {skill : LoadedSkill}
    (runs : Runs env call s skill) : Admits call skill := by
  obtain ⟨newer,tool,chapter,time,past,inside⟩ := runs
  rcases invokeTool_cases env call s with (same | ⟨url,revoked,-,same⟩) | ⟨admitted,s',admits,passed,same⟩
  · rw [same] at past
    obtain rfl : newer = [] := (List.append_cancel_right (past.symm.trans (List.nil_append _).symm))
    cases inside
  · rw [same] at past
    obtain rfl : newer = [_] := List.append_cancel_right past.symm
    cases List.mem_singleton.mp inside
  · have asked : ∃ answers, s'.past = answers ++ s.past ∧ .ran skill tool chapter time ∉ answers := by
      rcases passed with ⟨-,rfl⟩ | ⟨-,cleared⟩
      · exact ⟨[],rfl,List.not_mem_nil⟩
      · cases cleared with
        | unasked nobody => exact ⟨[],rfl,List.not_mem_nil⟩
        | reported url given => exact ⟨[_],rfl,fun own => nomatch List.mem_singleton.mp own⟩
        | cached url entry given found recent live => exact ⟨[],rfl,List.not_mem_nil⟩
    obtain ⟨answers,asked,absent⟩ := asked
    rw [same] at past
    dsimp only at past
    rw [asked,← List.cons_append] at past
    obtain rfl := List.append_cancel_right past
    rcases List.mem_cons.mp inside with own | further
    · cases own
      exact admits
    · exact absurd further absent

/-- The user has granted each of these capabilities, and consents to this call where one
of them is of high risk. -/
structure Demanded (capabilities : List Json) (call : Invocation) : Prop where
  granted : ∀ c ∈ capabilities, ∃ s ∈ (call.userGrants.lookup call.skillId).getD [], c = .str s
  consented : (∃ c ∈ highRiskCapabilities, .str c ∈ capabilities) → call.consentPerInvocation = true

theorem demanded_of_admits {call : Invocation} {skill : LoadedSkill} {capabilities : List Json}
    (admits : Admits call skill) (declared : skill.declaredCapabilities = capabilities.map ordered) :
    Demanded capabilities call := by
  constructor
  · intro c inside
    have member : ordered c ∈ skill.declaredCapabilities := by
      rw [declared]
      exact List.mem_map_of_mem inside
    obtain ⟨s,granted,same⟩ := admits.granted (ordered c) member
    exact ⟨s,granted,ordered_str same⟩
  · rintro ⟨c,high,inside⟩
    apply admits.consented
    refine ⟨c,high,?_⟩
    rw [declared]
    exact List.mem_map.mpr ⟨_,inside,rfl⟩

end Gate

/-- What is recorded at an install is what the user is asked for later, and it is what
the author has signed exactly if the chapter's record agrees with the manifest. -/
theorem installed_capabilities {env : InstallEnv} {call : InstallCall env} {registry registry' : Registry}
    {entry : RegistryEntry} {signed : Bytes → Bytes → Prop} {skill : Dict} {content : Bytes}
    (unforgeable : Unforgeable env signed)
    (free : ∀ key package, signed key package → CollisionFree env.sha256 [package,content])
    (accepted : installSkill env call registry = .ok (entry,registry'))
    (fetched : fetchSkill env call entry.skillId = .ok skill) (shipped : contentBytes env call skill = .ok content) :
    (SignedCapabilities env signed entry ↔ RecordAgrees env skill content) ∧
    ∀ (imports : Imports) (runtime : RuntimeEnv) (invocation : Invocation) (s : Runtime) (ran : LoadedSkill),
      loadInstalledSkills imports registry' = .ok invocation.loaded → invocation.skillId = entry.skillId →
      Runs runtime invocation s ran → Demanded entry.capabilities invocation := by
  obtain ⟨skill',content',installed⟩ := installSkill_ok accepted
  obtain rfl := Except.ok.inj (installed.fetched.symm.trans fetched)
  obtain rfl := Except.ok.inj (installed.shipped.symm.trans shipped)
  refine ⟨signed_iff unforgeable free installed,?_⟩
  intro imports runtime invocation s ran loads same runs
  have admits := runs_admits runs
  exact demanded_of_admits admits
    (loaded_capabilities installed.registered loads admits.listed (admits.named.trans same))

section Samples

def zeros : String := String.ofList (List.replicate 64 '0')

def shellManifest : Dict := [("name",.str "shell"),("capabilities",.arr [.str "shell.exec"])]

theorem zero_plain (_ : ℚ) : JsonLines.Plain ['0','.','0'] := JsonLines.plain_of rfl

def sampleInstallEnv : InstallEnv := { plainCodec with
  nacl := fun key message signature => if key = signature ∧ message = zeros then .valid else .badSignature
  isDecimal := Char.isDigit
  sha256 := fun _ => List.replicate 32 0
  parseFloat := fun _ => 0
  floatRepr := fun _ => ['0','.','0']
  floatRepr_plain := zero_plain
  members := fun _ => .error .readError
  extractall := fun _ => .ok () }

def shellRecord (capabilities : List String) : Dict :=
  [("content_sha256",.str zeros),("signature",.str (keyNamed 'a')),
    ("signing_key_did",.str (didKeyZ ++ String.ofList (['\u00ed','\u0001'] ++ List.replicate 32 'a'))),
    ("manifest",.obj shellManifest),("capabilities",.arr (capabilities.map .str))]

def shellPackage : Bytes := canonicalText sampleInstallEnv (setItem shellManifest "author_did" (.str ""))

def shellSigned (_ package : Bytes) : Prop := package = shellPackage

theorem shellRecord_proper (capabilities : List String) :
    Proper sampleInstallEnv.parseFloat sampleInstallEnv.floatRepr (.obj [("skill",.obj (shellRecord capabilities))]) := by
  have listed : ProperItems sampleInstallEnv.parseFloat sampleInstallEnv.floatRepr (capabilities.map .str) := by
    rw [properItems_iff]
    intro v inside
    obtain ⟨s,-,rfl⟩ := List.mem_map.mp inside
    trivial
  simp [shellRecord,shellManifest,Proper,ProperFields,ProperItems,listed]

def shellInstall (capabilities : List String) : InstallCall sampleInstallEnv where
  skillId := "shell@1.0.0"
  skillsRoot := "skills"
  installResponse := .ok (.obj [("signed_install_proof",.str zeros)])
  skillDetail := .ok (.obj [("skill",.obj (shellRecord capabilities))])
  detail_proper v answered := by
    obtain rfl := Except.ok.inj answered
    exact shellRecord_proper capabilities
  download := fun _ => .ok []
  now := "2026"

def noRegistry : Registry := ⟨none,fun _ held => nomatch held⟩

theorem shell_unforgeable : Unforgeable sampleInstallEnv shellSigned := by
  intro key message signature valid
  refine ⟨shellPackage,rfl,?_⟩
  have same : message = zeros := by
    by_contra other
    simp [sampleInstallEnv,other] at valid
  rw [same]
  decide +kernel

theorem shell_free (key package : Bytes) (signed : shellSigned key package) :
    CollisionFree sampleInstallEnv.sha256 [package,shellPackage] := by
  constructor
  · exact fun _ => List.length_replicate
  · rw [show package = shellPackage from signed]
    simp

theorem fetchSkill_shell (capabilities : List String) (id : String) :
    fetchSkill sampleInstallEnv (shellInstall capabilities) id = .ok (shellRecord capabilities) := rfl

theorem contentBytes_shell (capabilities : List String) :
    contentBytes sampleInstallEnv (shellInstall capabilities) (shellRecord capabilities) = .ok shellPackage := rfl

theorem recordAgrees_shell (capabilities : List String) :
    RecordAgrees sampleInstallEnv (shellRecord capabilities) shellPackage ↔
      SameCapabilities (capabilities.map .str) [.str "shell.exec"] := by
  have manifest : manifestWithAuthor (shellRecord capabilities) =
      .ok (setItem shellManifest "author_did" (.str "")) := rfl
  have lists : capabilitiesOf (setItem shellManifest "author_did" (.str "")) = .ok [.str "shell.exec"] := rfl
  have recorded : capabilitiesOf (shellRecord capabilities) = .ok (capabilities.map .str) := by
    cases capabilities <;> rfl
  have unpackaged : ¬ (getOr (shellRecord capabilities) "package_url" .null).truthy = true := Bool.false_ne_true
  constructor
  · rintro ⟨own,found,listed,reads,shown,lists',same⟩
    rw [if_neg unpackaged,manifest] at shown
    obtain rfl := Except.ok.inj shown
    obtain rfl := Except.ok.inj (lists.symm.trans lists')
    obtain rfl := Except.ok.inj (recorded.symm.trans reads)
    exact same
  · intro same
    exact ⟨_,_,_,recorded,by rw [if_neg unpackaged,manifest],lists,same⟩

theorem installs {env : InstallEnv} {call : InstallCall env} {registry : Registry}
    (ok : (installSkill env call registry).isOk = true) :
    ∃ entry registry', installSkill env call registry = .ok (entry,registry') := by
  cases run : installSkill env call registry with
  | ok result => exact ⟨result.1,result.2,rfl⟩
  | error e =>
    rw [run] at ok
    cases ok

theorem shell_as_signed : ∃ entry registry',
    installSkill sampleInstallEnv (shellInstall ["shell.exec"]) noRegistry = .ok (entry,registry') ∧
      SignedCapabilities sampleInstallEnv shellSigned entry := by
  have ok : (installSkill sampleInstallEnv (shellInstall ["shell.exec"]) noRegistry).isOk = true := by decide +kernel
  obtain ⟨entry,registry',accepted⟩ := installs ok
  have agrees := (recordAgrees_shell ["shell.exec"]).mpr (List.Perm.refl _)
  exact ⟨entry,registry',accepted,(installed_capabilities shell_unforgeable shell_free accepted
    (fetchSkill_shell _ _) (contentBytes_shell _)).1.mpr agrees⟩

/-- The author signs that the skill uses the shell; the chapter records that it uses nothing. -/
theorem shell_understated : ∃ entry registry',
    installSkill sampleInstallEnv (shellInstall []) noRegistry = .ok (entry,registry') ∧
      Unforgeable sampleInstallEnv shellSigned ∧
      (∀ key package, shellSigned key package → CollisionFree sampleInstallEnv.sha256 [package,shellPackage]) ∧
      entry.capabilities = [] ∧ ¬ SignedCapabilities sampleInstallEnv shellSigned entry := by
  have ok : (installSkill sampleInstallEnv (shellInstall []) noRegistry).isOk = true := by decide +kernel
  obtain ⟨entry,registry',accepted⟩ := installs ok
  obtain ⟨skill,content,installed⟩ := installSkill_ok accepted
  obtain rfl := Except.ok.inj ((fetchSkill_shell _ _).symm.trans installed.fetched)
  obtain rfl := Except.ok.inj ((contentBytes_shell _).symm.trans installed.shipped)
  refine ⟨entry,registry',accepted,shell_unforgeable,shell_free,(Except.ok.inj installed.recorded).symm,?_⟩
  rw [signed_iff shell_unforgeable shell_free installed,recordAgrees_shell]
  intro same
  cases same.length_eq

end Samples

end Orrery.Skills
