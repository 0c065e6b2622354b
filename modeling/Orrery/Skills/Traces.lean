import Orrery.Foundation.Effect
import Orrery.Foundation.JsonOrder
import Orrery.Skills.InstalledCapabilities

/-! What an installation writes on the disk, and what is left of it when the installation
fails. The gates come before anything is written; the members of the archive are looked at,
and the record is read further, after the directory of the skill has been made. -/
namespace Orrery.Skills
open Foundation Json Chapter

inductive Node
  | file (content : Bytes)
  | folder
deriving DecidableEq

abbrev Tree := String → Option Node

abbrev Disk := Effect Exc Tree

/-- `extractInto` is `extractall(..., filter="data")`, that stays inside of the directory, and
`readRegistry` what `json.loads` makes of the bytes of a file, no value for a
JSONDecodeError. -/
structure DiskEnv extends InstallEnv where
  extractInto : List TarMember → String → Tree → Tree × Except TarFailure Unit
  readRegistry : Bytes → Except Exc Registry
  extract_inside : ∀ members dir tree path, startsWith (dir ++ "/") path = false →
    (extractInto members dir tree).1 path = tree path

section Text
variable (floatRepr : ℚ → List Char)

def newLine (depth : Nat) : List Char := '\n' :: List.replicate (2*depth) ' '

def bracketed (left right : Char) (depth : Nat) (items : List (List Char)) : List Char :=
  if items.isEmpty then [left,right]
  else left :: (newLine (depth+1) ++ (',' :: newLine (depth+1)).intercalate items ++ newLine depth ++ [right])

mutual
def indentedDumps (depth : Nat) : Json → List Char
  | .arr items => bracketed '[' ']' depth (indentedItems (depth+1) items)
  | .obj fields => bracketed '\x7b' '\x7d' depth
      ((sortByKey (indentedFields (depth+1) fields)).map fun field => quote field.1 ++ [':',' '] ++ field.2)
  | other => dumps floatRepr Layout.sorted other
def indentedItems (depth : Nat) : List Json → List (List Char)
  | [] => []
  | value :: rest => indentedDumps depth value :: indentedItems depth rest
def indentedFields (depth : Nat) : List (String × Json) → List (String × List Char)
  | [] => []
  | (key,value) :: rest => (key,indentedDumps depth value) :: indentedFields depth rest
end

def fileText (v : Json) : Bytes := Keystore.utf8 (String.ofList (indentedDumps floatRepr 0 v ++ ['\n']))

end Text

section Files

def refuse (kind text root path : String) : Disk Unit :=
  Effect.raise (.other kind (text ++ ": '" ++ root ++ "/" ++ path ++ "'"))

def makeFolder (root path : String) : Disk Unit := do
  match (← get) path with
  | none => modify fun tree => Function.update tree path (some .folder)
  | some .folder => pure ()
  | some (.file _) => refuse "FileExistsError" "[Errno 17] File exists" root path

def makeFolders (root path : String) : Disk Unit := do
  match (← get) "" with
  | some (.file _) => refuse "NotADirectoryError" "[Errno 20] Not a directory" root path
  | _ => do
    makeFolder root ""
    makeFolder root path

def writeFile (root path : String) (content : Bytes) : Disk Unit := do
  if (← get) path = some .folder then refuse "IsADirectoryError" "[Errno 21] Is a directory" root path
  else modify fun tree => Function.update tree path (some (.file content))

def lift {α : Type} : Except Exc α → Disk α
  | .ok a => pure a
  | .error e => Effect.raise e

end Files

section Functions
variable (env : DiskEnv)

structure CheckedPackage where
  safeId : String
  proof : Json
  skill : Dict
  content : Bytes

def checkedPackage (call : InstallCall env.toInstallEnv) : Except Exc CheckedPackage := do
  let safeId := String.ofList (JsonLines.strip call.skillId.toList)
  if isSkillId env.toInstallEnv safeId.toList = false then
    .error (.valueError ("invalid skill_id format: " ++ env.repr (.str safeId)))
  else do
    let response ← fieldsOf (← call.installResponse)
    let proof := getOr response "signed_install_proof" .null
    if proof.truthy = false then .error (.valueError "chapter did not return a valid signed_install_proof")
    else if (← isDigest isLowerHex proof) = false then
      .error (.valueError "chapter did not return a valid signed_install_proof")
    else do
      let skill ← fetchSkill env.toInstallEnv call safeId
      let content ← contentBytes env.toInstallEnv call skill
      match ← verifySignedPackage env.toInstallEnv content (getOr skill "content_sha256" (.str ""))
          (getOr skill "signature" (.str "")) (getOr skill "signing_key_did" (.str "")) with
      | some reason => .error (.valueError ("signature verification failed: " ++ reason))
      | none => return ⟨safeId,proof,skill,content⟩

def dirName (safeId : String) : String := String.ofList (safeId.toList.flatMap fun c =>
  if c = '/' then ['_'] else if c = '@' then "_at_".toList else [c])

def storeRaw (root dir : String) (content : Bytes) : Disk Bool := do
  writeFile root (dir ++ "/package.bin") content
  return false

def listedMembers (content : Bytes) : Except TarFailure (List TarMember) := do
  let members ← env.members content
  let _ ← members.mapM (refuseMember env.toInstallEnv)
  return members

def extract (members : List TarMember) (dir : String) : Effect TarFailure Tree Unit := fun tree =>
  match env.extractInto members dir tree with
  | (tree',.ok ()) => .ok () tree'
  | (tree',.error failure) => .error failure tree'

def unpackInto (root dir : String) (content : Bytes) : Disk Bool := fun tree =>
  match listedMembers env content with
  | .error .readError => storeRaw root dir content tree
  | .error (.raised e) => .error e tree
  | .ok members =>
    match extract env members dir tree with
    | .ok () tree' => .ok true tree'
    | .error .readError tree' => storeRaw root dir content tree'
    | .error (.raised e) tree' => .error e tree'

def manifestOf (skill : Dict) : Json := orElse (getOr skill "manifest" .null) (.obj [])

def readmeOf (skill manifest : Dict) : Json :=
  orElse (getOr manifest "readme_markdown" .null) (orElse (getOr skill "readme_markdown" .null) (.str ""))

def writeReadme (root dir : String) : Json → Disk Unit
  | .str text =>
    if text = "" then pure () else writeFile root (dir ++ "/README.md") (Keystore.utf8 text)
  | other =>
    if other.truthy then Effect.raise (.typeError s!"data must be str, not {other.typeName}") else pure ()

def storeManifest (root dir : String) (skill : Dict) : Disk Bool := do
  writeFile root (dir ++ "/manifest.json") (fileText env.floatRepr (manifestOf skill))
  let manifest ← lift (fieldsOf (manifestOf skill))
  writeReadme root dir (readmeOf skill manifest)
  return false

def storeInto (root dir : String) (skill : Dict) (content : Bytes) : Disk Bool :=
  if (getOr skill "package_url" .null).truthy then unpackInto env root dir content
  else storeManifest env root dir skill

theorem unread_distinct (entries : Dict) (held : none = some (Json.obj entries)) : (entries.map Prod.fst).Nodup := by
  cases held

def unreadRegistry : Registry := ⟨none,unread_distinct⟩

def readInstalledRegistry : Disk Registry := do
  match (← get) "registry.json" with
  | some (.file text) => lift (env.readRegistry text)
  | _ => return unreadRegistry

def enter (call : InstallCall env.toInstallEnv) (package : CheckedPackage) (isTarball : Bool) : Disk RegistryEntry := do
  let capabilities ← lift (capabilitiesOf package.skill)
  let entry : RegistryEntry := {
    skillId := package.safeId
    installedAt := call.now
    installedVersion := getOr package.skill "version" .null
    installProof := package.proof
    signingKeyDid := getOr package.skill "signing_key_did" (.str "")
    contentSha256 := getOr package.skill "content_sha256" (.str "")
    capabilities := capabilities
    path := skillDir call.skillsRoot package.safeId
    isTarball := isTarball
    manifest := manifestOf package.skill }
  let registry ← readInstalledRegistry env
  let registry' ← lift (register registry package.safeId entry.toJson)
  makeFolder call.skillsRoot ""
  writeFile call.skillsRoot "registry.json" (fileText env.floatRepr (loadInstalledRegistry registry'))
  return entry

def installOnDisk (call : InstallCall env.toInstallEnv) : Disk RegistryEntry := do
  let package ← lift (checkedPackage env call)
  let dir := dirName package.safeId
  makeFolders call.skillsRoot dir
  let isTarball ← storeInto env call.skillsRoot dir package.skill package.content
  enter env call package isTarball

end Functions

section Conditions
variable (env : DiskEnv) (tree : Tree) (dir : String)

def Held (path : String) (content : Bytes) : Prop := tree path = some .folder ∨ tree path = some (.file content)

def ReadmeHeld : Json → Prop
  | .str text => text = "" ∨ Held tree (dir ++ "/README.md") (Keystore.utf8 text)
  | _ => True

/-- What is written while the package is stored, up to the end or to a failure, is there
already. -/
def Stored (skill : Dict) (content : Bytes) : Prop :=
  if (getOr skill "package_url" .null).truthy then
    match listedMembers env content with
    | .error .readError => Held tree (dir ++ "/package.bin") content
    | .error (.raised _) => True
    | .ok members =>
      match extract env members dir tree with
      | .ok () tree' | .error (.raised _) tree' => tree' = tree
      | .error .readError tree' => if tree' (dir ++ "/package.bin") = some .folder then tree' = tree
          else Function.update tree' (dir ++ "/package.bin") (some (.file content)) = tree
  else Held tree (dir ++ "/manifest.json") (fileText env.floatRepr (manifestOf skill)) ∧
    (tree (dir ++ "/manifest.json") = some .folder ∨
      ∀ manifest, manifestOf skill = .obj manifest → ReadmeHeld tree dir (readmeOf skill manifest))

def ReadmeWritable : Json → Prop
  | .str text => text = "" ∨ tree (dir ++ "/README.md") ≠ some .folder
  | other => other.truthy = false

def Storable (skill : Dict) (content : Bytes) : Prop :=
  if (getOr skill "package_url" .null).truthy then
    match listedMembers env content with
    | .error .readError => tree (dir ++ "/package.bin") ≠ some .folder
    | .error (.raised _) => False
    | .ok members =>
      match extract env members dir tree with
      | .ok () _ => True
      | .error .readError tree' => tree' (dir ++ "/package.bin") ≠ some .folder
      | .error (.raised _) _ => False
  else tree (dir ++ "/manifest.json") ≠ some .folder ∧
    ∃ manifest, manifestOf skill = .obj manifest ∧ ReadmeWritable tree dir (readmeOf skill manifest)

structure Enterable (skill : Dict) : Prop where
  capabilities : ∃ items, capabilitiesOf skill = .ok items
  place : tree "registry.json" ≠ some .folder
  registry : ∀ text, tree "registry.json" = some (.file text) →
    ∃ registry entries, env.readRegistry text = .ok registry ∧ loadInstalledRegistry registry = .obj entries

def opened : Tree := Function.update (Function.update tree "" (some .folder)) dir (some .folder)

/-- A failed installation leaves no trace: there is no place for the directory of the skill,
or nothing fails, or the directory was there with all that is written into it. -/
inductive Traceless (package : CheckedPackage) : Prop
  | rootless (content : Bytes) (root : tree "" = some (.file content))
  | blocked (content : Bytes) (root : tree "" = some .folder)
      (place : tree (dirName package.safeId) = some (.file content))
  | succeeds (open_ : ∀ content, tree "" ≠ some (.file content))
      (place : ∀ content, tree (dirName package.safeId) ≠ some (.file content))
      (stores : Storable env (opened tree (dirName package.safeId)) (dirName package.safeId) package.skill package.content)
      (enters : Enterable env (opened tree (dirName package.safeId)) package.skill)
  | unchanged (root : tree "" = some .folder) (place : tree (dirName package.safeId) = some .folder)
      (stored : Stored env tree (dirName package.safeId) package.skill package.content)

end Conditions

section Writing
variable {root path : String} {content : Bytes} {tree : Tree}

theorem writeFile_ok (free : tree path ≠ some .folder) :
    writeFile root path content tree = .ok () (Function.update tree path (some (.file content))) := by
  simp [writeFile,Effect.bind_apply,free]

theorem writeFile_folder (occupied : tree path = some .folder) : ∃ e, writeFile root path content tree = .error e tree :=
  ⟨_,by rw [writeFile,Effect.bind_apply,Effect.get_apply]; dsimp only; rw [if_pos occupied]; rfl⟩

theorem writeFile_held : Effect.final (writeFile root path content tree) = tree ↔ Held tree path content := by
  by_cases occupied : tree path = some .folder
  · obtain ⟨e,failed⟩ := @writeFile_folder root path content tree occupied
    simp [failed,Held,occupied]
  · rw [writeFile_ok occupied,Effect.final_ok,Function.update_eq_self_iff,Held,or_iff_right occupied]
    exact eq_comm

theorem writeFile_elsewhere {other : String} (apart : other ≠ path) :
    Effect.final (writeFile root path content tree) other = tree other := by
  by_cases occupied : tree path = some .folder
  · obtain ⟨e,failed⟩ := @writeFile_folder root path content tree occupied
    rw [failed,Effect.final_error]
  · rw [writeFile_ok occupied,Effect.final_ok,Function.update_of_ne apart]

theorem writeFile_returns : (∃ a t, writeFile root path content tree = .ok a t) ↔ tree path ≠ some .folder := by
  constructor
  · rintro ⟨a,t,ok⟩ occupied
    obtain ⟨e,failed⟩ := @writeFile_folder root path content tree occupied
    cases failed.symm.trans ok
  · exact fun free => ⟨_,_,writeFile_ok free⟩

end Writing

section Storing
variable {env : DiskEnv} {root dir : String} {tree : Tree} {skill : Dict} {content : Bytes}

theorem final_then {α β : Type} (m : Disk α) (b : β) : Effect.final ((do let _ ← m; return b) tree) = Effect.final (m tree) := by
  rw [Effect.bind_apply]
  cases m tree <;> rfl

theorem returns_then {α β : Type} (m : Disk α) (b : β) :
    (∃ b' t, (do let _ ← m; return b : Disk β) tree = .ok b' t) ↔ ∃ a t, m tree = .ok a t := by
  rw [Effect.bind_apply]
  cases m tree <;> simp

theorem storeRaw_returns : (∃ b t, storeRaw root dir content tree = .ok b t) ↔ tree (dir ++ "/package.bin") ≠ some .folder := by
  rw [storeRaw,returns_then,writeFile_returns]

theorem storeRaw_final : Effect.final (storeRaw root dir content tree) =
    if tree (dir ++ "/package.bin") = some .folder then tree
    else Function.update tree (dir ++ "/package.bin") (some (.file content)) := by
  rw [storeRaw,final_then]
  split
  next occupied =>
    obtain ⟨e,failed⟩ := @writeFile_folder root _ content _ occupied
    rw [failed,Effect.final_error]
  next free => rw [writeFile_ok free,Effect.final_ok]

theorem unpackInto_returns (packaged : (getOr skill "package_url" .null).truthy = true) :
    (∃ b t, unpackInto env root dir content tree = .ok b t) ↔ Storable env tree dir skill content := by
  unfold Storable unpackInto
  rw [if_pos packaged]
  cases listedMembers env content with
  | error failure =>
    cases failure with
    | readError => exact storeRaw_returns
    | raised e => simp
  | ok members =>
    dsimp only
    cases extract env members dir tree with
    | ok _ tree' => simp
    | error failure tree' =>
      cases failure with
      | readError => exact storeRaw_returns
      | raised e => simp

theorem unpackInto_stored (packaged : (getOr skill "package_url" .null).truthy = true) :
    Effect.final (unpackInto env root dir content tree) = tree ↔ Stored env tree dir skill content := by
  unfold Stored unpackInto
  rw [if_pos packaged]
  cases listedMembers env content with
  | error failure =>
    cases failure with
    | readError =>
      dsimp only
      rw [storeRaw,final_then,writeFile_held]
    | raised e => simp
  | ok members =>
    dsimp only
    cases extract env members dir tree with
    | ok _ tree' => rfl
    | error failure tree' =>
      cases failure with
      | readError =>
        dsimp only
        rw [storeRaw_final]
        split <;> rfl
      | raised e => rfl

theorem startsWith_append_left (a b : String) : startsWith (dir ++ a) (dir ++ b) = startsWith a b := by
  rw [startsWith,startsWith,String.toList_append,String.toList_append,Bool.eq_iff_iff,List.isPrefixOf_iff_prefix,
    List.isPrefixOf_iff_prefix,List.prefix_append_right_inj]

theorem outside_apart {path name : String} (outside : startsWith (dir ++ "/") path = false)
    (below : startsWith "/" name = true) : path ≠ dir ++ name := by
  rintro rfl
  rw [startsWith_append_left,below] at outside
  cases outside

theorem unpackInto_inside {path : String} (outside : startsWith (dir ++ "/") path = false) :
    Effect.final (unpackInto env root dir content tree) path = tree path := by
  have raw (before : Tree) : Effect.final (storeRaw root dir content before) path = before path := by
    rw [storeRaw,final_then]
    exact writeFile_elsewhere (outside_apart outside (by decide))
  have kept (members : List TarMember) : Effect.final (extract env members dir tree) path = tree path := by
    rw [← env.extract_inside members dir tree path outside,extract]
    cases env.extractInto members dir tree with | mk tree' outcome => cases outcome <;> rfl
  unfold unpackInto
  cases listedMembers env content with
  | error failure =>
    cases failure with
    | readError => exact raw tree
    | raised e => rfl
  | ok members =>
    have same := kept members
    dsimp only
    cases ran : extract env members dir tree with
    | ok _ tree' =>
      rw [ran] at same
      exact same
    | error failure tree' =>
      rw [ran] at same
      cases failure with
      | readError => exact (raw tree').trans same
      | raised e => exact same

theorem writeReadme_cases (root dir : String) (readme : Json) :
    (∃ text, readme = .str text ∧ text ≠ "" ∧
      writeReadme root dir readme = writeFile root (dir ++ "/README.md") (Keystore.utf8 text)) ∨
    (readme.truthy = false ∧ writeReadme root dir readme = pure ()) ∨
    ((∀ text, readme ≠ .str text) ∧ readme.truthy = true ∧ ∃ e, writeReadme root dir readme = Effect.raise e) := by
  have other (unnamed : ∀ text, readme ≠ .str text) : writeReadme root dir readme =
      if readme.truthy then Effect.raise (.typeError s!"data must be str, not {readme.typeName}") else pure () := by
    unfold writeReadme
    split
    next text => exact absurd rfl (unnamed text)
    next => rfl
  by_cases text : ∃ text, readme = .str text
  · obtain ⟨text,rfl⟩ := text
    by_cases blank : text = ""
    · refine .inr (.inl ⟨?_,if_pos blank⟩)
      rw [blank]
      rfl
    · exact .inl ⟨text,rfl,blank,if_neg blank⟩
  · have unnamed := fun s same => text ⟨s,same⟩
    cases filled : readme.truthy with
    | false => exact .inr (.inl ⟨rfl,by rw [other unnamed,filled]; rfl⟩)
    | true => exact .inr (.inr ⟨unnamed,rfl,_,by rw [other unnamed,filled]; rfl⟩)

theorem truthy_str {text : String} : (Json.str text).truthy = false ↔ text = "" := by
  simp [truthy]

theorem readmeWritable_other {readme : Json} (unnamed : ∀ text, readme ≠ .str text) :
    ReadmeWritable tree dir readme ↔ readme.truthy = false := by
  unfold ReadmeWritable
  split
  next text => exact absurd rfl (unnamed text)
  next => rfl

theorem readme_blank {readme : Json} (blank : readme.truthy = false) :
    ReadmeWritable tree dir readme ∧ ReadmeHeld tree dir readme := by
  constructor
  · unfold ReadmeWritable
    split
    next text => exact .inl (truthy_str.mp blank)
    next => exact blank
  · unfold ReadmeHeld
    split
    next text => exact .inl (truthy_str.mp blank)
    next => trivial

theorem writeReadme_returns (readme : Json) :
    (∃ a t, writeReadme root dir readme tree = .ok a t) ↔ ReadmeWritable tree dir readme := by
  obtain ⟨text,rfl,filled,same⟩ | ⟨blank,same⟩ | ⟨unnamed,filled,e,same⟩ := writeReadme_cases root dir readme
  · rw [same,writeFile_returns]
    exact (or_iff_right filled).symm
  · rw [same]
    exact iff_of_true ⟨(),tree,rfl⟩ (readme_blank blank).1
  · rw [same,readmeWritable_other unnamed,filled]
    simp

theorem writeReadme_held (readme : Json) :
    Effect.final (writeReadme root dir readme tree) = tree ↔ ReadmeHeld tree dir readme := by
  obtain ⟨text,rfl,filled,same⟩ | ⟨blank,same⟩ | ⟨unnamed,filled,e,same⟩ := writeReadme_cases root dir readme
  · rw [same,writeFile_held]
    exact (or_iff_right filled).symm
  · rw [same]
    exact iff_of_true rfl (readme_blank blank).2
  · rw [same]
    refine iff_of_true rfl ?_
    unfold ReadmeHeld
    split
    next text => exact absurd rfl (unnamed text)
    next => trivial

theorem writeReadme_elsewhere {path : String} (readme : Json) (apart : path ≠ dir ++ "/README.md") :
    Effect.final (writeReadme root dir readme tree) path = tree path := by
  obtain ⟨text,rfl,filled,same⟩ | ⟨blank,same⟩ | ⟨unnamed,filled,e,same⟩ := writeReadme_cases root dir readme
  · rw [same]
    exact writeFile_elsewhere apart
  · rw [same]
    rfl
  · rw [same]
    rfl

theorem readmeWritable_congr {tree' : Tree} {readme : Json} (same : tree' (dir ++ "/README.md") = tree (dir ++ "/README.md")) :
    ReadmeWritable tree' dir readme ↔ ReadmeWritable tree dir readme := by
  unfold ReadmeWritable
  rw [same]

theorem manifest_apart : dir ++ "/README.md" ≠ dir ++ "/manifest.json" := by
  intro same
  rw [String.append_right_inj] at same
  exact absurd same (by decide)

theorem storeManifest_free (free : tree (dir ++ "/manifest.json") ≠ some .folder) :
    storeManifest env root dir skill tree =
      match fieldsOf (manifestOf skill) with
      | .ok manifest => (do writeReadme root dir (readmeOf skill manifest); return false : Disk Bool)
          (Function.update tree (dir ++ "/manifest.json") (some (.file (fileText env.floatRepr (manifestOf skill)))))
      | .error e => .error e
          (Function.update tree (dir ++ "/manifest.json") (some (.file (fileText env.floatRepr (manifestOf skill))))) := by
  rw [storeManifest,Effect.bind_apply,writeFile_ok free]
  dsimp only
  rw [Effect.bind_apply]
  cases fieldsOf (manifestOf skill) <;> rfl

theorem storeManifest_folder (occupied : tree (dir ++ "/manifest.json") = some .folder) :
    ∃ e, storeManifest env root dir skill tree = .error e tree := by
  obtain ⟨e,failed⟩ := @writeFile_folder root _ (fileText env.floatRepr (manifestOf skill)) _ occupied
  exact ⟨e,by rw [storeManifest,Effect.bind_apply,failed]⟩

theorem fieldsOf_iff {v : Json} {fields : Dict} : fieldsOf v = .ok fields ↔ v = .obj fields := by
  cases v <;> simp [fieldsOf]

theorem storeManifest_returns (unpackaged : ¬ (getOr skill "package_url" .null).truthy = true) :
    (∃ b t, storeManifest env root dir skill tree = .ok b t) ↔ Storable env tree dir skill content := by
  unfold Storable
  rw [if_neg unpackaged]
  by_cases occupied : tree (dir ++ "/manifest.json") = some .folder
  · obtain ⟨e,failed⟩ := @storeManifest_folder env root dir tree skill occupied
    simp [failed,occupied]
  · rw [storeManifest_free occupied,and_iff_right occupied]
    cases read : fieldsOf (manifestOf skill) with
    | error e =>
      refine iff_of_false (fun ⟨_,_,ok⟩ => nomatch ok) ?_
      rintro ⟨manifest,found,-⟩
      cases read.symm.trans (fieldsOf_iff.mpr found)
    | ok manifest =>
      rw [fieldsOf_iff] at read
      dsimp only
      rw [returns_then]
      refine (writeReadme_returns _).trans ((readmeWritable_congr (Function.update_of_ne manifest_apart _ _)).trans ?_)
      constructor
      · exact fun writable => ⟨manifest,read,writable⟩
      · rintro ⟨manifest',found,writable⟩
        cases read.symm.trans found
        exact writable

theorem storeManifest_stored (unpackaged : ¬ (getOr skill "package_url" .null).truthy = true) :
    Effect.final (storeManifest env root dir skill tree) = tree ↔ Stored env tree dir skill content := by
  unfold Stored
  rw [if_neg unpackaged]
  by_cases occupied : tree (dir ++ "/manifest.json") = some .folder
  · obtain ⟨e,failed⟩ := @storeManifest_folder env root dir tree skill occupied
    simp [failed,occupied,Held]
  · rw [storeManifest_free occupied,or_iff_right occupied]
    have written : Held tree (dir ++ "/manifest.json") (fileText env.floatRepr (manifestOf skill)) ↔
        tree (dir ++ "/manifest.json") = some (.file (fileText env.floatRepr (manifestOf skill))) := or_iff_right occupied
    rw [written]
    cases read : fieldsOf (manifestOf skill) with
    | error e =>
      rw [Effect.final_error,Function.update_eq_self_iff]
      refine ⟨fun same => ⟨same.symm,fun manifest found => ?_⟩,fun same => same.1.symm⟩
      cases read.symm.trans (fieldsOf_iff.mpr found)
    | ok manifest =>
      rw [fieldsOf_iff] at read
      dsimp only
      rw [final_then]
      have kept := @writeReadme_elsewhere root dir (Function.update tree (dir ++ "/manifest.json")
        (some (.file (fileText env.floatRepr (manifestOf skill))))) _ (readmeOf skill manifest) manifest_apart.symm
      rw [Function.update_self] at kept
      constructor
      · intro same
        have held := (congrFun same _).symm.trans kept
        rw [Function.update_eq_self_iff.mpr held.symm,writeReadme_held] at same
        refine ⟨held,fun manifest' found => ?_⟩
        cases read.symm.trans found
        exact same
      · rintro ⟨held,readme⟩
        rw [Function.update_eq_self_iff.mpr held.symm,writeReadme_held]
        exact readme manifest read

theorem storeManifest_inside {path : String} (outside : startsWith (dir ++ "/") path = false) :
    Effect.final (storeManifest env root dir skill tree) path = tree path := by
  by_cases occupied : tree (dir ++ "/manifest.json") = some .folder
  · obtain ⟨e,failed⟩ := @storeManifest_folder env root dir tree skill occupied
    rw [failed,Effect.final_error]
  · rw [storeManifest_free occupied]
    have first := Function.update_of_ne (@outside_apart dir path "/manifest.json" outside (by decide))
      (some (.file (fileText env.floatRepr (manifestOf skill)))) tree
    cases fieldsOf (manifestOf skill) with
    | error e => exact first
    | ok manifest =>
      dsimp only
      rw [final_then,writeReadme_elsewhere _ (outside_apart outside (by decide)),first]

theorem storeInto_returns : (∃ b t, storeInto env root dir skill content tree = .ok b t) ↔ Storable env tree dir skill content := by
  unfold storeInto
  split
  next packaged => exact unpackInto_returns packaged
  next unpackaged => exact storeManifest_returns unpackaged

theorem storeInto_stored : Effect.final (storeInto env root dir skill content tree) = tree ↔ Stored env tree dir skill content := by
  unfold storeInto
  split
  next packaged => exact unpackInto_stored packaged
  next unpackaged => exact storeManifest_stored unpackaged

theorem storeInto_inside {path : String} (outside : startsWith (dir ++ "/") path = false) :
    Effect.final (storeInto env root dir skill content tree) path = tree path := by
  unfold storeInto
  split
  next => exact unpackInto_inside outside
  next => exact storeManifest_inside outside

end Storing

section Entering
variable {env : DiskEnv} {call : InstallCall env.toInstallEnv} {package : CheckedPackage} {tree : Tree}

theorem lift_bind {α β : Type} (x : Except Exc α) (next : α → Disk β) : (lift x >>= next) tree =
    match x with
    | .ok a => next a tree
    | .error e => .error e tree := by
  rw [Effect.bind_apply]
  cases x <;> rfl

theorem makeFolder_there {root path : String} (there : tree path = some .folder) : makeFolder root path tree = .ok () tree := by
  rw [makeFolder,Effect.bind_apply,Effect.get_apply]
  dsimp only
  rw [there]
  rfl

theorem register_iff {registry : Registry} {key : String} {entry : Json} :
    (∃ registry', register registry key entry = .ok registry') ↔ ∃ entries, loadInstalledRegistry registry = .obj entries := by
  unfold register
  split
  next entries loaded => exact iff_of_true ⟨_,rfl⟩ ⟨entries,loaded⟩
  next items loaded =>
    rw [loaded]
    exact iff_of_false (fun ⟨_,ok⟩ => nomatch ok) fun ⟨_,same⟩ => nomatch same
  next unnamed _ => exact iff_of_false (fun ⟨_,ok⟩ => nomatch ok) fun ⟨entries,same⟩ => unnamed entries same

theorem readInstalledRegistry_cases : (∃ registry, readInstalledRegistry env tree = .ok registry tree ∧
      (∀ text, tree "registry.json" = some (.file text) → env.readRegistry text = .ok registry) ∧
      ((∀ text, tree "registry.json" ≠ some (.file text)) → loadInstalledRegistry registry = .obj [])) ∨
    ∃ e text, readInstalledRegistry env tree = .error e tree ∧ tree "registry.json" = some (.file text) ∧
      env.readRegistry text = .error e := by
  rw [readInstalledRegistry,Effect.bind_apply,Effect.get_apply]
  dsimp only
  have missing (absent : ∀ text, tree "registry.json" ≠ some (.file text)) :
      ∃ registry, (EStateM.Result.ok unreadRegistry tree : EStateM.Result Exc Tree Registry) = .ok registry tree ∧
        (∀ text, tree "registry.json" = some (.file text) → env.readRegistry text = .ok registry) ∧
        ((∀ text, tree "registry.json" ≠ some (.file text)) → loadInstalledRegistry registry = .obj []) :=
    ⟨_,rfl,fun text held => absurd held (absent text),fun _ => rfl⟩
  cases held : tree "registry.json" with
  | none =>
    rw [held] at missing
    exact .inl (missing nofun)
  | some node =>
    cases node with
    | folder =>
      rw [held] at missing
      exact .inl (missing nofun)
    | file text =>
      dsimp only
      cases read : env.readRegistry text with
      | ok registry =>
        refine .inl ⟨registry,rfl,fun text' same => ?_,fun absent => absurd rfl (absent text)⟩
        cases same
        exact read
      | error e => exact .inr ⟨e,text,rfl,rfl,read⟩

theorem enter_cases (isTarball : Bool) (root : tree "" = some .folder) :
    (Enterable env tree package.skill ∧ ∃ entry t, enter env call package isTarball tree = .ok entry t) ∨
    (¬ Enterable env tree package.skill ∧ ∃ e, enter env call package isTarball tree = .error e tree) := by
  rw [enter,lift_bind]
  cases listed : capabilitiesOf package.skill with
  | error e =>
    refine .inr ⟨fun enterable => ?_,e,rfl⟩
    obtain ⟨items,found⟩ := enterable.capabilities
    cases listed.symm.trans found
  | ok capabilities =>
    dsimp only
    rw [Effect.bind_apply]
    obtain ⟨registry,ran,read,absent⟩ | ⟨e,text,ran,held,failed⟩ := @readInstalledRegistry_cases env tree
    · rw [ran]
      dsimp only
      rw [lift_bind]
      generalize RegistryEntry.toJson _ = entry
      cases registered : register registry package.safeId entry with
      | error e =>
        refine .inr ⟨fun enterable => ?_,e,rfl⟩
        have loaded : ∃ entries, loadInstalledRegistry registry = .obj entries := by
          by_cases file : ∃ text, tree "registry.json" = some (.file text)
          · obtain ⟨text,held⟩ := file
            obtain ⟨registry',entries,read',loaded⟩ := enterable.registry text held
            cases (read text held).symm.trans read'
            exact ⟨entries,loaded⟩
          · exact ⟨[],absent fun text held => file ⟨text,held⟩⟩
        obtain ⟨registry',made⟩ := (@register_iff registry package.safeId entry).mpr loaded
        cases registered.symm.trans made
      | ok registry' =>
        dsimp only
        rw [Effect.bind_apply,makeFolder_there root]
        dsimp only
        rw [Effect.bind_apply]
        by_cases occupied : tree "registry.json" = some .folder
        · obtain ⟨e,failed⟩ := @writeFile_folder call.skillsRoot _
            (fileText env.floatRepr (loadInstalledRegistry registry')) _ occupied
          rw [failed]
          exact .inr ⟨fun enterable => enterable.place occupied,e,rfl⟩
        · rw [writeFile_ok occupied]
          obtain ⟨entries,loaded⟩ := register_iff.mp ⟨registry',registered⟩
          exact .inl ⟨⟨⟨_,listed⟩,occupied,fun text held => ⟨registry,entries,read text held,loaded⟩⟩,_,_,rfl⟩
    · rw [ran]
      refine .inr ⟨fun enterable => ?_,e,rfl⟩
      obtain ⟨registry,entries,read,-⟩ := enterable.registry text held
      cases failed.symm.trans read

theorem enterable_congr {tree' : Tree} {skill : Dict} (same : tree' "registry.json" = tree "registry.json") :
    Enterable env tree' skill ↔ Enterable env tree skill :=
  ⟨fun h => ⟨h.capabilities,same ▸ h.place,same ▸ h.registry⟩,fun h => ⟨h.capabilities,same ▸ h.place,same ▸ h.registry⟩⟩

end Entering

section Installing
variable {env : DiskEnv} {call : InstallCall env.toInstallEnv} {package : CheckedPackage} {tree : Tree} {root dir : String}

theorem makeFolder_free (free : ∀ content, tree dir ≠ some (.file content)) :
    makeFolder root dir tree = .ok () (Function.update tree dir (some .folder)) := by
  rw [makeFolder,Effect.bind_apply,Effect.get_apply]
  dsimp only
  cases held : tree dir with
  | none => rfl
  | some node =>
    cases node with
    | file content => exact absurd held (free content)
    | folder =>
      rw [Function.update_eq_self_iff.mpr held.symm]
      rfl

theorem makeFolder_file {content : Bytes} (held : tree dir = some (.file content)) :
    ∃ e, makeFolder root dir tree = .error e tree := by
  rw [makeFolder,Effect.bind_apply,Effect.get_apply]
  dsimp only
  rw [held]
  exact ⟨_,rfl⟩

theorem makeFolders_rootless {content : Bytes} (held : tree "" = some (.file content)) :
    ∃ e, makeFolders root dir tree = .error e tree := by
  rw [makeFolders,Effect.bind_apply,Effect.get_apply]
  dsimp only
  rw [held]
  exact ⟨_,rfl⟩

theorem makeFolders_rooted (rooted : ∀ content, tree "" ≠ some (.file content)) :
    makeFolders root dir tree = makeFolder root dir (Function.update tree "" (some .folder)) := by
  rw [makeFolders,Effect.bind_apply,Effect.get_apply]
  dsimp only
  have both : (do makeFolder root ""; makeFolder root dir : Disk Unit) tree =
      makeFolder root dir (Function.update tree "" (some .folder)) := by
    rw [Effect.bind_apply,makeFolder_free rooted]
  cases held : tree "" with
  | none => exact both
  | some node =>
    cases node with
    | file content => exact absurd held (rooted content)
    | folder => exact both

theorem opened_root : opened tree dir "" = some .folder := by
  unfold opened
  rw [Function.update_apply]
  split
  next => rfl
  next => rw [Function.update_self]

theorem opened_eq : opened tree dir = tree ↔ tree "" = some .folder ∧ tree dir = some .folder := by
  constructor
  · intro same
    rw [← same]
    exact ⟨opened_root,Function.update_self ..⟩
  · rintro ⟨root,place⟩
    have rooted : Function.update tree "" (some .folder) = tree := Function.update_eq_self_iff.mpr root.symm
    rw [opened,rooted,Function.update_eq_self_iff.mpr place.symm]

theorem outside_root : startsWith (dir ++ "/") "" = false := by
  rw [Bool.eq_false_iff,ne_eq,startsWith,List.isPrefixOf_iff_prefix,String.toList_append]
  intro start
  have := start.length_le
  simp at this

theorem outside_self : startsWith (dir ++ "/") dir = false := by
  rw [Bool.eq_false_iff,ne_eq,startsWith,List.isPrefixOf_iff_prefix,String.toList_append]
  intro start
  have := start.length_le
  simp at this

theorem outside_registry : startsWith (dir ++ "/") "registry.json" = false := by
  rw [Bool.eq_false_iff,ne_eq,startsWith,List.isPrefixOf_iff_prefix,String.toList_append]
  intro start
  have inside : '/' ∈ "registry.json".toList := start.subset (List.mem_append_right _ (by decide))
  exact absurd inside (by decide)

theorem installs_checked (checked : checkedPackage env call = .ok package) : installOnDisk env call tree =
    match makeFolders call.skillsRoot (dirName package.safeId) tree with
    | .ok _ t => (do
      let isTarball ← storeInto env call.skillsRoot (dirName package.safeId) package.skill package.content
      enter env call package isTarball) t
    | .error e t => .error e t := by
  rw [installOnDisk,lift_bind,checked]
  dsimp only
  rw [Effect.bind_apply]
  cases makeFolders call.skillsRoot (dirName package.safeId) tree <;> rfl

theorem installs_cases (checked : checkedPackage env call = .ok package)
    (made : makeFolders call.skillsRoot (dirName package.safeId) tree = .ok () (opened tree (dirName package.safeId))) :
    (Storable env (opened tree (dirName package.safeId)) (dirName package.safeId) package.skill package.content ∧
      Enterable env (opened tree (dirName package.safeId)) package.skill ∧
      ∃ entry t, installOnDisk env call tree = .ok entry t) ∨
    (¬ (Storable env (opened tree (dirName package.safeId)) (dirName package.safeId) package.skill package.content ∧
        Enterable env (opened tree (dirName package.safeId)) package.skill) ∧
      ∃ e, installOnDisk env call tree = .error e (Effect.final (storeInto env call.skillsRoot (dirName package.safeId)
        package.skill package.content (opened tree (dirName package.safeId))))) := by
  generalize place : dirName package.safeId = dir at *
  rw [installs_checked checked,place,made]
  dsimp only
  rw [Effect.bind_apply]
  have inside {path : String} := @storeInto_inside env call.skillsRoot dir (opened tree dir) package.skill package.content path
  have stores := @storeInto_returns env call.skillsRoot dir (opened tree dir) package.skill package.content
  cases stored : storeInto env call.skillsRoot dir package.skill package.content (opened tree dir) with
  | error e t =>
    refine .inr ⟨fun both => ?_,e,rfl⟩
    obtain ⟨_,_,ok⟩ := stores.mpr both.1
    cases stored.symm.trans ok
  | ok isTarball t =>
    rw [stored,Effect.final_ok] at inside
    have storable := stores.mp ⟨_,_,stored⟩
    have registry := @enterable_congr env (opened tree dir) t package.skill (inside outside_registry)
    dsimp only
    obtain ⟨enterable,entry,t',entered⟩ | ⟨unenterable,e,failed⟩ := @enter_cases env call package t isTarball
      ((inside outside_root).trans opened_root)
    · exact .inl ⟨storable,registry.mp enterable,entry,t',entered⟩
    · exact .inr ⟨fun both => unenterable (registry.mpr both.2),e,failed⟩

/-- An installation that raises leaves the disk as it was exactly where the gates refuse the
package, or the package leaves no trace. -/
theorem traceless_iff : (∀ e tree', installOnDisk env call tree = .error e tree' → tree' = tree) ↔
    ∀ package, checkedPackage env call = .ok package → Traceless env tree package := by
  cases checked : checkedPackage env call with
  | error e =>
    refine iff_of_true (fun e' tree' failed => ?_) fun _ ok => nomatch ok
    rw [installOnDisk,lift_bind,checked] at failed
    cases failed
    rfl
  | ok package =>
    simp only [Except.ok.injEq,forall_eq']
    have run := @installs_checked env call package tree checked
    by_cases rooted : ∃ content, tree "" = some (.file content)
    · obtain ⟨content,held⟩ := rooted
      obtain ⟨e,failed⟩ := @makeFolders_rootless tree call.skillsRoot (dirName package.safeId) content held
      rw [failed] at run
      refine iff_of_true (fun e' tree' raised => ?_) (.rootless content held)
      cases run.symm.trans raised
      rfl
    · have rooted := fun content held => rooted ⟨content,held⟩
      by_cases place : ∃ content, Function.update tree "" (some .folder) (dirName package.safeId) = some (.file content)
      · obtain ⟨content,held⟩ := place
        obtain ⟨e,failed⟩ := @makeFolder_file (Function.update tree "" (some .folder)) call.skillsRoot _ content held
        rw [makeFolders_rooted rooted,failed] at run
        have apart : dirName package.safeId ≠ "" := fun same => by
          rw [same,Function.update_self] at held
          cases held
        rw [Function.update_of_ne apart] at held
        constructor
        · intro kept
          exact .blocked content (Function.update_eq_self_iff.mp (kept _ _ run)).symm held
        · rintro traceless e' tree' raised
          cases run.symm.trans raised
          cases traceless with
          | rootless content root => exact absurd root (rooted content)
          | blocked content root place => exact Function.update_eq_self_iff.mpr root.symm
          | succeeds _ place => exact absurd held (place content)
          | unchanged root place => cases held.symm.trans place
      · have place := fun content held => place ⟨content,held⟩
        have made := (makeFolders_rooted rooted).trans (@makeFolder_free _ call.skillsRoot _ place)
        obtain ⟨storable,enterable,entry,t,ok⟩ | ⟨short,e,failed⟩ := installs_cases checked made
        · refine iff_of_true (fun e' tree' raised => ?_) (.succeeds rooted (fun content held => ?_) storable enterable)
          · cases ok.symm.trans raised
          · by_cases same : dirName package.safeId = ""
            · exact rooted content (same ▸ held)
            · exact place content ((Function.update_of_ne same _ _).trans held)
        · have inside {path : String} := @storeInto_inside env call.skillsRoot (dirName package.safeId)
            (opened tree (dirName package.safeId)) package.skill package.content path
          constructor
          · intro kept
            have same := kept _ _ failed
            rw [same] at inside
            have root := (inside outside_root).trans opened_root
            have there := (inside outside_self).trans (Function.update_self ..)
            rw [opened_eq.mpr ⟨root,there⟩,storeInto_stored] at same
            exact .unchanged root there same
          · rintro traceless e' tree' raised
            cases failed.symm.trans raised
            cases traceless with
            | rootless content root => exact absurd root (rooted content)
            | blocked content root held =>
              refine absurd ?_ (place content)
              rwa [Function.update_eq_self_iff.mpr root.symm]
            | succeeds _ _ storable enterable => exact absurd ⟨storable,enterable⟩ short
            | unchanged root there stored => rw [opened_eq.mpr ⟨root,there⟩,storeInto_stored.mpr stored]

end Installing

section Samples

def noFiles : Tree := fun _ => none

def absoluteEnv : DiskEnv := { sampleInstallEnv with
  members := fun _ => .ok [⟨"/x",false,false,[]⟩]
  extractInto := fun _ _ tree => (tree,.ok ())
  readRegistry := fun _ => .ok unreadRegistry
  extract_inside := fun _ _ _ _ _ => rfl }

def absoluteRecord : Dict := ("package_url",.str "https://chapter/shell") :: shellRecord ["shell.exec"]

def absoluteInstall : InstallCall absoluteEnv.toInstallEnv where
  skillId := "shell@1.0.0"
  skillsRoot := "skills"
  installResponse := .ok (.obj [("signed_install_proof",.str zeros)])
  skillDetail := .ok (.obj [("skill",.obj absoluteRecord)])
  detail_proper v answered := by
    obtain rfl := Except.ok.inj answered
    have proper := shellRecord_proper ["shell.exec"]
    simp [absoluteRecord,absoluteEnv,shellRecord,shellManifest,Proper,ProperFields,ProperItems] at proper ⊢
  download := fun _ => .ok [1]
  now := "2026"

theorem absolute_refused (content : Bytes) : ∃ e, listedMembers absoluteEnv content = .error (.raised e) := by
  have leads : startsWith "/" "/x" = true ∨ ".." ∈ pathParts "/x" := Or.inl (by decide)
  refine ⟨.valueError ("refusing path-traversing tar member: " ++ absoluteEnv.repr (.str "/x")),?_⟩
  have member : refuseMember absoluteEnv.toInstallEnv ⟨"/x",false,false,[]⟩ =
      .error (.raised (.valueError ("refusing path-traversing tar member: " ++ absoluteEnv.repr (.str "/x")))) :=
    if_pos leads
  have members : absoluteEnv.members content = .ok [⟨"/x",false,false,[]⟩] := rfl
  rw [listedMembers,members,ok_bind,List.mapM_cons,member]
  rfl

/-- The archive is refused, and the directory of the skill is there. -/
theorem absolute_left_directory : ∃ e tree', installOnDisk absoluteEnv absoluteInstall noFiles = .error e tree' ∧
    tree' "shell_at_1.0.0" = some .folder ∧ tree' ≠ noFiles := by
  have passed : ((checkedPackage absoluteEnv absoluteInstall).toOption.map fun package =>
      (package.safeId,package.content,(getOr package.skill "package_url" .null).truthy)) =
      some ("shell@1.0.0",[1],true) := by decide +kernel
  cases checked : checkedPackage absoluteEnv absoluteInstall with
  | error e =>
    rw [checked] at passed
    cases passed
  | ok package =>
    rw [checked] at passed
    obtain ⟨named,-,packaged⟩ := Prod.mk.inj (Option.some.inj passed) |>.imp_right Prod.mk.inj
    obtain ⟨e,refused⟩ := absolute_refused package.content
    have rooted : ∀ content, noFiles "" ≠ some (.file content) := nofun
    have made := (@makeFolders_rooted noFiles "skills" (dirName package.safeId) rooted).trans
      (makeFolder_free fun content held => by
        rw [Function.update_apply] at held
        split at held <;> cases held)
    have stored : storeInto absoluteEnv "skills" (dirName package.safeId) package.skill package.content
        (opened noFiles (dirName package.safeId)) = .error e (opened noFiles (dirName package.safeId)) := by
      rw [storeInto,if_pos packaged,unpackInto,refused]
    have run := @installs_checked absoluteEnv absoluteInstall package noFiles checked
    rw [show absoluteInstall.skillsRoot = "skills" from rfl,made] at run
    dsimp only at run
    rw [Effect.bind_apply,show Function.update (Function.update _ _ _) _ _ = opened _ _ from rfl,stored] at run
    have there : opened noFiles (dirName package.safeId) "shell_at_1.0.0" = some .folder := by
      rw [named,show dirName "shell@1.0.0" = "shell_at_1.0.0" by decide +kernel]
      exact Function.update_self ..
    exact ⟨e,_,run,there,fun same => by cases (congrFun same _).symm.trans there⟩

end Samples

end Orrery.Skills
