import Orrery.Chapter.Identity
import Orrery.Foundation.JsonUnescaped
import Orrery.Foundation.Sweeps
import Orrery.Keystore.Blob
import Orrery.Merkle.Membership
import Orrery.Skills.Runtime

/-! Installing a skill (community_member/skills.py): the chapter is asked for a proof and
for the record of the skill, the package is downloaded, or rebuilt from the manifest in
the record, the author's signature of its hash is checked, and an entry is written into
the registry that the runtime loads the skills from. The file of the registry is kept as
the value it reads back as; the tar archive, the network and the import of a skill's
module are parameters. -/
namespace Orrery.Skills
open Foundation Json Chapter
open Merkle (elements noAttribute)

structure TarMember where
  name : String
  isSym : Bool
  isLnk : Bool
  content : Bytes

inductive TarFailure
  | readError
  | raised (e : Exc)

structure InstallEnv extends Codec where
  isDecimal : Char → Bool
  sha256 : Bytes → Bytes
  parseFloat : List Char → ℚ
  floatRepr : ℚ → List Char
  floatRepr_plain : ∀ q, JsonLines.Plain (floatRepr q)
  members : Bytes → Except TarFailure (List TarMember)
  extractall : List TarMember → Except TarFailure Unit

def maxPackageBytes : Nat := 8*1024*1024

section Functions
variable (env : InstallEnv)

def decimals (text : List Char) : Option (List Char) :=
  if (text.takeWhile env.isDecimal).isEmpty then none else some (text.dropWhile env.isDecimal)

def isSkillId (text : List Char) : Bool :=
  match text with
  | [] => false
  | first :: rest =>
    ('a' ≤ first && first ≤ 'z') &&
      match rest.dropWhile fun c => ('a' ≤ c && c ≤ 'z') || ('0' ≤ c && c ≤ '9') || c == '-' with
      | '@' :: version =>
        match decimals env version with
        | some ('.' :: minor) =>
          match decimals env minor with
          | some ('.' :: patch) => decimals env patch == some []
          | _ => false
        | _ => false
      | _ => false

def isDigest (hexadecimal : Char → Bool) : Json → Except Exc Bool
  | .str text => .ok (text.toList.length = 64 && text.toList.all hexadecimal)
  | other => .error (.typeError s!"expected string or bytes-like object, got '{other.typeName}'")

def isLowerHex (c : Char) : Bool := ('0' ≤ c && c ≤ '9') || ('a' ≤ c && c ≤ 'f')

def isHex (c : Char) : Bool := isLowerHex c || ('A' ≤ c && c ≤ 'F')

def lower (text : String) : String := String.ofList (text.toList.map Char.toLower)

def fieldsOf : Json → Except Exc Dict
  | .obj fields => .ok fields
  | other => .error (noAttribute other "get")

def getOr (d : Dict) (key : String) (default : Json) : Json := (get d key).getD default

def orElse (value other : Json) : Json := if value.truthy then value else other

def extractDidKey : Json → Except Exc (Option Bytes)
  | .str didKey =>
    if startsWith didKeyZ didKey then
      match env.b58decode (dropStart didKeyZ didKey) with
      | .ok raw => if raw.length ≠ 34 ∨ raw.take 2 ≠ multicodecPrefix then .ok none else .ok (some (raw.drop 2))
      | .error _ => .ok none
    else .ok none
  | other => if other.truthy then .error (noAttribute other "startswith") else .ok none

def packageVerdict (key : Bytes) (contentSha256 : String) (signature : Json) : Except Exc NaclAnswer := do
  env.verifyKey key
  return env.nacl key contentSha256 (← env.b64decode signature)

def verifySignedPackage (content : Bytes) (contentSha256 signature signingKeyDid : Json) :
    Except Exc (Option String) :=
  if content = [] then .ok (some "empty content")
  else if maxPackageBytes < content.length then .ok (some s!"package too large (max {maxPackageBytes} bytes)")
  else if contentSha256.truthy = false then .ok (some "content_sha256 must be a 64-char hex string")
  else match contentSha256 with
  | .str declared =>
    if declared.toList.length ≠ 64 ∨ declared.toList.all isHex = false then
      .ok (some "content_sha256 must be a 64-char hex string")
    else
      let actual := Hex.hex (env.sha256 content)
      if actual ≠ lower declared then .ok (some s!"sha256 mismatch: chapter said {declared}, got {actual}")
      else do
        match ← extractDidKey env signingKeyDid with
        | none => return some "signing_key_did malformed or not Ed25519"
        | some key =>
          match packageVerdict env key declared signature with
          | .ok .valid => return none
          | .ok .badSignature => return some "Ed25519 signature verification failed"
          | .ok (.raised e) | .error e => return some s!"signature verification error: {e.kind}"
  | other => .error (.typeError s!"expected string or bytes-like object, got '{other.typeName}'")

def manifestWithAuthor (skill : Dict) : Except Exc Dict :=
  match getOr skill "manifest" (.obj []) with
  | .obj manifest => .ok (setItem manifest "author_did" (getOr skill "author_did" (.str "")))
  | other => .error (.typeError s!"'{other.typeName}' object is not a mapping")

def canonicalText (manifest : Dict) : Bytes :=
  Keystore.utf8 (String.ofList (unescapedDumps env.floatRepr Layout.canonical (.obj manifest)))

def pathParts (name : String) : List String :=
  (name.splitOn "/").filter fun part => part ≠ "" ∧ part ≠ "."

def refuseMember (member : TarMember) : Except TarFailure Unit :=
  if startsWith "/" member.name ∨ ".." ∈ pathParts member.name then
    .error (.raised (.valueError ("refusing path-traversing tar member: " ++ env.repr (.str member.name))))
  else if member.isSym ∨ member.isLnk then
    .error (.raised (.valueError ("refusing symlink tar member: " ++ env.repr (.str member.name))))
  else .ok ()

def unpack (content : Bytes) : Except Exc Bool :=
  let extracted : Except TarFailure Unit := do
    let members ← env.members content
    let _ ← members.mapM (refuseMember env)
    env.extractall members
  match extracted with
  | .ok () => .ok true
  | .error .readError => .ok false
  | .error (.raised e) => .error e

def writeManifest (skill : Dict) : Except Exc Unit := do
  let manifest ← fieldsOf (orElse (getOr skill "manifest" .null) (.obj []))
  let readme := orElse (getOr manifest "readme_markdown" .null)
    (orElse (getOr skill "readme_markdown" .null) (.str ""))
  match readme with
  | .str _ => return ()
  | other => if other.truthy then .error (.typeError s!"data must be str, not {other.typeName}") else return ()

def storePackage (skill : Dict) (content : Bytes) : Except Exc Bool :=
  if (getOr skill "package_url" .null).truthy then unpack env content
  else do
    writeManifest skill
    return false

def capabilitiesOf (record : Dict) : Except Exc (List Json) :=
  elements (orElse (getOr record "capabilities" .null) (.arr []))

/-- The answers of the chapter are JSON values, with distinct keys. -/
structure InstallCall where
  skillId : String
  skillsRoot : String
  installResponse : Except Exc Json
  skillDetail : Except Exc Json
  detail_proper : ∀ v, skillDetail = .ok v → Proper env.parseFloat env.floatRepr v
  download : Json → Except Exc Bytes
  now : String

structure RegistryEntry where
  skillId : String
  installedAt : String
  installedVersion : Json
  installProof : Json
  signingKeyDid : Json
  contentSha256 : Json
  capabilities : List Json
  path : String
  isTarball : Bool
  manifest : Json

def RegistryEntry.toJson (entry : RegistryEntry) : Json :=
  .obj [("skill_id",.str entry.skillId),("installed_at",.str entry.installedAt),
    ("installed_version",entry.installedVersion),("install_proof",entry.installProof),
    ("signing_key_did",entry.signingKeyDid),("content_sha256",entry.contentSha256),
    ("capabilities",.arr entry.capabilities),("path",.str entry.path),("is_tarball",.bool entry.isTarball),
    ("manifest",entry.manifest)]

def skillDir (root safeId : String) : String :=
  root ++ "/" ++ String.ofList (safeId.toList.flatMap fun c =>
    if c = '/' then ['_'] else if c = '@' then "_at_".toList else [c])

def fetchSkill (call : InstallCall env) (safeId : String) : Except Exc Dict := do
  let detail ← fieldsOf (← call.skillDetail)
  let skill := orElse (getOr detail "skill" .null) (.obj [])
  if skill.truthy = false then
    .error (.valueError ("chapter returned no skill record for " ++ env.repr (.str safeId)))
  else do
    let skill ← fieldsOf skill
    if (getOr skill "revoked_at" .null).truthy then
      .error (.valueError ("skill " ++ env.repr (.str safeId) ++ " is revoked: " ++
        env.str (orElse (getOr skill "revocation_reason" .null) (.str "no reason"))))
    else return skill

def contentBytes (call : InstallCall env) (skill : Dict) : Except Exc Bytes :=
  let packageUrl := getOr skill "package_url" .null
  if packageUrl.truthy then call.download packageUrl
  else do return canonicalText env (← manifestWithAuthor skill)

structure Registry where
  held : Option Json
  distinct : ∀ entries, held = some (.obj entries) → (entries.map Prod.fst).Nodup

def loadInstalledRegistry (registry : Registry) : Json := registry.held.getD (.obj [])

theorem loaded_distinct {registry : Registry} {entries : Dict} (loaded : loadInstalledRegistry registry = .obj entries) :
    (entries.map Prod.fst).Nodup := by
  unfold loadInstalledRegistry at loaded
  cases held : registry.held with
  | none =>
    rw [held] at loaded
    cases loaded
    exact List.nodup_nil
  | some v =>
    rw [held] at loaded
    obtain rfl : v = .obj entries := loaded
    exact registry.distinct entries held

def saveInstalledRegistry (entries : Dict) (distinct : (entries.map Prod.fst).Nodup) : Registry where
  held := some (ordered (.obj entries))
  distinct sorted held := by
    obtain rfl : sortFields (orderedFields entries) = sorted := by
      rw [ordered] at held
      exact Json.obj.inj (Option.some.inj held)
    have keys := (sortFields_perm (orderedFields entries)).map Prod.fst
    rw [orderedFields_eq,List.map_map] at keys
    rw [orderedFields_eq]
    exact keys.nodup_iff.mpr distinct

def register (registry : Registry) (key : String) (entry : Json) : Except Exc Registry :=
  match loaded : loadInstalledRegistry registry with
  | .obj entries => .ok (saveInstalledRegistry (setItem entries key entry) (setItem_nodup (loaded_distinct loaded) _ _))
  | .arr _ => .error (.typeError "list indices must be integers or slices, not str")
  | other => .error (.typeError s!"'{other.typeName}' object does not support item assignment")

def installSkill (call : InstallCall env) (registry : Registry) : Except Exc (RegistryEntry × Registry) := do
  let safeId := String.ofList (JsonLines.strip call.skillId.toList)
  if isSkillId env safeId.toList = false then
    .error (.valueError ("invalid skill_id format: " ++ env.repr (.str safeId)))
  else do
    let response ← fieldsOf (← call.installResponse)
    let proof := getOr response "signed_install_proof" .null
    if proof.truthy = false then .error (.valueError "chapter did not return a valid signed_install_proof")
    else if (← isDigest isLowerHex proof) = false then
      .error (.valueError "chapter did not return a valid signed_install_proof")
    else do
      let skill ← fetchSkill env call safeId
      let contentSha256 := getOr skill "content_sha256" (.str "")
      let signingKeyDid := getOr skill "signing_key_did" (.str "")
      let content ← contentBytes env call skill
      match ← verifySignedPackage env content contentSha256 (getOr skill "signature" (.str "")) signingKeyDid with
      | some reason => .error (.valueError ("signature verification failed: " ++ reason))
      | none => do
        let isTarball ← storePackage env skill content
        let capabilities ← capabilitiesOf skill
        let entry : RegistryEntry := {
          skillId := safeId
          installedAt := call.now
          installedVersion := getOr skill "version" .null
          installProof := proof
          signingKeyDid := signingKeyDid
          contentSha256 := contentSha256
          capabilities := capabilities
          path := skillDir call.skillsRoot safeId
          isTarball := isTarball
          manifest := orElse (getOr skill "manifest" .null) (.obj []) }
        return (entry,← register registry safeId entry.toJson)

end Functions

/-- What there is of the installed skills on the disk, and what importing their modules
gives. -/
structure Imports where
  present : String → Bool
  tools : String → String → List (String × Tool)

def pathOf : Json → Except Exc String
  | .str path => .ok path
  | other => .error (.typeError ("argument should be a str or an os.PathLike object where __fspath__ returns a str, " ++
      s!"not '{other.typeName}'"))

def loadSkill (imports : Imports) (skillId : String) (entry : Json) : Except Exc (Option LoadedSkill) := do
  let entry ← fieldsOf entry
  let path ← pathOf (getOr entry "path" (.str ""))
  if imports.present path = false then return none
  else do
    let manifest ← fieldsOf (getOr entry "manifest" (.obj []))
    let declared ← elements (getOr entry "capabilities" (.arr []))
    return some {
      skillId := skillId
      name := getOr manifest "name" (.str ((skillId.splitOn "@").headD ""))
      version := getOr manifest "version" (.str ((skillId.splitOn "@").getLastD ""))
      declaredCapabilities := declared
      tools := imports.tools skillId path }

def loadInstalledSkills (imports : Imports) (registry : Registry) : Except Exc (List LoadedSkill) :=
  match loadInstalledRegistry registry with
  | .obj entries => do
    let loaded ← entries.mapM fun field => loadSkill imports field.1 field.2
    return loaded.filterMap id
  | other => .error (noAttribute other "items")

end Orrery.Skills
