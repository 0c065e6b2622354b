import Orrery.Foundation.TextSplits
import Orrery.Skills.InstalledCapabilities

/-! The names under which the tools of the loaded skills are offered, and the names of the
modules that the skills are imported as. Both are the id of the skill with its separators
rewritten; an id can be read back from either. -/
namespace Orrery.Skills
open Foundation Json

def toolPrefix : String := "skill__"

def toolSep : String := "__"

def replaceChar (c : Char) (new text : String) : String :=
  String.ofList (text.toList.flatMap fun d => if d = c then new.toList else [d])

def fullName (skillId tool : String) : String :=
  toolPrefix ++ replaceChar '.' "_" (replaceChar '@' "_at_" skillId) ++ toolSep ++ tool

def moduleName (skillId : String) : String :=
  "nanda_skill__" ++ replaceChar '.' "_" (replaceChar '-' "_" (replaceChar '@' "_at_" skillId))

structure ToolSpec where
  description : String
  parameters : Json

structure SpecifiedSkill extends LoadedSkill where
  toolSpecs : List (String × ToolSpec)
  distinct : (toolSpecs.map Prod.fst).Nodup

structure AgentTool where
  name : String
  description : String
  parameters : Json
  skillId : String
  toolName : String

section Functions
variable (str : Json → String)

def agentToolSpecs (loaded : List SpecifiedSkill) : List AgentTool :=
  loaded.flatMap fun skill => skill.toolSpecs.map fun (tname,spec) => {
    name := fullName skill.skillId tname
    description := if spec.description = "" then str skill.name ++ ": " ++ tname else spec.description
    parameters := orElse spec.parameters (.obj [])
    skillId := skill.skillId
    toolName := tname }

def skillDispatch (specs : List AgentTool) : String → Option (String × String) :=
  specs.foldl (fun table spec => Function.update table spec.name (some (spec.skillId,spec.toolName))) fun _ => none

def executeSkillTool (loaded : List SpecifiedSkill) (call : Invocation) (name : String) : Option Invocation :=
  (skillDispatch (agentToolSpecs str loaded) name).map fun (skillId,toolName) =>
    { call with loaded := loaded.map SpecifiedSkill.toLoadedSkill, skillId := skillId, toolName := toolName }

end Functions

section Forms
variable {env : InstallEnv}

def isNameChar (c : Char) : Bool := ('a' ≤ c && c ≤ 'z') || ('0' ≤ c && c ≤ '9') || c == '-'

structure IdParts (env : InstallEnv) where
  name : List Char
  major : List Char
  minor : List Char
  patch : List Char
  named : name.all isNameChar = true
  major_decimal : major.all env.isDecimal = true
  minor_decimal : minor.all env.isDecimal = true
  patch_decimal : patch.all env.isDecimal = true

def IdParts.text (parts : IdParts env) : List Char :=
  parts.name ++ '@' :: (parts.major ++ '.' :: (parts.minor ++ '.' :: parts.patch))

theorem decimals_some {text rest : List Char} (read : decimals env text = some rest) :
    ∃ digits, digits.all env.isDecimal = true ∧ text = digits ++ rest := by
  unfold decimals at read
  split at read
  next => cases read
  next =>
    cases read
    exact ⟨_,List.all_takeWhile,(List.takeWhile_append_dropWhile ..).symm⟩

theorem isSkillId_parts {text : List Char} (accepted : isSkillId env text = true) : ∃ parts : IdParts env, parts.text = text := by
  unfold isSkillId at accepted
  split at accepted
  next => cases accepted
  next first rest =>
    rw [Bool.and_eq_true] at accepted
    obtain ⟨letter,accepted⟩ := accepted
    have begins : isNameChar first = true := by
      unfold isNameChar
      rw [letter]
      rfl
    have cut := List.takeWhile_append_dropWhile (p := isNameChar) (l := rest)
    split at accepted
    next version found =>
      have found : rest.dropWhile isNameChar = '@' :: version := found
      rw [found] at cut
      split at accepted
      next minor read =>
        obtain ⟨major,major_decimal,rfl⟩ := decimals_some read
        split at accepted
        next patch read' =>
          obtain ⟨minor,minor_decimal,rfl⟩ := decimals_some read'
          obtain ⟨patch,patch_decimal,rfl⟩ := decimals_some (beq_iff_eq.mp accepted)
          have front : (rest.takeWhile isNameChar).all isNameChar = true := List.all_takeWhile
          generalize rest.takeWhile isNameChar = name at cut front
          rw [List.append_nil] at cut
          refine ⟨⟨first :: name,major,minor,patch,?_,major_decimal,minor_decimal,patch_decimal⟩,congrArg (first :: ·) cut⟩
          rw [List.all_cons,begins,front]
          rfl
        next => cases accepted
      next => cases accepted
    next => cases accepted

def AsciiDecimals (env : InstallEnv) : Prop := ∀ c : Char, c.toNat < 128 → env.isDecimal c = c.isDigit

theorem absent_of_all {p : Char → Bool} {c : Char} {text : List Char} (all : text.all p = true) (other : p c = false) :
    c ∉ text := by
  intro inside
  rw [List.all_eq_true.mp all c inside] at other
  cases other

def rewritten (c : Char) (new text : List Char) : List Char := text.flatMap fun d => if d = c then new else [d]

theorem replaceChar_toList (c : Char) (new text : String) :
    (replaceChar c new text).toList = rewritten c new.toList text.toList := String.toList_ofList

section Rewriting
variable {c : Char} {new text : List Char}

@[simp] theorem rewritten_append (front back : List Char) :
    rewritten c new (front ++ back) = rewritten c new front ++ rewritten c new back := List.flatMap_append

@[simp] theorem rewritten_cons (d : Char) : rewritten c new (d :: text) = (if d = c then new else [d]) ++ rewritten c new text :=
  List.flatMap_cons

theorem rewritten_absent (absent : c ∉ text) : rewritten c new text = text := by
  induction text with
  | nil => rfl
  | cons d text ih =>
    rw [List.mem_cons,not_or] at absent
    rw [rewritten_cons,if_neg (Ne.symm absent.1),ih absent.2,List.singleton_append]

theorem rewritten_injective {sep : Char} {text text' : List Char} (absent : sep ∉ text) (absent' : sep ∉ text')
    (same : rewritten c [sep] text = rewritten c [sep] text') : text = text' := by
  induction text generalizing text' with
  | nil =>
    cases text' with
    | nil => rfl
    | cons d text' =>
      rw [rewritten_cons] at same
      split at same <;> cases same
  | cons d text ih =>
    cases text' with
    | nil =>
      rw [rewritten_cons] at same
      split at same <;> cases same
    | cons d' text' =>
      rw [List.mem_cons,not_or] at absent absent'
      rw [rewritten_cons,rewritten_cons] at same
      have whole : d = d' ∧ rewritten c [sep] text = rewritten c [sep] text' := by
        split at same
        next here =>
          split at same
          next there => exact ⟨here.trans there.symm,(List.cons.inj same).2⟩
          next => exact absurd (List.cons.inj same).1 absent'.1
        next =>
          split at same
          next => exact absurd (List.cons.inj same).1.symm absent.1
          next => exact List.cons.inj same
      rw [whole.1,ih absent.2 absent'.2 whole.2]

end Rewriting

variable (parts : IdParts env)

def IdParts.joined (name : List Char) (rest : List Char) : List Char :=
  name ++ '_' :: 'a' :: 't' :: '_' :: (parts.major ++ '_' :: (parts.minor ++ '_' :: (parts.patch ++ rest)))

theorem IdParts.name_absent {c : Char} (other : isNameChar c = false) : c ∉ parts.name := absent_of_all parts.named other

theorem IdParts.version_absent {c : Char} (ascii : AsciiDecimals env) (low : c.toNat < 128) (other : c.isDigit = false) :
    c ∉ parts.major ∧ c ∉ parts.minor ∧ c ∉ parts.patch :=
  have other := (ascii c low).trans other
  ⟨absent_of_all parts.major_decimal other,absent_of_all parts.minor_decimal other,absent_of_all parts.patch_decimal other⟩

theorem IdParts.rewritten_text (ascii : AsciiDecimals env) :
    rewritten '.' ['_'] (rewritten '@' ['_','a','t','_'] parts.text) = parts.joined parts.name [] := by
  obtain ⟨majorAt,minorAt,patchAt⟩ := parts.version_absent (c := '@') ascii (by decide) rfl
  obtain ⟨majorDot,minorDot,patchDot⟩ := parts.version_absent (c := '.') ascii (by decide) rfl
  have nameAt := parts.name_absent (c := '@') rfl
  have nameDot := parts.name_absent (c := '.') rfl
  simp [IdParts.text,IdParts.joined,rewritten_absent,majorAt,minorAt,patchAt,majorDot,minorDot,patchDot,nameAt,nameDot]

theorem IdParts.rewritten_module (ascii : AsciiDecimals env) :
    rewritten '.' ['_'] (rewritten '-' ['_'] (rewritten '@' ['_','a','t','_'] parts.text)) =
      parts.joined (rewritten '-' ['_'] parts.name) [] := by
  obtain ⟨majorAt,minorAt,patchAt⟩ := parts.version_absent (c := '@') ascii (by decide) rfl
  obtain ⟨majorDash,minorDash,patchDash⟩ := parts.version_absent (c := '-') ascii (by decide) rfl
  obtain ⟨majorDot,minorDot,patchDot⟩ := parts.version_absent (c := '.') ascii (by decide) rfl
  have nameAt := parts.name_absent (c := '@') rfl
  have nameDot : '.' ∉ rewritten '-' ['_'] parts.name := by
    intro inside
    obtain ⟨d,found,from_⟩ := List.mem_flatMap.mp inside
    split at from_
    next => cases List.mem_singleton.mp from_
    next => exact parts.name_absent rfl (List.mem_singleton.mp from_ ▸ found)
  simp [IdParts.text,IdParts.joined,rewritten_absent,majorAt,minorAt,patchAt,majorDash,minorDash,patchDash,
    majorDot,minorDot,patchDot,nameAt,nameDot]

variable {parts' : IdParts env}

theorem joined_inj (ascii : AsciiDecimals env) {rest rest' : List Char}
    (same : parts.joined parts.name ('_' :: rest) = parts'.joined parts'.name ('_' :: rest')) :
    parts.text = parts'.text ∧ rest = rest' := by
  obtain ⟨major,minor,patch⟩ := parts.version_absent (c := '_') ascii (by decide) rfl
  obtain ⟨major',minor',patch'⟩ := parts'.version_absent (c := '_') ascii (by decide) rfl
  obtain ⟨names,same⟩ := TextSplits.append_cons_inj (parts.name_absent rfl) (parts'.name_absent rfl) same
  obtain ⟨majors,same⟩ := TextSplits.append_cons_inj major major' (@List.append_cancel_left _ ['a','t','_'] _ _ same)
  obtain ⟨minors,same⟩ := TextSplits.append_cons_inj minor minor' same
  obtain ⟨patches,same⟩ := TextSplits.append_cons_inj patch patch' same
  exact ⟨by rw [IdParts.text,IdParts.text,names,majors,minors,patches],same⟩

theorem joined_inj_last (ascii : AsciiDecimals env) {name name' : List Char}
    (same : parts.joined name [] = parts'.joined name' []) :
    name = name' ∧ parts.major = parts'.major ∧ parts.minor = parts'.minor ∧ parts.patch = parts'.patch := by
  obtain ⟨major,minor,patch⟩ := parts.version_absent (c := '_') ascii (by decide) rfl
  obtain ⟨major',minor',patch'⟩ := parts'.version_absent (c := '_') ascii (by decide) rfl
  have regrouped (one : IdParts env) (front : List Char) : one.joined front [] =
      (((front ++ ['_','a','t']) ++ '_' :: one.major) ++ '_' :: one.minor) ++ '_' :: one.patch := by
    simp [IdParts.joined]
  rw [regrouped,regrouped] at same
  obtain ⟨same,patches⟩ := TextSplits.append_cons_inj_last patch patch' same
  obtain ⟨same,minors⟩ := TextSplits.append_cons_inj_last minor minor' same
  obtain ⟨same,majors⟩ := TextSplits.append_cons_inj_last major major' same
  exact ⟨List.append_cancel_right same,majors,minors,patches⟩

variable {one other : String}

theorem fullName_inj (ascii : AsciiDecimals env) (accepted : isSkillId env one.toList = true)
    (accepted' : isSkillId env other.toList = true) {tool tool' : String} (same : fullName one tool = fullName other tool') :
    one = other ∧ tool = tool' := by
  obtain ⟨parts,made⟩ := isSkillId_parts accepted
  obtain ⟨parts',made'⟩ := isSkillId_parts accepted'
  have spelled (id : String) (own : IdParts env) (text : own.text = id.toList) (name : String) :
      (fullName id name).toList = toolPrefix.toList ++ own.joined own.name ('_' :: '_' :: name.toList) := by
    have rewrites := own.rewritten_text ascii
    rw [text] at rewrites
    rw [fullName,String.toList_append,String.toList_append,String.toList_append,replaceChar_toList,replaceChar_toList]
    change _ ++ rewritten '.' ['_'] (rewritten '@' ['_','a','t','_'] id.toList) ++ ['_','_'] ++ _ = _
    rw [rewrites]
    simp [IdParts.joined]
  have lists := congrArg String.toList same
  rw [spelled one parts made,spelled other parts' made'] at lists
  obtain ⟨ids,tools⟩ := joined_inj parts ascii (List.append_cancel_left lists)
  rw [made,made'] at ids
  exact ⟨String.toList_injective ids,String.toList_injective (List.cons.inj tools).2⟩

theorem moduleName_inj (ascii : AsciiDecimals env) (accepted : isSkillId env one.toList = true)
    (accepted' : isSkillId env other.toList = true) (same : moduleName one = moduleName other) : one = other := by
  obtain ⟨parts,made⟩ := isSkillId_parts accepted
  obtain ⟨parts',made'⟩ := isSkillId_parts accepted'
  have spelled (id : String) (own : IdParts env) (text : own.text = id.toList) : (moduleName id).toList =
      "nanda_skill__".toList ++ own.joined (rewritten '-' ['_'] own.name) [] := by
    have rewrites := own.rewritten_module ascii
    rw [text] at rewrites
    rw [moduleName,String.toList_append,replaceChar_toList,replaceChar_toList,replaceChar_toList]
    exact congrArg _ rewrites
  have lists := congrArg String.toList same
  rw [spelled one parts made,spelled other parts' made'] at lists
  obtain ⟨names,majors,minors,patches⟩ := joined_inj_last parts ascii (List.append_cancel_left lists)
  have names := rewritten_injective (parts.name_absent rfl) (parts'.name_absent rfl) names
  apply String.toList_injective
  rw [← made,← made',IdParts.text,IdParts.text,names,majors,minors,patches]

end Forms

section Dispatch
variable {env : InstallEnv} {str : Json → String} {loaded : List SpecifiedSkill}

theorem mem_agentToolSpecs {tool : AgentTool} (offered : tool ∈ agentToolSpecs str loaded) : ∃ skill ∈ loaded,
    tool.skillId = skill.skillId ∧ tool.name = fullName tool.skillId tool.toolName := by
  obtain ⟨skill,inside,own⟩ := List.mem_flatMap.mp offered
  obtain ⟨field,-,rfl⟩ := List.mem_map.mp own
  exact ⟨skill,inside,rfl,rfl⟩

theorem skillDispatch_offered {specs : List AgentTool} {tool : AgentTool} (offered : tool ∈ specs)
    (alone : ∀ other ∈ specs, other.name = tool.name → (other.skillId,other.toolName) = (tool.skillId,tool.toolName)) :
    skillDispatch specs tool.name = some (tool.skillId,tool.toolName) := by
  induction specs using List.reverseRecOn with
  | nil => cases offered
  | append_singleton specs last ih =>
    rw [skillDispatch,List.foldl_append,List.foldl_cons,List.foldl_nil]
    by_cases named : last.name = tool.name
    · rw [← named,Function.update_self,alone last (by simp) named]
    · rw [Function.update_of_ne (Ne.symm named)]
      have earlier : tool ∈ specs := by
        rcases List.mem_append.mp offered with earlier | latest
        · exact earlier
        · exact absurd (List.mem_singleton.mp latest ▸ rfl) named
      exact ih earlier fun other inside => alone other (List.mem_append_left _ inside)

theorem fullName_offered (ascii : AsciiDecimals env) (accepted : ∀ skill ∈ loaded, isSkillId env skill.skillId.toList = true)
    {one other : AgentTool} (offered : one ∈ agentToolSpecs str loaded) (offered' : other ∈ agentToolSpecs str loaded)
    (same : one.name = other.name) : (one.skillId,one.toolName) = (other.skillId,other.toolName) := by
  obtain ⟨skill,inside,id,name⟩ := mem_agentToolSpecs offered
  obtain ⟨skill',inside',id',name'⟩ := mem_agentToolSpecs offered'
  rw [name,name',id,id'] at same
  obtain ⟨ids,tools⟩ := fullName_inj ascii (accepted skill inside) (accepted skill' inside') same
  rw [id,id',ids,tools]

/-- Among skills with ids of their own, the names of the tools and of the modules are apart,
and a call by the name of a tool runs that skill or none. -/
theorem names_apart (ascii : AsciiDecimals env) (distinct : (loaded.map (·.skillId)).Nodup)
    (accepted : ∀ skill ∈ loaded, isSkillId env skill.skillId.toList = true) :
    (∀ one ∈ agentToolSpecs str loaded, ∀ other ∈ agentToolSpecs str loaded,
      (one.skillId,one.toolName) ≠ (other.skillId,other.toolName) → one.name ≠ other.name) ∧
    (∀ one ∈ loaded, ∀ other ∈ loaded, one.skillId ≠ other.skillId → moduleName one.skillId ≠ moduleName other.skillId) ∧
    ∀ skill ∈ loaded, ∀ tool ∈ skill.toolSpecs, ∀ call, ∃ routed,
      executeSkillTool str loaded call (fullName skill.skillId tool.1) = some routed ∧
      routed.skillId = skill.skillId ∧ routed.toolName = tool.1 ∧
      ∀ runtime s ran, Runs runtime routed s ran → ran = skill.toLoadedSkill := by
  refine ⟨fun one offered other offered' apart same => apart (fullName_offered ascii accepted offered offered' same),
    fun one inside other inside' apart same =>
      apart (moduleName_inj ascii (accepted one inside) (accepted other inside') same),?_⟩
  intro skill inside tool described call
  have offered : ({
      name := fullName skill.skillId tool.1
      description := if tool.2.description = "" then str skill.name ++ ": " ++ tool.1 else tool.2.description
      parameters := orElse tool.2.parameters (.obj [])
      skillId := skill.skillId
      toolName := tool.1 } : AgentTool) ∈ agentToolSpecs str loaded :=
    List.mem_flatMap.mpr ⟨skill,inside,List.mem_map.mpr ⟨tool,described,rfl⟩⟩
  have found := skillDispatch_offered offered fun other offered' same =>
    fullName_offered ascii accepted offered' offered same
  refine ⟨_,by rw [executeSkillTool,found]; rfl,rfl,rfl,fun runtime s ran runs => ?_⟩
  have admits := runs_admits runs
  obtain ⟨other,inside',rfl⟩ := List.mem_map.mp admits.listed
  rw [List.inj_on_of_nodup_map distinct inside' inside admits.named]

end Dispatch

section Samples

def sampleSkill (id tool : String) : SpecifiedSkill where
  skillId := id
  name := .str "calendar"
  version := .str "1.0.0"
  declaredCapabilities := []
  tools := [(tool,fun _ => .ok .null)]
  toolSpecs := [(tool,⟨"",.null⟩)]
  distinct := List.nodup_singleton _

/-- Of two versions, the id of one begins with that of the other. -/
theorem versions_apart : moduleName "cal@1.0.1" ≠ moduleName "cal@1.0.10" := by
  have ascii : AsciiDecimals sampleInstallEnv := fun _ _ => rfl
  have accepted : ∀ skill ∈ [sampleSkill "cal@1.0.1" "0__read",sampleSkill "cal@1.0.10" "read"],
      isSkillId sampleInstallEnv skill.skillId.toList = true :=
    List.forall_mem_cons.mpr ⟨by decide +kernel,List.forall_mem_singleton.mpr (by decide +kernel)⟩
  have distinct : ([sampleSkill "cal@1.0.1" "0__read",sampleSkill "cal@1.0.10" "read"].map (·.skillId)).Nodup := by
    decide +kernel
  have apart := (@names_apart _ (fun _ => "") _ ascii distinct accepted).2.1
  exact apart (sampleSkill "cal@1.0.1" "0__read") List.mem_cons_self (sampleSkill "cal@1.0.10" "read")
    (List.mem_cons_of_mem _ List.mem_cons_self) (by decide)

end Samples

end Orrery.Skills
