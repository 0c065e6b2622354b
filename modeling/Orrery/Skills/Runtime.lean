import Orrery.Foundation.Effect
import Orrery.Foundation.Json

/-! Installed skills at work (community_member/skill_runtime.py and revocation.py): a tool
runs after the grants, the consent and, for a high-risk skill, the state of its revocation
have been looked at. Importing a skill's module is a parameter, and so is what the chapter
answers to each question. -/
namespace Orrery.Skills
open Foundation Json

structure RuntimeEnv where
  repr : Json → String
  /-- A number of seconds without its fraction, as `format(age, ".0f")` writes it. -/
  whole : ℚ → String

abbrev Tool := Json → Except Exc Json

structure LoadedSkill where
  skillId : String
  name : Json
  version : Json
  declaredCapabilities : List Json
  tools : List (String × Tool)

def highRiskCapabilities : List String := ["shell.exec","net.arbitrary","fs.any","eval.code"]

def isIn (names : List String) (capability : Json) : Except Exc Bool := do
  match ← hashKey capability with
  | .str s => return decide (s ∈ names)
  | _ => return false

def pick (asked : Json → Except Exc Bool) : List Json → Except Exc (List Json)
  | [] => return []
  | c :: rest => do
    let picked ← asked c
    let others ← pick asked rest
    return if picked then c :: others else others

inductive ToolFailure
  | notFound (text : String)
  | capabilityDenied (text : String)
  | consentRequired (text : String)
  | toolError (text : String)
  | raised (e : Exc)

structure RevocationCheckFailed where
  reason : String
  detail : String

inductive Fetched
  | reported (revoked : Bool)
  | failed (e : Exc)
  | refused (failure : RevocationCheckFailed)

structure CacheEntry where
  revoked : Bool
  checkedAt : ℚ
deriving DecidableEq

inductive RuntimeEvent
  | fetched (chapterUrl skillId : String) (time : ℚ) (revoked : Bool)
  | ran (skill : LoadedSkill) (toolName : String) (chapterUrl : Option String) (time : ℚ)

/-- The cache of the process, and what has happened, latest first. -/
structure Runtime where
  cache : String → String → Option CacheEntry
  past : List RuntimeEvent

def Runtime.opened : Runtime := ⟨fun _ _ => none,[]⟩

def freshnessWindowSeconds : ℚ := 24*60*60

def Runtime.report (s : Runtime) (chapterUrl skillId : String) (now : ℚ) (revoked : Bool) : Runtime where
  cache := fun url id => if url = chapterUrl ∧ id = skillId then some ⟨revoked,now⟩ else s.cache url id
  past := .fetched chapterUrl skillId now revoked :: s.past

structure Invocation where
  loaded : List LoadedSkill
  skillId : String
  toolName : String
  args : Json
  userGrants : List (String × List String)
  consentPerInvocation : Bool
  chapterUrl : Option String
  fetched : Fetched
  now : ℚ

section Operations
variable (env : RuntimeEnv)

def checkFresh (chapterUrl skillId : String) (fetched : Fetched) (now : ℚ) :
    Effect RevocationCheckFailed Runtime Unit := do
  let cached := (← get).cache chapterUrl skillId
  match fetched with
  | .reported revoked => do
    modify fun s => s.report chapterUrl skillId now revoked
    if revoked then Effect.raise ⟨"skill_revoked",s!"{skillId} on {chapterUrl}"⟩ else return ()
  | .refused failure => Effect.raise failure
  | .failed _ =>
    match cached with
    | none => Effect.raise ⟨"freshness_stale",s!"no prior check; chapter {chapterUrl} unreachable"⟩
    | some entry =>
      let age := now-entry.checkedAt
      if freshnessWindowSeconds ≤ age then
        Effect.raise ⟨"freshness_stale",s!"last check {env.whole age}s ago; window 86400s"⟩
      else if entry.revoked then Effect.raise ⟨"skill_revoked",s!"{skillId} (from cache)"⟩
      else return ()

def RevocationCheckFailed.text (failure : RevocationCheckFailed) : String :=
  if failure.detail = "" then failure.reason else failure.reason ++ ": " ++ failure.detail

def orRaise {α : Type} : Except Exc α → Effect ToolFailure Runtime α
  | .ok a => pure a
  | .error e => Effect.raise (.raised e)

def checkRevocation (chapterUrl : Option String) (skillId : String) (fetched : Fetched) (now : ℚ) :
    Effect ToolFailure Runtime Unit :=
  match chapterUrl.filter (· ≠ "") with
  | none => pure ()
  | some url => fun s =>
    match checkFresh env url skillId fetched now s with
    | .ok () s' => .ok () s'
    | .error failure s' =>
      .error (.toolError ("revocation_check_failed: " ++ failure.reason ++ ": " ++ failure.text)) s'

def runTool (skill : LoadedSkill) (tool : Tool) (call : Invocation) : Effect ToolFailure Runtime Json := do
  modify fun s => { s with past := .ran skill call.toolName call.chapterUrl call.now :: s.past }
  match tool (if call.args.truthy then call.args else .obj []) with
  | .ok result => return result
  | .error e => Effect.raise (.toolError ("skill " ++ env.repr (.str call.skillId) ++ " tool " ++
      env.repr (.str call.toolName) ++ " raised: " ++ e.kind ++ ": " ++ e.text))

def invokeTool (call : Invocation) : Effect ToolFailure Runtime Json :=
  match call.loaded.find? fun skill => skill.skillId = call.skillId with
  | none => Effect.raise (.notFound ("skill " ++ env.repr (.str call.skillId) ++ " not installed"))
  | some skill =>
    match skill.tools.lookup call.toolName with
    | none => Effect.raise (.notFound
        ("skill " ++ env.repr (.str call.skillId) ++ " has no tool " ++ env.repr (.str call.toolName)))
    | some tool => do
      let grants := (call.userGrants.lookup call.skillId).getD []
      let ungranted ← orRaise (pick (fun c => do return !(← isIn grants c)) skill.declaredCapabilities)
      if ungranted ≠ [] then
        Effect.raise (.capabilityDenied ("skill " ++ env.repr (.str call.skillId) ++ " needs " ++
          env.repr (.arr ungranted) ++ " — not granted by user at install time"))
      else do
        let highRisk ← orRaise (pick (isIn highRiskCapabilities) skill.declaredCapabilities)
        if highRisk ≠ [] ∧ call.consentPerInvocation = false then
          Effect.raise (.consentRequired ("skill " ++ env.repr (.str call.skillId) ++ " uses high-risk " ++
            env.repr (.arr highRisk) ++ " — needs per-invocation consent"))
        else if highRisk ≠ [] then do
          checkRevocation env call.chapterUrl call.skillId call.fetched call.now
          runTool env skill tool call
        else runTool env skill tool call

end Operations

def LoadedSkill.Risky (skill : LoadedSkill) : Prop :=
  ∃ capability ∈ highRiskCapabilities, .str capability ∈ skill.declaredCapabilities

theorem isIn_true {names : List String} {c : Json} (found : isIn names c = .ok true) : ∃ s ∈ names, c = .str s := by
  cases c with
  | str s =>
    have member : s ∈ names := by simpa [isIn,hashKey,bind,Except.bind,pure,Except.pure] using found
    exact ⟨s,member,rfl⟩
  | _ => simp [isIn,hashKey,bind,Except.bind,pure,Except.pure] at found

theorem isIn_str (names : List String) (s : String) : isIn names (.str s) = .ok (decide (s ∈ names)) := rfl

theorem mem_pick {asked : Json → Except Exc Bool} {items : List Json} : ∀ {found : List Json},
    pick asked items = .ok found → ∀ c, c ∈ found ↔ c ∈ items ∧ asked c = .ok true := by
  induction items with
  | nil =>
    intro found picked c
    cases picked
    simp
  | cons first rest ih =>
    intro found picked c
    obtain ⟨own,asks,picked⟩ := bind_success _ _ _ picked
    obtain ⟨others,further,picked⟩ := bind_success _ _ _ picked
    have tail := ih further c
    cases own with
    | true =>
      obtain rfl : first :: others = found := Except.ok.inj picked
      simp only [List.mem_cons,tail]
      constructor
      · rintro (rfl | ⟨inside,holds⟩)
        · exact ⟨Or.inl rfl,asks⟩
        · exact ⟨Or.inr inside,holds⟩
      · rintro ⟨rfl | inside,holds⟩
        · exact Or.inl rfl
        · exact Or.inr ⟨inside,holds⟩
    | false =>
      obtain rfl : others = found := Except.ok.inj picked
      simp only [List.mem_cons,tail]
      constructor
      · rintro ⟨inside,holds⟩
        exact ⟨Or.inr inside,holds⟩
      · rintro ⟨rfl | inside,holds⟩
        · cases asks.symm.trans holds
        · exact ⟨inside,holds⟩

def Invocation.chapter (call : Invocation) : Option String := call.chapterUrl.filter (· ≠ "")

inductive Cleared (s : Runtime) (call : Invocation) : Runtime → Prop
  | unasked (nobody : call.chapter = none) : Cleared s call s
  | reported (url : String) (given : call.chapter = some url) :
    Cleared s call (s.report url call.skillId call.now false)
  | cached (url : String) (entry : CacheEntry) (given : call.chapter = some url)
      (found : s.cache url call.skillId = some entry) (recent : call.now-entry.checkedAt < freshnessWindowSeconds)
      (live : entry.revoked = false) : Cleared s call s

def Unrun (s : Runtime) (call : Invocation) (s' : Runtime) : Prop :=
  s' = s ∨ ∃ url revoked, call.chapter = some url ∧ s' = s.report url call.skillId call.now revoked

structure Admits (call : Invocation) (skill : LoadedSkill) : Prop where
  listed : skill ∈ call.loaded
  named : skill.skillId = call.skillId
  granted : ∀ c ∈ skill.declaredCapabilities, ∃ s ∈ (call.userGrants.lookup call.skillId).getD [], c = .str s
  consented : skill.Risky → call.consentPerInvocation = true

section Specifications
variable (env : RuntimeEnv) (call : Invocation)

theorem checkRevocation_cases (s : Runtime) :
    (∃ s', checkRevocation env call.chapterUrl call.skillId call.fetched call.now s = .ok () s' ∧ Cleared s call s') ∨
    ∃ e s', checkRevocation env call.chapterUrl call.skillId call.fetched call.now s = .error e s' ∧
      Unrun s call s' := by
  unfold checkRevocation
  cases given : call.chapterUrl.filter (· ≠ "") with
  | none => exact Or.inl ⟨s,rfl,.unasked given⟩
  | some url =>
    dsimp only
    simp only [checkFresh,Effect.bind_apply,Effect.get_apply]
    cases call.fetched with
    | reported revoked =>
      cases revoked with
      | true => exact Or.inr ⟨_,_,rfl,Or.inr ⟨url,true,given,rfl⟩⟩
      | false => exact Or.inl ⟨_,rfl,.reported url given⟩
    | refused failure => exact Or.inr ⟨_,_,rfl,Or.inl rfl⟩
    | failed e =>
      cases found : s.cache url call.skillId with
      | none => exact Or.inr ⟨_,_,rfl,Or.inl rfl⟩
      | some entry =>
        by_cases old : freshnessWindowSeconds ≤ call.now-entry.checkedAt
        · simp only [old,if_true]
          exact Or.inr ⟨_,_,rfl,Or.inl rfl⟩
        · simp only [old,if_false]
          cases live : entry.revoked with
          | true => exact Or.inr ⟨_,_,rfl,Or.inl rfl⟩
          | false => exact Or.inl ⟨s,rfl,.cached url entry given found (not_le.mp old) live⟩

theorem runTool_final (skill : LoadedSkill) (tool : Tool) (s : Runtime) :
    Effect.final (runTool env skill tool call s) =
      { s with past := .ran skill call.toolName call.chapterUrl call.now :: s.past } := by
  simp only [runTool,Effect.bind_apply,Effect.modify_apply]
  cases tool (if call.args.truthy then call.args else .obj []) <;> rfl

theorem granted_of_pick {grants : List String} {items : List Json}
    (picked : pick (fun c => do return !(← isIn grants c)) items = .ok []) :
    ∀ c ∈ items, ∃ s ∈ grants, c = .str s := by
  have asked : ∀ c ∈ items, isIn grants c = .ok true := by
    induction items with
    | nil => simp
    | cons first rest ih =>
      obtain ⟨own,asks,picked⟩ := bind_success _ _ _ picked
      obtain ⟨others,further,picked⟩ := bind_success _ _ _ picked
      obtain ⟨inside,answered,flipped⟩ := bind_success _ _ _ asks
      obtain rfl : (!inside) = own := Except.ok.inj flipped
      cases inside with
      | false => cases picked
      | true =>
        obtain rfl : others = [] := Except.ok.inj picked
        intro c member
        rcases List.mem_cons.mp member with rfl | further'
        · exact answered
        · exact ih further c further'
  exact fun c member => isIn_true (asked c member)

theorem risky_iff {skill : LoadedSkill} {highRisk : List Json}
    (picked : pick (isIn highRiskCapabilities) skill.declaredCapabilities = .ok highRisk) :
    highRisk ≠ [] ↔ skill.Risky := by
  have members := mem_pick picked
  constructor
  · intro some
    obtain ⟨c,inside⟩ := List.exists_mem_of_ne_nil _ some
    obtain ⟨declared,asked⟩ := (members c).mp inside
    obtain ⟨s,high,rfl⟩ := isIn_true asked
    exact ⟨s,high,declared⟩
  · rintro ⟨s,high,declared⟩ none
    have inside := (members (.str s)).mpr ⟨declared,by rw [isIn_str]; simp [high]⟩
    rw [none] at inside
    cases inside

theorem invokeTool_cases (s : Runtime) : Unrun s call (Effect.final (invokeTool env call s)) ∨
    ∃ skill s', Admits call skill ∧ (¬ skill.Risky ∧ s' = s ∨ skill.Risky ∧ Cleared s call s') ∧
      Effect.final (invokeTool env call s) =
        { s' with past := .ran skill call.toolName call.chapterUrl call.now :: s'.past } := by
  unfold invokeTool
  cases listed : call.loaded.find? (fun skill => decide (skill.skillId = call.skillId)) with
  | none => exact Or.inl (Or.inl rfl)
  | some skill =>
    have named : skill.skillId = call.skillId := by simpa using List.find?_some listed
    dsimp only
    cases skill.tools.lookup call.toolName with
    | none => exact Or.inl (Or.inl rfl)
    | some tool =>
      dsimp only
      rw [Effect.bind_apply]
      cases picked : pick (fun c => do return !(← isIn ((call.userGrants.lookup call.skillId).getD []) c))
          skill.declaredCapabilities with
      | error e => exact Or.inl (Or.inl rfl)
      | ok ungranted =>
        by_cases denied : ungranted ≠ []
        · simp only [orRaise,Effect.pure_apply,if_pos denied]
          exact Or.inl (Or.inl rfl)
        · obtain rfl := not_not.mp denied
          have granted := granted_of_pick picked
          simp only [orRaise,Effect.pure_apply,ne_eq,not_true_eq_false,if_false]
          rw [Effect.bind_apply]
          cases risks : pick (isIn highRiskCapabilities) skill.declaredCapabilities with
          | error e => exact Or.inl (Or.inl rfl)
          | ok highRisk =>
            have risky := risky_iff risks
            by_cases unasked : highRisk ≠ [] ∧ call.consentPerInvocation = false
            · simp only [Effect.pure_apply,if_pos unasked]
              exact Or.inl (Or.inl rfl)
            · have admits : Admits call skill := ⟨List.mem_of_find?_eq_some listed,named,granted,fun danger => by
                by_contra unconsented
                exact unasked ⟨risky.mpr danger,by simpa using unconsented⟩⟩
              simp only [Effect.pure_apply,if_neg unasked]
              by_cases high : highRisk ≠ []
              · simp only [if_pos high,Effect.bind_apply]
                rcases checkRevocation_cases env call s with ⟨s',run,cleared⟩ | ⟨e,s',run,unrun⟩
                · rw [run]
                  exact Or.inr ⟨skill,s',admits,Or.inr ⟨risky.mp high,cleared⟩,runTool_final env call skill tool s'⟩
                · rw [run]
                  exact Or.inl unrun
              · simp only [if_neg high]
                exact Or.inr ⟨skill,s,admits,Or.inl ⟨fun danger => high (risky.mpr danger),rfl⟩,
                  runTool_final env call skill tool s⟩

end Specifications

end Orrery.Skills
