import Mathlib.Tactic.Linarith
import Mathlib.Tactic.NormNum
import Orrery.Foundation.Runs
import Orrery.Skills.Runtime

/-! What a tool of a high-risk skill has behind it when it runs: the chapter's last word
on the skill, no older than a day, in every run of calls and fetches. A call that passes
no chapter asks nobody. -/
namespace Orrery.Skills
open Foundation Json Runs

def lastWord (url id : String) : List RuntimeEvent → Option CacheEntry
  | [] => none
  | .fetched askedUrl askedId time revoked :: past =>
    if url = askedUrl ∧ id = askedId then some ⟨revoked,time⟩ else lastWord url id past
  | .ran _ _ _ _ :: past => lastWord url id past

def RuntimeEvent.time : RuntimeEvent → ℚ
  | .fetched _ _ time _ => time
  | .ran _ _ _ time => time

/-- Within the last 24 hours the chapter said that the skill is not revoked, and it has
not said the contrary since. -/
def NotRevoked (past : List RuntimeEvent) (chapter : Option String) (id : String) (now : ℚ) : Prop :=
  ∃ url newer time older, chapter = some url ∧ past = newer ++ .fetched url id time false :: older ∧
    time ≤ now ∧ now-time < 24*60*60 ∧ ∀ later, .fetched url id later true ∉ newer

def RuntimeEvent.Meets : RuntimeEvent → List RuntimeEvent → Prop
  | .fetched url _ _ _, _ => url ≠ ""
  | .ran skill _ chapter time, past =>
    skill.Risky → (NotRevoked past chapter skill.skillId time ↔ ∃ url, chapter = some url ∧ url ≠ "")

def step (env : RuntimeEnv) (s : Runtime) (call : Invocation) : Option Runtime :=
  some (Effect.final (invokeTool env call s))

def onTime (s : Runtime) (call : Invocation) : Prop := ∀ event ∈ s.past, event.time ≤ call.now

structure Watched (s : Runtime) : Prop where
  remembered : ∀ url id, s.cache url id = lastWord url id s.past
  met : ∀ after event before, s.past = after ++ event :: before → event.Meets before

theorem lastWord_some {url id : String} {revoked : Bool} {time : ℚ} : ∀ {past : List RuntimeEvent},
    lastWord url id past = some ⟨revoked,time⟩ → ∃ newer older,
      past = newer ++ .fetched url id time revoked :: older ∧ ∀ later other, .fetched url id later other ∉ newer := by
  intro past
  induction past with
  | nil =>
    intro found
    cases found
  | cons event past ih =>
    intro found
    cases event with
    | ran skill tool chapter time' =>
      obtain ⟨newer,older,rfl,silent⟩ := ih found
      exact ⟨.ran skill tool chapter time' :: newer,older,rfl,fun later other inside => by
        rcases List.mem_cons.mp inside with same | inside
        · cases same
        · exact silent later other inside⟩
    | fetched askedUrl askedId asked answer =>
      rw [lastWord] at found
      split at found
      next same =>
        obtain ⟨rfl,rfl⟩ := same
        cases found
        exact ⟨[],past,rfl,fun later other => List.not_mem_nil⟩
      next different =>
        obtain ⟨newer,older,rfl,silent⟩ := ih found
        refine ⟨.fetched askedUrl askedId asked answer :: newer,older,rfl,fun later other inside => ?_⟩
        rcases List.mem_cons.mp inside with same | inside
        · cases same
          exact different ⟨rfl,rfl⟩
        · exact silent later other inside

section Steps
variable {s s' : Runtime} {call : Invocation}

theorem Watched.opened : Watched Runtime.opened := by
  refine ⟨fun _ _ => rfl,fun after event before split => ?_⟩
  simp [Runtime.opened] at split

theorem chapter_given {url : String} (given : call.chapter = some url) : call.chapterUrl = some url ∧ url ≠ "" := by
  rw [Invocation.chapter,Option.filter_eq_some_iff] at given
  exact ⟨given.1,by simpa using given.2⟩

theorem chapter_none : call.chapter = none ↔ ¬ ∃ url, call.chapterUrl = some url ∧ url ≠ "" := by
  rw [Invocation.chapter,Option.filter_eq_none_iff]
  simp

theorem Watched.report (watched : Watched s) {url id : String} (named : url ≠ "") (now : ℚ) (revoked : Bool) :
    Watched (s.report url id now revoked) := by
  constructor
  · intro askedUrl askedId
    simp only [Runtime.report,lastWord,watched.remembered]
  · intro after event before split
    rcases List.cons_eq_append_iff.mp split with ⟨-,first⟩ | ⟨newer,-,older⟩
    · cases first
      exact named
    · exact watched.met newer event before older

theorem Watched.ran (watched : Watched s) {skill : LoadedSkill}
    (meets : RuntimeEvent.Meets (.ran skill call.toolName call.chapterUrl call.now) s.past) :
    Watched { s with past := .ran skill call.toolName call.chapterUrl call.now :: s.past } := by
  constructor
  · exact watched.remembered
  · intro after event before split
    rcases List.cons_eq_append_iff.mp split with ⟨-,first⟩ | ⟨newer,-,older⟩
    · cases first
      exact meets
    · exact watched.met newer event before older

theorem Watched.unrun (watched : Watched s) (unrun : Unrun s call s') : Watched s' := by
  rcases unrun with rfl | ⟨url,revoked,given,rfl⟩
  · exact watched
  · exact watched.report (chapter_given given).2 call.now revoked

theorem Watched.named (watched : Watched s) {chapter : Option String} {id : String} {now : ℚ}
    (fresh : NotRevoked s.past chapter id now) : ∃ url, chapter = some url ∧ url ≠ "" := by
  obtain ⟨url,newer,time,older,given,split,-⟩ := fresh
  exact ⟨url,given,watched.met newer _ older split⟩

theorem Watched.clears (watched : Watched s) (timely : onTime s call) (cleared : Cleared s call s') :
    Watched s' ∧ (NotRevoked s'.past call.chapterUrl call.skillId call.now ↔
      ∃ url, call.chapterUrl = some url ∧ url ≠ "") := by
  cases cleared with
  | unasked nobody => exact ⟨watched,watched.named,fun given => absurd given (chapter_none.mp nobody)⟩
  | reported url given =>
    have chapter := chapter_given given
    have watched' : Watched (s.report url call.skillId call.now false) := watched.report chapter.2 call.now false
    refine ⟨watched',watched'.named,fun _ => ?_⟩
    exact ⟨url,[],call.now,s.past,chapter.1,rfl,le_refl _,by norm_num,fun later => List.not_mem_nil⟩
  | cached url entry given found recent live =>
    have chapter := chapter_given given
    obtain ⟨revoked,time⟩ := entry
    obtain rfl : revoked = false := live
    rw [watched.remembered] at found
    obtain ⟨newer,older,split,silent⟩ := lastWord_some found
    have earlier : time ≤ call.now := timely (.fetched url call.skillId time false) (by simp [split])
    refine ⟨watched,watched.named,fun _ => ?_⟩
    exact ⟨url,newer,time,older,chapter.1,split,earlier,recent,fun later => silent later true⟩

theorem Watched.step {env : RuntimeEnv} (watched : Watched s) (timely : onTime s call)
    (next : step env s call = some s') : Watched s' := by
  obtain rfl : Effect.final (invokeTool env call s) = s' := Option.some.inj next
  rcases invokeTool_cases env call s with unrun | ⟨skill,t,admits,passed,run⟩
  · exact watched.unrun unrun
  · rw [run]
    rcases passed with ⟨harmless,rfl⟩ | ⟨-,cleared⟩
    · exact watched.ran fun danger => absurd danger harmless
    · obtain ⟨watched',fresh⟩ := watched.clears timely cleared
      refine watched'.ran fun _ => ?_
      rw [admits.named]
      exact fresh

end Steps

theorem reached_watched {env : RuntimeEnv} {s : Runtime} (run : Reached (step env) onTime Runtime.opened s) :
    Watched s := by
  apply run.invariant (P := Watched)
  · exact Watched.opened
  · intro s call s' watched timely next
    exact watched.step timely next

/-- A tool of a high-risk skill runs on the chapter's word exactly where the call has
passed a chapter to ask. -/
theorem risky_runs_fresh (env : RuntimeEnv) {s : Runtime} (run : Reached (step env) onTime Runtime.opened s)
    {after before : List RuntimeEvent} {skill : LoadedSkill} {tool : String} {chapter : Option String} {time : ℚ}
    (split : s.past = after ++ .ran skill tool chapter time :: before) (risky : skill.Risky) :
    NotRevoked before chapter skill.skillId time ↔ ∃ url, chapter = some url ∧ url ≠ "" :=
  (reached_watched run).met after _ before split risky

def sampleEnv : RuntimeEnv := ⟨fun _ => "",fun _ => ""⟩

def shell : LoadedSkill := ⟨"shell@1.0.0",.str "shell",.str "1.0.0",[.str "shell.exec"],[("run",fun args => .ok args)]⟩

def invocation (chapter : Option String) (fetched : Fetched) (now : ℚ) : Invocation :=
  ⟨[shell],"shell@1.0.0","run",.obj [],[("shell@1.0.0",["shell.exec"])],true,chapter,fetched,now⟩

theorem shell_risky : shell.Risky := ⟨"shell.exec",by simp [highRiskCapabilities],by simp [shell]⟩

def asked : Runtime := Runtime.opened.report "https://c" "shell@1.0.0" 5 false

theorem onTime_opened (call : Invocation) : onTime Runtime.opened call := by
  intro event inside
  cases inside

theorem asks : step sampleEnv Runtime.opened (invocation (some "https://c") (.reported false) 5) =
    some { asked with past := .ran shell "run" (some "https://c") 5 :: asked.past } := rfl

theorem checked_shell_runs : Reached (step sampleEnv) onTime Runtime.opened
      { asked with past := .ran shell "run" (some "https://c") 5 :: asked.past } ∧
    NotRevoked asked.past (some "https://c") "shell@1.0.0" 5 := by
  have run := Reached.step .start (onTime_opened _) asks
  exact ⟨run,(risky_runs_fresh sampleEnv run (List.nil_append _).symm shell_risky).mpr ⟨"https://c",rfl,by decide⟩⟩

def warned : Runtime := Runtime.opened.report "https://c" "shell@1.0.0" 5 true

theorem warns : step sampleEnv Runtime.opened (invocation (some "https://c") (.reported true) 5) = some warned := rfl

theorem goes_on : step sampleEnv warned (invocation none (.reported true) 9) =
    some { warned with past := .ran shell "run" none 9 :: warned.past } := rfl

theorem unasked_shell_runs : Reached (step sampleEnv) onTime Runtime.opened
      { warned with past := .ran shell "run" none 9 :: warned.past } ∧
    shell.Risky ∧ ∀ chapter, ¬ NotRevoked warned.past chapter "shell@1.0.0" 9 := by
  have told := Reached.step .start (onTime_opened _) warns
  refine ⟨.step told (fun event inside => ?_) goes_on,shell_risky,?_⟩
  · obtain rfl := List.mem_singleton.mp inside
    norm_num [RuntimeEvent.time,invocation]
  · intro chapter fresh
    obtain ⟨url,newer,time,older,-,split,-⟩ := fresh
    have member : RuntimeEvent.fetched url "shell@1.0.0" time false ∈ warned.past := by simp [split]
    cases List.mem_singleton.mp member

end Orrery.Skills
