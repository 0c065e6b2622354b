import Orrery.Consent.Turn

/-! The deployment's denylist and the executor. `gate.evaluate` refuses a denied
capability, but only the fallback asks it: a proposal that one of the three paths
approves is run without. -/
namespace Orrery.Consent
open Foundation Json

section Denylist
variable (env : Env) (call : Call)

structure Invokes (proposal : ActionRequest) (w : World) : Prop where
  admitted : Admitted env call proposal w
  eligible : Eligible env call proposal { w with reads := w.reads+1 }
  runner : (call.runners proposal.capability).isSome

theorem turn_log (proposal : ActionRequest) (w : World) : ∃ ran,
    (Effect.final (executeProposal env call proposal w)).activity = w.activity ++ ran ∧
    (∀ other context decision, Activity.invoked other context decision ∈ ran →
      other = proposal ∧ Invokes env call proposal w) ∧
    (Invokes env call proposal w → ∃ context decision, Activity.invoked proposal context decision ∈ ran) := by
  rcases turn_cases env call proposal w with ⟨admitted,eligible,d,v,approval,run⟩ | ⟨not,idle⟩
  · have spec := carryOut_spec env call proposal d v
    have same : v.activity = w.activity := by
      cases approval with
      | graduated hash v opened prepared => rw [prepared.rest]
      | trusted hash v shut opened prepared => rw [prepared.rest]
      | claimed row v shut low prepared takes claimed =>
        obtain ⟨u,logged,_,entered⟩ := claimed.marked
        have kept := logged.2
        unfold Untouched at kept
        rw [entered,kept,prepared.rest]
        rfl
    rw [run]
    refine ⟨ranLog call proposal d,by rw [spec.activity,same],?_,?_⟩
    · intro other context decision member
      unfold ranLog at member
      cases runner : call.runners proposal.capability with
      | none => simp [runner] at member
      | some r =>
        simp only [runner,List.mem_cons,List.not_mem_nil,or_false,reduceCtorEq,false_or] at member
        cases member
        exact ⟨rfl,admitted,eligible,by simp [runner]⟩
    · intro invokes
      obtain ⟨r,runner⟩ := Option.isSome_iff_exists.mp invokes.runner
      exact ⟨call.context,d,by simp [ranLog,runner]⟩
  · refine ⟨[],by rw [idle.activity,List.append_nil],by simp,?_⟩
    intro invokes
    exact absurd ⟨invokes.admitted,invokes.eligible⟩ not

def NeverDenied (plan : List ActionRequest) (w : World) : Prop := AtEachTurn env call
  (fun proposal v => capabilityDenied proposal.capability env.denied = true → ¬ Invokes env call proposal v) plan w

theorem plan_log (plan : List ActionRequest) : ∀ w : World, ∃ ran,
    (Effect.final (executePlan env call plan w)).activity = w.activity ++ ran ∧
    ((∀ proposal context decision, Activity.invoked proposal context decision ∈ ran →
      capabilityDenied proposal.capability env.denied = false) ↔ NeverDenied env call plan w) := by
  induction plan with
  | nil =>
    intro w
    refine ⟨[],by simp [executePlan],?_⟩
    simp [NeverDenied,AtEachTurn]
  | cons proposal rest ih =>
    intro w
    obtain ⟨ran,log,only,once⟩ := turn_log env call proposal w
    unfold NeverDenied at ih ⊢
    rw [atEachTurn_cons]
    -- what the turn logged is about this proposal alone
    have here : (∀ other context decision, Activity.invoked other context decision ∈ ran →
        capabilityDenied other.capability env.denied = false) ↔
        (capabilityDenied proposal.capability env.denied = true → ¬ Invokes env call proposal w) := by
      constructor
      · intro clean denied invokes
        obtain ⟨context,decision,member⟩ := once invokes
        rw [clean proposal context decision member] at denied
        cases denied
      · intro never other context decision member
        obtain ⟨rfl,invokes⟩ := only other context decision member
        by_contra denied
        exact never (by simpa using denied) invokes
    rw [executePlan_final]
    cases turn : executeProposal env call proposal w with
    | error e v =>
      rw [turn] at log
      refine ⟨ran,log,?_⟩
      rw [here]
      simp
    | ok result v =>
      rw [turn] at log
      obtain ⟨later,more,exactly⟩ := ih v
      refine ⟨ran ++ later,?_,?_⟩
      · rw [more,← List.append_assoc,← log]
        rfl
      · have split : (∀ result' v', (EStateM.Result.ok result v : EStateM.Result Raised World ExecutionResult) =
            .ok result' v' → AtEachTurn env call (fun proposal v =>
              capabilityDenied proposal.capability env.denied = true → ¬ Invokes env call proposal v) rest v') ↔
            NeverDenied env call rest v := by
          constructor
          · intro all
            exact all result v rfl
          · intro never result' v' same
            cases same
            exact never
        rw [split,← here,NeverDenied,← exactly]
        constructor
        · intro clean
          exact ⟨fun p c d member => clean p c d (List.mem_append_left _ member),
            fun p c d member => clean p c d (List.mem_append_right _ member)⟩
        · intro both p c d member
          rcases List.mem_append.mp member with early | late
          · exact both.1 p c d early
          · exact both.2 p c d late

/-- The executor runs no denied capability exactly when no turn of the plan finds one
that is admitted and that a path approves. -/
theorem executePlan_denylist (plan : List ActionRequest) (w : World) :
    (∀ proposal context decision,
      Activity.invoked proposal context decision ∈
        (Effect.final (executePlan env call plan w)).activity.drop w.activity.length →
      capabilityDenied proposal.capability env.denied = false) ↔
    ∀ before proposal after results v, plan = before ++ proposal :: after →
      executePlan env call before w = .ok results v →
      capabilityDenied proposal.capability env.denied = true → ¬ Invokes env call proposal v := by
  obtain ⟨ran,log,exactly⟩ := plan_log env call plan w
  rw [log,List.drop_left]
  exact exactly

end Denylist

def sampleRunner : Runner := fun proposal _ =>
  ([],.returned ⟨proposal.capability,proposal.scope,"ok","","untrusted",none,[]⟩)

def sampleCall (trust : Int) : Call := ⟨fun _ => some sampleRunner,"l",none,true,some "d",some "x",some trust,none⟩

def sampleClick : ActionRequest := ⟨"desktop.click","s","c","trusted",none,"",[]⟩

def ranWith (w : World) : List (String × String) :=
  w.activity.filterMap fun
    | .invoked proposal _ decision => some (proposal.capability,decision.reason)
    | .approved .. => none

theorem denied_capability_ran : capabilityDenied "desktop.click" (sampleEnv ["desktop.*"]).denied = true ∧
    ranWith (Effect.final (executePlan (sampleEnv ["desktop.*"]) (sampleCall 100) [sampleClick] World.fresh)) =
      [("desktop.click","trust_threshold")] := by
  decide +kernel

end Orrery.Consent
