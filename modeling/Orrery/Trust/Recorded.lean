import Orrery.Trust.Caps

/-! What one call of `record` leaves in the ledger when the store carries it out. -/
namespace Orrery.Trust
open Foundation Foundation.Windows

def Db.minted (db : Db) (call : RecordCall) : Prop :=
  ∃ row ∈ db.events, row.agentId = call.agentId ∧ row.eventType = call.eventType ∧ row.sourceEventId =
    call.sourceEventId

def Act.reads : Act → Bool
  | .postEvent _ | .patchEndorsement .. | .postEndorsement _ => false
  | _ => true

section Recording
variable {db : Db} {call : RecordCall} {proposed : ℚ}

/-- What a call of `record` leaves: the same events, or one more, of at most the delta that
is proposed; and its event is there. -/
structure Recorded (call : RecordCall) (proposed : ℚ) (db db' : Db) : Prop where
  endorsements : db'.endorsements = db.endorsements
  events : db'.events = db.events ∨ ¬ db.minted call ∧ ∃ (effective : ℚ) (reason : Option String) (now : Int),
    effective ≤ proposed ∧ db'.events = db.events ++ [(call.event effective reason).row now]
  minted : db'.minted call

structure Admitted (call : RecordCall) (base : ℚ) : Prop where
  named : call.agentId ≠ ""
  other : call.sourceAgentId ≠ some call.agentId
  known : eventDeltas.lookup call.eventType = some base
  sourced : call.sourceEventId.isSome = true

theorem refuses_minted (other : call.sourceAgentId ≠ some call.agentId) (fresh : ¬ db.minted call) (effective : ℚ)
    (reason : Option String) : db.refuses (call.event effective reason) = false := by
  have unclashing : db.clashes (call.event effective reason) = false := by
    rw [Db.clashes,List.any_eq_false]
    intro row inside clash
    simp only [TrustEvent.clashes,Bool.and_eq_true,decide_eq_true_eq] at clash
    exact fresh ⟨row,inside,clash.1.1.1.symm,clash.1.1.2.symm,clash.1.2.symm⟩
  rw [Db.refuses,unclashing,Bool.false_or]
  exact decide_eq_false other

theorem minted_congr {db' : Db} (same : db'.events = db.events) : db'.minted call ↔ db.minted call := by
  unfold Db.minted
  rw [same]

theorem run_call {β : Type} (landings : ℕ → Landing) (act : Act) (resume : act.Answer → Program β) (db : Db) :
    (Proc.run exec landings (.call act resume) db).2.1 = (Proc.run exec (fun n => landings (n+1))
      (resume (exec (landings 0) act db).1) (exec (landings 0) act db).2).2.1 := rfl

theorem run_insertion {landings : ℕ → Landing} (lands : (landings 0).lands = true)
    (other : call.sourceAgentId ≠ some call.agentId) (fresh : ¬ db.minted call) {effective : ℚ} {reason : Option String}
    (le : effective ≤ proposed) : Recorded call proposed db (Proc.run exec landings
      (insertion call effective reason) db).2.1 := by
  have ended : (Proc.run exec landings (insertion call effective reason) db).2.1 =
      (exec (landings 0) (.postEvent (call.event effective reason)) db).2 := by
    rw [insertion_eq,run_call]
    split
    · rfl
    · rfl
  have accepted : (db.tick (landings 0).waited).refuses (call.event effective reason) = false :=
    refuses_minted other fresh effective reason
  rw [ended,exec_post,lands,accepted]
  refine ⟨rfl,.inr ⟨fresh,effective,reason,_,le,rfl⟩,?_⟩
  exact ⟨_,List.mem_append_right _ List.mem_cons_self,rfl,rfl,rfl⟩

theorem Recorded.after {db₁ db₂ : Db} (recorded : Recorded call proposed db₁ db₂)
    (endorsements : db₁.endorsements = db.endorsements)
    (events : db₁.events = db.events) : Recorded call proposed db db₂ where
  endorsements := recorded.endorsements.trans endorsements
  events := by
    rw [← minted_congr events,← events]
    exact recorded.events
  minted := recorded.minted

theorem exec_read (db : Db) (landing : Landing) (act : Act) (reads : act.reads = true) :
    (exec landing act db).2.endorsements = db.endorsements ∧ (exec landing act db).2.events = db.events := by
  have ticked : (exec landing act db).2 = db.tick landing.waited := by
    unfold exec
    dsimp only
    cases act with
    | postEvent new => cases reads
    | patchEndorsement id change => cases reads
    | postEndorsement vouch => cases reads
    | _ => split <;> rfl
  rw [ticked]
  exact ⟨rfl,rfl⟩

theorem applyCaps_le (spentDay spentWeek spentMonth : ℚ) :
    (applyCaps proposed spentDay spentWeek spentMonth).1 ≤ proposed := by
  by_cases credit : 0 < proposed
  · rw [applyCaps_cases credit]
    exact min_le_left _ _
  · rw [applyCaps,if_pos (not_lt.mp credit)]

theorem run_checkCaps {landings : ℕ → Landing} (lands : ∀ n, (landings n).lands = true)
    (other : call.sourceAgentId ≠ some call.agentId) (fresh : ¬ db.minted call) :
    Recorded call proposed db (Proc.run exec landings (checkCaps call proposed) db).2.1 := by
  unfold checkCaps
  split
  next =>
    change Recorded call proposed db (Proc.run exec landings (.call .utcNow fun now : Int =>
      .call (.getWindow call.agentId (now-30*day)) (afterWindow call proposed now)) db).2.1
    rw [run_call,run_call]
    have first := exec_read db (landings 0) .utcNow rfl
    generalize (exec (landings 0) .utcNow db).2 = db₁ at first ⊢
    generalize (exec (landings 0) .utcNow db).1 = now
    have second := exec_read db₁ (landings 1) (.getWindow call.agentId (now-30*day)) rfl
    apply Recorded.after ?_ (second.1.trans first.1) (second.2.trans first.2)
    apply run_insertion ?_ other ?_ (applyCaps_le _ _ _)
    · exact lands 2
    · rwa [minted_congr second.2,minted_congr first.2]
  next => exact run_insertion (lands 0) other fresh le_rfl

theorem run_record {landings : ℕ → Landing} (answers : ∀ n, ((landings n).lands && (landings n).answers) = true)
    {base : ℚ}
    (admitted : Admitted call base) :
    Recorded call (scaledDelta base (landings 0).scale) db (Proc.run exec landings (record call) db).2.1 := by
  obtain ⟨source,sourced⟩ := Option.isSome_iff_exists.mp admitted.sourced
  have lands (n : ℕ) : (landings n).lands = true := by
    have both := answers n
    simp only [Bool.and_eq_true] at both
    exact both.1
  unfold record
  rw [if_neg admitted.named,if_neg admitted.other,admitted.known]
  change Recorded call _ db (Proc.run exec landings (.call .scale fun read =>
    checkSource call (scaledDelta base read)) db).2.1
  rw [run_call]
  have first := exec_read db (landings 0) .scale rfl
  change Recorded call _ db (Proc.run exec _ (checkSource call (scaledDelta base (landings 0).scale)) _).2.1
  generalize (exec (landings 0) .scale db).2 = db₁ at first ⊢
  generalize scaledDelta base (landings 0).scale = proposed
  apply Recorded.after ?_ first.1 first.2
  unfold checkSource
  rw [sourced]
  change Recorded call proposed db₁
    (Proc.run exec _ (.call (.getEvent call.agentId call.eventType source) (afterCheck call proposed)) _).2.1
  rw [run_call]
  have second := exec_read db₁ (landings 1) (.getEvent call.agentId call.eventType source) rfl
  have answer : ((exec (landings 1) (.getEvent call.agentId call.eventType source) db₁).1 : Option (List TrustEvent)) =
      some (db₁.events.filter fun row => row.agentId = call.agentId && row.eventType =
        call.eventType && row.sourceEventId = some source) := by
    change (landings 1).answered _ = _
    rw [Landing.answered,if_pos (answers 1)]
    rfl
  unfold afterCheck
  rw [answer]
  split
  next none_yet =>
    have fresh : ¬ db₁.minted call := by
      rintro ⟨row,inside,agent,type,same⟩
      rw [Option.getD_some,List.isEmpty_iff,List.filter_eq_nil_iff] at none_yet
      exact none_yet row inside (by simp [agent,type,same,sourced])
    apply Recorded.after (run_checkCaps (fun n => lands _) admitted.other ?_) second.1 second.2
    rwa [minted_congr second.2]
  next found =>
    refine ⟨second.1,.inl second.2,?_⟩
    rw [Option.getD_some,List.isEmpty_iff] at found
    obtain ⟨row,inside⟩ := List.exists_mem_of_ne_nil _ found
    simp only [List.mem_filter,Bool.and_eq_true,decide_eq_true_eq] at inside
    apply (minted_congr second.2).mpr
    exact ⟨row,inside.1,inside.2.1.1,inside.2.1.2,inside.2.2.trans sourced.symm⟩

end Recording

end Orrery.Trust
