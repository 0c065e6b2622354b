import Orrery.Consent.Gate

/-! What the claims made so far leave in the ledger: one tombstone each, on approvals
that were among the 50 newest when the claim read them. The 200 newest tombstones
then still name every claimed approval that the 50 newest approvals show. -/
namespace Orrery.Consent
open Foundation Json

def isApproval (row : Row) : Bool := row.action == "consent.approved"

def isTombstone (row : Row) : Bool := row.action == "consent.consumed"

structure Claims (env : Env) (w : World) (marks : List (Ranking.Marked Row)) : Prop where
  ordered : Ordered env w
  marking : (ranking env).Marking w.rows isApproval 50 marks
  tombs : ∀ x ∈ marks, isTombstone x.mark = true ∧
    namedSha env x.mark "approval_event_sha256" = some x.target.eventSha256

theorem Claims.start (env : Env) (w : World) (empty : w.rows = []) : Claims env w [] := by
  refine ⟨.fresh env w empty,⟨?_,by simp,by simp,by simp,by simp,by simp,by simp⟩,by simp⟩
  rw [empty]
  exact List.Pairwise.nil

theorem Claims.tick {env : Env} (steady : Monotone env.clock) {w : World} {marks : List (Ranking.Marked Row)}
    (claims : Claims env w marks) : Claims env { w with reads := w.reads+1 } marks :=
  ⟨claims.ordered.tick steady,claims.marking,claims.tombs⟩

theorem Claims.append {env : Env} (steady : Monotone env.clock) {w : World} {marks : List (Ranking.Marked Row)}
    (claims : Claims env w marks) (fields : Fields) (fresh : w.holds (w.nextRow env fields).eventSha256 = false) :
    Claims env (w.insert env (w.nextRow env fields)) marks :=
  ⟨claims.ordered.append steady fields fresh,claims.marking.append _ (claims.ordered.newer fields),claims.tombs⟩

theorem Claims.congr {env : Env} {w w' : World} {marks : List (Ranking.Marked Row)} (claims : Claims env w marks)
    (rows : w'.rows = w.rows) (reads : w'.reads = w.reads) : Claims env w' marks := by
  obtain ⟨ordered,marking,tombs⟩ := claims
  have ordered := ordered.congr rows reads
  rw [← rows] at marking
  exact ⟨ordered,marking,tombs⟩

theorem Writes.claims {env : Env} (steady : Monotone env.clock) {allowed : Fields → Prop} {w w' : World}
    {marks : List (Ranking.Marked Row)} (run : Writes env allowed w w') (claims : Claims env w marks) :
    Claims env w' marks := by
  induction run with
  | refl => exact claims
  | tail _ step ih =>
    cases step with
    | tick => exact ih.tick steady
    | append fields _ fresh => exact ih.append steady fields fresh
    | aside _ rows reads => exact ih.congr rows reads

structure Shown (env : Env) (w : World) (read : Nat) (row : Row) : Prop where
  listed : row ∈ w.rows
  approval : isApproval row = true
  early : row.id ≤ read
  bound : read ≤ w.rows.length
  few : (w.rows.filter isApproval).countP
    (fun b => decide ((ranking env).serial b ≤ read) && decide ((ranking env).before b row)) < 50

theorem shown_of_listed {env : Env} {w : World} (ordered : Ordered env w) (row : Row)
    (candidate : row ∈ w.listEvents env "consent.approved" 50) :
    Shown env w w.rows.length row ∧ (w.rows.filter isApproval).countP ((ranking env).before · row) < 50 := by
  obtain ⟨member,few⟩ := (ordered.mem_listEvents "consent.approved" 50 rfl row).mp candidate
  obtain ⟨listed,approval⟩ := List.mem_filter.mp member
  refine ⟨⟨listed,approval,ordered.ids row listed,Nat.le_refl _,?_⟩,few⟩
  refine Nat.lt_of_le_of_lt (List.countP_mono_left ?_) few
  intro b _ both
  exact (Bool.and_eq_true_iff.mp both).2

theorem Shown.append {env : Env} {w : World} {read : Nat} {row : Row} (shown : Shown env w read row)
    (fields : Fields) : Shown env (w.insert env (w.nextRow env fields)) read row := by
  have bound := shown.bound
  have late : ¬ (ranking env).serial (w.nextRow env fields) ≤ read := by
    simp only [ranking,World.nextRow]
    omega
  refine ⟨List.mem_append_left _ shown.listed,shown.approval,shown.early,?_,?_⟩
  · simp only [World.insert,List.length_append,List.length_singleton]
    omega
  · have few := shown.few
    simp only [World.insert,List.filter_append,List.countP_append]
    cases sort : isApproval (w.nextRow env fields) <;> simpa [sort,late] using few

def Spent (env : Env) (w : World) (marks : List (Ranking.Marked Row)) (consumed : List String) : Prop :=
  ∀ x ∈ marks, (w.rows.filter isApproval).countP ((ranking env).before · x.target) < 50 →
    x.target.eventSha256 ∈ consumed

theorem Spent.append {env : Env} {w : World} {marks : List (Ranking.Marked Row)} {consumed : List String}
    (spent : Spent env w marks consumed) (fields : Fields) :
    Spent env (w.insert env (w.nextRow env fields)) marks consumed := by
  intro x member few
  apply spent x member
  simp only [World.insert,List.filter_append,List.countP_append] at few
  omega

def foreign (env : Env) (w : World) (marks : List (Ranking.Marked Row)) : Nat :=
  (w.listEvents env "consent.consumed" 200).countP ((ranking env).unmarked marks)

theorem Claims.spent {env : Env} {w : World} {marks : List (Ranking.Marked Row)} (claims : Claims env w marks)
    (few : foreign env w marks ≤ 50) : Spent env w marks (w.consumedApprovalShas env) := by
  intro x member now
  have kept : x.mark ∈ w.listEvents env "consent.consumed" 200 :=
    claims.marking.kept isTombstone 200 50 (by decide) member (fun y inside => (claims.tombs y inside).1) few now
  exact List.mem_filterMap.mpr ⟨x.mark,kept,(claims.tombs x member).2⟩

theorem Claims.claim {env : Env} (steady : Monotone env.clock) {w : World} {marks : List (Ranking.Marked Row)}
    (claims : Claims env w marks) {read : Nat} {row : Row} (shown : Shown env w read row)
    (after : ∀ x ∈ marks, x.mark.id ≤ read) (new : row ∉ marks.map Ranking.Marked.target)
    (named : row.eventSha256 ≠ "") (chapterId : String) (actorAgentId : Option String) (execution : String)
    (fresh : w.holds (w.nextRow env (tombstone row.eventSha256 chapterId actorAgentId execution)).eventSha256 = false) :
    let mark := w.nextRow env (tombstone row.eventSha256 chapterId actorAgentId execution)
    Claims env (w.insert env mark) (marks ++ [⟨row,mark,read⟩]) := by
  intro mark
  have appended := claims.append steady _ fresh
  have kept := shown.append (tombstone row.eventSha256 chapterId actorAgentId execution)
  refine ⟨appended.ordered,appended.marking.add ⟨row,mark,read⟩ ⟨kept.listed,?_⟩ shown.approval ⟨shown.early,?_⟩
    kept.few after new,?_⟩
  · exact List.mem_append_right _ (List.mem_singleton_self _)
  · exact Nat.lt_succ_of_le shown.bound
  · intro x member
    rcases List.mem_append.mp member with old | single
    · exact claims.tombs x old
    · cases List.mem_singleton.mp single
      refine ⟨rfl,?_⟩
      simp [namedSha,mark,World.nextRow,tombstone,Json.get,truthy,named,Env.str]

end Orrery.Consent
