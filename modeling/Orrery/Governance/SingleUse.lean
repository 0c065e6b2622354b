import Orrery.Foundation.Exclusive
import Orrery.Governance.Lifecycle

/-! When an approval is used once: every order of the calls on the store, and every pattern
of their failures. -/
namespace Orrery.Governance
open Foundation

def approvedOf (chapter kind : String) : ApprovalFilter :=
  { chapterId := some chapter, kind := some kind, status := some .approved }

def afterRead (chapter kind actorAgentId actionKey : String) (payload : Dict) (ttl : Option Moment)
    (rows : Option (List Approval)) : Program Result :=
  Result.consumed <$> match (rows.getD []).find? (keyedBy actionKey) with
    | some row => do
      markExecuted row.id
      return .approval row
    | none => otherwise chapter kind actorAgentId actionKey payload ttl

/-- The program has picked the row, and its statement is still to come. -/
def Holds (row : Approval) (p : Program Result) : Prop :=
  p = Result.consumed <$> (do markExecuted row.id; return Grant.approval row) ∨
    ∃ executedAt, p = .call (.patchApprovals { id := some row.id } { status := .executed, executedAt := some executedAt })
      fun _ => .done (.consumed (.approval row))

def Unapproved (result : Result) : Prop := ∀ row, result ≠ .consumed (.approval row)

abbrev Returns {β : Type} (post : β → Prop) (p : Program β) : Prop := p.Along exec (fun _ => True) (fun _ => True) post

inductive Idle (chapter : String) : Task Op Act Act.Answer Result → Prop
  | asking (kind actorAgentId actionKey : String) (payload : Dict) (ttl : Option Moment) :
      Idle chapter ⟨.consume kind actorAgentId actionKey payload ttl,.call (.getApprovals (approvedOf chapter kind) true 50)
        (afterRead chapter kind actorAgentId actionKey payload ttl)⟩
  | without (op : Op) {p : Program Result} (unapproved : Returns Unapproved p) : Idle chapter ⟨op,p⟩

section Programs
variable {α β : Type}

theorem returns_any (p : Program β) : Returns (fun _ => True) p := by
  induction p with
  | done b => exact trivial
  | call act resume ih => exact ⟨trivial,fun _ _ _ => ih _⟩

theorem returns_map {f : α → β} {post : β → Prop} (results : ∀ a, post (f a)) (p : Program α) : Returns post (f <$> p) :=
  Proc.Along.bind (returns_any p) fun a _ => results a

theorem returns_otherwise (chapter kind actorAgentId actionKey : String) (payload : Dict) (ttl : Option Moment) :
    Returns (fun grant => ∀ row, grant ≠ .approval row) (otherwise chapter kind actorAgentId actionKey payload ttl) := by
  apply Proc.Along.bind (returns_any (spendBounded ..))
  intro spend _
  split
  · exact fun row => nofun
  apply Proc.Along.bind (returns_any (getApprovals ..))
  intro pending _
  split
  · exact fun row => nofun
  apply Proc.Along.bind (returns_any (propose ..))
  rintro (reason | row) _
  · exact fun row => nofun
  · exact fun row => nofun

theorem idle_program (chapter : String) (op : Op) : Idle chapter ⟨op,program chapter op⟩ := by
  cases op with
  | consume kind actorAgentId actionKey payload ttl =>
    by_cases known : kind ∉ operationalKinds
    · have refused : program chapter (.consume kind actorAgentId actionKey payload ttl) =
          .done (.consumed (.required "not an operational approval kind" none)) := by
        simp only [program,consumeOperationalApproval,if_pos known]
        rfl
      rw [refused]
      exact .without _ fun row => nofun
    by_cases named : (actorAgentId = "" || actionKey = "") = true
    · have refused : program chapter (.consume kind actorAgentId actionKey payload ttl) =
          .done (.consumed (.required "actor_agent_id and action_key are required" none)) := by
        simp only [program,consumeOperationalApproval,if_neg known,if_pos named]
        rfl
      rw [refused]
      exact .without _ fun row => nofun
    have asks : program chapter (.consume kind actorAgentId actionKey payload ttl) =
        .call (.getApprovals (approvedOf chapter kind) true 50)
          (afterRead chapter kind actorAgentId actionKey payload ttl) := by
      simp only [program,consumeOperationalApproval,if_neg known,if_neg named]
      rfl
    rw [asks]
    exact .asking ..
  | _ => exact .without _ (returns_map (fun _ _ => nofun) _)

theorem afterRead_cases (chapter kind actorAgentId actionKey : String) (payload : Dict) (ttl : Option Moment)
    (rows : Option (List Approval)) : (∃ row, (rows.getD []).find? (keyedBy actionKey) = some row ∧
      Holds row (afterRead chapter kind actorAgentId actionKey payload ttl rows)) ∨
    (rows.getD []).find? (keyedBy actionKey) = none ∧
      Returns Unapproved (afterRead chapter kind actorAgentId actionKey payload ttl rows) := by
  unfold afterRead
  cases picked : (rows.getD []).find? (keyedBy actionKey) with
  | some row => exact .inl ⟨row,rfl,.inl rfl⟩
  | none =>
    refine .inr ⟨rfl,Proc.Along.bind (returns_otherwise ..) ?_⟩
    intro grant never row same
    exact never row (Result.consumed.inj same)

theorem not_holds_done {row : Approval} {result : Result} : ¬ Holds row (.done result) := by
  rintro (same | ⟨_,same⟩)
  · cases same
  · cases same

theorem not_holds_returns {row : Approval} {p : Program Result} (unapproved : Returns Unapproved p) : ¬ Holds row p := by
  rintro (rfl | ⟨executedAt,rfl⟩)
  · exact ((unapproved.2 (carried 0) emptyDb trivial).2 (carried 0) emptyDb trivial) row rfl
  · exact unapproved.2 (carried 0) emptyDb trivial row rfl

theorem Holds.run {row : Approval} {p : Program Result} (holds : Holds row p) :
    (Proc.run exec (fun _ => carried 0) p emptyDb).1 = .consumed (.approval row) := by
  obtain rfl | ⟨executedAt,rfl⟩ := holds
  · rfl
  · rfl

theorem Holds.unique {row row' : Approval} {p : Program Result} (holds : Holds row p) (holds' : Holds row' p) : row = row' :=
  Grant.approval.inj (Result.consumed.inj (holds.run.symm.trans holds'.run))

theorem Idle.not_holds {chapter : String} {task : Task Op Act Act.Answer Result} (idle : Idle chapter task)
    (row : Approval) : ¬ Holds row task.rest := by
  cases idle with
  | asking =>
    rintro (same | ⟨_,same⟩)
    · cases same
    · cases same
  | without op unapproved => exact not_holds_returns unapproved

end Programs

def authorises (id : String) : Foundation.Moment Op Act Result → Bool
  | .returned _ (.consumed (.approval row)) => row.id = id
  | _ => false

def Spends (id : String) (p : Program Result) : Prop := ∃ row, Holds row p ∧ row.id = id

section Houses
variable (house : House)

def House.timesReturned (id : String) : ℕ := house.count (authorises id)

def House.Picks (chapter : String) (task : ℕ) (landing : Landing) (id : String) : Prop :=
  ∃ kind actorAgentId actionKey payload ttl row, house.live.lookup task =
      some ⟨.consume kind actorAgentId actionKey payload ttl,.call (.getApprovals (approvedOf chapter kind) true 50)
        (afterRead chapter kind actorAgentId actionKey payload ttl)⟩ ∧
    (((house.store.tick landing.waited).answer landing (.getApprovals (approvedOf chapter kind) true 50) :
      Option (List Approval)).getD []).find? (keyedBy actionKey) = some row ∧ row.id = id

def House.Marks (task : ℕ) (id : String) : Prop :=
  ∃ op executedAt row, house.live.lookup task = some ⟨op,.call (.patchApprovals { id := some id }
    { status := .executed, executedAt := some executedAt }) fun _ => .done (.consumed (.approval row))⟩ ∧ row.id = id

def Careful (chapter : String) (house : House) : Turn Op Landing → Prop
  | .start .. => True
  | .advance task landing => (∀ id, house.Picks chapter task landing id → ∀ other, ¬ house.Inside (Spends id) other) ∧
      ∀ id, house.Marks task id → landing.lands = true

structure House.SpentOnce (chapter : String) : Prop where
  stages : ∀ task found, house.live.lookup task = some found → Idle chapter found ∨ ∃ row, Holds row found.rest
  present : ∀ task id, house.Inside (Spends id) task → ∃ row, house.store.approvals.row id = some row
  exclusive : ∀ id, house.Exclusive (Spends id) (authorises id)
  used : ∀ id, 0 < house.timesReturned id → ∃ row, house.store.approvals.row id = some row ∧ row.status = .executed

end Houses

theorem executed_later {last : ApprovalStatus} (path : Relation.ReflTransGen Legal .executed last) : last = .executed := by
  induction path with
  | refl => rfl
  | tail _ edge ih =>
    rw [ih] at edge
    cases edge

section Turns
variable {chapter : String} {house : House} {task : ℕ} {op : Op} {p : Program Result} {row : Approval}

theorem Idle.not_spends {task : Task Op Act Act.Answer Result} (idle : Idle chapter task) (id : String) :
    ¬ Spends id task.rest := by
  rintro ⟨row,holds,_⟩
  exact idle.not_holds row holds

theorem Idle.uncounted (idle : Idle chapter ⟨op,p⟩) (id : String) (result : Result) (done : p = .done result) :
    authorises id (.returned op result) = false := by
  subst done
  cases idle with
  | without _ unapproved =>
    unfold authorises
    split
    next row same => exact absurd (Foundation.Moment.returned.inj same).2 (unapproved row)
    next => rfl

theorem House.SpentOnce.moved (spent : house.SpentOnce chapter) {landing : Landing} {act : Act}
    (moved : Moved house.store (exec landing act house.store).2) :
    House.SpentOnce (house.after exec landing act) chapter where
  stages := spent.stages
  present task id inside := by
    obtain ⟨row,found⟩ := spent.present task id inside
    obtain ⟨row',found',_⟩ := moved.rows id row found
    exact ⟨row',found'⟩
  exclusive id := (spent.exclusive id).after fun _ => rfl
  used id returned := by
    rw [House.timesReturned,Pool.count_after fun _ => rfl] at returned
    obtain ⟨row,found,executed⟩ := spent.used id returned
    obtain ⟨row',found',path⟩ := moved.rows id row found
    exact ⟨row',found',executed_later (executed ▸ path)⟩

theorem House.SpentOnce.idle (spent : house.SpentOnce chapter) (idle : Idle chapter ⟨op,p⟩) :
    House.SpentOnce (house.settle task op p) chapter where
  stages := Pool.settle_live (fun other found _ live => spent.stages other found live) (.inl idle)
  present other id inside := by
    rw [Pool.settle_store]
    obtain ⟨_,before⟩ | ⟨_,spends⟩ := inside.settled
    · exact spent.present other id before
    · exact absurd spends (idle.not_spends id)
  exclusive id := (spent.exclusive id).outside (idle.not_spends id) (idle.uncounted id)
  used id returned := by
    rw [Pool.settle_store]
    rw [House.timesReturned,Pool.count_uncounted (idle.uncounted id)] at returned
    exact spent.used id returned

theorem House.SpentOnce.picks (spent : house.SpentOnce chapter) (holds : Holds row p)
    (found : ∃ held, house.store.approvals.row row.id = some held)
    (free : ∀ other, house.Inside (Spends row.id) other → other = task) (unused : house.timesReturned row.id = 0) :
    House.SpentOnce (house.settle task op p) chapter := by
  have unfinished (result : Result) : p ≠ .done result := by
    rintro rfl
    exact not_holds_done holds
  have uncounted (id : String) : House.timesReturned (house.settle task op p) id = house.timesReturned id :=
    Pool.count_uncounted fun result done => absurd done (unfinished result)
  have only {id : String} (spends : Spends id p) : id = row.id := by
    obtain ⟨row',holds',rfl⟩ := spends
    exact congrArg Approval.id (holds'.unique holds)
  constructor
  · exact Pool.settle_live (fun other found _ live => spent.stages other found live) (.inr ⟨row,holds⟩)
  · intro other id inside
    rw [Pool.settle_store]
    obtain ⟨_,before⟩ | ⟨_,spends⟩ := inside.settled
    · exact spent.present other id before
    · exact only spends ▸ found
  · intro id
    by_cases here : id = row.id
    · subst here
      exact (spent.exclusive row.id).within free unused unfinished
    · exact (spent.exclusive id).outside (fun spends => here (only spends))
        fun result done => absurd done (unfinished result)
  · intro id returned
    rw [Pool.settle_store]
    exact spent.used id (uncounted id ▸ returned)

theorem House.SpentOnce.returns (spent : house.SpentOnce chapter) (spending : house.Inside (Spends row.id) task)
    (marked : ∃ held, house.store.approvals.row row.id = some held ∧ held.status = .executed) :
    House.SpentOnce (house.settle task op (.done (.consumed (.approval row)))) chapter := by
  have not_spends (id : String) : ¬ Spends id (.done (.consumed (.approval row))) := by
    rintro ⟨row',holds,_⟩
    exact not_holds_done holds
  constructor
  · intro other found live
    by_cases here : other = task
    · rw [Pool.settle,here] at live
      simp at live
    · rw [Pool.settle,AList.lookup_erase_ne here] at live
      exact spent.stages other found live
  · intro other id inside
    rw [Pool.settle_store]
    exact spent.present other id inside.returned.2
  · intro id
    by_cases here : row.id = id
    · subst here
      exact (spent.exclusive row.id).leave spending
    · refine (spent.exclusive id).outside (not_spends id) ?_
      rintro result ⟨⟩
      exact decide_eq_false here
  · intro id returned
    rw [Pool.settle_store]
    by_cases here : row.id = id
    · exact here ▸ marked
    · rw [House.timesReturned,Pool.count_done,authorises,if_neg] at returned
      · exact spent.used id returned
      · exact fun same => here (of_decide_eq_true same)

theorem picked_approved {kind actionKey : String} {landing : Landing} {db : Db} {picked : Approval}
    (found : (((db.tick landing.waited).answer landing (.getApprovals (approvedOf chapter kind) true 50) :
      Option (List Approval)).getD []).find? (keyedBy actionKey) = some picked) : db.approvals.row picked.id = some picked ∧ picked.status = .approved := by
  have inside : picked ∈ (db.tick landing.waited).found landing (approvedOf chapter kind) true 50 := by
    have listed := List.mem_of_find?_eq_some found
    simp only [Db.answer,Landing.answered] at listed
    split at listed
    · exact listed
    · cases listed
  obtain ⟨held,admitted⟩ := mem_found inside
  simp [ApprovalFilter.admits,meets,approvedOf] at admitted
  exact ⟨held,admitted.2.symm⟩

theorem marked_row {landing : Landing} {change : ApprovalChange} {db : Db} {id : String} {held : Approval}
    (lands : landing.lands = true) (found : db.approvals.row id = some held) :
    (exec landing (.patchApprovals { id := some id } change) db).2.approvals.row id = some (change.apply held) := by
  have same : held.id = id := (Table.row_some.mp found).2
  rw [exec,if_pos lands]
  change (db.approvals.update (ApprovalFilter.admits { id := some id }) change.apply change.apply_id).row id = _
  rw [Table.row_update,found,Option.map_some,if_pos]
  simp [ApprovalFilter.admits,meets,same]

theorem House.SpentOnce.holding (spent : house.SpentOnce chapter) {act : Act} {resume : act.Answer → Program Result}
    {landing : Landing} (live : house.live.lookup task = some ⟨op,.call act resume⟩) (holds : Holds row (.call act resume))
    (careful : ∀ id, house.Marks task id → landing.lands = true)
    (moved : Moved house.store (exec landing act house.store).2) :
    House.SpentOnce ((house.after exec landing act).settle task op (resume (exec landing act house.store).1)) chapter := by
  have spending : house.Inside (Spends row.id) task := ⟨_,live,row,holds,rfl⟩
  have after := spent.moved moved
  obtain same | ⟨executedAt,same⟩ := holds
  · cases same
    have held : Holds row (.call (.patchApprovals { id := some row.id }
        { status := .executed, executedAt := some ((exec landing .utcNow house.store).1) })
        fun _ => .done (.consumed (.approval row))) := .inr ⟨_,rfl⟩
    apply after.picks held
    · exact after.present task row.id spending
    · exact fun other theirs => (after.exclusive row.id).alone other task theirs spending
    · exact (after.exclusive row.id).vacant spending
  · cases same
    apply after.returns spending
    obtain ⟨held,found⟩ := spent.present task row.id spending
    exact ⟨_,marked_row (careful row.id ⟨op,executedAt,row,live,rfl⟩) found,rfl⟩

theorem House.SpentOnce.advance (spent : house.SpentOnce chapter) {landing : Landing} {act : Act}
    {resume : act.Answer → Program Result} (live : house.live.lookup task = some ⟨op,.call act resume⟩)
    (careful : Careful chapter house (.advance task landing))
    (moved : Moved house.store (exec landing act house.store).2) :
    House.SpentOnce ((house.after exec landing act).settle task op (resume (exec landing act house.store).1)) chapter := by
  have after := spent.moved moved
  obtain idle | ⟨row,holds⟩ := spent.stages task _ live
  · cases idle with
    | asking kind actorAgentId actionKey payload ttl =>
      obtain ⟨row,picked,holds⟩ | ⟨_,unapproved⟩ := afterRead_cases chapter kind actorAgentId actionKey payload ttl
        (exec landing (.getApprovals (approvedOf chapter kind) true 50) house.store).1
      · obtain ⟨held,approved⟩ := picked_approved picked
        have free := careful.1 row.id ⟨kind,actorAgentId,actionKey,payload,ttl,row,live,picked,rfl⟩
        apply after.picks holds
        · obtain ⟨row',found,_⟩ := moved.rows row.id row held
          exact ⟨row',found⟩
        · exact fun other theirs => absurd theirs (free other)
        · by_contra used
          rw [House.timesReturned,Pool.count_after fun _ => rfl] at used
          obtain ⟨row',found,executed⟩ := spent.used row.id (Nat.pos_of_ne_zero used)
          obtain rfl := Option.some.inj (held.symm.trans found)
          rw [approved] at executed
          cases executed
      · exact after.idle (.without _ unapproved)
    | without _ unapproved => exact after.idle (.without _ (unapproved.2 landing house.store trivial))
  · exact spent.holding live holds careful.2 moved

theorem House.SpentOnce.step {house' : House} {turn : Turn Op Landing}
    (guarded : house.AllGuarded exec Moved Lawful fun _ _ => True) (spent : house.SpentOnce chapter)
    (careful : Careful chapter house turn) (stepped : House.step chapter house turn = some house') :
    house'.SpentOnce chapter := by
  cases turn with
  | start task op =>
    obtain rfl := Pool.step_start stepped
    exact spent.idle (idle_program chapter op)
  | advance task landing =>
    obtain ⟨op,act,resume,live,rfl⟩ := Pool.step_advance stepped
    exact spent.advance live careful (guarded task _ live house.store (Moved.refl _)).1.moves

theorem House.opened_spentOnce (db : Db) : (House.opened db).SpentOnce chapter where
  stages _ _ found := by cases found
  present _ _ inside := by
    obtain ⟨_,found,_⟩ := inside
    cases found
  exclusive _ := Pool.Exclusive.opened
  used _ returned := by cases returned

end Turns

/-- Where no row is picked while another call has picked it and not yet marked it, and
the marks are carried out, every row is returned at most once. -/
theorem approvals_single_use (chapter : String) (db : Db) {house : House}
    (run : Runs.Reached (House.step chapter) (Careful chapter) (House.opened db) house) (id : String) :
    house.timesReturned id ≤ 1 := by
  suffices house.AllGuarded exec Moved Lawful (fun _ _ => True) ∧ house.SpentOnce chapter from (this.2.exclusive id).once
  induction run with
  | start =>
    refine ⟨?_,House.opened_spentOnce db⟩
    intro task found live
    cases live
  | step _ careful stepped ih =>
    obtain ⟨guarded,spent⟩ := ih
    refine ⟨(guarded.step Moved.refl Moved.trans (fun _ _ _ _ _ => trivial)
      (fun _ _ _ lawful => lawful.moves) (fun op => quiet_program chapter op _) stepped).1,?_⟩
    exact spent.step guarded careful stepped

def approvedWrite : List (Turn Op Landing) :=
  [.start 0 (.propose "record_write" "ann" [("action_key",.str "k")] none none 0 (some 10)),.advance 0 (carried 0),
    .advance 0 (carried 0),.start 0 (.approve "a1" "lea" true),.advance 0 (carried 0),.advance 0 (carried 0),
    .advance 0 (carried 0)]

def consumeWrite : Op := .consume "record_write" "ann" "k" [] none

def oneByOne (house : House) : Turn Op Landing → Bool
  | .start .. => true
  | .advance task landing => landing.lands && house.live.keys = [task]

theorem oneByOne_careful (chapter : String) (house : House) (turn : Turn Op Landing) (checked : oneByOne house turn = true) :
    Careful chapter house turn := by
  cases turn with
  | start task op => trivial
  | advance task landing =>
    simp only [oneByOne,Bool.and_eq_true,decide_eq_true_eq] at checked
    refine ⟨?_,fun _ _ => checked.1⟩
    rintro id ⟨kind,actorAgentId,actionKey,payload,ttl,row,live,_⟩ other ⟨found,theirs,spends⟩
    have listed : other ∈ house.live := AList.lookup_isSome.mp (Option.isSome_iff_exists.mpr ⟨_,theirs⟩)
    rw [AList.mem_keys,checked.2,List.mem_singleton] at listed
    rw [listed,live] at theirs
    obtain rfl := Option.some.inj theirs
    exact Idle.not_spends (.asking kind actorAgentId actionKey payload ttl) id spends

theorem second_consume_queued : ∃ house : House, 0 < house.timesReturned "a1" ∧ house.timesReturned "a1" ≤ 1 := by
  have walked : ((Runs.walk (House.step "acme") oneByOne (approvedWrite ++ [.start 1 consumeWrite,.advance 1 (carried 0),
      .advance 1 (carried 0),.advance 1 (carried 0),.start 1 consumeWrite,.advance 1 (carried 0),.advance 1 (carried 0)])
      (House.opened emptyDb)).map fun house => decide (0 < house.timesReturned "a1")) = some true := by
    decide +kernel
  obtain ⟨house,walked,seen⟩ := Option.map_eq_some_iff.mp walked
  exact ⟨house,of_decide_eq_true seen,approvals_single_use "acme" emptyDb
    (Runs.reached_walk (oneByOne_careful "acme") _ .start walked) "a1"⟩

/-- Both calls look before either has marked the row. -/
theorem returned_twice : ∃ house : House, Runs.Reached (House.step "acme") Runs.Free (House.opened emptyDb) house ∧
    house.timesReturned "a1" = 2 := by
  have walked : ((Runs.walk (House.step "acme") (fun _ _ => true) (approvedWrite ++ [.start 1 consumeWrite,
      .start 2 consumeWrite,.advance 1 (carried 0),.advance 2 (carried 0),.advance 1 (carried 0),.advance 1 (carried 0),
      .advance 2 (carried 0),.advance 2 (carried 0)]) (House.opened emptyDb)).map fun house =>
      house.timesReturned "a1") = some 2 := by
    decide +kernel
  obtain ⟨house,walked,seen⟩ := Option.map_eq_some_iff.mp walked
  exact ⟨house,Runs.reached_walk (fun _ _ _ => trivial) _ .start walked,seen⟩

end Orrery.Governance
