import Mathlib.Logic.Relation
import Orrery.Foundation.Guarded
import Orrery.Governance.Calls

/-! The life of an approval, in every order of the calls on the store: which status may
follow which, who decided, and when. -/
namespace Orrery.Governance
open Foundation Relation

inductive Legal : ApprovalStatus → ApprovalStatus → Prop
  | approve : Legal .pending .approved
  | reject : Legal .pending .rejected
  | expire : Legal .pending .expired
  | execute : Legal .approved .executed

structure Moved (before after : Db) : Prop where
  clock : before.clock ≤ after.clock
  rows : ∀ id row, before.approvals.row id = some row →
    ∃ row', after.approvals.row id = some row' ∧ ReflTransGen Legal row.status row'.status

def Decides (change : ApprovalChange) (row : Approval) : Prop :=
  match change.approvedBy with
  | some _ => row.status = .pending ∧ change.status ≠ .pending ∧
    ∃ time, change.approvedAt = some time ∧ time < row.expiresAt
  | none => change.approvedAt = none

def Lawful : Act → Db → Prop
  | .patchApprovals filter change, db => ∀ id row, db.approvals.row id = some row → filter.admits row = true →
      (row.status = change.status ∨ Legal row.status change.status) ∧ Decides change row
  | _, _ => True

theorem Moved.refl (db : Db) : Moved db db := ⟨le_rfl,fun _ row found => ⟨row,found,.refl⟩⟩

theorem Moved.trans (a b c : Db) (first : Moved a b) (second : Moved b c) : Moved a c where
  clock := first.clock.trans second.clock
  rows := by
    intro id row found
    obtain ⟨row',found',one⟩ := first.rows id row found
    obtain ⟨row'',found'',two⟩ := second.rows id row' found'
    exact ⟨row'',found'',one.trans two⟩

theorem settled_later {first last : ApprovalStatus} (path : ReflTransGen Legal first last)
    (settled : first = .approved ∨ first = .executed) : last = .approved ∨ last = .executed := by
  induction path with
  | refl => exact settled
  | tail _ edge ih =>
    cases edge with
    | execute => exact .inr rfl
    | approve => simp at ih
    | reject => simp at ih
    | expire => simp at ih

section Effects
variable {landing : Landing} {act : Act} {db : Db} {id : String}

theorem exec_clock : (exec landing act db).2.clock = db.clock+landing.waited := by
  unfold exec
  split
  · cases act <;> rfl
  · rfl

theorem exec_row {row : Approval} (found : db.approvals.row id = some row) :
    (exec landing act db).2.approvals.row id = some row ∨ ∃ filter change, act = .patchApprovals filter change ∧
      filter.admits row = true ∧ (exec landing act db).2.approvals.row id = some (change.apply row) := by
  unfold exec
  split
  · cases act with
    | patchApprovals filter change =>
      change (db.approvals.update filter.admits change.apply change.apply_id).row id = _ ∨ _
      by_cases admitted : filter.admits row = true
      · refine .inr ⟨filter,change,rfl,admitted,?_⟩
        change (db.approvals.update filter.admits change.apply change.apply_id).row id = _
        rw [Table.row_update,found,Option.map_some,if_pos admitted]
      · left
        rw [Table.row_update,found,Option.map_some,if_neg admitted]
    | postApproval new =>
      left
      change (db.approvals.insert (new.row landing.newId (db.clock+landing.waited))).row id = _
      rw [Table.row_insert,found,Option.some_or]
    | _ => exact .inl found
  · exact .inl found

theorem exec_row_new {row : Approval} (absent : db.approvals.row id = none)
    (found : (exec landing act db).2.approvals.row id = some row) :
    ∃ new, act = .postApproval new ∧ row = new.row landing.newId (db.clock+landing.waited) := by
  unfold exec at found
  split at found
  · cases act with
    | patchApprovals filter change =>
      change (db.approvals.update filter.admits change.apply change.apply_id).row id = _ at found
      rw [Table.row_update,absent] at found
      cases found
    | postApproval new =>
      change (db.approvals.insert (new.row landing.newId (db.clock+landing.waited))).row id = _ at found
      rw [Table.row_insert,absent,Option.none_or] at found
      split at found
      · exact ⟨new,rfl,(Option.some.inj found).symm⟩
      · cases found
    | _ =>
      rw [show db.approvals.row id = some row from found] at absent
      cases absent
  · rw [show db.approvals.row id = some row from found] at absent
    cases absent

theorem Lawful.moves (lawful : Lawful act db) : Moved db (exec landing act db).2 where
  clock := by
    rw [exec_clock]
    exact Int.le_add_of_nonneg_right (Int.natCast_nonneg _)
  rows := by
    intro id row found
    obtain same | ⟨filter,change,rfl,admitted,applied⟩ := @exec_row landing act db id row found
    · exact ⟨row,same,.refl⟩
    · refine ⟨_,applied,?_⟩
      obtain kept | edge := (lawful id row found admitted).1
      · exact kept ▸ .refl
      · exact .single edge

end Effects

abbrev Ruled {β : Type} (post : β → Db → Prop) (p : Program β) (db : Db) : Prop := p.Guarded exec Moved Lawful post db

section Rules
variable {db : Db} {β : Type} {post : β → Db → Prop}

theorem ruled_utcNow : Ruled (fun now after => db.clock ≤ now ∧ now ≤ after.clock ∧ Moved db after) utcNow db := by
  intro s moved
  refine ⟨trivial,fun landing => ?_⟩
  have later : Moved s (exec landing .utcNow s).2 := Lawful.moves trivial
  have read : @Eq Int (exec landing .utcNow s).1 (exec landing .utcNow s).2.clock := by
    rw [exec_clock]
    rfl
  refine ⟨?_,read.le,moved.trans _ _ _ later⟩
  rw [read]
  exact moved.clock.trans later.clock

theorem ruled_call (act : Act) (lawful : ∀ s, Lawful act s) :
    Ruled (fun _ after => Moved db after) (.call act .done) db :=
  fun s moved => ⟨lawful s,fun _ => moved.trans _ _ _ (lawful s).moves⟩

theorem ruled_patchApprovals {filter : ApprovalFilter} {change : ApprovalChange}
    (lawful : ∀ s, Moved db s → Lawful (.patchApprovals filter change) s) :
    Ruled (fun _ after => Moved db after) (patchApprovals filter change) db :=
  fun s moved => ⟨lawful s moved,fun _ => moved.trans _ _ _ (lawful s moved).moves⟩

theorem mem_found {landing : Landing} {filter : ApprovalFilter} {byApprovedAt : Bool} {limit : ℕ} {row : Approval}
    (inside : row ∈ db.found landing filter byApprovedAt limit) :
    db.approvals.row row.id = some row ∧ filter.admits row = true := by
  apply Table.mem_select.mp
  apply (landing.arrange_perm _).mem_iff.mp
  have listed := List.mem_of_mem_take inside
  split at listed
  · exact List.mem_mergeSort.mp listed
  · exact listed

theorem ruled_getApprovals {filter : ApprovalFilter} {byApprovedAt : Bool} {limit : ℕ} :
    Ruled (fun rows after => Moved db after ∧ ∀ row ∈ rows.getD [], after.approvals.row row.id = some row ∧
      filter.admits row = true) (getApprovals filter byApprovedAt limit) db := by
  intro s moved
  refine ⟨trivial,fun landing => ?_⟩
  have later : Moved s (exec landing (.getApprovals filter byApprovedAt limit) s).2 := Lawful.moves trivial
  refine ⟨moved.trans _ _ _ later,?_⟩
  intro row inside
  have read : row ∈ (s.tick landing.waited).found landing filter byApprovedAt limit := by
    simp only [exec,Db.answer,Landing.answered] at inside
    split at inside
    · exact inside
    · cases inside
  obtain ⟨found,admitted⟩ := mem_found read
  refine ⟨?_,admitted⟩
  unfold exec
  split
  · exact found
  · exact found

end Rules

section Programs
variable {db : Db}

def Settled (id : String) (db : Db) : Prop :=
  ∃ row, db.approvals.row id = some row ∧ (row.status = .approved ∨ row.status = .executed)

theorem Settled.later {id : String} {after : Db} (settled : Settled id db) (moved : Moved db after) :
    Settled id after := by
  obtain ⟨row,found,status⟩ := settled
  obtain ⟨row',found',path⟩ := moved.rows id row found
  exact ⟨row',found',settled_later path status⟩

abbrev Quiet {β : Type} (p : Program β) (db : Db) : Prop := Ruled (fun _ _ => True) p db

theorem quiet_getChapterRole (agentId : String) : Quiet (getChapterRole agentId) db := by
  unfold getChapterRole
  split
  · exact trivial
  apply Proc.Guarded.bind (ruled_call (.getAgent agentId) fun _ => trivial)
  rintro (_ | ⟨_ | ⟨row,rows⟩⟩) _ _
  · exact trivial
  · exact trivial
  · exact trivial

theorem quiet_authorized (approverAgentId : String) (preAuthorized : Bool) :
    Quiet (authorized approverAgentId preAuthorized) db := by
  unfold authorized
  split
  · exact trivial
  · exact Proc.Guarded.bind (quiet_getChapterRole approverAgentId) fun _ _ _ => trivial

theorem quiet_propose (chapter kind proposerAgentId : String) (payload : Dict)
    (targetAgentId peerChapterId : Option String) (confidence : ℚ) (ttl : Option Moment) :
    Quiet (propose chapter kind proposerAgentId payload targetAgentId peerChapterId confidence ttl) db := by
  unfold propose
  split
  · exact trivial
  apply Proc.Guarded.bind ruled_utcNow
  intro now after _
  apply Proc.Guarded.bind (ruled_call (.postApproval _) fun _ => trivial)
  rintro (_ | ⟨_ | ⟨row,rows⟩⟩) _ _
  · exact trivial
  · exact trivial
  · exact trivial

theorem quiet_recordDecision {status : ApprovalStatus} (decides : status = .approved ∨ status = .rejected)
    (approvalId approverAgentId : String) (reason : Option String) :
    Quiet (recordDecision status approvalId approverAgentId reason) db := by
  apply Proc.Guarded.bind ruled_utcNow
  rintro approvedAt first ⟨_,read,_⟩
  apply Proc.Guarded.bind ruled_utcNow
  rintro bar second ⟨sofar,_,_⟩
  apply Proc.Guarded.bind (ruled_patchApprovals ?_)
  · rintro (_ | ⟨_ | ⟨row,rows⟩⟩) _ _
    · exact trivial
    · exact trivial
    · exact trivial
  · intro s _ id row found admitted
    obtain ⟨pending,live⟩ : row.status = .pending ∧ bar < row.expiresAt := by
      simp [ApprovalFilter.admits,meets] at admitted
      exact ⟨admitted.1.2.symm,admitted.2⟩
    have early : approvedAt < row.expiresAt := (read.trans sofar).trans_lt live
    obtain rfl | rfl := decides
    · exact ⟨.inr (pending ▸ .approve),pending,nofun,approvedAt,rfl,early⟩
    · exact ⟨.inr (pending ▸ .reject),pending,nofun,approvedAt,rfl,early⟩

theorem quiet_approve (approvalId approverAgentId : String) (preAuthorized : Bool) :
    Quiet (approve approvalId approverAgentId preAuthorized) db := by
  apply Proc.Guarded.bind (quiet_authorized approverAgentId preAuthorized)
  rintro (_ | _) _ _
  · exact trivial
  · exact quiet_recordDecision (.inl rfl) _ _ _

theorem quiet_reject (approvalId approverAgentId reason : String) (preAuthorized : Bool) :
    Quiet (reject approvalId approverAgentId reason preAuthorized) db := by
  apply Proc.Guarded.bind (quiet_authorized approverAgentId preAuthorized)
  rintro (_ | _) _ _
  · exact trivial
  · exact quiet_recordDecision (.inr rfl) _ _ _

theorem ruled_markExecuted {id : String} (settled : Settled id db) :
    Ruled (fun _ after => Moved db after) (markExecuted id) db := by
  apply Proc.Guarded.bind ruled_utcNow
  rintro executedAt first ⟨_,_,moved⟩
  apply Proc.Guarded.bind (ruled_patchApprovals ?_)
  · exact fun _ after further => moved.trans _ _ _ further
  · intro s further id' row found admitted
    obtain rfl : row.id = id := by
      simp [ApprovalFilter.admits,meets] at admitted
      exact admitted.symm
    obtain rfl := Table.row_key found
    obtain ⟨row',found',status⟩ := (settled.later moved).later further
    obtain rfl : row = row' := Option.some.inj (found.symm.trans found')
    refine ⟨?_,rfl⟩
    obtain status | status := status
    · exact .inr (status ▸ .execute)
    · exact .inl status

theorem settled_found {filter : ApprovalFilter} (asked : filter.status = some .approved) {row : Approval}
    (found : db.approvals.row row.id = some row) (admitted : filter.admits row = true) : Settled row.id db := by
  refine ⟨row,found,.inl ?_⟩
  simp [ApprovalFilter.admits,meets,asked] at admitted
  exact admitted.1.1.2.symm

theorem quiet_otherwise (chapter kind actorAgentId actionKey : String) (payload : Dict) (ttl : Option Moment) :
    Quiet (otherwise chapter kind actorAgentId actionKey payload ttl) db := by
  apply Proc.Guarded.bind (ruled_call (.spendBounded ..) fun _ => trivial)
  intro spend first _
  split
  · exact trivial
  apply Proc.Guarded.bind ruled_getApprovals
  intro pending second _
  split
  · exact trivial
  apply Proc.Guarded.bind (quiet_propose ..)
  rintro (reason | row) _ _
  · exact trivial
  · exact trivial

theorem quiet_consume (chapter kind actorAgentId actionKey : String) (payload : Dict) (ttl : Option Moment) :
    Quiet (consumeOperationalApproval chapter kind actorAgentId actionKey payload ttl) db := by
  unfold consumeOperationalApproval
  split
  · exact trivial
  split
  · exact trivial
  apply Proc.Guarded.bind ruled_getApprovals
  rintro rows after ⟨_,listed⟩
  split
  next row picked =>
    obtain ⟨found,admitted⟩ := listed row (List.mem_of_find?_eq_some picked)
    exact Proc.Guarded.bind (ruled_markExecuted (settled_found rfl found admitted)) fun _ _ _ => trivial
  next => apply quiet_otherwise

theorem ruled_sweepExpired : Ruled (fun _ after => Moved db after) sweepExpired db := by
  apply Proc.Guarded.bind ruled_utcNow
  rintro now first ⟨_,_,moved⟩
  apply Proc.Guarded.bind (ruled_patchApprovals ?_)
  · intro rows second further
    apply Proc.Guarded.bind (ruled_call (.patchNominations ..) fun _ => trivial)
    exact fun _ third last => (moved.trans _ _ _ further).trans _ _ _ last
  · intro s _ id row found admitted
    have pending : row.status = .pending := by
      simp [ApprovalFilter.admits,meets] at admitted
      exact admitted.1.symm
    exact ⟨.inr (pending ▸ .expire),rfl⟩

theorem quiet_carryOutEach (rows : List Approval) : ∀ {db : Db}, (∀ row ∈ rows, Settled row.id db) →
    Quiet (carryOutEach rows) db := by
  induction rows with
  | nil => exact fun _ => trivial
  | cons row rows ih =>
    intro db settled
    have rest {after : Db} (moved : Moved db after) : Quiet (carryOutEach rows) after :=
      ih fun other inside => (settled other (.tail _ inside)).later moved
    unfold carryOutEach
    split
    · apply Proc.Guarded.bind (ruled_call (.carryOut row) fun _ => trivial)
      rintro (_ | _ | _) first moved
      · apply Proc.Guarded.bind (ruled_markExecuted ((settled row (by simp)).later moved))
        exact fun _ after further => rest (moved.trans _ _ _ further)
      · exact rest moved
      · exact trivial
    · exact rest (Moved.refl db)

theorem quiet_thinkApprovalsSweep (chapter : String) : Quiet (thinkApprovalsSweep chapter) db := by
  apply Proc.Guarded.bind ruled_sweepExpired
  intro _ first _
  apply Proc.Guarded.bind ruled_getApprovals
  rintro approved second ⟨_,listed⟩
  apply quiet_carryOutEach
  intro row inside
  obtain ⟨found,admitted⟩ := listed row inside
  exact settled_found rfl found admitted

theorem quiet_resolveRead (nominationId resolverAgentId resolverRole note : String) (status : NominationStatus)
    (nom : Nomination) : Quiet (resolveRead nominationId resolverAgentId resolverRole note status nom) db := by
  unfold resolveRead
  split
  · exact trivial
  split
  · exact trivial
  apply Proc.Guarded.bind ruled_utcNow
  intro now first _
  apply Proc.Guarded.bind (ruled_call (.patchNominations ..) fun _ => trivial)
  intro _ second _
  split
  · exact Proc.Guarded.bind (ruled_call (.promote nom) fun _ => trivial) fun _ _ _ => trivial
  · exact trivial

theorem quiet_resolveNomination (nominationId resolverAgentId decision note : String) :
    Quiet (resolveNomination nominationId resolverAgentId decision note) db := by
  unfold resolveNomination
  split
  · exact trivial
  apply Proc.Guarded.bind (quiet_getChapterRole resolverAgentId)
  intro role first _
  split
  · exact trivial
  apply Proc.Guarded.bind (ruled_call (.getNomination _) fun _ => trivial)
  rintro (_ | ⟨_ | ⟨nom,rows⟩⟩) second _
  · exact trivial
  · exact trivial
  · apply quiet_resolveRead

theorem quiet_program (chapter : String) (op : Op) (db : Db) : Quiet (program chapter op) db := by
  cases op with
  | propose kind proposerAgentId payload targetAgentId peerChapterId confidence ttl =>
    exact Proc.Guarded.bind (quiet_propose ..) fun _ _ _ => trivial
  | approve approvalId approverAgentId preAuthorized =>
    exact Proc.Guarded.bind (quiet_approve ..) fun _ _ _ => trivial
  | reject approvalId approverAgentId reason preAuthorized =>
    exact Proc.Guarded.bind (quiet_reject ..) fun _ _ _ => trivial
  | consume kind actorAgentId actionKey payload ttl => exact Proc.Guarded.bind (quiet_consume ..) fun _ _ _ => trivial
  | sweepExpired => exact Proc.Guarded.bind ruled_sweepExpired fun _ _ _ => trivial
  | thinkApprovalsSweep => exact Proc.Guarded.bind (quiet_thinkApprovalsSweep chapter) fun _ _ _ => trivial
  | resolveNomination nominationId resolverAgentId decision note =>
    exact Proc.Guarded.bind (quiet_resolveNomination ..) fun _ _ _ => trivial

end Programs

def Decided (row : Approval) : Prop :=
  (row.status = .pending → row.approvedBy = none) ∧
    (row.approvedBy ≠ none → ∃ time, row.approvedAt = some time ∧ time < row.expiresAt)

def AllDecided (db : Db) : Prop := ∀ id row, db.approvals.row id = some row → Decided row

structure Follows (row row' : Approval) : Prop where
  path : row'.status = row.status ∨ Legal row.status row'.status
  approver : ∀ approver, row.approvedBy = some approver → row'.approvedBy = some approver
  decision : row.approvedBy = none → ∀ approver, row'.approvedBy = some approver → row.status = .pending ∧
    ∃ time, row'.approvedAt = some time ∧ time < row'.expiresAt

section Steps
variable {landing : Landing} {act : Act} {db : Db} {id : String} {row : Approval}

theorem Follows.refl (row : Approval) : Follows row row where
  path := .inl rfl
  approver _ held := held
  decision none_ approver held := by
    rw [none_] at held
    cases held

theorem not_legal_pending {status : ApprovalStatus} : ¬ Legal status .pending := nofun

theorem follows_apply {change : ApprovalChange} (decided : Decided row)
    (path : row.status = change.status ∨ Legal row.status change.status) (decides : Decides change row) :
    Follows row (change.apply row) ∧ Decided (change.apply row) := by
  rw [Decides] at decides
  split at decides
  next name approver =>
    obtain ⟨pending,away,time,stamped,early⟩ := decides
    have read : (change.apply row).approvedAt = some time := by simp [ApprovalChange.apply,stamped]
    refine ⟨⟨path.imp_left Eq.symm,?_,?_⟩,?_,?_⟩
    · intro other held
      rw [decided.1 pending] at held
      cases held
    · exact fun _ _ _ => ⟨pending,time,read,early⟩
    · exact fun still => absurd still away
    · exact fun _ => ⟨time,read,early⟩
  next approver =>
    have kept : (change.apply row).approvedBy = row.approvedBy := by simp [ApprovalChange.apply,approver]
    have time : (change.apply row).approvedAt = row.approvedAt := by simp [ApprovalChange.apply,decides]
    refine ⟨⟨path.imp_left Eq.symm,?_,?_⟩,?_,?_⟩
    · intro name held
      rw [kept,held]
    · intro none_ name held
      rw [kept,none_] at held
      cases held
    · intro pending
      have now : change.status = .pending := pending
      rw [kept]
      apply decided.1
      obtain same | edge := path
      · exact same.trans now
      · exact absurd (now ▸ edge) not_legal_pending
    · rw [kept,time]
      exact decided.2

theorem exec_follows (lawful : Lawful act db) (decided : AllDecided db) (found : db.approvals.row id = some row) :
    ∃ row', (exec landing act db).2.approvals.row id = some row' ∧ Follows row row' := by
  obtain same | ⟨filter,change,rfl,admitted,applied⟩ := @exec_row landing act db id row found
  · exact ⟨row,same,Follows.refl row⟩
  · obtain ⟨path,decides⟩ := lawful id row found admitted
    exact ⟨_,applied,(follows_apply (decided id row found) path decides).1⟩

theorem exec_decided (lawful : Lawful act db) (decided : AllDecided db) : AllDecided (exec landing act db).2 := by
  intro id row' found'
  cases found : db.approvals.row id with
  | none =>
    obtain ⟨new,_,rfl⟩ := exec_row_new found found'
    exact ⟨fun _ => rfl,fun held => absurd rfl held⟩
  | some row =>
    obtain same | ⟨filter,change,rfl,admitted,applied⟩ := @exec_row landing act db id row found
    · obtain rfl := Option.some.inj (same.symm.trans found')
      exact decided id row found
    · obtain rfl := Option.some.inj (applied.symm.trans found')
      obtain ⟨path,decides⟩ := lawful id row found admitted
      exact (follows_apply (decided id row found) path decides).2

end Steps

structure House.Sound (house : House) : Prop where
  guarded : house.AllGuarded exec Moved Lawful fun _ _ => True
  decided : AllDecided house.store

theorem House.Sound.step {chapter : String} {house house' : House} {turn : Turn Op Landing} (sound : house.Sound)
    (stepped : House.step chapter house turn = some house') : house'.Sound ∧ (house'.store = house.store ∨
      ∃ id landing act, turn = .advance id landing ∧ Lawful act house.store ∧
        house'.store = (exec landing act house.store).2) := by
  obtain ⟨guarded,store⟩ := sound.guarded.step Moved.refl Moved.trans (fun _ _ _ _ _ => trivial)
    (fun _ _ _ lawful => lawful.moves) (fun op => quiet_program chapter op house.store) stepped
  refine ⟨⟨guarded,?_⟩,store⟩
  obtain same | ⟨id,landing,act,_,lawful,moved⟩ := store
  · rw [same]
    exact sound.decided
  · rw [moved]
    exact exec_decided lawful sound.decided

theorem House.opened_sound {db : Db} (empty : db.approvals.rows = []) : (House.opened db).Sound where
  guarded := by
    intro id task found
    cases found
  decided := by
    intro id row found
    have inside := (Table.row_some.mp found).1
    rw [show (House.opened db).store.approvals.rows = [] from empty] at inside
    cases inside

theorem House.reached_sound {chapter : String} {db : Db} (empty : db.approvals.rows = []) {house : House}
    (run : Runs.Reached (House.step chapter) Runs.Free (House.opened db) house) : house.Sound :=
  run.invariant (House.opened_sound empty) fun _ _ _ sound _ stepped => (sound.step stepped).1

/-- In every order of the calls each step takes a row along its life, nobody's decision is
replaced, and a decision is made on what is pending, by a reading of the clock before the
row expires; a row comes in pending and undecided. -/
theorem approval_lifecycle (chapter : String) {db : Db} (empty : db.approvals.rows = []) {house house' : House}
    {turn : Turn Op Landing} (run : Runs.Reached (House.step chapter) Runs.Free (House.opened db) house)
    (stepped : House.step chapter house turn = some house') (id : String) :
    (∀ row, house.store.approvals.row id = some row →
      ∃ row', house'.store.approvals.row id = some row' ∧ Follows row row') ∧
    (∀ row', house.store.approvals.row id = none → house'.store.approvals.row id = some row' →
      row'.status = .pending ∧ row'.approvedBy = none) := by
  have sound := House.reached_sound empty run
  obtain same | ⟨_,landing,act,_,lawful,moved⟩ := (sound.step stepped).2
  · rw [same]
    refine ⟨fun row found => ⟨row,found,Follows.refl row⟩,?_⟩
    intro row' absent found
    rw [absent] at found
    cases found
  · rw [moved]
    refine ⟨fun row found => exec_follows lawful sound.decided found,?_⟩
    intro row' absent found
    obtain ⟨new,_,rfl⟩ := exec_row_new absent found
    exact ⟨rfl,rfl⟩

def carried (waited : ℕ) : Landing where
  waited := waited
  lands := true
  answers := true
  newId := "a1"
  arrange := id
  arrange_perm := fun _ => .refl _
  spend := ⟨false,"",false,none⟩
  ended := .done

def emptyDb : Db := ⟨.empty,.empty,.empty,0,[]⟩

def proposedAndRead : List (Turn Op Landing) :=
  [.start 0 (.propose "introduction" "ann" [] none none 0 (some 10)),.advance 0 (carried 0),.advance 0 (carried 0),
    .start 0 (.approve "a1" "lea" true),.advance 0 (carried 0),.advance 0 (carried 0)]

theorem approved_once : ∃ house house' : House, House.step "acme" house (.advance 0 (carried 0)) = some house' ∧
    ∀ row, house.store.approvals.row "a1" = some row →
      ∃ row', house'.store.approvals.row "a1" = some row' ∧ Follows row row' := by
  have walked : ((Runs.walk (House.step "acme") (fun _ _ => true) proposedAndRead (House.opened emptyDb)).bind
    fun house =>
      House.step "acme" house (.advance 0 (carried 0))).isSome = true := by
    decide +kernel
  obtain ⟨house',stepped⟩ := Option.isSome_iff_exists.mp walked
  obtain ⟨house,walked,stepped⟩ := Option.bind_eq_some_iff.mp stepped
  exact ⟨house,house',stepped,(approval_lifecycle "acme" rfl
    (Runs.reached_walk (fun _ _ _ => trivial) _ .start walked) stepped "a1").1⟩

/-- The statement of the approval comes when the proposal has expired. -/
theorem decided_after_expiry : ∃ (house house' : House) (row row' : Approval),
    Runs.Reached (House.step "acme") Runs.Free (House.opened emptyDb) house ∧
      House.step "acme" house (.advance 0 (carried 10)) = some house' ∧
      house.store.approvals.row "a1" = some row ∧ row.approvedBy = none ∧
      house'.store.approvals.row "a1" = some row' ∧ row'.approvedBy = some "lea" ∧
      row'.expiresAt ≤ house'.store.clock := by
  have walked : ((Runs.walk (House.step "acme") (fun _ _ => true) proposedAndRead (House.opened emptyDb)).bind
    fun house =>
      (House.step "acme" house (.advance 0 (carried 10))).bind fun house' =>
        (house.store.approvals.row "a1").bind fun row => (house'.store.approvals.row "a1").map fun row' =>
          (row.approvedBy,row'.approvedBy,decide (row'.expiresAt ≤ house'.store.clock))) =
      some (none,some "lea",true) := by
    decide +kernel
  obtain ⟨house,walked,seen⟩ := Option.bind_eq_some_iff.mp walked
  obtain ⟨house',stepped,seen⟩ := Option.bind_eq_some_iff.mp seen
  obtain ⟨row,before,seen⟩ := Option.bind_eq_some_iff.mp seen
  obtain ⟨row',after,seen⟩ := Option.map_eq_some_iff.mp seen
  obtain ⟨undecided,seen⟩ := Prod.mk.inj seen
  obtain ⟨approver,late⟩ := Prod.mk.inj seen
  exact ⟨house,house',row,row',Runs.reached_walk (fun _ _ _ => trivial) _ .start walked,stepped,before,undecided,after,
    approver,of_decide_eq_true late⟩

end Orrery.Governance
