import Orrery.Trust.Record

/-! The caps on what an agent accrues in a day, a week and a month, over whole histories of
`record` calls. -/
namespace Orrery.Trust
open Foundation Foundation.Windows

def windows : List (Int × ℚ) := [(day,dailyCap),(7*day,weeklyCap),(30*day,monthlyCap)]

def accrued (agent : String) (events : List TrustEvent) : List TrustEvent :=
  positive (events.filter fun row => row.agentId = agent)

def Db.spent (db : Db) (agent : String) (first : Int) : ℚ :=
  enteredSince TrustEvent.occurredAt TrustEvent.delta first (accrued agent db.events)

def Db.spentWithin (db : Db) (agent : String) (first last : Int) : ℚ :=
  enteredWithin TrustEvent.occurredAt TrustEvent.delta first last (accrued agent db.events)

def Db.Room (db : Db) (agent : String) (delta : ℚ) : Prop :=
  ∀ w ∈ windows, delta+db.spent agent (db.clock-w.1) ≤ w.2

structure Db.Capped (db : Db) : Prop where
  digits : ∀ row ∈ db.events, Thousandths row.delta
  fitted : ∀ agent, ∀ w ∈ windows, Fitted TrustEvent.occurredAt TrustEvent.delta (· - w.1) w.2 (accrued agent db.events)

section Events
variable {db : Db} {agent : String} {new : NewEvent} {events : List TrustEvent} {row : TrustEvent}

theorem mem_accrued : row ∈ accrued agent events ↔ row ∈ events ∧ row.agentId = agent ∧ 0 < row.delta := by
  simp only [accrued,positive,List.mem_filter,decide_eq_true_eq,and_assoc]

theorem accrued_nonneg : ∀ row ∈ accrued agent events, 0 ≤ row.delta :=
  fun _ inside => (mem_accrued.mp inside).2.2.le

theorem accrued_concat : accrued agent (events ++ [row]) =
    accrued agent events ++ if row.agentId = agent ∧ 0 < row.delta then [row] else [] := by
  unfold accrued positive
  rw [List.filter_append,List.filter_append]
  congr 1
  by_cases own : row.agentId = agent
  · by_cases credit : 0 < row.delta
    · simp [own,credit]
    · simp [own,credit]
  · simp [own]

theorem positive_read (first : Int) : positive (events.filter fun row => row.agentId =
    agent && first ≤ row.occurredAt) =
    (accrued agent events).filter fun row => first ≤ row.occurredAt := by
  unfold accrued positive
  rw [List.filter_filter,List.filter_filter,List.filter_filter]
  congr 1
  funext row
  cases decide (0 < row.delta) <;> simp [Bool.and_comm]

theorem enteredSince_filter {first later : Int} (le : first ≤ later) (rows : List TrustEvent) :
    enteredSince TrustEvent.occurredAt TrustEvent.delta later (rows.filter fun row => first ≤ row.occurredAt) =
      enteredSince TrustEvent.occurredAt TrustEvent.delta later rows := by
  unfold enteredSince
  rw [List.filter_filter]
  congr 2
  apply List.filter_congr
  intro row _
  simpa using le.trans

theorem spent_thousandths (digits : ∀ row ∈ db.events, Thousandths row.delta) (agent : String) (first : Int) :
    Thousandths (db.spent agent first) := by
  apply Thousandths.sum
  intro delta inside
  obtain ⟨row,member,rfl⟩ := List.mem_map.mp inside
  exact digits row (mem_accrued.mp (List.mem_of_mem_filter member)).1

theorem Db.Room.later {db' : Db} {delta : ℚ} (room : db.Room agent delta) (later : db.clock ≤ db'.clock)
    (same : accrued agent db'.events = accrued agent db.events) : db'.Room agent delta := by
  intro w inside
  have less : db'.spent agent (db'.clock-w.1) ≤ db.spent agent (db.clock-w.1) := by
    unfold Db.spent
    rw [same]
    exact enteredSince_anti (by omega) accrued_nonneg
  exact (add_le_add_right less delta).trans (room w inside)

theorem positive_row {now : Int} (credit : 0 < (new.row now).delta) : 0 < new.delta := by
  by_contra debit
  exact absurd credit (not_lt.mpr (numeric63_nonpos (not_lt.mp debit)))

theorem mem_windows {w : Int × ℚ} (inside : w ∈ windows) : w = (day,dailyCap) ∨ w = (7*day,weeklyCap) ∨ w =
    (30*day,monthlyCap) := by
  simpa only [windows,List.mem_cons,List.not_mem_nil,or_false] using inside

theorem windows_digits : ∀ w ∈ windows, Thousandths w.2 := by
  intro w inside
  obtain rfl | rfl | rfl := mem_windows inside
  · exact ⟨2000,by norm_num [dailyCap]⟩
  · exact ⟨8000,by norm_num [weeklyCap]⟩
  · exact ⟨20000,by norm_num [monthlyCap]⟩

theorem Db.Capped.entered (capped : db.Capped) (room : 0 < new.delta → db.Room new.agentId new.delta) :
    Db.Capped { db with events := db.events ++ [new.row db.clock] } where
  digits row inside := by
    obtain old | fresh := List.mem_append.mp inside
    · exact capped.digits row old
    · obtain rfl := List.mem_singleton.mp fresh
      exact numeric63_thousandths _
  fitted agent w inside := by
    change Fitted _ _ _ _ (accrued agent (db.events ++ [new.row db.clock]))
    rw [accrued_concat]
    split
    next own =>
      obtain ⟨rfl,credit⟩ := own
      have allowed : 0 < new.delta := positive_row credit
      apply Fitted.entered (capped.fitted _ w inside)
      have fits : numeric63 new.delta ≤ w.2-db.spent new.agentId (db.clock-w.1) := by
        apply numeric63_le allowed.le
        · exact (windows_digits w inside).sub (spent_thousandths capped.digits _ _)
        · have below := room allowed w inside
          linarith
      have entered : numeric63 new.delta+db.spent new.agentId (db.clock-w.1) ≤ w.2 := by linarith
      exact entered
    next =>
      rw [List.append_nil]
      exact capped.fitted agent w inside

theorem Db.Capped.ticked (capped : db.Capped) (waited : ℕ) : (db.tick waited).Capped := ⟨capped.digits,capped.fitted⟩

theorem Db.Capped.within (capped : db.Capped) (agent : String) (t : Int) : ∀ w ∈ windows,
    db.spentWithin agent (t-w.1) t ≤ w.2 := by
  intro w inside
  have room : 0 ≤ w.2 := by
    obtain rfl | rfl | rfl := mem_windows inside
    · norm_num [dailyCap]
    · norm_num [weeklyCap]
    · norm_num [monthlyCap]
  apply (capped.fitted agent w inside).within ?_ room accrued_nonneg t
  intro first later le
  exact Int.sub_le_sub_right le w.1

end Events

section Effects
variable {db : Db} {landing : Landing} {act : Act} {agent : String}

theorem Db.clock_tick (db : Db) (waited : ℕ) : db.clock ≤ (db.tick waited).clock := by
  change db.clock ≤ db.clock+waited
  omega

theorem exec_clock : db.clock ≤ (exec landing act db).2.clock := by
  have ticked := db.clock_tick landing.waited
  unfold exec
  dsimp only
  split
  next =>
    cases act with
    | postEvent new =>
      unfold Db.after
      dsimp only
      split
      · exact ticked
      · exact ticked
    | postEndorsement vouch =>
      unfold Db.after
      dsimp only
      split
      · exact ticked
      · exact ticked
    | _ => exact ticked
  next => exact ticked

theorem exec_events (other : ∀ new, act ≠ .postEvent new) : (exec landing act db).2.events = db.events := by
  unfold exec
  dsimp only
  split
  next =>
    cases act with
    | postEvent new => exact absurd rfl (other new)
    | postEndorsement vouch =>
      unfold Db.after
      dsimp only
      split
      · rfl
      · rfl
    | _ => rfl
  next => rfl

theorem exec_post {new : NewEvent} : (exec landing (.postEvent new) db).2 =
    if landing.lands && !(db.tick landing.waited).refuses new then
      { db.tick landing.waited with events := db.events ++ [new.row (db.clock+landing.waited)] }
    else db.tick landing.waited := by
  unfold exec Db.after
  dsimp only
  cases landing.lands with
  | false => simp
  | true =>
    cases (db.tick landing.waited).refuses new with
    | true => simp
    | false =>
      simp
      exact ⟨rfl,rfl⟩

theorem exec_accrued (apart : ∀ new, act = .postEvent new → landing.lands = true → 0 < new.delta →
    new.agentId ≠ agent) :
    accrued agent (exec landing act db).2.events = accrued agent db.events := by
  by_cases posts : ∃ new, act = .postEvent new
  · obtain ⟨new,rfl⟩ := posts
    rw [exec_post]
    split
    next entered =>
      rw [accrued_concat,if_neg,List.append_nil]
      rintro ⟨own,credit⟩
      exact apart new rfl (by simp_all) (positive_row credit) own
    next => rfl
  · rw [exec_events]
    exact fun new same => posts ⟨new,same⟩

end Effects

section Stages

def Heard (db : Db) (landing : Landing) (agent : String) (first : Int) : Prop :=
  (landing.lands && landing.answers) = true ∨ ∀ row ∈ accrued agent db.events, row.occurredAt < first

inductive Stage (call : RecordCall) : Program Result → Db → Prop
  | done (result : Result) (db : Db) : Stage call (.done result) db
  | scaling (base : ℚ) (db : Db) : Stage call (.call .scale fun read => checkSource call (scaledDelta base read)) db
  | checking (proposed : ℚ) (source : String) (db : Db) :
      Stage call (.call (.getEvent call.agentId call.eventType source) (afterCheck call proposed)) db
  | timing (proposed : ℚ) (db : Db) :
      Stage call (.call .utcNow fun now : Int => .call (.getWindow call.agentId (now-30*day))
        (afterWindow call proposed now)) db
  | reading (proposed : ℚ) (now : Int) (db : Db) (past : now ≤ db.clock) :
      Stage call (.call (.getWindow call.agentId (now-30*day)) (afterWindow call proposed now)) db
  | inserting (effective : ℚ) (capped : Option String) (db : Db)
      (room : 0 < effective → db.Room call.agentId effective) :
      Stage call (.call (.postEvent (call.event effective capped)) fun inserted =>
        if effective = 0 then .done (.ok none) else .done (.ok (inserted.getD []).head?)) db

variable {call : RecordCall} {db db' : Db} {p : Program Result}

theorem insertion_eq (effective : ℚ) (capped : Option String) : insertion call effective capped =
    .call (.postEvent (call.event effective capped)) fun inserted =>
      if effective = 0 then .done (.ok none) else .done (.ok (inserted.getD []).head?) := by
  change (Proc.call _ _ : Program Result) = _
  congr 1

theorem stage_insertion {effective : ℚ} {capped : Option String}
    (room : 0 < effective → db.Room call.agentId effective) :
    Stage call (insertion call effective capped) db := by
  rw [insertion_eq]
  exact .inserting effective capped db room

theorem stage_checkCaps (proposed : ℚ) (db : Db) : Stage call (checkCaps call proposed) db := by
  unfold checkCaps
  split
  next => exact .timing proposed db
  next debit => exact stage_insertion fun credit => absurd credit debit

theorem stage_checkSource (proposed : ℚ) (db : Db) : Stage call (checkSource call proposed) db := by
  unfold checkSource
  split
  next => exact stage_checkCaps proposed db
  next source _ => exact .checking proposed source db

theorem stage_record (call : RecordCall) (db : Db) : Stage call (record call) db := by
  unfold record
  split
  · exact .done _ db
  split
  · exact .done _ db
  split
  · exact .done _ db
  next base _ => exact .scaling base db

theorem stage_afterWindow {proposed : ℚ} {now : Int} {rows : Option (List TrustEvent)} (past : now ≤ db.clock)
    (counted : positive (rows.getD []) = (accrued call.agentId db.events).filter fun row =>
      now-30*day ≤ row.occurredAt) :
    Stage call (afterWindow call proposed now rows) db := by
  apply stage_insertion
  intro left
  obtain ⟨fitsDay,fitsWeek,fitsMonth⟩ := applyCaps_fits left
  rw [counted] at fitsDay fitsWeek fitsMonth ⊢
  have narrower : 0 ≤ day := by decide
  rw [enteredSince_filter (by omega),enteredSince_filter (by omega)] at fitsDay fitsWeek fitsMonth ⊢
  have earlier (width : Int) : db.spent call.agentId (db.clock-width) ≤ db.spent call.agentId (now-width) :=
    enteredSince_anti (by omega) accrued_nonneg
  have whole : total ((accrued call.agentId db.events).filter fun row => now-30*day ≤ row.occurredAt) =
      db.spent call.agentId (now-30*day) := rfl
  rw [whole] at fitsDay fitsWeek fitsMonth ⊢
  intro w inside
  obtain rfl | rfl | rfl := mem_windows inside
  · exact (add_le_add_right (earlier day) _).trans fitsDay
  · exact (add_le_add_right (earlier (7*day)) _).trans fitsWeek
  · exact (add_le_add_right (earlier (30*day)) _).trans fitsMonth

theorem Stage.later (stage : Stage call p db) (later : db.clock ≤ db'.clock)
    (same : ∀ new resume, p = .call (.postEvent new) resume → 0 < new.delta →
      accrued new.agentId db'.events = accrued new.agentId db.events) : Stage call p db' := by
  cases stage with
  | done result => exact .done result db'
  | scaling base => exact .scaling base db'
  | checking proposed source => exact .checking proposed source db'
  | timing proposed => exact .timing proposed db'
  | reading proposed now _ past => exact .reading proposed now db' (past.trans later)
  | inserting effective capped _ room =>
    apply Stage.inserting
    intro credit
    exact (room credit).later later (same _ _ rfl credit)

theorem exec_capped {landing : Landing} {act : Act} (capped : db.Capped) (other : ∀ new, act ≠ .postEvent new) :
    (exec landing act db).2.Capped := by
  have events : (exec landing act db).2.events = db.events := exec_events other
  constructor
  · rw [events]
    exact capped.digits
  · rw [events]
    exact capped.fitted

theorem heard_counts {landing : Landing} {agent : String} {first : Int} (heard : Heard db landing agent first) :
    positive (((exec landing (.getWindow agent first) db).1 : Option (List TrustEvent)).getD []) =
      (accrued agent db.events).filter fun row => first ≤ row.occurredAt := by
  have answer : ((exec landing (.getWindow agent first) db).1 : Option (List TrustEvent)) =
      landing.answered (db.events.filter fun row => row.agentId = agent && first ≤ row.occurredAt) := rfl
  rw [answer,Landing.answered]
  split
  next => exact positive_read first
  next unheard =>
    have none_left : (accrued agent db.events).filter (fun row => first ≤ row.occurredAt) = [] := by
      rw [List.filter_eq_nil_iff]
      intro row inside
      have before := heard.resolve_left unheard row inside
      simpa using before
    rw [none_left]
    rfl

theorem Stage.answered {landing : Landing} {act : Act} {resume : act.Answer → Program Result} (capped : db.Capped)
    (stage : Stage call (.call act resume) db) (heard : ∀ agent first, act = .getWindow agent first →
      Heard db landing agent first) :
    (exec landing act db).2.Capped ∧ Stage call (resume (exec landing act db).1) (exec landing act db).2 := by
  cases stage with
  | scaling base => exact ⟨exec_capped capped (fun _ same => Act.noConfusion same),stage_checkSource _ _⟩
  | checking proposed source =>
    refine ⟨exec_capped capped (fun _ same => Act.noConfusion same),?_⟩
    unfold afterCheck
    split
    next => exact stage_checkCaps proposed _
    next => exact .done _ _
  | timing proposed =>
    refine ⟨exec_capped capped (fun _ same => Act.noConfusion same),.reading proposed _ _ ?_⟩
    change (db.tick landing.waited).clock ≤ (exec landing .utcNow db).2.clock
    unfold exec
    split
    · exact le_rfl
    · exact le_rfl
  | reading proposed now _ past =>
    refine ⟨exec_capped capped (fun _ same => Act.noConfusion same),stage_afterWindow (past.trans exec_clock) ?_⟩
    rw [heard_counts (heard _ _ rfl),exec_events fun _ same => Act.noConfusion same]
  | inserting effective reason _ room =>
    constructor
    · rw [exec_post]
      have ticked := db.clock_tick landing.waited
      split
      next => exact (capped.ticked landing.waited).entered fun credit => (room credit).later ticked rfl
      next => exact capped.ticked landing.waited
    · dsimp only
      split
      · exact .done _ _
      · exact .done _ _

end Stages

section Histories

def history (db : Db) (calls : List (RecordCall × (ℕ → Landing))) : Db :=
  calls.foldl (fun db call => (Proc.run exec call.2 (record call.1) db).2.1) db

def emptyDb : Db := ⟨[],NumberedTable.empty,0⟩

theorem emptyDb_capped (start : Int) : Db.Capped { emptyDb with clock := start } where
  digits _ inside := absurd inside List.not_mem_nil
  fitted _ _ _ := .nil

theorem history_capped {calls : List (RecordCall × (ℕ → Landing))} : ∀ {db : Db}, db.Capped →
    (∀ call ∈ calls, ∀ n, ((call.2 n).lands && (call.2 n).answers) = true) → (history db calls).Capped := by
  induction calls with
  | nil => exact fun capped _ => capped
  | cons call calls ih =>
    intro db capped successful
    apply ih
    · have answered (landing : Landing) (act : Act) (resume : act.Answer → Program Result) (db : Db)
          (successful : (landing.lands && landing.answers) = true) (capped : db.Capped)
          (stage : Stage call.1 (.call act resume) db) :
          (exec landing act db).2.Capped ∧ Stage call.1 (resume (exec landing act db).1) (exec landing act db).2 :=
        stage.answered capped fun _ _ _ => .inl successful
      exact Proc.run_fit answered (record call.1) call.2 db (successful call List.mem_cons_self) capped
        (stage_record call.1 db)
    · exact fun call inside => successful call (List.mem_cons_of_mem _ inside)

/-- However calls of `record` that all succeed follow each other, no agent accrues more than
2 in a day, 8 in a week or 20 in a month, wherever these lie. -/
theorem accrual_capped (start : Int) (calls : List (RecordCall × (ℕ → Landing)))
    (successful : ∀ call ∈ calls, ∀ n, ((call.2 n).lands && (call.2 n).answers) = true) (agent : String) (t : Int) :
    let db := history { emptyDb with clock := start } calls
    db.spentWithin agent (t-day) t ≤ 2 ∧ db.spentWithin agent (t-7*day) t ≤ 8 ∧
      db.spentWithin agent (t-30*day) t ≤ 20 := by
  intro db
  have capped : db.Capped := history_capped (emptyDb_capped start) successful
  refine ⟨capped.within agent t (day,dailyCap) ?_,capped.within agent t (7*day,weeklyCap) ?_,
    capped.within agent t (30*day,monthlyCap) ?_⟩
  · simp [windows]
  · simp [windows]
  · simp [windows]

def carried : Landing := ⟨0,true,true,0,none,[]⟩

def attested (source : String) : RecordCall := ⟨"ann","skill_attested_by_trusted",some source,none,none⟩

theorem attested_twice : (history emptyDb [(attested "a",fun _ => carried),(attested "b",fun _ => carried)]).spentWithin
    "ann" (0-day) 0 ≤ 2 :=
  (accrual_capped 0 [(attested "a",fun _ => carried),(attested "b",fun _ => carried)] (fun call inside n => by
    simp only [List.mem_cons,List.not_mem_nil,or_false] at inside
    obtain rfl | rfl := inside
    · rfl
    · rfl) "ann" 0).1

end Histories

end Orrery.Trust
