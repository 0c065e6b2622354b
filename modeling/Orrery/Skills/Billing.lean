import Orrery.Skills.Revenue

/-! What is in the ledger once `record_skill_use` has returned `billed`. -/
namespace Orrery.Skills
open Foundation

def landed (useEventId : ℕ) : (ℕ → Landing) → List Beneficiary → List Payment
  | _, [] => []
  | landings, row :: rows =>
    let rest := landed useEventId (fun n => landings (n+1)) rows
    if (landings 0).lands then ⟨useEventId,row,"TEST_USD"⟩ :: rest else rest

def Db.paid (db : Db) (useEventId : ℕ) : List Beneficiary :=
  (db.ledger.filter fun payment => payment.useEventId = useEventId).map Payment.beneficiary

section Payments
variable {useEventId : ℕ} {db : Db} {landings : ℕ → Landing} {rows : List Beneficiary}

theorem landed_length (useEventId : ℕ) (rows : List Beneficiary) : ∀ landings : ℕ →
    Landing, (landed useEventId landings rows).length ≤ rows.length := by
  induction rows with
  | nil => exact fun _ => le_rfl
  | cons row rows ih =>
    intro landings
    have further := ih fun n => landings (n+1)
    rw [landed]
    split
    · exact Nat.succ_le_succ further
    · exact further.trans (Nat.le_succ _)

theorem landed_use (rows : List Beneficiary) : ∀ landings : ℕ → Landing, ∀ payment ∈ landed useEventId landings rows,
    payment.useEventId = useEventId := by
  induction rows with
  | nil => exact fun _ _ inside => absurd inside List.not_mem_nil
  | cons row rows ih =>
    intro landings payment inside
    rw [landed] at inside
    split at inside
    · obtain rfl | inside := List.mem_cons.mp inside
      · rfl
      · exact ih _ payment inside
    · exact ih _ payment inside

theorem landed_all (useEventId : ℕ) (rows : List Beneficiary) : ∀ landings : ℕ → Landing,
    (landed useEventId landings rows).map Payment.beneficiary = rows ↔ ∀ i < rows.length, (landings i).lands =
      true := by
  induction rows with
  | nil =>
    intro landings
    simp [landed]
  | cons row rows ih =>
    intro landings
    rw [landed]
    have later : (∀ i < (row :: rows).length, (landings i).lands = true) ↔
        (landings 0).lands = true ∧ ∀ i < rows.length, (landings (i+1)).lands = true := by
      constructor
      · exact fun all => ⟨all 0 (Nat.zero_lt_succ _),fun i less => all (i+1) (Nat.succ_lt_succ less)⟩
      · rintro ⟨first,others⟩ i less
        cases i with
        | zero => exact first
        | succ i => exact others i (Nat.lt_of_succ_lt_succ less)
    rw [later,← ih fun n => landings (n+1)]
    split
    next lands => simp [lands]
    next lost =>
      refine iff_of_false ?_ ?_
      · intro same
        have fewer := landed_length useEventId rows fun n => landings (n+1)
        have lengths := congrArg List.length same
        rw [List.length_map,List.length_cons] at lengths
        omega
      · exact fun both => lost both.1

theorem run_payOut (rows : List Beneficiary) (nonneg : ∀ row ∈ rows, 0 ≤ row.amountCents) : ∀ (landings : ℕ → Landing)
    (db : Db),
    useEventId ∈ db.events.rows.map UseEvent.id →
    (Proc.run exec landings (payOut useEventId rows) db).2.1.events = db.events ∧
      (Proc.run exec landings (payOut useEventId rows) db).2.1.ledger =
        db.ledger ++ landed useEventId landings rows := by
  induction rows with
  | nil => exact fun _ db _ => ⟨rfl,(List.append_nil _).symm⟩
  | cons row rows ih =>
    intro landings db there
    have accepted : db.refusesPayment ⟨useEventId,row,"TEST_USD"⟩ = false := by
      simp only [Db.refusesPayment,Bool.or_eq_false_iff,decide_eq_false_iff_not,not_not]
      exact ⟨there,not_lt.mpr (nonneg row List.mem_cons_self)⟩
    have rest := ih fun row' inside => nonneg row' (List.mem_cons_of_mem row inside)
    change (Proc.run exec (fun n => landings (n+1)) (payOut useEventId rows)
        (exec (landings 0) (.postPayment ⟨useEventId,row,"TEST_USD"⟩) db).2).2.1.events = _ ∧
      (Proc.run exec (fun n => landings (n+1)) (payOut useEventId rows)
        (exec (landings 0) (.postPayment ⟨useEventId,row,"TEST_USD"⟩) db).2).2.1.ledger = _
    have paid : (exec (landings 0) (.postPayment ⟨useEventId,row,"TEST_USD"⟩) db).2 =
        if (landings 0).lands then db.insertPayment ⟨useEventId,row,"TEST_USD"⟩ accepted else db := by
      unfold exec Db.after
      dsimp only
      rw [dif_pos accepted]
    rw [paid,landed]
    split
    next =>
      obtain ⟨events,ledger⟩ := rest (fun n => landings (n+1))
        (db.insertPayment ⟨useEventId,row,"TEST_USD"⟩ accepted) there
      refine ⟨events,ledger.trans ?_⟩
      rw [Db.insertPayment,List.append_assoc,List.singleton_append]
    next => exact rest (fun n => landings (n+1)) db there

end Payments

section Calls
variable {chapterId : String} {db : Db} {call : UseCall} {landings : ℕ → Landing}

def UseResult.isBilled : UseResult → Bool
  | .billed .. => true
  | _ => false

theorem run_call {β : Type} (landings : ℕ → Landing) (act : Act) (resume : act.Answer → Program β) (db : Db) :
    Proc.run exec landings (.call act resume) db = Proc.run exec (fun n => landings (n+1))
      (resume (exec (landings 0) act db).1) (exec (landings 0) act db).2 := rfl

inductive Outcome (chapterId : String) (call : UseCall) (landings : ℕ → Landing)
    (db : Db) : UseResult × Db × (ℕ → Landing) → Prop
  | stopped (result : UseResult) (rest : ℕ → Landing) (unbilled : result.isBilled = false) :
      Outcome chapterId call landings db (result,db,rest)
  | inserts (author : String) (rows : List Beneficiary) (some_attestor : attestorDids (landings 0).attestors ≠ [])
      (split : splitFor chapterId call author (attestorDids (landings 0).attestors) = .ok rows) :
      Outcome chapterId call landings db (Proc.run exec (fun n => landings (n+2))
        (.call (.postEvent (call.event chapterId (attestorDids (landings 0).attestors).length)) (afterEvent rows)) db)

theorem author_outcome (author : String) : Outcome chapterId call landings db (Proc.run exec (fun n => landings (n+2))
    (afterAuthor chapterId call (attestorDids (landings 0).attestors) author) db) := by
  unfold afterAuthor
  split
  next => exact .stopped _ _ rfl
  split
  next => exact .stopped _ _ rfl
  next some_attestor =>
  split
  next => exact .stopped _ _ rfl
  next => exact .stopped _ _ rfl
  next rows split => exact .inserts author rows some_attestor split

theorem run_outcome (chapterId : String) (call : UseCall) (landings : ℕ → Landing) (db : Db) :
    Outcome chapterId call landings db (Proc.run exec landings (recordSkillUse chapterId call) db) := by
  unfold recordSkillUse
  split
  next => exact .stopped _ _ rfl
  split
  next => exact .stopped _ _ rfl
  change Outcome _ _ _ _ (Proc.run exec landings (.call (.listLive call.skillId call.skillVersion) fun live =>
    afterLive chapterId call (live.getD [])) db)
  have live : exec (landings 0) (.listLive call.skillId call.skillVersion) db =
      ((landings 0).answered (landings 0).attestors,db) := Prod.ext rfl (ite_self _)
  rw [run_call,live,Landing.answered]
  split
  next =>
    change Outcome _ _ _ _ (Proc.run exec _ (afterLive chapterId call (landings 0).attestors) db)
    unfold afterLive
    split
    next => exact .stopped _ _ rfl
    next =>
      change Outcome _ _ _ _ (Proc.run exec _ (.call (.getAuthor call.skillId) fun rows =>
        afterAuthor chapterId call (attestorDids (landings 0).attestors) (authorDid rows)) db)
      have read : exec (landings 1) (.getAuthor call.skillId) db =
          ((landings 1).answered (landings 1).authors,db) := Prod.ext rfl (ite_self _)
      rw [run_call,read]
      exact author_outcome _
  next => exact .stopped _ _ rfl

theorem run_duplicate (used : call.idempotencyKey ∈ db.events.rows.map UseEvent.idempotencyKey) :
    (Proc.run exec landings (recordSkillUse chapterId call) db).2.1 = db := by
  have outcome := run_outcome chapterId call landings db
  generalize Proc.run exec landings (recordSkillUse chapterId call) db = ran at outcome ⊢
  cases outcome with
  | stopped result rest => rfl
  | inserts author rows some_attestor split =>
    generalize (attestorDids (landings 0).attestors).length = attestorCount
    have refused : db.refusesEvent (call.event chapterId attestorCount (landings 2).newId) = true := by
      obtain ⟨event,inside,same⟩ := List.mem_map.mp used
      simp only [Db.refusesEvent,Bool.or_eq_true,List.any_eq_true,decide_eq_true_eq]
      exact .inl (.inl ⟨event,inside,.inr same⟩)
    have answer : exec (landings 2) (.postEvent (call.event chapterId attestorCount)) db = (none,db) := by
      unfold exec Db.answer Db.after
      dsimp only
      rw [if_pos refused,if_pos refused,ite_self]
    rw [run_call,answer]
    rfl

theorem run_inserted {event : ℕ → UseEvent} {rows : List Beneficiary} (landings : ℕ → Landing)
    (billed : (Proc.run exec landings (.call (.postEvent event) (afterEvent rows)) db).1.isBilled = true) :
    db.refusesEvent (event (landings 0).newId) = false ∧
      Proc.run exec landings (.call (.postEvent event) (afterEvent rows)) db =
        (.billed (event (landings 0).newId).id rows,
          (Proc.run exec (fun n => landings (n+1)) (payOut (event (landings 0).newId).id rows)
            (db.insertEvent (event (landings 0).newId))).2) := by
  rw [run_call] at billed ⊢
  have answer : (exec (landings 0) (.postEvent event) db).1 =
      if db.refusesEvent (event (landings 0).newId) then none else (landings 0).answered [event (landings 0).newId] :=
        rfl
  have heard : (exec (landings 0) (.postEvent event) db).1 ≠ none := by
    intro unheard
    rw [unheard] at billed
    cases billed
  cases refused : db.refusesEvent (event (landings 0).newId) with
  | true =>
    rw [refused,if_pos rfl] at answer
    exact absurd answer heard
  | false =>
    rw [refused,if_neg Bool.false_ne_true,Landing.answered] at answer
    split at answer
    next both =>
      have inserted : (exec (landings 0) (.postEvent event) db).2 = db.insertEvent (event (landings 0).newId) := by
        unfold exec Db.after
        dsimp only
        rw [if_pos (Bool.and_eq_true_iff.mp both).1,refused,if_neg Bool.false_ne_true]
      have goes_on : afterEvent rows (some [event (landings 0).newId]) =
          (payOut (event (landings 0).newId).id rows).bind fun _ =>
            .done (.billed (event (landings 0).newId).id rows) := rfl
      rw [answer,inserted,goes_on,Proc.run_bind]
      exact ⟨rfl,rfl⟩
    next => exact absurd answer heard

theorem billed_cases {id : ℕ} {rows : List Beneficiary}
    (billed : (Proc.run exec landings (recordSkillUse chapterId call) db).1 = .billed id rows) :
    ∃ author event, attestorDids (landings 0).attestors ≠ [] ∧
      splitFor chapterId call author (attestorDids (landings 0).attestors) = .ok rows ∧
      event.id = id ∧ event.idempotencyKey = call.idempotencyKey ∧ db.refusesEvent event = false ∧
      (Proc.run exec landings (recordSkillUse chapterId call) db).2.1 =
        (Proc.run exec (fun n => landings (n+3)) (payOut id rows) (db.insertEvent event)).2.1 := by
  have outcome := run_outcome chapterId call landings db
  generalize Proc.run exec landings (recordSkillUse chapterId call) db = ran at outcome billed ⊢
  cases outcome with
  | stopped result rest unbilled =>
    obtain rfl : result = .billed id rows := billed
    cases unbilled
  | inserts author rows' some_attestor split =>
    generalize written : call.event chapterId (attestorDids (landings 0).attestors).length = event at billed ⊢
    have same : (event (landings 2).newId).id = (landings 2).newId ∧
        (event (landings 2).newId).idempotencyKey = call.idempotencyKey := by
      rw [← written]
      exact ⟨rfl,rfl⟩
    obtain ⟨refused,ran⟩ := run_inserted (fun n => landings (n+2)) (by rw [billed,UseResult.isBilled])
    rw [ran] at billed ⊢
    obtain ⟨rfl,rfl⟩ := UseResult.billed.inj billed
    exact ⟨author,_,some_attestor,split,rfl,same.2,refused,rfl⟩

theorem accepted_event {event : UseEvent} (accepted : db.refusesEvent event = false) :
    event.id ∉ db.events.rows.map UseEvent.id ∧ event.idempotencyKey ∉ db.events.rows.map UseEvent.idempotencyKey := by
  simp only [Db.refusesEvent,Bool.or_eq_false_iff,List.any_eq_false,Bool.or_eq_true,decide_eq_true_eq,
    not_or] at accepted
  constructor
  · intro taken
    obtain ⟨other,inside,same⟩ := List.mem_map.mp taken
    exact (accepted.1.1 other inside).1 same
  · intro taken
    obtain ⟨other,inside,same⟩ := List.mem_map.mp taken
    exact (accepted.1.1 other inside).2 same

theorem rows_insertEvent {event : UseEvent} (accepted : db.refusesEvent event = false) :
    (db.insertEvent event).events.rows = db.events.rows ++ [event] :=
  NumberedTable.rows_insert_free (accepted_event accepted).1 (accepted_event accepted).2

theorem mem_insertEvent {event : UseEvent} (accepted : db.refusesEvent event = false) :
    event.id ∈ (db.insertEvent event).events.rows.map UseEvent.id := by
  rw [rows_insertEvent accepted,List.map_append]
  exact List.mem_append_right _ List.mem_cons_self

theorem paid_payOut {event : UseEvent} {rows : List Beneficiary} (accepted : db.refusesEvent event = false)
    (nonneg : ∀ row ∈ rows, 0 ≤ row.amountCents) :
    (Proc.run exec landings (payOut event.id rows) (db.insertEvent event)).2.1.paid event.id =
      (landed event.id landings rows).map Payment.beneficiary := by
  have there := mem_insertEvent accepted
  have ledger := (run_payOut rows nonneg landings (db.insertEvent event) there).2
  have unpaid : db.ledger.filter (fun payment => payment.useEventId = event.id) = [] := by
    rw [List.filter_eq_nil_iff]
    intro payment inside same
    have known := db.referenced payment inside
    rw [of_decide_eq_true same] at known
    exact (accepted_event accepted).1 known
  have own : (landed event.id landings rows).filter (fun payment => payment.useEventId = event.id) =
      landed event.id landings rows := by
    rw [List.filter_eq_self]
    exact fun payment inside => decide_eq_true (landed_use rows landings payment inside)
  change (List.filter _ (Proc.run exec landings (payOut event.id rows) (db.insertEvent event)).2.1.ledger).map _ = _
  rw [ledger,List.filter_append,own]
  change ((db.ledger.filter fun payment => payment.useEventId = event.id) ++ _).map _ = _
  rw [unpaid,List.nil_append]

/-- The rows of the split, and nothing else, have been paid for the use, each beneficiary
once in each role, and a second call with the key changes nothing. -/
structure Conserved (chapterId : String) (call : UseCall) (dids : List String) (id : ℕ) (rows : List Beneficiary)
    (db : Db) : Prop where
  split : ∃ author, splitFor chapterId call author dids = .ok rows
  paid : db.paid id = rows
  nonneg : ∀ row ∈ rows, 0 ≤ row.amountCents
  total : totalCents rows = call.grossCents
  once : (rows.map fun row => (row.did,row.role)).Nodup
  even : ∀ row ∈ rows, ∀ row' ∈ rows, row.role = .advisor → row'.role = .advisor → row.amountCents ≤ row'.amountCents+1
  replayed : ∀ call' landings, call'.idempotencyKey = call.idempotencyKey →
    (Proc.run exec landings (recordSkillUse chapterId call') db).2.1 = db

/-- Where a call reports `billed`, the money is conserved exactly when no attestor is listed
twice and every payment lands. -/
theorem billed_conserved (chapterId : String) (call : UseCall) (landings : ℕ → Landing) (db : Db) {id : ℕ}
    {rows : List Beneficiary}
    (billed : (Proc.run exec landings (recordSkillUse chapterId call) db).1 = .billed id rows) :
    Conserved chapterId call (attestorDids (landings 0).attestors) id rows
        (Proc.run exec landings (recordSkillUse chapterId call) db).2.1 ↔
      (attestorDids (landings 0).attestors).Nodup ∧
        ∀ i < (attestorDids (landings 0).attestors).length+2, (landings (i+3)).lands = true := by
  obtain ⟨author,event,some_attestor,split,rfl,key,accepted,ran⟩ := billed_cases billed
  rw [ran]
  obtain ⟨_,⟨chapterCents,advisorTotalCents,rfl⟩,nonneg⟩ := computeSplit_ok split
  have paid := @paid_payOut db (fun n => landings (n+3)) event _ accepted nonneg
  have all := landed_all event.id (splitRows call.grossCents chapterCents advisorTotalCents author
    (attestorDids (landings 0).attestors) s!"chapter:{chapterId}") fun n => landings (n+3)
  rw [length_splitRows] at all
  constructor
  · intro conserved
    refine ⟨paid_once.mp conserved.once,all.mp ?_⟩
    rw [← paid]
    exact conserved.paid
  · rintro ⟨distinct,lands⟩
    constructor
    · exact ⟨author,split⟩
    · rw [paid]
      exact all.mpr lands
    · exact nonneg
    · exact total_splitRows some_attestor
    · exact paid_once.mpr distinct
    · exact fun row inside row' inside' advisor advisor' => advisors_even inside inside' advisor advisor'
    · intro call' landings' same
      apply run_duplicate
      have there := mem_insertEvent accepted
      rw [(run_payOut _ nonneg _ (db.insertEvent event) there).1,rows_insertEvent accepted,List.map_append,same,← key]
      exact List.mem_append_right _ List.mem_cons_self

end Calls

section Samples

def emptyDb : Db := ⟨NumberedTable.empty,[],fun _ inside => absurd inside List.not_mem_nil⟩

def gardenUse : UseCall := ⟨"garden","1.0.0","ann","plant","key-1","",101,true,none⟩

def carried : Landing := ⟨true,true,7,[some "did:key:bea",some "did:key:ada"],[some "did:key:cyd"]⟩

def gardenRows : List Beneficiary :=
  [⟨"did:key:cyd",.author,41⟩,⟨"did:key:ada",.advisor,18⟩,⟨"did:key:bea",.advisor,17⟩,⟨"chapter:acme",.chapter,25⟩]

theorem garden_conserved : Conserved "acme" gardenUse (attestorDids carried.attestors) 7 gardenRows
    (Proc.run exec (fun _ => carried) (recordSkillUse "acme" gardenUse) emptyDb).2.1 := by
  have billed : (Proc.run exec (fun _ => carried) (recordSkillUse "acme" gardenUse) emptyDb).1 =
      .billed 7 gardenRows := by
    decide +kernel
  refine (billed_conserved "acme" gardenUse (fun _ => carried) emptyDb billed).mpr ⟨?_,fun _ _ => rfl⟩
  decide +kernel

def authorLost (n : ℕ) : Landing := { carried with lands := n ≠ 3 }

/-- Of 101 cents only 60 are paid, and the call reports all of them. -/
theorem author_unpaid : (Proc.run exec authorLost (recordSkillUse "acme" gardenUse) emptyDb).1 = .billed 7 gardenRows ∧
    totalCents ((Proc.run exec authorLost (recordSkillUse "acme" gardenUse) emptyDb).2.1.paid 7) = 60 := by
  decide +kernel

end Samples

end Orrery.Skills
