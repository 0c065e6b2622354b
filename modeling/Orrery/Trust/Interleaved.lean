import Orrery.Trust.Caps

/-! The daily cap under calls of `record` side by side, and under reads that fail. -/
namespace Orrery.Trust
open Foundation Foundation.Windows

abbrev Service := Pool RecordCall Act Act.Answer Result Db

def Service.opened (db : Db) : Service := ⟨db,∅,[]⟩

abbrev Service.step (service : Service) : Turn RecordCall Landing → Option Service := Pool.step exec record service

section Conditions
variable (service : Service)

def Service.Calls (id : ℕ) (act : Act) : Prop := ∃ call resume, service.live.lookup id = some ⟨call,.call act resume⟩

def Undisturbed (service : Service) : Turn RecordCall Landing → Prop
  | .start .. => True
  | .advance id landing =>
    (∀ agent first, service.Calls id (.getWindow agent first) → Heard service.store landing agent first) ∧
      ∀ new, service.Calls id (.postEvent new) → landing.lands = true → 0 < new.delta →
        ∀ other new', other ≠ id → service.Calls other (.postEvent new') → 0 < new'.delta → new'.agentId ≠ new.agentId

/-- The ledger is capped, and every call under way is where it may be. -/
structure Service.InOrder : Prop where
  capped : service.store.Capped
  stages : Pool.AllFit Stage service

end Conditions

section Turns
variable {service service' : Service}

theorem Service.InOrder.advance (inOrder : service.InOrder) {id : ℕ} {landing : Landing} {call : RecordCall} {act : Act}
    {resume : act.Answer → Program Result} (live : service.live.lookup id = some ⟨call,.call act resume⟩)
    (undisturbed : Undisturbed service (.advance id landing)) :
    Service.InOrder ((service.after exec landing act).settle id call (resume (exec landing act service.store).1)) := by
  obtain ⟨capped,stage⟩ := (inOrder.stages id _ live).answered inOrder.capped fun agent first same => by
    subst same
    exact undisturbed.1 agent first ⟨call,resume,live⟩
  constructor
  · rw [Pool.settle_store]
    exact capped
  · apply Pool.AllFit.advanced stage
    intro other task apart theirs
    apply (inOrder.stages other task theirs).later exec_clock
    intro new' resume' same credit'
    apply exec_accrued
    rintro new rfl lands credit own
    obtain ⟨call',rest⟩ := task
    obtain rfl : rest = .call (.postEvent new') resume' := same
    exact undisturbed.2 new ⟨call,resume,live⟩ lands credit other new' apart ⟨call',resume',theirs⟩ credit' own.symm

theorem Service.InOrder.step (inOrder : service.InOrder) {turn : Turn RecordCall Landing}
    (undisturbed : Undisturbed service turn) (stepped : service.step turn = some service') : service'.InOrder := by
  cases turn with
  | start id call =>
    obtain rfl := Pool.step_start stepped
    constructor
    · rw [Pool.settle_store]
      exact inOrder.capped
    · exact inOrder.stages.settle (stage_record call _)
  | advance id landing =>
    obtain ⟨call,act,resume,live,rfl⟩ := Pool.step_advance stepped
    exact inOrder.advance live undisturbed

end Turns

/-- In whatever order calls of `record` run and reads fail, an agent accrues at most 2 in
any 24 hours as long as no call inserts between the window read of another and its insert,
and a read that fails finds nothing to count. -/
theorem daily_cap_kept (start : Int) {service : Service}
    (run : Runs.Reached Service.step Undisturbed (Service.opened { emptyDb with clock := start }) service)
    (agent : String) (t : Int) : service.store.spentWithin agent (t-day) t ≤ 2 := by
  have inOrder : service.InOrder := by
    apply run.invariant
    · exact ⟨emptyDb_capped start,Pool.AllFit.opened _⟩
    · exact fun s turn s' before undisturbed stepped => before.step undisturbed stepped
  exact inOrder.capped.within agent t (day,dailyCap) (by simp [windows])

def oneByOne (service : Service) : Turn RecordCall Landing → Bool
  | .start .. => true
  | .advance id landing => landing.lands && landing.answers && service.live.keys = [id]

theorem oneByOne_undisturbed (service : Service) (turn : Turn RecordCall Landing)
    (checked : oneByOne service turn = true) :
    Undisturbed service turn := by
  cases turn with
  | start id call => trivial
  | advance id landing =>
    simp only [oneByOne,Bool.and_eq_true,decide_eq_true_eq] at checked
    refine ⟨fun _ _ _ => .inl (by simpa using checked.1),?_⟩
    rintro new _ _ _ other new' apart ⟨call',resume',theirs⟩
    have listed : other ∈ service.live := AList.lookup_isSome.mp (Option.isSome_iff_exists.mpr ⟨_,theirs⟩)
    rw [AList.mem_keys,checked.2,List.mem_singleton] at listed
    exact absurd listed apart

theorem second_attestation_capped : ∃ service : Service, service.store.events.length = 2 ∧
    service.store.spentWithin "ann" (0-day) 0 ≤ 2 := by
  have walked : ((Runs.walk Service.step oneByOne [.start 0 (attested "a"),.advance 0 carried,.advance 0 carried,
      .advance 0 carried,.advance 0 carried,.advance 0 carried,.start 1 (attested "b"),.advance 1 carried,
      .advance 1 carried,.advance 1 carried,.advance 1 carried,.advance 1 carried] (Service.opened emptyDb)).map
      fun service => service.store.events.length) = some 2 := by
    decide +kernel
  obtain ⟨service,walked,seen⟩ := Option.map_eq_some_iff.mp walked
  exact ⟨service,seen,daily_cap_kept 0 (Runs.reached_walk oneByOne_undisturbed _ .start walked) "ann" 0⟩

/-- Both calls read the window before either has inserted, and 4 is accrued in a day. -/
theorem accrued_twice_the_cap : ∃ service : Service,
    Runs.Reached Service.step Runs.Free (Service.opened emptyDb) service ∧ service.store.spentWithin "ann" (0-day) 0 =
      4 := by
  have walked : ((Runs.walk Service.step (fun _ _ => true) [.start 0 (attested "a"),.start 1 (attested "b"),
      .advance 0 carried,.advance 0 carried,.advance 0 carried,.advance 0 carried,.advance 1 carried,.advance 1 carried,
      .advance 1 carried,.advance 1 carried,.advance 0 carried,.advance 1 carried] (Service.opened emptyDb)).map
      fun service => service.store.spentWithin "ann" (0-day) 0) = some 4 := by
    decide +kernel
  obtain ⟨service,walked,seen⟩ := Option.map_eq_some_iff.mp walked
  exact ⟨service,Runs.reached_walk (fun _ _ _ => trivial) _ .start walked,seen⟩

end Orrery.Trust
