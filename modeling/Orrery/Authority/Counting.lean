import Orrery.Authority.Usage

/-! The counter of a window counts every call of `record_usage`, as long as no call writes
it between another call's read and write. -/
namespace Orrery.Authority
open Foundation

def Act.Writes (usages : Usages) (key : UsageKey) : Act → Prop
  | .patchUsage id _ => ∃ row, usages.row key = some row ∧ row.id = id
  | .postUsage other => other = key
  | _ => False

section Conditions
variable (key : UsageKey) (service : Service)

def Service.Calls (id : ℕ) (own : UsageCall) (act : Act) : Prop :=
  ∃ resume, service.live.lookup id = some ⟨own,.call act resume⟩

structure Working (id : ℕ) (landing : Landing) : Prop where
  answers : (landing.lands && landing.answers) = true
  fresh : landing.newId ∉ service.store.rows.map Usage.id
  during : windowStart key.2.1 landing.now = key.2.2
  limited : service.Calls id key.1 (.getScope key.1) → ∃ scope, landing.scopes.head? = some scope ∧
    key.2.1 ∈ scope.limited

def Apart (id : ℕ) : Prop :=
  ∀ own act other own' act', other ≠ id → service.Calls id own act → act.Writes service.store key →
    service.Calls other own' act' → ¬ act'.Writes service.store key

def Works : Turn UsageCall Landing → Prop
  | .start .. => True
  | .advance id landing => Working key service id landing

def OneWriter : Turn UsageCall Landing → Prop
  | .start .. => True
  | .advance id landing => Working key service id landing ∧ Apart key service id

end Conditions

inductive Stage (key : UsageKey) (own : UsageCall) : Bool → Program Unit → Usages → Prop
  | ended (counted : Bool) (usages : Usages) (whole : own = key.1 → counted = true) :
      Stage key own counted (.done ()) usages
  | scoping (usages : Usages) : Stage key own false (.call (.getScope own) (recordLimited own)) usages
  | timing (kind : WindowKind) (kinds : List WindowKind) (usages : Usages) (distinct : (kind :: kinds).Nodup) :
      Stage key own (key.2.1 ∉ kind :: kinds) (.call .utcNow fun now : Int =>
        .call (.getUsage (own,kind,windowStart kind now)) fun existing =>
          (increment (own,kind,windowStart kind now) existing).bind fun _ => recordWindows own kinds) usages
  | reading (kind : WindowKind) (kinds : List WindowKind) (start : Int) (usages : Usages) (distinct :
      (kind :: kinds).Nodup)
      (during : kind = key.2.1 → start = key.2.2) :
      Stage key own (key.2.1 ∉ kind :: kinds) (.call (.getUsage (own,kind,start)) fun existing =>
        (increment (own,kind,start) existing).bind fun _ => recordWindows own kinds) usages
  | patching (kind : WindowKind) (kinds : List WindowKind) (start : Int) (usages : Usages) (row : Usage) (count : Int)
      (distinct : (kind :: kinds).Nodup) (during : kind = key.2.1 → start = key.2.2)
      (found : usages.row (own,kind,start) = some row) (current : (own,kind,start) = key → count = row.count+1) :
      Stage key own (key.2.1 ∉ kind :: kinds) (.call (.patchUsage row.id count) fun _ => recordWindows own kinds) usages
  | posting (kind : WindowKind) (kinds : List WindowKind) (start : Int) (usages : Usages) (distinct :
      (kind :: kinds).Nodup)
      (during : kind = key.2.1 → start = key.2.2) (missing : (own,kind,start) = key → usages.row key = none) :
      Stage key own (key.2.1 ∉ kind :: kinds) (.call (.postUsage (own,kind,start)) fun _ =>
        recordWindows own kinds) usages

section Stages
variable {key changed : UsageKey} {own : UsageCall} {counted : Bool} {p : Program Unit} {usages usages' : Usages}

theorem stage_windows (kinds : List WindowKind) (distinct : kinds.Nodup) (usages : Usages) :
    Stage key own (key.2.1 ∉ kinds) (recordWindows own kinds) usages := by
  cases kinds with
  | nil => exact .ended _ usages fun _ => by simp
  | cons kind kinds => exact .timing kind kinds usages distinct

structure Changed (key : UsageKey) (usages usages' : Usages) : Prop where
  others : ∀ k, k ≠ key → usages'.row k = usages.row k
  row : ∀ r, usages.row key = some r → ∃ r', usages'.row key = some r' ∧ r'.id = r.id

theorem Stage.kept (stage : Stage key own counted p usages) (change : Changed changed usages usages')
    (apart : changed = key → ∀ act resume, p = .call act resume → ¬ act.Writes usages key) :
      Stage key own counted p usages' := by
  cases stage with
  | ended _ _ whole => exact .ended counted usages' whole
  | scoping => exact .scoping usages'
  | timing kind kinds _ distinct => exact .timing kind kinds usages' distinct
  | reading kind kinds start _ distinct during => exact .reading kind kinds start usages' distinct during
  | patching kind kinds start _ row count distinct during found current =>
    by_cases here : (own,kind,start) = changed
    · rw [here] at found
      obtain ⟨row',found',same⟩ := change.row row found
      rw [← here] at found'
      rw [← same]
      apply Stage.patching kind kinds start usages' row' count distinct during found'
      intro target
      have writes : (Act.patchUsage row.id count).Writes usages key := by
        rw [← here,target] at found
        exact ⟨row,found,rfl⟩
      exact absurd writes (apart (here.symm.trans target) _ _ rfl)
    · apply Stage.patching kind kinds start usages' row count distinct during ?_ current
      rw [change.others _ here]
      exact found
  | posting kind kinds start _ distinct during missing =>
    apply Stage.posting kind kinds start usages' distinct during
    intro target
    by_cases here : changed = key
    · exact absurd target (apart here _ _ rfl)
    · rw [change.others key (Ne.symm here)]
      exact missing target

theorem Changed.refl (key : UsageKey) (usages : Usages) : Changed key usages usages :=
  ⟨fun _ _ => rfl,fun r found => ⟨r,found,rfl⟩⟩

variable {landing : Landing}

theorem exec_patch {row : Usage} {count : Int} (lands : landing.lands = true) (found : usages.row changed = some row) :
    (exec landing (.patchUsage row.id count) usages).2.row key = if key =
      changed then some { row with count := count } else usages.row key := by
  have carried : (exec landing (.patchUsage row.id count) usages).2 =
      usages.patch row.id (fun row => { row with count := count }) (fun _ => rfl) (fun _ => rfl) := if_pos lands
  rw [carried]
  exact NumberedTable.row_patch found key

theorem exec_post (lands : landing.lands = true) (fresh : landing.newId ∉ usages.rows.map Usage.id) :
    (exec landing (.postUsage changed) usages).2.row key =
      (usages.row key).or (if changed = key then some ⟨landing.newId,changed,1⟩ else none) := by
  have carried : (exec landing (.postUsage changed) usages).2 = usages.insert ⟨landing.newId,changed,1⟩ := if_pos lands
  rw [carried]
  exact NumberedTable.row_insert fresh key

theorem changed_patch {row : Usage} {count : Int} (lands : landing.lands = true)
    (found : usages.row changed = some row) :
    Changed changed usages (exec landing (.patchUsage row.id count) usages).2 := by
  constructor
  · intro k apart
    rw [exec_patch lands found,if_neg apart]
  · intro r same
    rw [exec_patch lands found,if_pos rfl]
    obtain rfl := Option.some.inj (found.symm.trans same)
    exact ⟨_,rfl,rfl⟩

theorem changed_post (lands : landing.lands = true) (fresh : landing.newId ∉ usages.rows.map Usage.id) :
    Changed changed usages (exec landing (.postUsage changed) usages).2 := by
  constructor
  · intro k apart
    rw [exec_post lands fresh,if_neg (Ne.symm apart),Option.or_none]
  · intro r same
    rw [exec_post lands fresh,same,Option.some_or]
    exact ⟨r,rfl,rfl⟩

end Stages

section Turns
variable {key : UsageKey} {base : Int} {service service' : Service} {written : Finset ℕ}

structure Tallied (key : UsageKey) (base : Int) (written : Finset ℕ) (service : Service) : Prop where
  stages : ∀ id task, service.live.lookup id = some task →
    ∃ counted, Stage key task.op counted task.rest service.store ∧
    (task.op = key.1 → (counted = true ↔ id ∈ written))
  live : ∀ id ∈ written, ∃ task, service.live.lookup id = some task ∧ task.op = key.1
  sum : stored service.store key = base+service.returned key.1+written.card

structure Settling (key : UsageKey) (base : Int) (written : Finset ℕ) (service : Service) (id : ℕ) (own : UsageCall)
    (p : Program Unit) : Prop where
  others : ∀ other task, other ≠ id → service.live.lookup other = some task →
    ∃ counted, Stage key task.op counted task.rest service.store ∧
    (task.op = key.1 → (counted = true ↔ other ∈ written))
  self : ∃ counted, Stage key own counted p service.store ∧ (own = key.1 → (counted = true ↔ id ∈ written))
  live : ∀ other ∈ written, other ≠ id → ∃ task, service.live.lookup other = some task ∧ task.op = key.1
  owned : id ∈ written → own = key.1
  sum : stored service.store key = base+service.returned key.1+written.card

theorem Stage.whole {own : UsageCall} {counted : Bool} {usages : Usages}
    (stage : Stage key own counted (.done ()) usages) :
    own = key.1 → counted = true := by
  generalize ended : (Proc.done () : Program Unit) = p at stage
  cases stage with
  | ended _ _ whole => exact whole
  | scoping => cases ended
  | timing => cases ended
  | reading => cases ended
  | patching => cases ended
  | posting => cases ended

theorem settled_stages {id : ℕ} {own : UsageCall} {p : Program Unit} {written' : Finset ℕ}
    (settling : Settling key base written service id own p)
    (same : ∀ other, other ≠ id → (other ∈ written' ↔ other ∈ written))
    (goes_on : p ≠ .done () → (id ∈ written' ↔ id ∈ written)) :
    ∀ other task, (service.settle id own p).live.lookup other = some task → ∃ counted,
      Stage key task.op counted task.rest (service.settle id own p).store ∧
        (task.op = key.1 → (counted = true ↔ other ∈ written')) := by
  intro other task found
  rw [Pool.settle_store]
  by_cases here : other = id
  · obtain ⟨counted,stage,marked⟩ := settling.self
    rw [here] at found ⊢
    cases p with
    | done b =>
      rw [Pool.settle,AList.lookup_erase] at found
      exact absurd found.symm (Option.some_ne_none task)
    | call act resume =>
      rw [Pool.settle,AList.lookup_insert] at found
      obtain rfl := Option.some.inj found
      refine ⟨counted,stage,fun own => ?_⟩
      rw [goes_on fun same => by cases same]
      exact marked own
  · rw [Pool.settle_other here] at found
    obtain ⟨counted,stage,marked⟩ := settling.others other task here found
    exact ⟨counted,stage,fun own => (marked own).trans (same other here).symm⟩

theorem Settling.settled {id : ℕ} {own : UsageCall} {p : Program Unit}
    (settling : Settling key base written service id own p) :
    ∃ written, Tallied key base written (service.settle id own p) := by
  cases p with
  | call act resume =>
    refine ⟨written,?_,?_,settling.sum⟩
    · exact settled_stages settling (fun _ _ => Iff.rfl) fun _ => Iff.rfl
    · intro other inside
      by_cases here : other = id
      · rw [here] at inside ⊢
        exact ⟨_,AList.lookup_insert _,settling.owned inside⟩
      · rw [Pool.settle_other here]
        exact settling.live other inside here
  | done b =>
    refine ⟨written.erase id,?_,?_,?_⟩
    · apply settled_stages settling
      · intro other apart
        rw [Finset.mem_erase,and_iff_right apart]
      · exact fun goes_on => absurd rfl goes_on
    · intro other inside
      obtain ⟨apart,inside⟩ := Finset.mem_erase.mp inside
      rw [Pool.settle_other apart]
      exact settling.live other inside apart
    · have past : (service.settle id own (.done b)).past = .returned own b :: service.past := rfl
      have returned : Service.returned (service.settle id own (.done b)) key.1 =
          service.returned key.1+if own = key.1 then 1 else 0 := by
        rw [Service.returned,past,List.countP_cons,Service.returned]
        simp
      rw [Pool.settle_store,settling.sum,returned]
      by_cases same : own = key.1
      · obtain ⟨counted,stage,marked⟩ := settling.self
        have inside : id ∈ written := (marked same).mp (stage.whole same)
        have card := Finset.card_erase_add_one inside
        rw [if_pos same]
        omega
      · rw [if_neg same,Finset.erase_eq_of_notMem fun inside => same (settling.owned inside)]
        omega

inductive Advanced (key : UsageKey) (own : UsageCall) (counted : Bool) (act : Act) (usages usages' : Usages)
    (p : Program Unit) : Prop
  | aside (counted' : Bool) (stage : Stage key own counted' p usages') (same : own = key.1 → counted' = counted)
      (changed : UsageKey) (apart : changed ≠ key) (change : Changed changed usages usages')
  | counts (mine : own = key.1) (before : counted = false) (writes : act.Writes usages key) (change :
      Changed key usages usages')
      (stage : Stage key own true p usages') (sum : stored usages' key = stored usages key+1)

variable {own : UsageCall} {counted : Bool} {act : Act} {resume : act.Answer → Program Unit} {usages : Usages}
  {landing : Landing}

theorem Advanced.read {counted' : Bool} {p : Program Unit} (stage : Stage key own counted' p usages)
    (same : own = key.1 → counted' = counted) : Advanced key own counted act usages usages p := by
  apply Advanced.aside counted' stage same (key.1,key.2.1,key.2.2+1) ?_ (.refl _ _)
  intro equal
  have third := congrArg (fun k : UsageKey => k.2.2) equal
  simp at third

theorem Advanced.write {kind : WindowKind} {kinds : List WindowKind} {start : Int} {usages' : Usages}
    (distinct : (kind :: kinds).Nodup) (during : kind = key.2.1 → start = key.2.2)
    (change : Changed (own,kind,start) usages usages')
    (counts : (own,kind,start) = key → act.Writes usages key ∧ stored usages' key = stored usages key+1) :
    Advanced key own (key.2.1 ∉ kind :: kinds) act usages usages' (recordWindows own kinds) := by
  have stage := @stage_windows key own kinds (List.nodup_cons.mp distinct).2 usages'
  by_cases target : (own,kind,start) = key
  · obtain ⟨writes,sum⟩ := counts target
    have mine : own = key.1 := congrArg Prod.fst target
    have here : kind = key.2.1 := congrArg (fun k : UsageKey => k.2.1) target
    rw [target] at change
    rw [← here] at stage ⊢
    apply Advanced.counts mine ?_ writes change ?_ sum
    · simp
    · simpa [(List.nodup_cons.mp distinct).1] using stage
  · apply Advanced.aside _ stage ?_ _ target change
    intro mine
    have elsewhere : key.2.1 ≠ kind := by
      intro here
      apply target
      rw [mine,← here,during here.symm]
    simp [elsewhere]

theorem scope_limited_nodup (scope : Scope) : scope.limited.Nodup := by
  apply List.Nodup.filter
  decide

theorem Advanced.scoped {scopes : List Scope}
    (limited : own = key.1 → ∃ scope, scopes.head? = some scope ∧ key.2.1 ∈ scope.limited) :
    Advanced key own false act usages usages (recordLimited own (some scopes)) := by
  cases found : scopes.head? with
  | none =>
    have ended : recordLimited own (some scopes) = .done () := by
      rw [recordLimited,Option.getD_some,found]
      rfl
    rw [ended]
    apply Advanced.read (.ended true usages fun _ => rfl)
    intro mine
    obtain ⟨scope,first,_⟩ := limited mine
    rw [found] at first
    cases first
  | some scope =>
    have windows : recordLimited own (some scopes) = recordWindows own scope.limited := by
      rw [recordLimited,Option.getD_some,found]
    rw [windows]
    apply Advanced.read (stage_windows scope.limited (scope_limited_nodup scope) usages)
    intro mine
    obtain ⟨scope',first,inside⟩ := limited mine
    obtain rfl := Option.some.inj (found.symm.trans first)
    simp [inside]

theorem Stage.answered (stage : Stage key own counted (.call act resume) usages)
    (answers : (landing.lands && landing.answers) = true) (fresh : landing.newId ∉ usages.rows.map Usage.id)
    (during : windowStart key.2.1 landing.now = key.2.2)
    (limited : own = key.1 → act = .getScope own → ∃ scope, landing.scopes.head? = some scope ∧
      key.2.1 ∈ scope.limited) :
    Advanced key own counted act usages (exec landing act usages).2 (resume (exec landing act usages).1) := by
  have lands : landing.lands = true := (Bool.and_eq_true_iff.mp answers).1
  have answered {α : Type} (rows : List α) : landing.answered rows = some rows := if_pos answers
  cases stage with
  | scoping =>
    have unchanged : (exec landing (.getScope own) usages).2 = usages := ite_self _
    have answer : (exec landing (.getScope own) usages).1 = some landing.scopes := answered _
    rw [unchanged,answer]
    exact .scoped fun mine => limited mine rfl
  | timing kind kinds _ distinct =>
    have unchanged : (exec landing .utcNow usages).2 = usages := ite_self _
    rw [unchanged]
    apply Advanced.read ?_ fun _ => rfl
    apply Stage.reading kind kinds _ usages distinct
    intro here
    rw [here]
    exact during
  | reading kind kinds start _ distinct during =>
    have unchanged : (exec landing (.getUsage (own,kind,start)) usages).2 = usages := ite_self _
    have answer : (exec landing (.getUsage (own,kind,start)) usages).1 = some (usages.row (own,kind,start)).toList :=
      answered _
    rw [unchanged,answer]
    apply Advanced.read ?_ fun _ => rfl
    cases found : usages.row (own,kind,start) with
    | some row => exact .patching kind kinds start usages row _ distinct during found fun _ => rfl
    | none =>
      apply Stage.posting kind kinds start usages distinct during
      intro target
      rw [← target]
      exact found
  | patching kind kinds start _ row count distinct during found current =>
    apply Advanced.write distinct during (changed_patch lands found)
    intro target
    rw [target] at found
    refine ⟨⟨row,found,rfl⟩,?_⟩
    rw [stored,exec_patch lands found,if_pos rfl,stored,found,current target]
    rfl
  | posting kind kinds start _ distinct during missing =>
    apply Advanced.write distinct during (changed_post lands fresh)
    intro target
    refine ⟨target,?_⟩
    rw [stored,exec_post lands fresh,stored,missing target,if_pos target]
    rfl

theorem Tallied.aside {id : ℕ} {counted : Bool} (tallied : Tallied key base written service)
    (live : service.live.lookup id = some ⟨own,.call act resume⟩) {changed : UsageKey} (elsewhere : changed ≠ key)
    (change : Changed changed service.store (exec landing act service.store).2)
    (stage : Stage key own counted (resume (exec landing act service.store).1) (exec landing act service.store).2)
    (marked : own = key.1 → (counted = true ↔ id ∈ written)) :
    Settling key base written (service.after exec landing act) id own (resume (exec landing act service.store).1) := by
  constructor
  · intro other task apart theirs
    obtain ⟨counted,stage,marked⟩ := tallied.stages other task theirs
    exact ⟨counted,stage.kept change fun here => absurd here elsewhere,marked⟩
  · exact ⟨counted,stage,marked⟩
  · exact fun other inside _ => tallied.live other inside
  · intro inside
    obtain ⟨task,found,mine⟩ := tallied.live id inside
    obtain rfl := Option.some.inj (live.symm.trans found)
    exact mine
  · have unchanged : stored (exec landing act service.store).2 key = stored service.store key := by
      rw [stored,change.others key (Ne.symm elsewhere),stored]
    change stored (exec landing act service.store).2 key = _
    rw [unchanged]
    exact tallied.sum

theorem Tallied.counts {id : ℕ} (tallied : Tallied key base written service)
    (live : service.live.lookup id = some ⟨own,.call act resume⟩) (apart : Apart key service id) (mine : own = key.1)
    (outside : id ∉ written) (writes : act.Writes service.store key)
    (change : Changed key service.store (exec landing act service.store).2)
    (stage : Stage key own true (resume (exec landing act service.store).1) (exec landing act service.store).2)
    (sum : stored (exec landing act service.store).2 key = stored service.store key+1) :
    Settling key base (insert id written) (service.after exec landing act) id own
    (resume (exec landing act service.store).1) := by
  constructor
  · intro other task here theirs
    obtain ⟨counted,stage,marked⟩ := tallied.stages other task theirs
    refine ⟨counted,stage.kept change fun _ act' resume' same => ?_,fun mine => ?_⟩
    · apply apart own act other task.op act' here ⟨resume,live⟩ writes
      refine ⟨resume',?_⟩
      rw [← same]
      exact theirs
    · rw [marked mine,Finset.mem_insert,or_iff_right here]
  · exact ⟨true,stage,fun _ => by simp⟩
  · intro other inside here
    exact tallied.live other (Finset.mem_of_mem_insert_of_ne inside here)
  · exact fun _ => mine
  · have card := Finset.card_insert_of_notMem outside
    have before := tallied.sum
    change stored (exec landing act service.store).2 key = base+service.returned key.1+_
    rw [sum,card]
    omega

theorem Tallied.advance {id : ℕ} (tallied : Tallied key base written service)
    (live : service.live.lookup id = some ⟨own,.call act resume⟩) (working : Working key service id landing)
    (apart : Apart key service id) : ∃ written, Tallied key base written
      ((service.after exec landing act).settle id own (resume (exec landing act service.store).1)) := by
  obtain ⟨counted,stage,marked⟩ : ∃ counted, Stage key own counted (.call act resume) service.store ∧
    (own = key.1 → (counted = true ↔ id ∈ written)) := tallied.stages id _ live
  have limited : own = key.1 → act = .getScope own →
      ∃ scope, landing.scopes.head? = some scope ∧ key.2.1 ∈ scope.limited := by
    rintro rfl rfl
    exact working.limited ⟨resume,live⟩
  cases stage.answered working.answers working.fresh working.during limited with
  | aside counted' stage' same changed elsewhere change =>
    apply (tallied.aside live elsewhere change stage' fun mine => ?_).settled
    rw [same mine]
    exact marked mine
  | counts mine before writes change stage' sum =>
    have outside : id ∉ written := by
      rw [← marked mine,before]
      exact Bool.false_ne_true
    exact (tallied.counts live apart mine outside writes change stage' sum).settled

theorem Tallied.step {turn : Turn UsageCall Landing} (tallied : Tallied key base written service)
    (allowed : OneWriter key service turn) (stepped : service.step turn = some service') :
    ∃ written, Tallied key base written service' := by
  cases turn with
  | advance id landing =>
    obtain ⟨own,act,resume,live,rfl⟩ := Pool.step_advance stepped
    exact tallied.advance live allowed.1 allowed.2
  | start id own =>
    have fresh := Pool.step_fresh stepped
    obtain rfl := Pool.step_start stepped
    have outside : id ∉ written := by
      intro inside
      obtain ⟨task,found,_⟩ := tallied.live id inside
      rw [fresh] at found
      cases found
    apply @Settling.settled key base service written
    refine ⟨fun other task _ => tallied.stages other task,?_,fun other inside _ => tallied.live other inside,?_,
      tallied.sum⟩
    · refine ⟨false,.scoping _,fun _ => ?_⟩
      simp [outside]
    · exact fun inside => absurd inside outside

end Turns

/-- In whatever order calls of `record_usage` run within a window, once all of an action
have returned the counter has gone up by their number, as long as no call writes the
counter while another that has read it still has to write. -/
theorem usage_counted (call : UsageCall) (kind : WindowKind) (start : Int) (usages : Usages) {service : Service}
    (run : Runs.Reached Service.step (OneWriter (call,kind,start)) (Service.opened usages) service)
    (complete : ∀ id task, service.live.lookup id = some task → task.op ≠ call) :
    stored service.store (call,kind,start) = stored usages (call,kind,start)+service.returned call := by
  have tallied : ∃ written, Tallied (call,kind,start) (stored usages (call,kind,start)) written service := by
    apply run.invariant
    · refine ⟨∅,?_,?_,?_⟩
      · intro id task found
        cases found
      · intro id inside
        exact absurd inside (Finset.notMem_empty id)
      · simp [Service.opened,Service.returned]
    · exact fun s turn s' ⟨written,before⟩ allowed stepped => before.step allowed stepped
  obtain ⟨written,tallied⟩ := tallied
  have none_left : written = ∅ := by
    rw [Finset.eq_empty_iff_forall_notMem]
    intro id inside
    obtain ⟨task,found,mine⟩ := tallied.live id inside
    exact complete id task found mine
  rw [tallied.sum,none_left,Finset.card_empty,Nat.cast_zero,add_zero]

section Samples

def annCalls : UsageCall := ⟨"ann","submit_call"⟩

def workingAt (newId : ℕ) : Landing := ⟨0,true,true,newId,[⟨[("max_per_day",.int 5)]⟩]⟩

def atWork (service : Service) : Turn UsageCall Landing → Bool
  | .start .. => true
  | .advance _ landing => landing.lands && landing.answers && landing.newId ∉ service.store.rows.map Usage.id &&
      windowStart .day landing.now = 0 && landing.scopes.head?.any fun scope => .day ∈ scope.limited

def aloneAtWork (service : Service) : Turn UsageCall Landing → Bool
  | .start .. => true
  | .advance id landing => atWork service (.advance id landing) && service.live.keys = [id]

theorem atWork_works (service : Service) (turn : Turn UsageCall Landing) (checked : atWork service turn = true) :
    Works (annCalls,.day,0) service turn := by
  cases turn with
  | start id call => trivial
  | advance id landing =>
    simp only [atWork,Bool.and_eq_true,decide_eq_true_eq] at checked
    obtain ⟨⟨⟨answers,fresh⟩,during⟩,limited⟩ := checked
    refine ⟨by simpa using answers,fresh,during,fun _ => ?_⟩
    cases first : landing.scopes.head? with
    | none =>
      rw [first] at limited
      cases limited
    | some scope =>
      rw [first] at limited
      exact ⟨scope,rfl,by simpa using limited⟩

theorem aloneAtWork_oneWriter (service : Service) (turn : Turn UsageCall Landing)
    (checked : aloneAtWork service turn = true) :
    OneWriter (annCalls,.day,0) service turn := by
  cases turn with
  | start id call => trivial
  | advance id landing =>
    rw [aloneAtWork,Bool.and_eq_true] at checked
    refine ⟨atWork_works service _ checked.1,?_⟩
    rintro own act other own' act' apart _ _ ⟨resume,theirs⟩
    have listed : other ∈ service.live := AList.lookup_isSome.mp (Option.isSome_iff_exists.mpr ⟨_,theirs⟩)
    rw [AList.mem_keys,decide_eq_true_eq.mp checked.2,List.mem_singleton] at listed
    exact absurd listed apart

theorem none_live {service : Service} (empty : service.live.keys = []) (call : UsageCall) :
    ∀ id task, service.live.lookup id = some task → task.op ≠ call := by
  intro id task found
  have listed : id ∈ service.live := AList.lookup_isSome.mp (Option.isSome_iff_exists.mpr ⟨_,found⟩)
  rw [AList.mem_keys,empty] at listed
  exact absurd listed List.not_mem_nil

def Service.seen (service : Service) : List ℕ × ℕ × Int :=
  (service.live.keys,service.returned annCalls,stored service.store (annCalls,.day,0))

theorem two_counted : ∃ service : Service, service.returned annCalls = 2 ∧ stored service.store (annCalls,.day,0) =
    2 := by
  have walked : ((Runs.walk Service.step aloneAtWork [.start 0 annCalls,.advance 0 (workingAt 0),
    .advance 0 (workingAt 0),
      .advance 0 (workingAt 0),.advance 0 (workingAt 0),.start 1 annCalls,.advance 1 (workingAt 1),.advance 1
        (workingAt 1),
      .advance 1 (workingAt 1),.advance 1 (workingAt 1)] (Service.opened NumberedTable.empty)).map Service.seen) =
      some ([],2,2) := by
    decide +kernel
  obtain ⟨service,walked,seen⟩ := Option.map_eq_some_iff.mp walked
  simp only [Service.seen,Prod.mk.injEq] at seen
  refine ⟨service,seen.2.1,?_⟩
  have counted := usage_counted annCalls .day 0 NumberedTable.empty
    (Runs.reached_walk aloneAtWork_oneWriter _ .start walked) (none_live seen.1 annCalls)
  rw [counted,seen.2.1]
  rfl

/-- Both calls find no row; one inserts it and the other is refused, or both find the same count. -/
theorem one_lost : ∃ service : Service,
    Runs.Reached Service.step (Works (annCalls,.day,0)) (Service.opened NumberedTable.empty) service ∧
      service.live.keys = [] ∧ service.returned annCalls = 2 ∧ stored service.store (annCalls,.day,0) = 1 := by
  have walked : ((Runs.walk Service.step atWork [.start 0 annCalls,.start 1 annCalls,.advance 0 (workingAt 0),
      .advance 1 (workingAt 0),.advance 0 (workingAt 0),.advance 1 (workingAt 0),.advance 0 (workingAt 0),
      .advance 1 (workingAt 0),.advance 0 (workingAt 0),.advance 1 (workingAt 1)]
        (Service.opened NumberedTable.empty)).map Service.seen) =
      some ([],2,1) := by
    decide +kernel
  obtain ⟨service,walked,seen⟩ := Option.map_eq_some_iff.mp walked
  simp only [Service.seen,Prod.mk.injEq] at seen
  exact ⟨service,Runs.reached_walk atWork_works _ .start walked,seen⟩

end Samples

end Orrery.Authority
