import Orrery.Foundation.UnderWay
import Orrery.Policy.Cycles

/-! The pins of the policy: while the tuners run, side by side with each other and with the
leaders, a pinned key keeps its value, but for the scale of the trust tuner and for a pin that
comes while a tuner has already read the row. -/
namespace Orrery.Policy
open Foundation

def Pinned (key : String) (db : Db) : Prop := ∃ row, db.policies.row key = some row ∧ row.pinned = true

def Frozen (key : String) (value : Value) (db : Db) : Prop :=
  ∃ row, db.policies.row key = some row ∧ row.pinned = true ∧ row.value = value

def Patch.tunes : Patch → Bool
  | .tuned .. | .merged .. => true
  | _ => false

def Act.Tunes (key : String) : Act → Prop
  | .patch other written => other = key ∧ written.tunes = true
  | _ => False

def Act.writes : Act → Bool
  | .patch .. => true
  | _ => false

def Act.Pins (key : String) : Act → Prop
  | .patch other (.pin ..) => other = key
  | _ => False

def Act.Releases (key : String) : Act → Prop
  | .patch other .unpin | .patch other (.override ..) => other = key
  | .patch other (.pin actor _ _) => other = key ∧ pins (some actor) = false
  | _ => False

section Effects
variable {landing : Landing} {act : Act} {db : Db} {key : String} {value : Value}

theorem row_patched (db : Db) (other key : String) (patch : Patch) : (db.patched other patch).row key =
    (db.policies.row key).map fun row => if key = other then patch.apply row else row := by
  rw [Db.patched,Table.row_update]
  cases found : db.policies.row key with
  | none => rfl
  | some row => simp [Table.row_key found]

theorem row_exec (landing : Landing) (act : Act) (db : Db) (key : String) :
    (exec landing act db).2.policies.row key = (db.policies.row key).map fun row =>
      match act with
      | .patch other patch => if landing.lands = true ∧ key = other then patch.apply row else row
      | _ => row := by
  cases act with
  | patch other patch =>
    cases lands : landing.lands with
    | true => simp [exec,carriedOut,lands,row_patched]
    | false => simp [exec,carriedOut,lands]
  | postHistory entry =>
    cases lands : landing.lands <;> simp [exec,carriedOut,lands]
  | _ => simp [exec,carriedOut]

theorem Frozen.pinned (frozen : Frozen key value db) : Pinned key db := by
  obtain ⟨row,found,pinned,_⟩ := frozen
  exact ⟨row,found,pinned⟩

theorem Frozen.afterCall (frozen : Frozen key value db)
    (kept : landing.lands = true → ¬ act.Tunes key ∧ ¬ act.Releases key) :
    Frozen key value (exec landing act db).2 := by
  obtain ⟨row,found,pinned,same⟩ := frozen
  rw [Frozen,row_exec,found]
  refine ⟨_,rfl,?_⟩
  cases act with
  | patch other patch =>
    dsimp only
    split
    next here =>
      obtain ⟨lands,rfl⟩ := here
      obtain ⟨untuned,unreleased⟩ := kept lands
      cases patch with
      | pin actor reason pinnedAt =>
        refine ⟨?_,same⟩
        by_contra loose
        exact unreleased ⟨rfl,Bool.eq_false_iff.mpr loose⟩
      | unpin => exact absurd rfl unreleased
      | override => exact absurd rfl unreleased
      | tuned => exact absurd ⟨rfl,rfl⟩ untuned
      | merged => exact absurd ⟨rfl,rfl⟩ untuned
    next => exact ⟨pinned,same⟩
  | _ => exact ⟨pinned,same⟩

theorem pins_of_pinned (loose : ¬ Pinned key db) (pinned : Pinned key (exec landing act db).2) :
    act.Pins key ∧ landing.lands = true := by
  obtain ⟨row',found,pinned⟩ := pinned
  rw [row_exec,Option.map_eq_some_iff] at found
  obtain ⟨row,found,rfl⟩ := found
  have unpinned : ¬ row.pinned = true := fun pinned => loose ⟨row,found,pinned⟩
  cases act with
  | patch other patch =>
    dsimp only at pinned
    split at pinned
    next here =>
      obtain ⟨lands,rfl⟩ := here
      cases patch with
      | pin actor reason pinnedAt => exact ⟨rfl,lands⟩
      | unpin => cases pinned
      | _ => exact absurd pinned unpinned
    next => exact absurd pinned unpinned
  | _ => exact absurd pinned unpinned

end Effects

section Tuners
variable {ok : Act → Prop} {rely : Db → Prop} {env : PolicyEnv}

def Tunable (ok : Act → Prop) (row : Loaded) : Prop :=
  pins row.pinnedBy = false → ∀ patch : Patch, patch.tunes = true → ok (.patch row.key patch)

theorem updates_along {β : Type} {body : Loaded → Program (Except Exc (Option β))} {rows : List Loaded}
    (along : ∀ row ∈ rows, (body row).Along exec ok rely fun _ => True) (done : List (String × β)) :
    (updates body rows done).Along exec ok rely fun _ => True := by
  induction rows generalizing done with
  | nil => trivial
  | cons row rest ih =>
    apply Proc.Along.bind (along row List.mem_cons_self)
    intro result _
    have further := ih fun row member => along row (List.mem_cons_of_mem _ member)
    split
    next => trivial
    next => exact further done
    next => exact further _

theorem mem_orEmpty {α : Type} {landing : Landing} {rows : List α} {row : α}
    (member : row ∈ (landing.reply rows).orEmpty) : row ∈ rows := by
  unfold Landing.reply at member
  split at member
  next => exact member
  next => split at member <;> simp [Reply.orEmpty] at member

variable (quiet : ∀ act : Act, act.writes = false → ok act)
include quiet

theorem tuneRow_along (feedback : Feedback) {row : Loaded} (tunable : Tunable ok row) :
    (tuneRow env feedback row).Along exec ok rely fun _ => True := by
  unfold tuneRow
  split
  next => trivial
  next loose =>
    refine ⟨quiet _ rfl,fun landing db _ => ?_⟩
    dsimp only [Proc.bind]
    split
    next => trivial
    next =>
      split
      next => trivial
      next => trivial
      next newValue reason _ =>
        split
        next => trivial
        next =>
          refine ⟨quiet _ rfl,fun landing db _ => ⟨tunable (by simpa using loose) _ rfl,fun landing db _ => ?_⟩⟩
          dsimp only [Proc.bind]
          split
          next => trivial
          next => exact ⟨quiet _ rfl,fun _ _ _ => trivial⟩

theorem mergeRow_along (snapshots : List (PeerSnapshot Float)) {row : Loaded} (tunable : Tunable ok row) :
    (mergeRow env snapshots row).Along exec ok rely fun _ => True := by
  unfold mergeRow
  split
  next => trivial
  next skips =>
    split
    next => trivial
    next current baseline _ =>
      split
      next => trivial
      next =>
        split
        next => trivial
        next => trivial
        next result _ =>
          have loose : pins row.pinnedBy = false := by
            by_contra pinned
            simp [pinned] at skips
          refine ⟨quiet _ rfl,fun landing db _ => ⟨tunable loose _ rfl,fun landing db _ => ?_⟩⟩
          dsimp only [Proc.bind]
          split
          next => trivial
          next => exact ⟨quiet _ rfl,fun _ _ _ => trivial⟩

theorem federationMergeCycle_along {rows : List Loaded} (tunable : ∀ row ∈ rows, Tunable ok row) :
    (federationMergeCycle env rows).Along exec ok rely fun _ => True := by
  refine ⟨quiet _ rfl,fun landing db _ => ?_⟩
  dsimp only [Proc.bind]
  split
  next => trivial
  next snapshots _ =>
    exact updates_along (fun row member => mergeRow_along quiet snapshots (tunable row member)) []

theorem summarize_along (summary : List (String × TuneChange)) (merged : Except Exc (List (String × MergeChange))) :
    (summarize summary merged).Along exec ok rely fun _ => True := by
  unfold summarize
  split
  next => trivial
  next =>
    split
    next => exact ⟨quiet _ rfl,fun _ _ _ => trivial⟩
    next => trivial

theorem tuneRows_along (feedback : Feedback) {rows : List Loaded} (tunable : ∀ row ∈ rows, Tunable ok row) :
    (tuneRows env rows feedback).Along exec ok rely fun _ => True := by
  apply Proc.Along.bind (updates_along (fun row member => tuneRow_along quiet feedback (tunable row member)) [])
  intro result _
  split
  next => trivial
  next summary =>
    refine ⟨quiet _ rfl,fun landing db _ => ?_⟩
    dsimp only [Proc.bind_eq,Proc.pure_eq,Proc.bind]
    split
    next =>
      apply Proc.Along.bind (federationMergeCycle_along quiet tunable)
      exact fun merged _ => summarize_along quiet summary merged
    next => exact summarize_along quiet summary _

theorem refreshCache_along : refreshCache.Along exec ok rely fun _ => True := by
  refine ⟨quiet _ rfl,fun landing db _ => ?_⟩
  dsimp only [Proc.bind]
  split
  next => trivial
  next => exact ⟨quiet _ rfl,fun _ _ _ => trivial⟩
  next => exact ⟨quiet _ rfl,fun _ _ _ => trivial⟩

theorem readFeedback_along : readFeedback.Along exec ok rely fun _ => True := by
  refine ⟨quiet _ rfl,fun landing db _ => ⟨quiet _ rfl,fun landing' db' _ => ?_⟩⟩
  dsimp only [Proc.bind]
  split
  next => trivial
  next => exact ⟨quiet _ rfl,fun _ _ _ => trivial⟩

theorem tuneCycle_along
    (tunable : ∀ db, rely db → ∀ row, db.policies.row row.key = some row → Tunable ok row.loaded) :
    (tuneCycle env).Along exec ok rely fun _ => True := by
  apply Proc.Along.bind (refreshCache_along quiet)
  intro _ _
  refine ⟨quiet _ rfl,fun landing db inside => ?_⟩
  dsimp only [Proc.bind]
  split
  next => trivial
  next =>
    apply Proc.Along.bind (readFeedback_along quiet)
    intro feedback _
    split
    next => trivial
    next feedback _ =>
      apply tuneRows_along quiet
      intro loaded member
      obtain ⟨row,found,rfl⟩ := List.mem_map.mp member
      exact tunable db inside row (Table.mem_select.mp (mem_orEmpty found)).1

theorem leaderPatch_along {key : String} {patch : Patch} (allowed : ok (.patch key patch))
    (newValue : PolicyRow → Value) (reason actor : String) : (leaderPatch key patch newValue reason actor).Along exec ok rely fun _ => True := by
  refine ⟨allowed,fun landing db _ => ?_⟩
  dsimp only [Proc.bind]
  split
  next => trivial
  next =>
    split
    next => trivial
    next => exact ⟨quiet _ rfl,fun _ _ _ => ⟨quiet _ rfl,fun _ _ _ => trivial⟩⟩

end Tuners

abbrev Spares (key : String) (rely : Db → Prop) (p : Program Outcome) : Prop :=
  p.Along exec (fun act => ¬ act.Tunes key) rely fun _ => True

abbrev NeverPins (key : String) (p : Program Outcome) : Prop :=
  p.Along exec (fun act => ¬ act.Pins key) (fun _ => True) fun _ => True

def Op.sweeps : Op → Bool
  | .tuneCycle | .federationMergeCycle _ => true
  | _ => false

def Fit (key : String) : Op → Program Outcome → Db → Prop
  | .tuneTrustCycle, _, _ => True
  | .tuneCycle, p, db | .federationMergeCycle _, p, db => NeverPins key p ∧ (Pinned key db → Spares key (Pinned key) p)
  | .pin .., p, _ | .unpin .., p, _ | .override .., p, _ => Spares key (fun _ => True) p

section Programs
variable {env : PolicyEnv} {key : String} {db : Db} {act : Act}

theorem quiet_tunes (act : Act) (quiet : act.writes = false) : ¬ act.Tunes key := by
  cases act with
  | patch other patch => cases quiet
  | _ => exact id

theorem quiet_pins (act : Act) (quiet : act.writes = false) : ¬ act.Pins key := by
  cases act with
  | patch other patch => cases quiet
  | _ => exact id

theorem tunable_pins (row : Loaded) : Tunable (fun act => ¬ act.Pins key) row := by
  intro _ patch tunes
  cases patch with
  | pin => cases tunes
  | _ => exact id

theorem tunable_tunes {row : Loaded} (shown : row.key = key → pins row.pinnedBy = true) :
    Tunable (fun act => ¬ act.Tunes key) row := by
  rintro loose patch _ ⟨same,_⟩
  rw [shown same] at loose
  cases loose

theorem tuneCycle_spares : Spares key (Pinned key) (tuneCycle env) := by
  apply tuneCycle_along quiet_tunes
  intro db pinned row found
  apply tunable_tunes
  intro same
  obtain ⟨held,found',pinned⟩ := pinned
  obtain rfl : row = held := by
    rw [← same] at found'
    exact Option.some.inj (found.symm.trans found')
  exact pinned

theorem program_merge (rows : List Loaded) {ok : Act → Prop} {rely : Db → Prop}
    (along : (federationMergeCycle env rows).Along exec ok rely fun _ => True) :
    (program env (.federationMergeCycle rows)).Along exec ok rely fun _ => True := by
  apply Proc.Along.bind along
  intro result _
  split
  next => trivial
  next => trivial

theorem program_leader {p : Program LeaderReply} {ok : Act → Prop} {rely : Db → Prop}
    (along : p.Along exec ok rely fun _ => True) : (Outcome.leader <$> p).Along exec ok rely fun _ => True :=
  Proc.Along.bind along fun _ _ => trivial

theorem untuned {patch : Patch} (apart : patch.tunes = false) (other : String) :
    ¬ (Act.patch other patch).Tunes key := by
  rintro ⟨_,tunes⟩
  rw [apart] at tunes
  cases tunes

theorem fit_program (op : Op) (given : ∀ rows, op = .federationMergeCycle rows → Pinned key db →
    ∀ row ∈ rows, row.key = key → pins row.pinnedBy = true) : Fit key op (program env op) db := by
  cases op with
  | tuneTrustCycle => trivial
  | tuneCycle => exact ⟨tuneCycle_along quiet_pins fun _ _ row _ => tunable_pins row.loaded,fun _ => tuneCycle_spares⟩
  | federationMergeCycle rows =>
    refine ⟨program_merge rows (federationMergeCycle_along quiet_pins fun row _ => tunable_pins row),fun pinned => ?_⟩
    apply program_merge
    exact federationMergeCycle_along quiet_tunes fun row member => tunable_tunes (given rows rfl pinned row member)
  | pin other actor reason =>
    apply program_leader
    exact ⟨quiet_tunes _ rfl,fun _ _ _ => leaderPatch_along quiet_tunes (untuned rfl other) _ _ _⟩
  | unpin other actor =>
    apply program_leader
    exact leaderPatch_along quiet_tunes (untuned rfl other) _ _ _
  | override other newValue actor reason =>
    apply program_leader
    exact ⟨quiet_tunes _ rfl,fun _ _ _ => leaderPatch_along quiet_tunes (untuned rfl other) _ _ _⟩

variable {op : Op} {resume : act.Answer → Program Outcome} {landing : Landing}

theorem fit_call (fit : Fit key op (.call act resume) db) :
    Fit key op (resume (exec landing act db).1) (exec landing act db).2 := by
  have swept : NeverPins key (.call act resume) ∧ (Pinned key db → Spares key (Pinned key) (.call act resume)) →
      NeverPins key (resume (exec landing act db).1) ∧
        (Pinned key (exec landing act db).2 → Spares key (Pinned key) (resume (exec landing act db).1)) := by
    rintro ⟨unpinning,sparing⟩
    refine ⟨unpinning.2 landing db trivial,fun later => ?_⟩
    have pinned : Pinned key db := by
      by_contra loose
      exact unpinning.1 (pins_of_pinned loose later).1
    exact (sparing pinned).2 landing db pinned
  cases op with
  | tuneTrustCycle => trivial
  | tuneCycle => exact swept fit
  | federationMergeCycle => exact swept fit
  | pin => exact fit.2 landing db trivial
  | unpin => exact fit.2 landing db trivial
  | override => exact fit.2 landing db trivial

theorem fit_other {p : Program Outcome} {db' : Db} (fit : Fit key op p db)
    (fresh : ¬ Pinned key db → Pinned key db' → op.sweeps = true → Spares key (Pinned key) p) : Fit key op p db' := by
  have swept : op.sweeps = true → NeverPins key p ∧ (Pinned key db → Spares key (Pinned key) p) →
      NeverPins key p ∧ (Pinned key db' → Spares key (Pinned key) p) := by
    rintro sweeps ⟨unpinning,sparing⟩
    refine ⟨unpinning,fun later => ?_⟩
    by_cases pinned : Pinned key db
    · exact sparing pinned
    · exact fresh pinned later sweeps
  cases op with
  | tuneTrustCycle => trivial
  | tuneCycle => exact swept rfl fit
  | federationMergeCycle => exact swept rfl fit
  | pin => exact fit
  | unpin => exact fit
  | override => exact fit

theorem trust_of_tunes (fit : Fit key op (.call act resume) db) (pinned : Pinned key db) (tunes : act.Tunes key) :
    op = .tuneTrustCycle := by
  cases op with
  | tuneTrustCycle => rfl
  | tuneCycle => exact absurd tunes (fit.2 pinned).1
  | federationMergeCycle => exact absurd tunes (fit.2 pinned).1
  | pin => exact absurd tunes fit.1
  | unpin => exact absurd tunes fit.1
  | override => exact absurd tunes fit.1

end Programs

def Office.opened (db : Db) : Office := ⟨db,∅,[]⟩

section Runs
variable {env : PolicyEnv} {key : String} {value : Value} {office office' : Office}

def Performs (office : Office) (turn : Turn Op Landing) (op : Op) (act : Act) (landing : Landing) : Prop :=
  ∃ id resume, turn = .advance id landing ∧ office.live.lookup id = some ⟨op,.call act resume⟩

/-- The trust tuner does not set the key while it is pinned, a pin that is carried out finds no
sweep that is still to set the key, and a merge by itself is given rows that show the pin. -/
structure Undisturbed (key : String) (office : Office) (turn : Turn Op Landing) : Prop where
  scale : ∀ act landing, Performs office turn .tuneTrustCycle act landing → act.Tunes key → Pinned key office.store →
    landing.lands = false
  pins : ∀ op act landing, Performs office turn op act landing → act.Pins key → landing.lands = true →
    ∀ id task, office.live.lookup id = some task → task.op.sweeps = true → Spares key (Pinned key) task.rest
  given : ∀ id rows, turn = .start id (.federationMergeCycle rows) → Pinned key office.store →
    ∀ row ∈ rows, row.key = key → Policy.pins row.pinnedBy = true

def Released (key : String) (office : Office) (turn : Turn Op Landing) : Prop :=
  ∃ op act landing, Performs office turn op act landing ∧ act.Releases key ∧ landing.lands = true

theorem step_fit {turn : Turn Op Landing} (fit : office.AllFit (Fit key)) (undisturbed : Undisturbed key office turn)
    (stepped : Office.step env office turn = some office') : office'.AllFit (Fit key) := by
  cases turn with
  | start id op =>
    obtain rfl := Pool.step_start stepped
    apply fit.settle
    apply fit_program
    rintro rows rfl
    exact undisturbed.given id rows rfl
  | advance id landing =>
    obtain ⟨op,act,resume,live,rfl⟩ := Pool.step_advance stepped
    apply Pool.AllFit.advanced (fit_call (fit id _ live))
    intro other task _ live'
    apply fit_other (fit other task live')
    intro loose later sweeps
    obtain ⟨pins,lands⟩ := pins_of_pinned loose later
    exact undisturbed.pins op act landing ⟨id,resume,rfl,live⟩ pins lands other task live' sweeps

theorem step_frozen {turn : Turn Op Landing} (fit : office.AllFit (Fit key)) (undisturbed : Undisturbed key office turn)
    (unreleased : ¬ Released key office turn) (stepped : Office.step env office turn = some office')
    (frozen : Frozen key value office.store) : Frozen key value office'.store := by
  cases turn with
  | start id op =>
    obtain rfl := Pool.step_start stepped
    rwa [Pool.settle_store]
  | advance id landing =>
    obtain ⟨op,act,resume,live,rfl⟩ := Pool.step_advance stepped
    have performs : Performs office (.advance id landing) op act landing := ⟨id,resume,rfl,live⟩
    rw [Pool.settle_store]
    apply frozen.afterCall
    intro lands
    constructor
    · intro tunes
      obtain rfl := trust_of_tunes (fit id _ live) frozen.pinned tunes
      have lost := undisturbed.scale act landing performs tunes frozen.pinned
      rw [lost] at lands
      cases lands
    · exact fun releases => unreleased ⟨op,act,landing,performs,releases,lands⟩

/-- Whatever the tuners are answered, a pinned key keeps its value until a leader takes the
pin away or sets the value, in every run whose turns leave the pins alone. -/
theorem pinned_frozen (env : PolicyEnv) {db : Db}
    (before : Runs.Reached (Office.step env) (Undisturbed key) (Office.opened db) office)
    (frozen : Frozen key value office.store)
    (run : Runs.Reached (Office.step env) (fun office turn => Undisturbed key office turn ∧ ¬ Released key office turn)
      office office') : Frozen key value office'.store := by
  have fit : office.AllFit (Fit key) := by
    apply before.invariant
    · exact Pool.AllFit.opened db
    · exact fun a turn b fit undisturbed stepped => step_fit fit undisturbed stepped
  have held : office'.AllFit (Fit key) ∧ Frozen key value office'.store := by
    apply run.invariant
    · exact ⟨fit,frozen⟩
    · intro a turn b before allowed stepped
      have fit' := step_fit before.1 allowed.1 stepped
      exact ⟨fit',step_frozen before.1 allowed.1 allowed.2 stepped before.2⟩
  exact held.2

end Runs

section Samples

def plainPolicy : PolicyEnv where
  agentId := "chapter"
  parseFloat _ := none
  parseInt _ := none
  str _ := ""
  fixed2 _ := ""
  rounded3 := id
  repr _ := ""
  fromIsoformat _ := some (0,true)
  isoformat _ := ""

def rowOf (key : String) (value : Float) (pinnedBy : Option String) : PolicyRow :=
  ⟨key,.float value,.float value,"float",true,pinnedBy,none,none,"",none,none,none⟩

def pinnedScale : Db where
  policies := ⟨[rowOf trustScaleKey 1.0 "leader"],by decide⟩
  history := []
  cache := []
  cacheTs := none

def pinnedFloor : Db where
  policies := ⟨[rowOf "intro.confidence_floor" 0.5 "leader",rowOf "call.response_relevance_floor" 0.5 none],by decide⟩
  history := []
  cache := []
  cacheTs := none

/-- Five calls were not reached, five approvals rejected, and five agents have not come on. -/
def working : Landing where
  lands := true
  answers := true
  raises := none
  now := 61*day
  outcomes := []
  approvals := List.replicate 5 ⟨"rejected",["a","b"]⟩
  unreached := 5
  agents := List.replicate 5 ⟨.int 10,"1970-01-01T00:00:00+00:00"⟩
  peers := []

def done (id : ℕ) (op : Op) (calls : ℕ) : List (Turn Op Landing) :=
  .start id op :: List.replicate calls (.advance id working)

def valueIs (key : String) (x : Float) (db : Db) : Bool :=
  (db.policies.row key).any fun row =>
    match row.value with
    | .float value => value == x
    | _ => false

def leaderless (office : Office) : Turn Op Landing → Bool
  | .start .. => true
  | .advance id _ =>
    match office.live.lookup id with
    | some ⟨_,.call (.patch _ patch) _⟩ => patch.tunes
    | _ => true

theorem leaderless_unreleased {key : String} (office : Office) (turn : Turn Op Landing)
    (checked : leaderless office turn = true) : ¬ Released key office turn := by
  rintro ⟨op,act,landing,⟨id,resume,rfl,live⟩,releases,_⟩
  rw [leaderless,live] at checked
  cases act with
  | patch other patch =>
    cases patch with
    | tuned => exact releases
    | merged => exact releases
    | _ => cases checked
  | _ => exact releases

/-- The trust tuner sets its scale although it is pinned. -/
theorem pinned_scale_tuned : Frozen trustScaleKey (.float 1.0) pinnedScale ∧ ∃ office : Office,
    Runs.Reached (Office.step plainPolicy) (fun office turn => ¬ Released trustScaleKey office turn)
      (Office.opened pinnedScale) office ∧ ¬ Frozen trustScaleKey (.float 1.0) office.store := by
  refine ⟨⟨_,rfl,rfl,rfl⟩,?_⟩
  have walked : (Runs.walk (Office.step plainPolicy) leaderless (done 0 .tuneTrustCycle 10)
      (Office.opened pinnedScale)).map (fun office => valueIs trustScaleKey 1.0 office.store) = some false := by
    decide +kernel
  obtain ⟨office,walked,changed⟩ := Option.map_eq_some_iff.mp walked
  refine ⟨office,Runs.reached_walk leaderless_unreleased _ .start walked,?_⟩
  rintro ⟨row,found,_,same⟩
  have kept : valueIs trustScaleKey 1.0 office.store = true := by
    rw [valueIs,found,Option.any_some,same]
    decide +kernel
  exact Bool.false_ne_true (changed.symm.trans kept)

/-- A pin that comes when a cycle has already read the rows does not keep the cycle from the key. -/
example : (Runs.walk (Office.step plainPolicy) (fun _ _ => true)
    (done 0 .tuneCycle 6 ++ done 1 (.pin "call.response_relevance_floor" "leader" "") 4 ++
      List.replicate 6 (.advance 0 working)) (Office.opened pinnedFloor)).map (fun office =>
    ((office.store.policies.row "call.response_relevance_floor").map PolicyRow.pinned,
      valueIs "call.response_relevance_floor" 0.5 office.store)) = some (some true,false) := by
  decide +kernel

def tame (office : Office) : Turn Op Landing → Bool
  | .start _ (.federationMergeCycle _) => false
  | .start .. => true
  | .advance id _ =>
    match office.live.lookup id with
    | some ⟨.tuneTrustCycle,.call (.patch ..) _⟩ => false
    | _ => true

def calm (office : Office) (turn : Turn Op Landing) : Bool := leaderless office turn && tame office turn

theorem calm_undisturbed {key : String} (office : Office) (turn : Turn Op Landing) (checked : calm office turn = true) :
    Undisturbed key office turn ∧ ¬ Released key office turn := by
  obtain ⟨unled,tamed⟩ := (Bool.and_eq_true _ _).mp checked
  refine ⟨⟨?_,?_,?_⟩,leaderless_unreleased office turn unled⟩
  · rintro act landing ⟨id,resume,rfl,live⟩ tunes
    rw [tame,live] at tamed
    cases act with
    | patch => cases tamed
    | _ => exact tunes.elim
  · rintro op act landing ⟨id,resume,rfl,live⟩ pins
    rw [leaderless,live] at unled
    cases act with
    | patch other patch =>
      cases patch with
      | pin => cases unled
      | _ => exact pins.elim
    | _ => exact pins.elim
  · rintro id rows rfl
    cases tamed

/-- A cycle tunes one floor, and leaves the pinned one. -/
theorem pinned_floor_kept : ∃ office : Office, valueIs "call.response_relevance_floor" 0.5 office.store = false ∧
    Frozen "intro.confidence_floor" (.float 0.5) office.store := by
  have walked : (Runs.walk (Office.step plainPolicy) calm (done 0 .tuneCycle 12) (Office.opened pinnedFloor)).map
      (fun office => valueIs "call.response_relevance_floor" 0.5 office.store) = some false := by
    decide +kernel
  obtain ⟨office,walked,changed⟩ := Option.map_eq_some_iff.mp walked
  have frozen : Frozen "intro.confidence_floor" (.float 0.5) pinnedFloor := ⟨_,rfl,rfl,rfl⟩
  exact ⟨office,changed,pinned_frozen plainPolicy .start frozen (Runs.reached_walk calm_undisturbed _ .start walked)⟩

end Samples

end Orrery.Policy
