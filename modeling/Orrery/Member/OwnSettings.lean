import Orrery.Member.SettingsSync

/-! When a member reads its own settings: every sequence of pushes, drains and pulls, and
every pattern of what the network loses. -/
namespace Orrery.Member
open Foundation Json PyDict

section Conditions
variable (m : Device)

def Device.Oldest (entry : Entry) : Prop := ∃ first rest, m.outbox.rows = first :: rest ∧ first.sequence =
    entry.sequence

def Device.InOrder (attempts : ℕ → Attempt) : Device → List Entry → Prop
  | _, [] => True
  | m, entry :: rest => ((attempts entry.sequence).delivery.lands = true → m.Oldest entry) ∧
      InOrder attempts (m.replay entry (attempts entry.sequence)) rest

def Careful (m : Device) : Move → Prop
  | .push _ delivery _ _ => delivery.lands = true → m.outbox.rows = []
  | .drain now attempts => m.InOrder attempts (m.due now)
  | .syncOnStartup answers _ | .effectiveSettings answers _ => answers = true → m.outbox.rows = []

def Device.settled : Settings := (m.outbox.rows.map Entry.patch).foldl PyDict.merge m.chapter

structure Device.Own : Prop where
  known : ∀ patch ∈ m.history, ∀ key ∈ patch.items.map Prod.fst, key ∈ knownTopLevelKeys
  numbered : ∀ entry ∈ m.outbox.rows, entry.sequence < m.nextSequence
  chapter : m.settled.Keeps m.history
  cache : m.readLocal.Keeps m.history
  reads : ∀ read ∈ m.reads, read.returned.Keeps read.history

end Conditions

section Cache
variable {patches : List Settings} {settings : Settings}

theorem known_public : ∀ key ∈ knownTopLevelKeys, isPublic key = true ∧ key ≠ "_cached_at" := by
  decide +kernel

theorem keeps_stripMeta (known : ∀ patch ∈ patches, ∀ key ∈ patch.items.map Prod.fst, key ∈ knownTopLevelKeys)
    (keeps : settings.Keeps patches) : (stripMeta settings).Keeps patches := by
  intro path value told
  obtain ⟨patch,inside,first,rest,rfl,key⟩ := said_key told
  rw [stripMeta,leaf_restrict,keeps _ value told]
  rintro _ _ ⟨⟩
  exact (known_public first (known patch inside first key)).1

theorem keeps_stamped (known : ∀ patch ∈ patches, ∀ key ∈ patch.items.map Prod.fst, key ∈ knownTopLevelKeys)
    (keeps : settings.Keeps patches) (cachedAt : String) : (stamped settings cachedAt).Keeps patches := by
  intro path value told
  obtain ⟨patch,inside,first,rest,rfl,key⟩ := said_key told
  rw [stamped,leaf_set_other,keeps _ value told]
  rintro _ _ ⟨⟩
  exact (known_public first (known patch inside first key)).2

theorem keeps_isEmpty (keeps : settings.Keeps patches) (nothing : settings.items.isEmpty = true) (other : Settings) :
    other.Keeps patches := by
  intro path value told
  have held : leafOf (some (.obj settings.items)) path = some value := keeps path value told
  rw [List.isEmpty_iff.mp nothing] at held
  obtain _ | ⟨first,_ | ⟨second,rest⟩⟩ := path
  · cases held
  · cases held
  · cases held

end Cache

section Moves
variable {m : Device} {patch : Settings} {delivery : Delivery}

theorem enqueue_rows (numbered : ∀ entry ∈ m.outbox.rows, entry.sequence < m.nextSequence) (patch : Settings)
    (now : Int) :
    (m.enqueue patch now).outbox.rows = m.outbox.rows ++ [⟨m.nextSequence,patch,now,0,now⟩] := by
  have fresh : m.nextSequence ∉ m.outbox.rows.map Entry.sequence := by
    intro taken
    obtain ⟨entry,inside,same⟩ := List.mem_map.mp taken
    exact absurd same (Nat.ne_of_lt (numbered entry inside))
  rw [Device.enqueue,Table.insert,dif_neg fresh]

theorem settled_enqueue (numbered : ∀ entry ∈ m.outbox.rows, entry.sequence < m.nextSequence) (now : Int) :
    (m.enqueue patch now).settled = m.settled.merge patch := by
  rw [Device.settled,enqueue_rows numbered,List.map_append,List.foldl_append]
  rfl

theorem Device.Own.queued (own : m.Own) (valid : ∀ key ∈ patch.items.map Prod.fst, key ∈ knownTopLevelKeys)
    {chapter : Settings} (keeps : (({ m with chapter := chapter } : Device).settled.merge patch).Keeps
      (patch :: m.history))
    (now : Int) (cachedAt : String) :
    ((({ m with chapter := chapter, history := patch :: m.history } : Device).enqueue patch now).writeLocal
      (m.readLocal.merge patch) cachedAt).Own where
  known := List.forall_mem_cons.mpr ⟨valid,own.known⟩
  numbered := by
    intro entry inside
    have rows := @enqueue_rows { m with chapter := chapter, history := patch :: m.history } own.numbered patch now
    have listed : entry ∈ m.outbox.rows ++ [⟨m.nextSequence,patch,now,0,now⟩] := rows ▸ inside
    obtain before | here := List.mem_append.mp listed
    · exact Nat.lt_succ_of_lt (own.numbered entry before)
    · rw [List.mem_singleton.mp here]
      exact Nat.lt_succ_self _
  chapter := by
    have settled := @settled_enqueue { m with chapter := chapter, history := patch :: m.history } patch own.numbered now
    exact settled ▸ keeps
  cache := keeps_stamped (List.forall_mem_cons.mpr ⟨valid,own.known⟩) (own.cache.merge patch) cachedAt
  reads := own.reads

theorem settled_alone (alone : m.outbox.rows = []) : m.settled = m.chapter := by
  rw [Device.settled,alone]
  rfl

theorem Device.Own.push (own : m.Own) (valid : ∀ key ∈ patch.items.map Prod.fst, key ∈ knownTopLevelKeys)
    (alone : delivery.lands = true → m.outbox.rows = []) (now : Int) (cachedAt : String) :
    (m.push patch delivery now cachedAt).2.Own := by
  obtain ⟨lands,answers⟩ := delivery
  cases lands with
  | false => exact own.queued valid (own.chapter.merge patch) now cachedAt
  | true =>
    have told : (m.chapter.merge patch).Keeps (patch :: m.history) := by
      rw [← settled_alone (alone rfl)]
      exact own.chapter.merge patch
    cases answers with
    | false =>
      -- The chapter has the patch, and will be told it once more.
      have settled := @settled_alone { m with chapter := m.chapter.merge patch } (alone rfl)
      have twice :
          (({ m with chapter := m.chapter.merge patch } : Device).settled.merge patch).Keeps (patch :: m.history) := by
        rw [settled]
        exact (merge_twice m.chapter patch).keeps told
      exact own.queued valid twice now cachedAt
    | true =>
      have known : ∀ patch' ∈ patch :: m.history, ∀ key ∈ patch'.items.map Prod.fst, key ∈ knownTopLevelKeys :=
        List.forall_mem_cons.mpr ⟨valid,own.known⟩
      refine ⟨known,own.numbered,?_,keeps_stamped known (keeps_stripMeta known told) cachedAt,own.reads⟩
      have settled := @settled_alone { m with chapter := m.chapter.merge patch } (alone rfl)
      exact settled ▸ told

theorem Device.Own.pull (own : m.Own) {answers : Bool} (alone : answers = true → m.outbox.rows = [])
    (cachedAt : String) :
    (m.pull answers cachedAt).2.Own ∧ (m.pull answers cachedAt).1.Keeps m.history ∧
      (m.pull answers cachedAt).2.history = m.history := by
  cases answers with
  | true =>
    have kept : m.chapter.Keeps m.history := settled_alone (alone rfl) ▸ own.chapter
    exact ⟨⟨own.known,own.numbered,own.chapter,keeps_stamped own.known kept cachedAt,own.reads⟩,kept.under defaults,rfl⟩
  | false =>
    rw [Device.pull,if_neg (by decide)]
    split
    next nothing => exact ⟨own,keeps_isEmpty own.cache nothing defaults,rfl⟩
    next => exact ⟨own,(keeps_stripMeta own.known own.cache).under defaults,rfl⟩

end Moves

section Drains
variable {m : Device} {entry : Entry} {attempt : Attempt}

theorem markFailure_patches (m : Device) (sequence : ℕ) (now : Int) :
    (m.markFailure sequence now).rows.map Entry.patch = m.outbox.rows.map Entry.patch := by
  rw [Device.markFailure,Table.rows_update,List.map_map]
  apply List.map_congr_left
  intro row _
  rw [Function.comp_apply]
  split <;> rfl

theorem markFailure_sequences (m : Device) (sequence : ℕ) (now : Int) :
    (m.markFailure sequence now).rows.map Entry.sequence = m.outbox.rows.map Entry.sequence := by
  rw [Device.markFailure,Table.rows_update,List.map_map]
  apply List.map_congr_left
  intro row _
  rw [Function.comp_apply]
  split <;> rfl

theorem remove_first {table : Table Entry ℕ Entry.sequence} {first : Entry} {rest : List Entry}
    (rows : table.rows = first :: rest) : (table.remove first.sequence).rows = rest := by
  have distinct := table.distinct
  rw [rows,List.map_cons,List.nodup_cons] at distinct
  rw [Table.rows_remove,rows,List.filter_cons,if_neg (by simp),List.filter_eq_self]
  intro row inside
  have apart : row.sequence ≠ first.sequence := fun same => distinct.1 (same ▸ List.mem_map_of_mem inside)
  simpa using apart

/-- The entry of a drain is still what the queue holds under its number. -/
def Device.Holds (m : Device) (entry : Entry) : Prop :=
  ∀ row ∈ m.outbox.rows, row.sequence = entry.sequence → row.patch = entry.patch

theorem Device.Own.replay (own : m.Own) (holds : m.Holds entry)
    (oldest : attempt.delivery.lands = true → m.Oldest entry) :
    (m.replay entry attempt).Own := by
  have numbered {rows : List Entry} (same : rows.map Entry.sequence = m.outbox.rows.map Entry.sequence) :
      ∀ row ∈ rows, row.sequence < m.nextSequence := by
    intro row inside
    obtain ⟨row',inside',same'⟩ := List.mem_map.mp (same ▸ List.mem_map_of_mem inside)
    exact same' ▸ own.numbered row' inside'
  obtain ⟨⟨lands,answers⟩,time⟩ := attempt
  cases lands with
  | false =>
    refine ⟨own.known,numbered (markFailure_sequences m entry.sequence time),?_,own.cache,own.reads⟩
    change (((m.markFailure entry.sequence time).rows.map Entry.patch).foldl PyDict.merge m.chapter).Keeps m.history
    rw [markFailure_patches]
    exact own.chapter
  | true =>
    obtain ⟨first,rest,rows,same⟩ := oldest rfl
    have patch : first.patch = entry.patch := holds first (rows ▸ List.mem_cons_self) same
    have settled : m.settled = (rest.map Entry.patch).foldl PyDict.merge (m.chapter.merge entry.patch) := by
      rw [Device.settled,rows,List.map_cons,List.foldl_cons,patch]
    cases answers with
    | false =>
      refine ⟨own.known,numbered (markFailure_sequences m entry.sequence time),?_,own.cache,own.reads⟩
      change (((m.markFailure entry.sequence time).rows.map Entry.patch).foldl PyDict.merge
        (m.chapter.merge entry.patch)).Keeps m.history
      rw [markFailure_patches,rows,List.map_cons,List.foldl_cons,patch]
      have told := own.chapter
      rw [settled] at told
      exact ((merge_twice m.chapter entry.patch).foldl _).keeps told
    | true =>
      have left : (m.outbox.remove entry.sequence).rows = rest := same ▸ remove_first rows
      refine ⟨own.known,?_,?_,own.cache,own.reads⟩
      · intro row inside
        exact own.numbered row (List.mem_of_mem_filter inside)
      · change (((m.outbox.remove entry.sequence).rows.map Entry.patch).foldl PyDict.merge
          (m.chapter.merge entry.patch)).Keeps m.history
        rw [left,← settled]
        exact own.chapter

theorem Device.Holds.replay {other : Entry} (holds : m.Holds other) : (m.replay entry attempt).Holds other := by
  intro row inside same
  unfold Device.replay at inside
  dsimp only at inside
  split at inside
  · exact holds row (List.mem_of_mem_filter inside) same
  · obtain ⟨before,held,rfl⟩ := List.mem_map.mp inside
    split at same
    next asked =>
      rw [if_pos asked]
      exact holds before held same
    next other =>
      rw [if_neg other]
      exact holds before held same

theorem Device.Own.drained (attempts : ℕ → Attempt) (entries : List Entry) : ∀ {m : Device}, m.Own →
    (∀ entry ∈ entries, m.Holds entry) → m.InOrder attempts entries →
      (entries.foldl (fun m entry => m.replay entry (attempts entry.sequence)) m).Own := by
  induction entries with
  | nil => exact fun own _ _ => own
  | cons entry rest ih =>
    intro m own holds inOrder
    apply ih (own.replay (holds entry List.mem_cons_self) inOrder.1)
    · exact fun other inside => (holds other (List.mem_cons_of_mem _ inside)).replay
    · exact inOrder.2

theorem holds_due (m : Device) (now : Int) : ∀ entry ∈ m.due now, m.Holds entry := by
  intro entry inside row held same
  have listed : entry ∈ m.outbox.rows := List.mem_of_mem_filter (List.mem_of_mem_take inside)
  rw [List.inj_on_of_nodup_map m.outbox.distinct held listed same]

end Drains

theorem valid_known {floatRepr : ℚ → List Char} {patch : Settings} (valid : validatePatch floatRepr patch = true) :
    ∀ key ∈ patch.items.map Prod.fst, key ∈ knownTopLevelKeys := by
  rw [validatePatch,Bool.and_eq_true,List.all_eq_true] at valid
  intro key inside
  obtain ⟨field,held,rfl⟩ := List.mem_map.mp inside
  exact of_decide_eq_true (valid.2 field held)

theorem Device.Own.step {floatRepr : ℚ → List Char} {m m' : Device} {move : Move} (own : m.Own)
    (careful : Careful m move)
    (stepped : m.step floatRepr move = some m') : m'.Own := by
  cases move with
  | push patch delivery now cachedAt =>
    rw [Device.step] at stepped
    split at stepped
    next valid =>
      obtain rfl := Option.some.inj stepped
      exact own.push (valid_known valid) careful now cachedAt
    next => cases stepped
  | drain now attempts =>
    obtain rfl := Option.some.inj stepped
    exact own.drained attempts _ (holds_due m now) careful
  | syncOnStartup answers cachedAt =>
    obtain rfl := Option.some.inj stepped
    exact (own.pull careful cachedAt).1
  | effectiveSettings answers cachedAt =>
    obtain rfl := Option.some.inj stepped
    obtain ⟨after,returned,_⟩ := own.pull careful cachedAt
    refine ⟨after.known,after.numbered,after.chapter,after.cache,List.forall_mem_cons.mpr ⟨returned,?_⟩⟩
    exact own.reads

theorem Device.opened_own (chapter : Settings) (cache : Option Settings) : (Device.opened chapter cache).Own where
  known _ inside := absurd inside List.not_mem_nil
  numbered _ inside := absurd inside List.not_mem_nil
  chapter _ _ told := by cases told
  cache _ _ told := by cases told
  reads _ inside := absurd inside List.not_mem_nil

/-- Where the chapter is asked, and told something new, only while nothing is queued, and
is told what is queued in order, every leaf that is read has the value of the latest patch
that set it. -/
theorem reads_own_settings (floatRepr : ℚ → List Char) (chapter : Settings) (cache : Option Settings) {m : Device}
    (run : Runs.Reached (Device.step floatRepr) Careful (Device.opened chapter cache) m) :
    ∀ read ∈ m.reads, ∀ path value, said read.history path = some value → read.returned.leaf path = some value := by
  have own : m.Own := by
    induction run with
    | start => exact Device.opened_own chapter cache
    | step _ careful stepped ih => exact ih.step careful stepped
  exact own.reads

def telemetryOn : Settings where
  items := [("privacy",.obj [("telemetry",.bool true)])]
  distinct := by simp [Distinct,DistinctFields]

def telemetryPath : List String := ["privacy","telemetry"]

def flag : Option Json → Option Bool
  | some (.bool b) => some b
  | _ => none

theorem flag_some {held : Option Json} {b : Bool} (flagged : flag held = some b) : held = some (.bool b) := by
  unfold flag at flagged
  split at flagged
  · rw [Option.some.inj flagged]
  · cases flagged

def Device.isOldest (m : Device) (entry : Entry) : Bool :=
  match m.outbox.rows with
  | first :: _ => first.sequence = entry.sequence
  | [] => false

def Device.inOrder (attempts : ℕ → Attempt) : Device → List Entry → Bool
  | _, [] => true
  | m, entry :: rest => (!(attempts entry.sequence).delivery.lands || m.isOldest entry) &&
      inOrder attempts (m.replay entry (attempts entry.sequence)) rest

theorem inOrder_sound {attempts : ℕ → Attempt} (entries : List Entry) : ∀ {m : Device},
    m.inOrder attempts entries = true → m.InOrder attempts entries := by
  induction entries with
  | nil => exact fun _ => trivial
  | cons entry rest ih =>
    intro m checked
    simp only [Device.inOrder,Bool.and_eq_true,Bool.or_eq_true,Bool.not_eq_true'] at checked
    refine ⟨fun lands => ?_,ih checked.2⟩
    obtain lost | oldest := checked.1
    · cases lands.symm.trans lost
    · unfold Device.isOldest at oldest
      split at oldest
      next first rest rows => exact ⟨first,rest,rows,of_decide_eq_true oldest⟩
      next => cases oldest

def carefully (m : Device) : Move → Bool
  | .push _ delivery _ _ => !delivery.lands || m.outbox.rows.isEmpty
  | .drain now attempts => m.inOrder attempts (m.due now)
  | .syncOnStartup answers _ | .effectiveSettings answers _ => !answers || m.outbox.rows.isEmpty

theorem carefully_careful (m : Device) (move : Move) (checked : carefully m move = true) : Careful m move := by
  have alone {asked : Bool} (checked : (!asked || m.outbox.rows.isEmpty) = true) (yes : asked = true) :
      m.outbox.rows = [] := by
    rw [yes] at checked
    exact List.isEmpty_iff.mp checked
  cases move with
  | push patch delivery now cachedAt => exact alone checked
  | drain now attempts => exact inOrder_sound _ checked
  | syncOnStartup answers cachedAt => exact alone checked
  | effectiveSettings answers cachedAt => exact alone checked

/-- The choice is made offline, brought to the chapter, and read. -/
theorem drained_then_read : ∃ m : Device, ∃ read ∈ m.reads, said read.history telemetryPath = some (.bool true) ∧
    read.returned.leaf telemetryPath = some (.bool true) := by
  have walked : ((Runs.walk (Device.step fun _ => []) carefully [.push telemetryOn ⟨false,false⟩ 0 "",
      .drain 5 (fun _ => ⟨⟨true,true⟩,5⟩),.effectiveSettings true ""] (Device.opened .empty none)).bind fun m =>
        m.reads.head?.map fun read => flag (said read.history telemetryPath)) = some (some true) := by
    decide +kernel
  obtain ⟨m,walked,seen⟩ := Option.bind_eq_some_iff.mp walked
  obtain ⟨read,first,told⟩ := Option.map_eq_some_iff.mp seen
  have inside : read ∈ m.reads := List.mem_of_mem_head? first
  exact ⟨m,read,inside,flag_some told,reads_own_settings (fun _ => []) .empty none
    (Runs.reached_walk carefully_careful _ .start walked) read inside _ _ (flag_some told)⟩

/-- The choice is made offline, and the chapter is asked before it is told. -/
theorem read_while_queued : ∃ m : Device, Runs.Reached (Device.step fun _ => []) Runs.Free
    (Device.opened .empty none) m ∧
    ∃ read ∈ m.reads, said read.history telemetryPath = some (.bool true) ∧
      read.returned.leaf telemetryPath = some (.bool false) := by
  have walked : ((Runs.walk (Device.step fun _ => []) (fun _ _ => true) [.push telemetryOn ⟨false,false⟩ 0 "",
      .effectiveSettings true ""] (Device.opened .empty none)).bind fun m => m.reads.head?.map fun read =>
        (flag (said read.history telemetryPath),flag (read.returned.leaf telemetryPath))) =
          some (some true,some false) := by
    decide +kernel
  obtain ⟨m,walked,seen⟩ := Option.bind_eq_some_iff.mp walked
  obtain ⟨read,first,told⟩ := Option.map_eq_some_iff.mp seen
  obtain ⟨said,held⟩ := Prod.mk.inj told
  exact ⟨m,Runs.reached_walk (fun _ _ _ => trivial) _ .start walked,read,List.mem_of_mem_head? first,flag_some said,
    flag_some held⟩

end Orrery.Member
