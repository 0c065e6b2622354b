import Orrery.Member.OwnSettings

/-! The outbox on its own (community_member/outbox.py): every sequence of patches that are
queued and of drains, with what becomes of each entry and the times at which they come. -/
namespace Orrery.Member
open Foundation Json PyDict

def Device.peek (m : Device) (now : Int) (limit : ℕ) : List Entry :=
  (m.outbox.select fun entry => entry.nextRetryAt ≤ now).take limit

theorem due_eq (m : Device) (now : Int) : m.due now = m.peek now 100 := rfl

inductive QueueMove
  | enqueue (patch : Settings) (now : Int)
  | drain (now : Int) (maxToDrain : ℕ) (attempts : ℕ → Attempt)

def Device.turn (m : Device) : QueueMove → Option Device
  | .enqueue patch now => some { m.enqueue patch now with history := patch :: m.history }
  | .drain now maxToDrain attempts =>
    some ((m.peek now maxToDrain).foldl (fun m entry => m.replay entry (attempts entry.sequence)) m)

section Conditions
variable (m : Device)

/-- No older entry of the queue says otherwise on anything that the entry sets. -/
def Device.Undisputed (entry : Entry) : Prop :=
  ∀ row ∈ m.outbox.rows, row.sequence < entry.sequence → Agree row.patch entry.patch

def Device.Settles (attempts : ℕ → Attempt) : Device → List Entry → Prop
  | _, [] => True
  | m, entry :: rest => ((attempts entry.sequence).delivery.lands = true → m.Undisputed entry) ∧
      Settles attempts (m.replay entry (attempts entry.sequence)) rest

def Undisputing (m : Device) : QueueMove → Prop
  | .enqueue _ _ => True
  | .drain now maxToDrain attempts => m.Settles attempts (m.peek now maxToDrain)

/-- The chapter with the queue is as all patches leave it in their order. -/
structure Device.Ordered (chapter : Settings) : Prop where
  sorted : (m.outbox.rows.map Entry.sequence).Pairwise (· < ·)
  numbered : ∀ entry ∈ m.outbox.rows, entry.sequence < m.nextSequence
  settled : Same m.settled (m.history.reverse.foldl PyDict.merge chapter)

end Conditions

section Steps
variable {m : Device} {chapter : Settings} {entry : Entry} {attempt : Attempt}

theorem Device.Ordered.enqueue (ordered : m.Ordered chapter) (patch : Settings) (now : Int) :
    ({ m.enqueue patch now with history := patch :: m.history } : Device).Ordered chapter where
  sorted := by
    have rows := enqueue_rows ordered.numbered patch now
    change ((m.enqueue patch now).outbox.rows.map Entry.sequence).Pairwise _
    rw [rows,List.map_append,List.pairwise_append]
    refine ⟨ordered.sorted,List.pairwise_singleton _ _,fun sequence inside other new => ?_⟩
    obtain ⟨row,listed,rfl⟩ := List.mem_map.mp inside
    rw [List.mem_singleton.mp new]
    exact ordered.numbered row listed
  numbered := by
    intro row inside
    have listed : row ∈ m.outbox.rows ++ [⟨m.nextSequence,patch,now,0,now⟩] :=
      enqueue_rows ordered.numbered patch now ▸ inside
    rcases List.mem_append.mp listed with before | here
    · exact Nat.lt_succ_of_lt (ordered.numbered row before)
    · rw [List.mem_singleton.mp here]
      exact Nat.lt_succ_self _
  settled := by
    have settled : (m.enqueue patch now).settled = m.settled.merge patch := settled_enqueue ordered.numbered now
    change Same (m.enqueue patch now).settled ((patch :: m.history).reverse.foldl PyDict.merge chapter)
    rw [settled,List.reverse_cons,List.foldl_append]
    exact ordered.settled.merge patch

def Device.Queued (m : Device) (entry : Entry) : Prop :=
  ∃ row ∈ m.outbox.rows, row.sequence = entry.sequence ∧ row.patch = entry.patch

theorem queued_split (sorted : (m.outbox.rows.map Entry.sequence).Pairwise (· < ·)) (queued : m.Queued entry) :
    ∃ older row newer, m.outbox.rows = older ++ row :: newer ∧ row.patch = entry.patch ∧
      (∀ old ∈ older, old.sequence < entry.sequence) ∧ (m.outbox.remove entry.sequence).rows = older ++ newer := by
  obtain ⟨row,inside,same,patch⟩ := queued
  obtain ⟨older,newer,rows⟩ := List.append_of_mem inside
  rw [rows,List.map_append,List.map_cons,List.pairwise_append,List.pairwise_cons] at sorted
  have before : ∀ old ∈ older, old.sequence < entry.sequence := by
    intro old listed
    rw [← same]
    exact sorted.2.2 _ (List.mem_map_of_mem listed) _ List.mem_cons_self
  have after : ∀ new ∈ newer, entry.sequence < new.sequence := by
    intro new listed
    rw [← same]
    exact sorted.2.1.1 _ (List.mem_map_of_mem listed)
  refine ⟨older,row,newer,rows,patch,before,?_⟩
  have kept : older.filter (fun r => r.sequence ≠ entry.sequence) = older :=
    List.filter_eq_self.mpr fun old listed => by simpa using (before old listed).ne
  have kept' : newer.filter (fun r => r.sequence ≠ entry.sequence) = newer :=
    List.filter_eq_self.mpr fun new listed => by simpa using (after new listed).ne'
  rw [Table.rows_remove,rows,List.filter_append,List.filter_cons,kept,kept',if_neg (by simpa using same)]

theorem Device.Ordered.replay (ordered : m.Ordered chapter) (queued : m.Queued entry)
    (undisputed : attempt.delivery.lands = true → m.Undisputed entry) : (m.replay entry attempt).Ordered chapter := by
  have numbered {rows : List Entry} (same : rows.map Entry.sequence = m.outbox.rows.map Entry.sequence) :
      ∀ row ∈ rows, row.sequence < m.nextSequence := by
    intro row inside
    obtain ⟨row',inside',same'⟩ := List.mem_map.mp (same ▸ List.mem_map_of_mem inside)
    exact same' ▸ ordered.numbered row' inside'
  obtain ⟨⟨lands,answers⟩,time⟩ := attempt
  have noted := markFailure_sequences m entry.sequence time
  cases lands with
  | false =>
    refine ⟨?_,numbered noted,?_⟩
    · change ((m.markFailure entry.sequence time).rows.map Entry.sequence).Pairwise _
      rw [noted]
      exact ordered.sorted
    · change Same (((m.markFailure entry.sequence time).rows.map Entry.patch).foldl PyDict.merge m.chapter) _
      rw [markFailure_patches]
      exact ordered.settled
  | true =>
    obtain ⟨older,row,newer,rows,patch,before,left⟩ := queued_split ordered.sorted queued
    have agree : ∀ p ∈ older.map Entry.patch, Agree p entry.patch := by
      intro p inside
      obtain ⟨old,listed,rfl⟩ := List.mem_map.mp inside
      exact undisputed rfl old (rows ▸ List.mem_append_left _ listed) (before old listed)
    have settled := ordered.settled
    rw [Device.settled,rows,List.map_append,List.map_cons,List.foldl_append,List.foldl_cons,patch] at settled
    have early := merge_before agree m.chapter
    cases answers with
    | false =>
      refine ⟨?_,numbered noted,?_⟩
      · change ((m.markFailure entry.sequence time).rows.map Entry.sequence).Pairwise _
        rw [noted]
        exact ordered.sorted
      · change Same (((m.markFailure entry.sequence time).rows.map Entry.patch).foldl PyDict.merge
          (m.chapter.merge entry.patch)) _
        rw [markFailure_patches,rows,List.map_append,List.map_cons,List.foldl_append,List.foldl_cons,patch]
        exact (((early.merge entry.patch).trans (merge_twice _ entry.patch)).foldl _).trans settled
    | true =>
      refine ⟨?_,?_,?_⟩
      · exact ordered.sorted.sublist (List.filter_sublist.map Entry.sequence)
      · exact fun row inside => ordered.numbered row (List.mem_of_mem_filter inside)
      · change Same (((m.outbox.remove entry.sequence).rows.map Entry.patch).foldl PyDict.merge
          (m.chapter.merge entry.patch)) _
        rw [left,List.map_append,List.foldl_append]
        exact (early.foldl _).trans settled

theorem Device.Queued.replay {other : Entry} (queued : m.Queued other) (apart : other.sequence ≠ entry.sequence) :
    (m.replay entry attempt).Queued other := by
  obtain ⟨row,inside,same,patch⟩ := queued
  have kept : row.sequence ≠ entry.sequence := fun equal => apart (same.symm.trans equal)
  obtain ⟨⟨lands,answers⟩,time⟩ := attempt
  have noted : row ∈ (m.markFailure entry.sequence time).rows :=
    List.mem_map.mpr ⟨row,inside,by simp [kept]⟩
  have left : row ∈ (m.outbox.remove entry.sequence).rows := List.mem_filter.mpr ⟨inside,by simpa using kept⟩
  cases lands with
  | false => exact ⟨row,noted,same,patch⟩
  | true =>
    cases answers with
    | false => exact ⟨row,noted,same,patch⟩
    | true => exact ⟨row,left,same,patch⟩

theorem Device.Ordered.drained (attempts : ℕ → Attempt) (entries : List Entry) : ∀ {m : Device}, m.Ordered chapter →
    (entries.map Entry.sequence).Nodup → (∀ entry ∈ entries, m.Queued entry) → m.Settles attempts entries →
      (entries.foldl (fun m entry => m.replay entry (attempts entry.sequence)) m).Ordered chapter := by
  induction entries with
  | nil => exact fun ordered _ _ _ => ordered
  | cons entry rest ih =>
    intro m ordered distinct queued settles
    rw [List.map_cons,List.nodup_cons] at distinct
    apply ih (ordered.replay (queued entry List.mem_cons_self) settles.1) distinct.2
    · intro other inside
      have apart : other.sequence ≠ entry.sequence := fun same => distinct.1 (same ▸ List.mem_map_of_mem inside)
      exact (queued other (List.mem_cons_of_mem _ inside)).replay apart
    · exact settles.2

theorem Device.Ordered.turn {m' : Device} {move : QueueMove} (ordered : m.Ordered chapter) (ok : Undisputing m move)
    (next : m.turn move = some m') : m'.Ordered chapter := by
  cases move with
  | enqueue patch now =>
    cases next
    exact ordered.enqueue patch now
  | drain now maxToDrain attempts =>
    cases next
    apply ordered.drained attempts _ _ _ ok
    · have part : (m.peek now maxToDrain).Sublist m.outbox.rows := (List.take_sublist _ _).trans List.filter_sublist
      exact m.outbox.distinct.sublist (part.map Entry.sequence)
    · intro entry inside
      have listed : entry ∈ m.outbox.rows := List.mem_of_mem_filter (List.mem_of_mem_take inside)
      exact ⟨entry,listed,rfl,rfl⟩

end Steps

/-- Where no entry reaches the chapter before an older one that disagrees with it, the
chapter is told all patches as if in their order, once nothing is queued. -/
theorem settings_converge (chapter : Settings) (cache : Option Settings) {m : Device}
    (run : Runs.Reached Device.turn Undisputing (Device.opened chapter cache) m) (drained : m.outbox.rows = []) :
    Same m.chapter (m.history.reverse.foldl PyDict.merge chapter) := by
  have ordered : m.Ordered chapter := by
    refine run.invariant (P := fun m => m.Ordered chapter) ?_ fun _ _ _ kept ok next => kept.turn ok next
    exact ⟨List.Pairwise.nil,fun entry inside => absurd inside List.not_mem_nil,fun _ => rfl⟩
  have settled := ordered.settled
  rw [settled_alone drained] at settled
  exact settled

section Samples

def telemetryOff : Settings where
  items := [("privacy",.obj [("telemetry",.bool false)])]
  distinct := by simp [Distinct,DistinctFields]

def wakeWordOn : Settings where
  items := [("voice",.obj [("wake_word",.bool true)])]
  distinct := by simp [Distinct,DistinctFields]

def reaching (now : Int) (sequences : List ℕ) : QueueMove := .drain now 100 fun sequence =>
  ⟨⟨decide (sequence ∈ sequences),decide (sequence ∈ sequences)⟩,now⟩

def differ (p q : Settings) : Bool := p.items.all fun field => field.1 ∉ q.items.map Prod.fst

def Device.settlesApart (attempts : ℕ → Attempt) : Device → List Entry → Bool
  | _, [] => true
  | m, entry :: rest =>
    (!(attempts entry.sequence).delivery.lands ||
      m.outbox.rows.all fun row => entry.sequence ≤ row.sequence || differ row.patch entry.patch) &&
        settlesApart attempts (m.replay entry (attempts entry.sequence)) rest

theorem settlesApart_sound {attempts : ℕ → Attempt} (entries : List Entry) : ∀ {m : Device},
    m.settlesApart attempts entries = true → m.Settles attempts entries := by
  induction entries with
  | nil => exact fun _ => trivial
  | cons entry rest ih =>
    intro m checked
    simp only [Device.settlesApart,Bool.and_eq_true,Bool.or_eq_true,Bool.not_eq_true',List.all_eq_true] at checked
    refine ⟨fun lands row inside older => ?_,ih checked.2⟩
    rcases checked.1 with lost | apart
    · cases lands.symm.trans lost
    · rcases apart row inside with later | apart
      · exact absurd older (not_lt.mpr (of_decide_eq_true later))
      · apply agree_of_disjoint
        intro key held
        obtain ⟨field,own,rfl⟩ := List.mem_map.mp held
        simpa using List.all_eq_true.mp apart field own

def apart (m : Device) : QueueMove → Bool
  | .enqueue _ _ => true
  | .drain now maxToDrain attempts => m.settlesApart attempts (m.peek now maxToDrain)

theorem apart_sound (m : Device) (move : QueueMove) (checked : apart m move = true) : Undisputing m move := by
  cases move with
  | enqueue patch now => trivial
  | drain now maxToDrain attempts => exact settlesApart_sound _ checked

/-- The newer patch comes first, and is of another key. -/
theorem apart_converges : ∃ m : Device, m.outbox.rows = [] ∧ flag (m.chapter.leaf telemetryPath) = some true ∧
    Same m.chapter (m.history.reverse.foldl PyDict.merge .empty) := by
  have walked : ((Runs.walk Device.turn apart [.enqueue telemetryOn 0,.enqueue wakeWordOn 0,reaching 0 [2],
      reaching 20 [1]] (Device.opened .empty none)).map fun m =>
        (m.outbox.rows.isEmpty,flag (m.chapter.leaf telemetryPath))) = some (true,some true) := by
    decide +kernel
  obtain ⟨m,arrived,seen⟩ := Option.map_eq_some_iff.mp walked
  obtain ⟨drained,told⟩ := Prod.mk.inj seen
  have run := Runs.reached_walk apart_sound _ .start arrived
  exact ⟨m,List.isEmpty_iff.mp drained,told,settings_converge .empty none run (List.isEmpty_iff.mp drained)⟩

/-- The older patch fails and is tried again after the newer one. -/
theorem late_overrides : ¬ ∀ m : Device, Runs.Reached Device.turn Runs.Free (Device.opened .empty none) m →
    m.outbox.rows = [] → Same m.chapter (m.history.reverse.foldl PyDict.merge .empty) := by
  intro converges
  have walked : ((Runs.walk Device.turn (fun _ _ => true) [.enqueue telemetryOff 0,reaching 0 [],
      .enqueue telemetryOn 1,reaching 1 [2],reaching 20 [1]] (Device.opened .empty none)).map fun m =>
        (m.outbox.rows.isEmpty,flag (m.chapter.leaf telemetryPath),
          flag ((m.history.reverse.foldl PyDict.merge .empty).leaf telemetryPath))) =
            some (true,some false,some true) := by
    decide +kernel
  obtain ⟨m,arrived,seen⟩ := Option.map_eq_some_iff.mp walked
  obtain ⟨drained,seen⟩ := Prod.mk.inj seen
  obtain ⟨told,meant⟩ := Prod.mk.inj seen
  have same := converges m (Runs.reached_walk (fun _ _ _ => trivial) _ .start arrived) (List.isEmpty_iff.mp drained)
  rw [same.leaf telemetryPath,meant] at told
  cases told

end Samples

end Orrery.Member
