import Mathlib.Data.List.Sort
import Mathlib.Data.List.Perm.Subperm
import Mathlib.Data.List.Pairwise

/-! Windows on an append-only log. A query that orders a log by time, newest first,
and keeps the first few rows sees a window of it; rows of one instant come in an
order of the query's own. The counting argument at the end bounds how many marks
on rows of one window can overtake an earlier mark. -/
namespace Orrery.Foundation

inductive Tie
  | rising | falling
deriving DecidableEq

def Tie.orders (tie : Tie) (a b : Nat) : Prop :=
  match tie with
  | .rising => a < b
  | .falling => b < a

instance (tie : Tie) (a b : Nat) : Decidable (tie.orders a b) :=
  match tie with
  | .rising => inferInstanceAs (Decidable (a < b))
  | .falling => inferInstanceAs (Decidable (b < a))

structure Ranking (α : Type) where
  time : α → Nat
  serial : α → Nat
  tie : Tie

theorem length_le_countP {α : Type} (part items : List α) (p : α → Bool) (distinct : part.Nodup)
    (inside : ∀ a ∈ part, a ∈ items ∧ p a = true) : part.length ≤ items.countP p := by
  have contained : part ⊆ items.filter p := by
    intro a member
    rw [List.mem_filter]
    exact inside a member
  rw [List.countP_eq_length_filter]
  exact (List.subperm_of_subset distinct contained).length_le

namespace Ranking
variable {α : Type} (r : Ranking α)

def before (a b : α) : Prop :=
  r.time b < r.time a ∨ r.time a = r.time b ∧ r.tie.orders (r.serial a) (r.serial b)

instance (a b : α) : Decidable (r.before a b) :=
  inferInstanceAs (Decidable (r.time b < r.time a ∨ r.time a = r.time b ∧ r.tie.orders (r.serial a) (r.serial b)))

def newest (n : Nat) (items : List α) : List α := (items.insertionSort fun a b => ¬ r.before b a).take n

theorem before_irrefl (a : α) : ¬ r.before a a := by
  unfold before Tie.orders
  cases r.tie <;> simp

theorem before_trans {a b c : α} (first : r.before a b) (second : r.before b c) : r.before a c := by
  unfold before Tie.orders at *
  cases tie : r.tie <;> simp only [tie] at * <;> omega

theorem before_asymm {a b : α} (first : r.before a b) : ¬ r.before b a :=
  fun second => r.before_irrefl a (r.before_trans first second)

theorem before_total {a b : α} (distinct : r.serial a ≠ r.serial b) : r.before a b ∨ r.before b a := by
  unfold before Tie.orders
  cases tie : r.tie <;> simp only <;> omega

theorem before_time {a b : α} (first : r.before a b) : r.time b ≤ r.time a := by
  unfold before at first
  omega

theorem not_before_trans {a b c : α} (first : ¬ r.before b a) (second : ¬ r.before c b) : ¬ r.before c a := by
  unfold before Tie.orders at *
  cases tie : r.tie <;> simp only [tie] at * <;> omega

theorem mem_take_iff (items : List α) (ordered : items.Pairwise r.before) (a : α) : ∀ n,
    a ∈ items.take n ↔ a ∈ items ∧ items.countP (r.before · a) < n := by
  induction items with
  | nil => simp
  | cons b rest ih =>
    obtain ⟨first,ordered⟩ := List.pairwise_cons.mp ordered
    intro n
    cases n with
    | zero => simp
    | succ n =>
      rw [List.take_succ_cons,List.mem_cons,List.mem_cons,ih ordered n]
      by_cases same : a = b
      · subst same
        have none : rest.countP (r.before · a) = 0 := by
          rw [List.countP_eq_zero]
          intro c inside
          simpa using r.before_asymm (first c inside)
        simp [none,r.before_irrefl a]
      · by_cases inside : a ∈ rest
        · simp [same,inside,first a inside]
        · simp [same,inside]

def Distinct (items : List α) : Prop := items.Pairwise fun a b => r.serial a ≠ r.serial b

theorem mem_newest (items : List α) (distinct : r.Distinct items) (a : α) (n : Nat) :
    a ∈ r.newest n items ↔ a ∈ items ∧ items.countP (r.before · a) < n := by
  let rank : α → α → Prop := fun a b => ¬ r.before b a
  have total : Std.Total rank := ⟨fun a b => by
    by_cases first : r.before b a
    · exact Or.inr (r.before_asymm first)
    · exact Or.inl first⟩
  have trans : IsTrans α rank := ⟨fun _ _ _ first second => r.not_before_trans first second⟩
  have permuted : (items.insertionSort rank).Perm items := List.perm_insertionSort rank items
  have apart : r.Distinct (items.insertionSort rank) :=
    (permuted.pairwise_iff (by intro a b apart equal; exact apart equal.symm)).mpr distinct
  have ordered : (items.insertionSort rank).Pairwise r.before := by
    refine (apart.and (List.pairwise_insertionSort rank items)).imp ?_
    intro a b premise
    obtain ⟨apart,ranked⟩ := premise
    exact (r.before_total apart).resolve_right ranked
  have counted := permuted.countP_eq (r.before · a)
  rw [newest,r.mem_take_iff _ ordered,permuted.mem_iff,counted]

theorem newest_subset (items : List α) (n : Nat) : r.newest n items ⊆ items := fun _ member =>
  (List.perm_insertionSort _ items).subset (List.mem_of_mem_take member)

def Log (items : List α) : Prop := items.Pairwise fun a b => r.serial a < r.serial b ∧ r.time a ≤ r.time b

theorem Log.distinct {items : List α} (log : r.Log items) : r.Distinct items :=
  log.imp fun both => Nat.ne_of_lt both.1

theorem Log.sublist {items part : List α} (log : r.Log items) (sub : part.Sublist items) : r.Log part :=
  List.Pairwise.sublist sub log

theorem Log.order {items : List α} (log : r.Log items) {a b : α} (first : a ∈ items) (second : b ∈ items) :
    a = b ∨ (r.serial a < r.serial b ∧ r.time a ≤ r.time b) ∨ (r.serial b < r.serial a ∧ r.time b ≤ r.time a) := by
  by_cases same : a = b
  · exact Or.inl same
  · let either : α → α → Prop := fun a b =>
      (r.serial a < r.serial b ∧ r.time a ≤ r.time b) ∨ (r.serial b < r.serial a ∧ r.time b ≤ r.time a)
    have symm : Std.Symm either := ⟨fun _ _ => Or.symm⟩
    have all : items.Pairwise either := log.imp Or.inl
    exact Or.inr (all.forall first second same)

theorem Log.time_mono {items : List α} (log : r.Log items) {a b : α} (first : a ∈ items) (second : b ∈ items)
    (earlier : r.serial a ≤ r.serial b) : r.time a ≤ r.time b := by
  rcases log.order r first second with rfl | before | after
  · exact Nat.le_refl _
  · exact before.2
  · omega

theorem Log.serial_inj {items : List α} (log : r.Log items) {a b : α} (first : a ∈ items) (second : b ∈ items)
    (same : r.serial a = r.serial b) : a = b := by
  rcases log.order r first second with equal | before | after
  · exact equal
  · omega
  · omega

theorem Log.nodup {items : List α} (log : r.Log items) : items.Nodup := by
  refine List.Pairwise.imp ?_ log
  intro a b both same
  rw [same] at both
  exact Nat.lt_irrefl _ both.1

theorem newest_nodup (items : List α) (distinct : items.Nodup) (n : Nat) : (r.newest n items).Nodup :=
  ((List.perm_insertionSort _ items).nodup_iff.mpr distinct).sublist (List.take_sublist _ _)

theorem exists_last {items : List α} (log : r.Log items) (part : List α) (inside : ∀ a ∈ part, a ∈ items)
    (some : part ≠ []) : ∃ last ∈ part, ∀ a ∈ part, a ≠ last → r.before a last := by
  induction part with
  | nil => exact absurd rfl some
  | cons a rest ih =>
    by_cases single : rest = []
    · subst single
      exact ⟨a,by simp,by simp⟩
    · obtain ⟨last,member,after⟩ := ih (fun b within => inside b (by simp [within])) single
      by_cases same : a = last
      · refine ⟨last,by simp [member],?_⟩
        intro b within other
        rcases List.mem_cons.mp within with rfl | within
        · exact absurd same other
        · exact after b within other
      · have apart : r.serial a ≠ r.serial last := fun equal =>
          same (log.serial_inj r (inside a (by simp)) (inside last (by simp [member])) equal)
        rcases r.before_total apart with first | first
        · refine ⟨last,by simp [member],?_⟩
          intro b within other
          rcases List.mem_cons.mp within with rfl | within
          · exact first
          · exact after b within other
        · refine ⟨a,by simp,?_⟩
          intro b within other
          rcases List.mem_cons.mp within with rfl | within
          · exact absurd rfl other
          · by_cases top : b = last
            · exact top ▸ first
            · exact r.before_trans (after b within top) first

structure Marked (α : Type) where
  target : α
  mark : α
  read : Nat

/-- Marks made one after the other, each on a new row that was among the first
`width` of its kind when the log was read. -/
structure Marking (items : List α) (kind : α → Bool) (width : Nat) (marks : List (Marked α)) : Prop where
  log : r.Log items
  within : ∀ x ∈ marks, x.target ∈ items ∧ x.mark ∈ items
  sort : ∀ x ∈ marks, kind x.target = true
  read : ∀ x ∈ marks, r.serial x.target ≤ x.read ∧ x.read < r.serial x.mark
  shown : ∀ x ∈ marks, (items.filter kind).countP
    (fun b => decide (r.serial b ≤ x.read) && decide (r.before b x.target)) < width
  serialised : marks.Pairwise fun x y => r.serial x.mark ≤ y.read
  distinct : (marks.map Marked.target).Nodup

def unmarked (marks : List (Marked α)) (row : α) : Bool := marks.all fun x => r.serial x.mark != r.serial row

section Counting
variable {r} {items : List α} {kind : α → Bool} {width : Nat} {marks : List (Marked α)}

theorem Marking.target_inj (marking : r.Marking items kind width marks) {x y : Marked α} (first : x ∈ marks)
    (second : y ∈ marks) (same : x.target = y.target) : x = y :=
  List.inj_on_of_nodup_map marking.distinct first second same

theorem Marking.crowd (marking : r.Marking items kind width marks) (part : List (Marked α)) (extra : List α)
    (some : part ≠ []) (inside : ∀ y ∈ part, y ∈ marks) (distinct : (extra ++ part.map Marked.target).Nodup)
    (there : ∀ y ∈ part, ∀ z ∈ part, r.before y.target z.target → r.serial y.target ≤ z.read)
    (ahead : ∀ e ∈ extra, (e ∈ items ∧ kind e = true) ∧ ∀ z ∈ part, r.before e z.target ∧ r.serial e ≤ z.read) :
    extra.length + part.length ≤ width := by
  have targets : ∀ a ∈ part.map Marked.target, a ∈ items := by
    intro a member
    obtain ⟨y,within,rfl⟩ := List.mem_map.mp member
    exact (marking.within y (inside y within)).1
  obtain ⟨last,member,after⟩ := exists_last r marking.log (part.map Marked.target) targets (by simpa using some)
  obtain ⟨z,within,rfl⟩ := List.mem_map.mp member
  obtain ⟨front,back,split⟩ := List.append_of_mem member
  rw [split] at distinct
  have apart : (extra ++ (front ++ back)).Nodup ∧ z.target ∉ front ++ back := by
    have moved : (extra ++ (front ++ z.target :: back)).Perm (z.target :: (extra ++ (front ++ back))) :=
      (List.perm_middle.append_left extra).trans List.perm_middle
    have both := List.nodup_cons.mp (moved.nodup_iff.mp distinct)
    exact ⟨both.2,fun again => both.1 (List.mem_append_right _ again)⟩
  have counted : (extra ++ (front ++ back)).length ≤ (items.filter kind).countP
      (fun b => decide (r.serial b ≤ z.read) && decide (r.before b z.target)) := by
    refine length_le_countP _ _ _ apart.1 ?_
    intro a member
    rcases List.mem_append.mp member with early | other
    · obtain ⟨⟨listed,sort⟩,ahead⟩ := ahead a early
      exact ⟨List.mem_filter.mpr ⟨listed,sort⟩,by simpa using ⟨(ahead z within).2,(ahead z within).1⟩⟩
    · have listed : a ∈ part.map Marked.target := by
        rw [split]
        rcases List.mem_append.mp other with left | right
        · exact List.mem_append_left _ left
        · exact List.mem_append_right _ (List.mem_cons_of_mem _ right)
      have first := after a listed fun same => apart.2 (same ▸ other)
      obtain ⟨y,among,rfl⟩ := List.mem_map.mp listed
      have known := inside y among
      exact ⟨List.mem_filter.mpr ⟨(marking.within y known).1,marking.sort y known⟩,
        by simpa using ⟨there y among z within first,first⟩⟩
  have length := congrArg List.length split
  have shown := marking.shown z (inside z within)
  simp only [List.length_map,List.length_append,List.length_cons] at length counted
  omega

theorem Marking.after (marking : r.Marking items kind width marks) {x y : Marked α} (first : x ∈ marks)
    (second : y ∈ marks) (later : r.serial x.mark < r.serial y.mark) : r.serial x.mark ≤ y.read := by
  have known := marking.read x first
  have known' := marking.read y second
  by_cases same : x = y
  · rw [same] at later
    exact absurd later (Nat.lt_irrefl _)
  · let either : Marked α → Marked α → Prop := fun x y => r.serial x.mark ≤ y.read ∨ r.serial y.mark ≤ x.read
    have symm : Std.Symm either := ⟨fun _ _ => Or.symm⟩
    have all : marks.Pairwise either := marking.serialised.imp Or.inl
    rcases all.forall first second same with ordered | reversed
    · exact ordered
    · omega

section Overtaken
variable (marking : r.Marking items kind width marks) {x : Marked α}
include marking

theorem Marking.ahead_of (now : (items.filter kind).countP (r.before · x.target) < width) (part : List (Marked α))
    (sub : part.Sublist marks) (ahead : ∀ y ∈ part, r.before y.target x.target) : part.length + 1 ≤ width := by
  have counted : (part.map Marked.target).length ≤ (items.filter kind).countP (r.before · x.target) := by
    refine length_le_countP _ _ _ (marking.distinct.sublist (sub.map _)) ?_
    intro a listed
    obtain ⟨y,among,rfl⟩ := List.mem_map.mp listed
    have known := sub.subset among
    exact ⟨List.mem_filter.mpr ⟨(marking.within y known).1,marking.sort y known⟩,by simpa using ahead y among⟩
  rw [List.length_map] at counted
  omega

variable (member : x ∈ marks)
include member

theorem Marking.older_than (part : List (Marked α)) (sub : part.Sublist marks)
    (beats : ∀ y ∈ part, r.before y.mark x.mark) (older : ∀ y ∈ part, r.time y.target < r.time x.target) :
    part.length ≤ width + 1 := by
  cases part with
  | nil => simp
  | cons first rest =>
    by_cases single : rest = []
    · simp [single]
    · have rest_sub : rest.Sublist marks := (List.sublist_cons_self first rest).trans sub
      have here := sub.subset (List.mem_cons_self (a := first) (l := rest))
      have behind : ∀ z ∈ rest, r.serial first.mark ≤ z.read := by
        intro z among
        exact (List.pairwise_cons.mp (marking.serialised.sublist sub)).1 z among
      have there : ∀ y ∈ rest, ∀ z ∈ rest, r.before y.target z.target → r.serial y.target ≤ z.read := by
        intro y among z among' _
        have known := rest_sub.subset among
        have late : r.time x.target ≤ r.time x.mark :=
          marking.log.time_mono r (marking.within x member).1 (marking.within x member).2
            (by have := marking.read x member; omega)
        have beats := r.before_time (beats first (by simp))
        have old := older y (by simp [among])
        by_contra unread
        have behind := behind z among'
        have mono := marking.log.time_mono r (marking.within first here).2 (marking.within y known).1 (by omega)
        omega
      have crowd := marking.crowd rest [] single (fun y among => rest_sub.subset among)
        (by simpa using marking.distinct.sublist (rest_sub.map _)) there (by simp)
      simp only [List.length_nil,List.length_cons] at crowd ⊢
      omega

theorem Marking.level_with (part : List (Marked α)) (sub : part.Sublist marks) (some : part ≠ [])
    (beats : ∀ y ∈ part, r.before y.mark x.mark) (level : ∀ y ∈ part, r.time y.target = r.time x.target)
    (behind : ∀ y ∈ part, r.before x.target y.target) : part.length + 1 ≤ width := by
  have read : ∀ y ∈ part, r.serial y.target ≤ y.read := fun y among => (marking.read y (sub.subset among)).1
  -- rising ties put later rows behind, falling ties earlier rows, claimed after `x`
  have there : ∀ z ∈ part, r.serial x.target ≤ z.read ∧
      ∀ y ∈ part, r.before y.target z.target → r.serial y.target ≤ z.read := by
    intro z among
    have known := sub.subset among
    have own := marking.read x member
    have apart := behind z among
    have here := read z among
    cases tie : r.tie with
    | rising =>
      have same := level z among
      simp only [before,Tie.orders,tie] at apart
      refine ⟨by omega,?_⟩
      intro y among' ranked
      have same' := level y among'
      simp only [before,Tie.orders,tie] at ranked
      omega
    | falling =>
      have above := beats z among
      have later : r.serial x.mark < r.serial z.mark := by
        simp only [before,Tie.orders,tie] at above
        by_contra early
        have mono := marking.log.time_mono r (marking.within z known).2 (marking.within x member).2 (by omega)
        omega
      have after := marking.after member known later
      refine ⟨by omega,?_⟩
      intro y among' _
      have same' := level y among'
      have apart' := behind y among'
      simp only [before,Tie.orders,tie] at apart'
      omega
  have distinct : ([x.target] ++ part.map Marked.target).Nodup := by
    refine List.nodup_cons.mpr ⟨?_,marking.distinct.sublist (sub.map _)⟩
    intro again
    obtain ⟨y,among,same⟩ := List.mem_map.mp again
    have apart := behind y among
    rw [same] at apart
    exact r.before_irrefl _ apart
  have crowd := marking.crowd part [x.target] some (fun y among => sub.subset among) distinct
    (fun y among z among' ranked => (there z among').2 y among ranked) (by
      intro e single
      cases List.mem_singleton.mp single
      exact ⟨⟨(marking.within x member).1,marking.sort x member⟩,fun z among => ⟨behind z among,(there z among).1⟩⟩)
  simp only [List.length_singleton] at crowd
  omega

theorem Marking.overtakers (now : (items.filter kind).countP (r.before · x.target) < width) :
    (marks.filter fun y => r.before y.mark x.mark).length < 3*width := by
  let beats := marks.filter fun y => r.before y.mark x.mark
  let ahead := beats.filter fun y => r.before y.target x.target
  let others := beats.filter fun y => !decide (r.before y.target x.target)
  let older := others.filter fun y => r.time y.target < r.time x.target
  let level := others.filter fun y => !decide (r.time y.target < r.time x.target)
  have split : beats.length = ahead.length + others.length := by
    simpa [ahead,others] using List.length_eq_length_filter_add (l :=
      beats) (fun y => decide (r.before y.target x.target))
  have split' : others.length = older.length + level.length := by
    simpa [older,level] using List.length_eq_length_filter_add (l :=
      others) (fun y => decide (r.time y.target < r.time x.target))
  have overSub : beats.Sublist marks := List.filter_sublist
  have aheadSub : ahead.Sublist marks := List.filter_sublist.trans overSub
  have othersSub : others.Sublist marks := List.filter_sublist.trans overSub
  have olderSub : older.Sublist marks := List.filter_sublist.trans othersSub
  have levelSub : level.Sublist marks := List.filter_sublist.trans othersSub
  have overtook : ∀ y ∈ beats, r.before y.mark x.mark := by simp [beats]
  have one := marking.ahead_of now ahead aheadSub (by simp [ahead])
  have two := marking.older_than member older olderSub
    (fun y among => overtook y (List.mem_filter.mp (List.mem_filter.mp among).1).1) (by simp [older])
  by_cases empty : level = []
  · rw [empty,List.length_nil] at split'
    have goal : beats.length < 3*width := by omega
    exact goal
  · have after : ∀ y ∈ level, r.before x.target y.target := by
      intro y among
      have known := levelSub.subset among
      have overtaking := overtook y (List.mem_filter.mp (List.mem_filter.mp among).1).1
      have behind : ¬ r.before y.target x.target := by simpa using (List.mem_filter.mp (List.mem_filter.mp among).1).2
      have apart : r.serial y.target ≠ r.serial x.target := by
        intro same
        have equal := marking.log.serial_inj r (marking.within y known).1 (marking.within x member).1 same
        rw [marking.target_inj known member equal] at overtaking
        exact r.before_irrefl _ overtaking
      exact (r.before_total apart).resolve_left behind
    have three := marking.level_with member level levelSub empty
      (fun y among => overtook y (List.mem_filter.mp (List.mem_filter.mp among).1).1)
      (fun y among => by
        have late := r.before_time (after y among)
        have young : ¬ r.time y.target < r.time x.target := by simpa using (List.mem_filter.mp among).2
        omega) after
    have goal : beats.length < 3*width := by omega
    exact goal

end Overtaken

theorem Marking.append (marking : r.Marking items kind width marks) (row : α)
    (fresh : ∀ a ∈ items, r.serial a < r.serial row ∧ r.time a ≤ r.time row) :
    r.Marking (items ++ [row]) kind width marks := by
  refine ⟨?_,?_,marking.sort,marking.read,?_,marking.serialised,marking.distinct⟩
  · refine List.pairwise_append.mpr ⟨marking.log,List.pairwise_singleton _ _,?_⟩
    intro a inside b single
    cases List.mem_singleton.mp single
    exact fresh a inside
  · intro x member
    obtain ⟨target,mark⟩ := marking.within x member
    exact ⟨List.mem_append_left _ target,List.mem_append_left _ mark⟩
  · intro x member
    have late : ¬ r.serial row ≤ x.read := by
      have read := marking.read x member
      have newer := fresh x.mark (marking.within x member).2
      omega
    have shown := marking.shown x member
    rw [List.filter_append,List.countP_append]
    cases sort : kind row <;> simpa [sort,late] using shown

theorem Marking.add (marking : r.Marking items kind width marks) (x : Marked α)
    (within : x.target ∈ items ∧ x.mark ∈ items) (sort : kind x.target = true)
    (read : r.serial x.target ≤ x.read ∧ x.read < r.serial x.mark)
    (shown : (items.filter kind).countP
      (fun b => decide (r.serial b ≤ x.read) && decide (r.before b x.target)) < width)
    (after : ∀ y ∈ marks, r.serial y.mark ≤ x.read) (new : x.target ∉ marks.map Marked.target) :
    r.Marking items kind width (marks ++ [x]) := by
  have each {p : Marked α → Prop} (old : ∀ y ∈ marks, p y) (own : p x) : ∀ y ∈ marks ++ [x], p y := by
    intro y member
    rcases List.mem_append.mp member with member | single
    · exact old y member
    · cases List.mem_singleton.mp single
      exact own
  refine ⟨marking.log,each marking.within within,each marking.sort sort,each marking.read read,
    each marking.shown shown,?_,?_⟩
  · refine List.pairwise_append.mpr ⟨marking.serialised,List.pairwise_singleton _ _,?_⟩
    intro y member z single
    cases List.mem_singleton.mp single
    exact after y member
  · rw [List.map_append,List.nodup_append]
    refine ⟨marking.distinct,by simp,?_⟩
    intro a listed b single same
    rw [List.map_singleton,List.mem_singleton] at single
    exact new (single ▸ same ▸ listed)

theorem Marking.kept (marking : r.Marking items kind width marks) (tomb : α → Bool) (span spare : Nat)
    (wide : 3*width + spare ≤ span) {x : Marked α} (member : x ∈ marks) (own : ∀ y ∈ marks, tomb y.mark = true)
    (foreign : (r.newest span (items.filter tomb)).countP (r.unmarked marks) ≤ spare)
    (now : (items.filter kind).countP (r.before · x.target) < width) :
    x.mark ∈ r.newest span (items.filter tomb) := by
  have log := marking.log.sublist r (List.filter_sublist (p := tomb))
  have listed : x.mark ∈ items.filter tomb :=
    List.mem_filter.mpr ⟨(marking.within x member).2,own x member⟩
  by_contra lost
  have overtaken : span ≤ (items.filter tomb).countP (r.before · x.mark) := by
    by_contra few
    exact lost ((r.mem_newest _ (log.distinct r) _ _).mpr ⟨listed,by omega⟩)
  have full : (r.newest span (items.filter tomb)).length = span := by
    have enough := overtaken.trans List.countP_le_length
    simp only [newest,List.length_take,List.length_insertionSort]
    omega
  have above : ∀ t ∈ r.newest span (items.filter tomb), r.before t x.mark := by
    intro t shown
    obtain ⟨inside,few⟩ := (r.mem_newest _ (log.distinct r) _ _).mp shown
    have apart : r.serial t ≠ r.serial x.mark := by
      intro same
      rw [log.serial_inj r inside listed same] at few
      omega
    refine (r.before_total apart).resolve_right ?_
    intro below
    have fewer : (items.filter tomb).countP (r.before · x.mark) ≤ (items.filter tomb).countP (r.before · t) := by
      refine List.countP_mono_left ?_
      intro a _ first
      simpa using r.before_trans (by simpa using first) below
    omega
  have few := marking.overtakers member now
  have counted : ((r.newest span (items.filter tomb)).filter fun t => !r.unmarked marks t).length ≤
      ((marks.filter fun y => r.before y.mark x.mark).map Marked.mark).length := by
    refine (List.subperm_of_subset ((r.newest_nodup _ (log.nodup r) span).filter _) ?_).length_le
    intro t shown
    obtain ⟨inside,marked⟩ := List.mem_filter.mp shown
    obtain ⟨y,among,same⟩ : ∃ y ∈ marks, r.serial y.mark = r.serial t := by simpa [unmarked] using marked
    have known := (List.mem_filter.mp ((r.mem_newest _ (log.distinct r) _ _).mp inside).1).1
    have equal := marking.log.serial_inj r (marking.within y among).2 known same
    exact List.mem_map.mpr ⟨y,List.mem_filter.mpr ⟨among,by simpa using equal ▸ above t inside⟩,equal⟩
  have split := List.length_eq_length_filter_add (l := r.newest span (items.filter tomb)) (r.unmarked marks)
  rw [List.countP_eq_length_filter] at foreign
  rw [List.length_map] at counted
  omega

end Counting
end Ranking
end Orrery.Foundation
