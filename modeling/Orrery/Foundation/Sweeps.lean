import Mathlib.Data.List.Perm.Basic
import Orrery.Foundation.Json

/-! Loops that read each item of a list, where a reading may raise, and then take it into
account. Two lists are matched when one, rearranged, is related to the other item by
item; readings that agree on related items give matched lists the same values, up to
their order. -/
namespace Orrery.Foundation

variable {ε α β γ δ κ : Type}

def Related (R : α → β → Prop) (first : Except ε α) (second : Except ε β) : Prop :=
  ∀ a b, first = .ok a → second = .ok b → R a b

abbrev Agree (first second : Except ε α) : Prop := Related Eq first second

theorem Agree.refl (m : Except ε α) : Agree m m := by
  intro a b left right
  exact Except.ok.inj (left.symm.trans right)

theorem Related.ok {R : α → β → Prop} {a : α} {b : β} (related : R a b) :
    Related R (.ok a : Except ε α) (.ok b : Except ε β) := by
  intro c d left right
  obtain rfl := Except.ok.inj left
  obtain rfl := Except.ok.inj right
  exact related

theorem Related.bind {R : α → β → Prop} {first : Except ε α} {second : Except ε β} (related : Related R first second)
    {S : γ → δ → Prop} {next : α → Except ε γ} {next' : β → Except ε δ}
    (after : ∀ a b, first = .ok a → second = .ok b → R a b → Related S (next a) (next' b)) :
    Related S (first >>= next) (second >>= next') := by
  intro c d left right
  obtain ⟨a,one,left⟩ := bind_success _ _ _ left
  obtain ⟨b,two,right⟩ := bind_success _ _ _ right
  exact after a b one two (related a b one two) c d left right

theorem Agree.anyM {R : α → α → Prop} {test test' : α → Except ε Bool} {items others : List α}
    (related : List.Forall₂ R items others) (agree : ∀ a b, R a b → Agree (test a) (test' b)) :
    Agree (items.anyM test) (others.anyM test') := by
  induction related with
  | nil => exact Agree.refl _
  | @cons a b items others here _ ih =>
    rw [List.anyM_cons,List.anyM_cons]
    refine (agree a b here).bind ?_
    rintro found _ _ _ rfl
    cases found with
    | true => exact Agree.refl _
    | false => exact ih

theorem anyM_false {test : α → Except ε Bool} {items : List α} (never : ∀ a ∈ items, ∀ b, test a = .ok b → b = false)
    {b : Bool} (run : items.anyM test = .ok b) : b = false := by
  induction items with
  | nil => exact (Except.ok.inj run).symm
  | cons a items ih =>
    rw [List.anyM_cons] at run
    obtain ⟨found,here,run⟩ := bind_success _ _ _ run
    obtain rfl := never a (by simp) found here
    exact ih (fun c inside => never c (by simp [inside])) run

theorem anyM_last {test : α → Except ε Bool} {items : List α} {last : α} (tested : ∀ a ∈ items, ∃ b, test a = .ok b)
    (found : test last = .ok true) : (items ++ [last]).anyM test = .ok true := by
  induction items with
  | nil =>
    rw [List.nil_append,List.anyM_cons,found]
    rfl
  | cons a items ih =>
    obtain ⟨b,here⟩ := tested a (by simp)
    rw [List.cons_append,List.anyM_cons,here,ok_bind]
    cases b with
    | true => rfl
    | false => exact ih fun c inside => tested c (by simp [inside])

def sweep (read : α → Except ε β) (step : γ → β → γ) (init : γ) (items : List α) : Except ε γ :=
  items.foldlM (fun acc item => do return step acc (← read item)) init

def Reads (read : α → Except ε β) (items : List α) (found : List β) : Prop :=
  List.Forall₂ (fun item value => read item = .ok value) items found

theorem sweep_cons (read : α → Except ε β) (step : γ → β → γ) (init : γ) (item : α) (items : List α) :
    sweep read step init (item :: items) = read item >>= fun value => sweep read step (step init value) items := by
  simp only [sweep,List.foldlM_cons,bind_assoc,pure_bind]

theorem sweep_ok (read : α → Except ε β) (step : γ → β → γ) (items : List α) : ∀ (init result : γ),
    sweep read step init items = .ok result ↔ ∃ found, Reads read items found ∧ found.foldl step init = result := by
  induction items with
  | nil =>
    intro init result
    constructor
    · intro run
      exact ⟨[],.nil,Except.ok.inj run⟩
    · rintro ⟨found,reads,folded⟩
      cases reads
      exact congrArg Except.ok folded
  | cons item items ih =>
    intro init result
    rw [sweep_cons]
    constructor
    · intro run
      obtain ⟨value,here,further⟩ := bind_success _ _ _ run
      obtain ⟨found,reads,folded⟩ := (ih _ result).mp further
      exact ⟨value :: found,.cons here reads,folded⟩
    · rintro ⟨found,reads,folded⟩
      cases reads with
      | @cons _ value _ found here reads =>
        rw [here]
        exact (ih _ result).mpr ⟨found,reads,folded⟩

theorem mapM_reads {read : α → Except ε β} {items : List α} : ∀ {found : List β}, items.mapM read = .ok found →
    Reads read items found := by
  induction items with
  | nil =>
    intro found run
    obtain rfl : [] = found := Except.ok.inj run
    exact .nil
  | cons item items ih =>
    intro found run
    rw [List.mapM_cons] at run
    obtain ⟨value,here,run⟩ := bind_success _ _ _ run
    obtain ⟨rest,further,run⟩ := bind_success _ _ _ run
    obtain rfl := Except.ok.inj run
    exact .cons here (ih further)

theorem Reads.mem {read : α → Except ε β} {items : List α} {found : List β} (reads : Reads read items found) {value : β}
    (inside : value ∈ found) : ∃ item ∈ items, read item = .ok value := by
  induction reads with
  | nil => cases inside
  | @cons item value' items found here _ ih =>
    rcases List.mem_cons.mp inside with rfl | further
    · exact ⟨item,List.mem_cons_self,here⟩
    · obtain ⟨other,member,read⟩ := ih further
      exact ⟨other,List.mem_cons_of_mem item member,read⟩

theorem Reads.nodup {read : α → Except ε β} {items : List α} {found : List β} (reads : Reads read items found)
    (apart : items.Pairwise fun x y => ∀ value, read x = .ok value → read y ≠ .ok value) : found.Nodup := by
  induction reads with
  | nil => exact List.nodup_nil
  | cons here reads ih =>
    obtain ⟨first,later⟩ := List.pairwise_cons.mp apart
    refine List.nodup_cons.mpr ⟨?_,ih later⟩
    intro again
    obtain ⟨other,among,there⟩ := Reads.mem reads again
    exact first other among _ here there

theorem Reads.related {R : α → α → Prop} {S : β → β → Prop} {read : α → Except ε β} {items others : List α}
    {found found' : List β} (first : Reads read items found) (related : List.Forall₂ R items others)
    (second : Reads read others found') (agree : ∀ a ∈ items, ∀ b ∈ others, R a b → Related S (read a) (read b)) :
    List.Forall₂ S found found' := by
  induction related generalizing found found' with
  | nil =>
    cases first
    cases second
    exact .nil
  | @cons a b items others here _ ih =>
    cases first with
    | @cons _ value _ found left reads =>
      cases second with
      | @cons _ value' _ found' right reads' =>
        refine .cons (agree a (by simp) b (by simp) here value value' left right) ?_
        exact ih reads reads' fun c inside d inside' =>
          agree c (List.mem_cons_of_mem _ inside) d (List.mem_cons_of_mem _ inside')

def Matched (R : α → β → Prop) (items : List α) (others : List β) : Prop :=
  ∃ arranged, items.Perm arranged ∧ List.Forall₂ R arranged others

namespace Matched
variable {R : α → α → Prop} {items others : List α} (matched : Matched R items others)
include matched

theorem length : items.length = others.length := by
  obtain ⟨arranged,permuted,related⟩ := matched
  rw [permuted.length_eq,related.length_eq]

theorem reads {S : β → β → Prop} {read : α → Except ε β} {found found' : List β} (first : Reads read items found)
    (second : Reads read others found') (agree : ∀ a ∈ items, ∀ b ∈ others, R a b → Related S (read a) (read b)) :
    Matched S found found' := by
  obtain ⟨arranged,permuted,related⟩ := matched
  obtain ⟨middle,readArranged,moved⟩ := List.perm_comp_forall₂ permuted.symm first
  refine ⟨middle,moved.symm,Reads.related readArranged related second ?_⟩
  exact fun a member b other => agree a (permuted.mem_iff.mpr member) b other

theorem filter {p : α → Bool} (kept : ∀ a b, R a b → p a = p b) : Matched R (items.filter p) (others.filter p) := by
  obtain ⟨arranged,permuted,related⟩ := matched
  refine ⟨arranged.filter p,permuted.filter p,?_⟩
  clear permuted
  induction related with
  | nil => exact .nil
  | @cons a b arranged others here _ ih =>
    rw [List.filter_cons,List.filter_cons,kept a b here]
    split
    · exact .cons here ih
    · exact ih

theorem map {S : β → β → Prop} (f : α → β) (carried : ∀ a b, R a b → S (f a) (f b)) :
    Matched S (items.map f) (others.map f) := by
  obtain ⟨arranged,permuted,related⟩ := matched
  refine ⟨arranged.map f,permuted.map f,?_⟩
  rw [List.forall₂_map_left_iff,List.forall₂_map_right_iff]
  exact related.imp carried

end Matched

theorem Matched.perm {items others : List α} (matched : Matched Eq items others) : items.Perm others := by
  obtain ⟨arranged,permuted,related⟩ := matched
  rw [List.forall₂_eq_eq_eq] at related
  exact related ▸ permuted

def insertBy (lt : κ → κ → Except ε Bool) (key : α → κ) (item : α) : List α → Except ε (List α)
  | [] => return [item]
  | other :: rest => do
    if ← lt (key other) (key item) then return other :: (← insertBy lt key item rest)
    else return item :: other :: rest

def sortBy (lt : κ → κ → Except ε Bool) (key : α → κ) : List α → Except ε (List α)
  | [] => return []
  | item :: rest => do insertBy lt key item (← sortBy lt key rest)

theorem insertBy_perm {lt : κ → κ → Except ε Bool} {key : α → κ} {item : α} {items : List α} : ∀ {result : List α},
    insertBy lt key item items = .ok result → result.Perm (item :: items) := by
  induction items with
  | nil =>
    intro result run
    obtain rfl := Except.ok.inj run
    exact .refl _
  | cons other rest ih =>
    intro result run
    obtain ⟨smaller,_,run⟩ := bind_success _ _ _ run
    cases smaller with
    | true =>
      obtain ⟨placed,inner,same⟩ := bind_success _ _ _ run
      obtain rfl := Except.ok.inj same
      exact ((ih inner).cons other).trans (.swap item other rest)
    | false =>
      obtain rfl := Except.ok.inj run
      exact .refl _

theorem sortBy_perm {lt : κ → κ → Except ε Bool} {key : α → κ} {items : List α} : ∀ {result : List α},
    sortBy lt key items = .ok result → result.Perm items := by
  induction items with
  | nil =>
    intro result run
    obtain rfl := Except.ok.inj run
    exact .nil
  | cons item rest ih =>
    intro result run
    obtain ⟨sorted,run,placed⟩ := bind_success _ _ _ run
    exact (insertBy_perm placed).trans ((ih run).cons item)

structure Ranks (lt : κ → κ → Except ε Bool) (same : κ → κ → Prop) (good : κ → Prop) : Prop where
  trans : ∀ a b c, good a → good b → good c → lt a b = .ok true → lt b c = .ok true → lt a c = .ok true
  asymm : ∀ a b, good a → good b → lt a b = .ok true → lt b a = .ok false
  total : ∀ a b, good a → good b → lt a b = .ok false → same a b ∨ lt b a = .ok true

namespace Ranks
variable {lt : κ → κ → Except ε Bool} {same : κ → κ → Prop} {good : κ → Prop} (ranks : Ranks lt same good)
  {key : α → κ}

abbrev Below (lt : κ → κ → Except ε Bool) (key : α → κ) (x y : α) : Prop := lt (key x) (key y) = .ok true

include ranks

theorem insertBy_below {item : α} (fine : good (key item)) {items : List α} (all : ∀ x ∈ items, good (key x))
    (ordered : items.Pairwise (Below lt key)) (apart : ∀ x ∈ items, ¬ same (key x) (key item)) :
    ∀ {result : List α}, insertBy lt key item items = .ok result → result.Pairwise (Below lt key) := by
  induction items with
  | nil =>
    intro result run
    obtain rfl := Except.ok.inj run
    exact List.pairwise_singleton _ _
  | cons other rest ih =>
    intro result run
    obtain ⟨first,later⟩ := List.pairwise_cons.mp ordered
    obtain ⟨smaller,compared,run⟩ := bind_success _ _ _ run
    cases smaller with
    | true =>
      obtain ⟨placed,inner,run⟩ := bind_success _ _ _ run
      obtain rfl := Except.ok.inj run
      refine List.pairwise_cons.mpr ⟨?_,ih (fun x inside => all x (by simp [inside])) later
        (fun x inside => apart x (by simp [inside])) inner⟩
      intro x inside
      rcases List.mem_cons.mp ((insertBy_perm inner).mem_iff.mp inside) with rfl | among
      · exact compared
      · exact first x among
    | false =>
      obtain rfl := Except.ok.inj run
      have above : Below lt key item other :=
        (ranks.total _ _ (all other (by simp)) fine compared).resolve_left (apart other (by simp))
      refine List.pairwise_cons.mpr ⟨?_,ordered⟩
      intro x inside
      rcases List.mem_cons.mp inside with rfl | among
      · exact above
      · exact ranks.trans _ _ _ fine (all other (by simp)) (all x inside) above (first x among)

theorem sortBy_below {items : List α} (all : ∀ x ∈ items, good (key x))
    (apart : items.Pairwise fun x y => ¬ same (key y) (key x)) :
    ∀ {result : List α}, sortBy lt key items = .ok result → result.Pairwise (Below lt key) := by
  induction items with
  | nil =>
    intro result run
    obtain rfl := Except.ok.inj run
    exact .nil
  | cons item rest ih =>
    intro result run
    obtain ⟨first,later⟩ := List.pairwise_cons.mp apart
    obtain ⟨placed,inner,run⟩ := bind_success _ _ _ run
    have moved := sortBy_perm inner
    refine ranks.insertBy_below (all item (by simp)) ?_ (ih (fun x inside => all x (by simp [inside])) later inner) ?_ run
    · exact fun x inside => all x (by simp [moved.mem_iff.mp inside])
    · exact fun x inside => first x (moved.mem_iff.mp inside)

theorem insertBy_returns {item : α} (fine : good (key item)) {items : List α} (all : ∀ x ∈ items, good (key x))
    (compared : ∀ x ∈ items, Below lt key x item ∨ Below lt key item x) :
    ∃ result, insertBy lt key item items = .ok result := by
  induction items with
  | nil => exact ⟨_,rfl⟩
  | cons other rest ih =>
    obtain ⟨placed,inner⟩ := ih (fun x inside => all x (by simp [inside])) fun x inside => compared x (by simp [inside])
    rw [insertBy]
    rcases compared other (by simp) with below | above
    · rw [below,ok_bind,if_pos rfl,inner]
      exact ⟨_,rfl⟩
    · rw [ranks.asymm _ _ fine (all other (by simp)) above]
      exact ⟨_,rfl⟩

theorem sortBy_returns {items : List α} (all : ∀ x ∈ items, good (key x))
    (compared : items.Pairwise fun x y => Below lt key x y ∨ Below lt key y x) :
    ∃ result, sortBy lt key items = .ok result := by
  induction items with
  | nil => exact ⟨_,rfl⟩
  | cons item rest ih =>
    obtain ⟨first,later⟩ := List.pairwise_cons.mp compared
    obtain ⟨placed,inner⟩ := ih (fun x inside => all x (by simp [inside])) later
    have moved := sortBy_perm inner
    have fine : ∀ x ∈ placed, good (key x) := fun x inside => all x (by simp [moved.mem_iff.mp inside])
    obtain ⟨result,run⟩ := ranks.insertBy_returns (all item (by simp)) fine fun x inside =>
      (first x (moved.mem_iff.mp inside)).symm
    exact ⟨result,by rw [sortBy,inner]; exact run⟩

theorem sortBy_congr {items others : List α} (all : ∀ x ∈ items, good (key x))
    (apart : ∀ {list : List α}, list.Perm items → list.Pairwise fun x y => ¬ same (key y) (key x))
    (permuted : items.Perm others) {result : List α} (run : sortBy lt key items = .ok result) :
    sortBy lt key others = .ok result := by
  have ordered := ranks.sortBy_below all (apart (.refl _)) run
  have moved := sortBy_perm run
  have compared : others.Pairwise fun x y => Below lt key x y ∨ Below lt key y x :=
    ((moved.trans permuted).pairwise_iff Or.symm).mp (ordered.imp .inl)
  have all' : ∀ x ∈ others, good (key x) := fun x inside => all x (permuted.mem_iff.mpr inside)
  obtain ⟨result',run'⟩ := ranks.sortBy_returns all' compared
  have ordered' := ranks.sortBy_below all' (apart permuted.symm) run'
  have rearranged : result'.Perm result := (sortBy_perm run').trans (permuted.symm.trans moved.symm)
  rw [run']
  congr 1
  refine rearranged.eq_of_pairwise ?_ ordered' ordered
  intro x y inside inside' below above
  have refuted := ranks.asymm _ _ (all' x ((sortBy_perm run').mem_iff.mp inside)) (all y (moved.mem_iff.mp inside'))
    below
  rw [above] at refuted
  cases refuted

end Ranks

end Orrery.Foundation
