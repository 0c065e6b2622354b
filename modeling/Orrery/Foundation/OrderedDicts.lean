import Mathlib.Data.List.Nodup

/-! Dictionaries that remember the order in which their keys came: assignment keeps the
place of a key that is there, `move_to_end` and `popitem(last=False)` work on the order. -/
namespace Orrery.Foundation

@[ext] structure OrderedDict (κ ν : Type) where
  items : List (κ × ν)
  distinct : (items.map Prod.fst).Nodup

namespace OrderedDict
variable {κ ν : Type}

def empty : OrderedDict κ ν := ⟨[],List.nodup_nil⟩

def keys (d : OrderedDict κ ν) : List κ := d.items.map Prod.fst

def size (d : OrderedDict κ ν) : ℕ := d.items.length

def tailFrom (d : OrderedDict κ ν) (rest : List (κ × ν)) (part : rest <:+ d.items) : OrderedDict κ ν :=
  ⟨rest,d.distinct.sublist (part.sublist.map Prod.fst)⟩

variable [DecidableEq κ]

instance (d : OrderedDict κ ν) (key : κ) : Decidable (key ∈ d.keys) :=
  inferInstanceAs (Decidable (key ∈ d.items.map Prod.fst))

def get? (d : OrderedDict κ ν) (key : κ) : Option ν := (d.items.find? (·.1 = key)).map Prod.snd

private theorem assign_keys (items : List (κ × ν)) (key : κ) (value : ν) :
    (items.map fun item => if item.1 = key then (key,value) else item).map Prod.fst = items.map Prod.fst := by
  rw [List.map_map]
  apply List.map_congr_left
  intro item _
  rw [Function.comp_apply]
  split
  next same => exact same.symm
  next => rfl

def set (d : OrderedDict κ ν) (key : κ) (value : ν) : OrderedDict κ ν :=
  if known : key ∈ d.keys then
    ⟨d.items.map fun item => if item.1 = key then (key,value) else item, by rw [assign_keys]; exact d.distinct⟩
  else ⟨d.items ++ [(key,value)], by
    rw [List.map_append]
    exact d.distinct.append (List.nodup_singleton key) (by simpa [keys] using known)⟩

def moveToEnd (d : OrderedDict κ ν) (key : κ) : OrderedDict κ ν where
  items := d.items.filter (·.1 ≠ key) ++ d.items.filter (·.1 = key)
  distinct := by
    refine ((List.perm_append_comm.trans ?_).map Prod.fst).nodup_iff.mpr d.distinct
    simpa using List.filter_append_perm (fun item : κ × ν => decide (item.1 = key)) d.items

def update (d : OrderedDict κ ν) (other : List (κ × ν)) : OrderedDict κ ν :=
  other.foldl (fun d item => d.set item.1 item.2) d

section Lookups
variable {d : OrderedDict κ ν} {key other : κ} {value : ν}

omit [DecidableEq κ] in
theorem value_eq {one two : ν} (first : (key,one) ∈ d.items) (second : (key,two) ∈ d.items) : one = two :=
  congrArg Prod.snd (List.inj_on_of_nodup_map d.distinct first second rfl)

theorem get?_some : d.get? key = some value ↔ (key,value) ∈ d.items := by
  constructor
  · intro found
    obtain ⟨item,at_,rfl⟩ := Option.map_eq_some_iff.mp found
    obtain rfl : item.1 = key := by simpa using List.find?_some at_
    exact List.mem_of_find?_eq_some at_
  · intro inside
    cases at_ : d.items.find? (·.1 = key) with
    | none =>
      have missed := List.find?_eq_none.mp at_ _ inside
      simp at missed
    | some item =>
      obtain rfl : item.1 = key := by simpa using List.find?_some at_
      rw [get?,at_,value_eq inside (List.mem_of_find?_eq_some at_)]
      rfl

theorem get?_none : d.get? key = none ↔ key ∉ d.keys := by
  simp only [get?,Option.map_eq_none_iff,List.find?_eq_none,decide_eq_true_eq,keys,List.mem_map,not_exists,not_and]

theorem set_known (known : key ∈ d.keys) :
    (d.set key value).items = d.items.map fun item => if item.1 = key then (key,value) else item := by
  rw [set,dif_pos known]

theorem set_new (new : key ∉ d.keys) : (d.set key value).items = d.items ++ [(key,value)] := by
  rw [set,dif_neg new]

theorem mem_set {item : κ × ν} : item ∈ (d.set key value).items ↔ item = (key,value) ∨ item ∈ d.items ∧
    item.1 ≠ key := by
  by_cases known : key ∈ d.keys
  · rw [set_known known,List.mem_map]
    constructor
    · rintro ⟨old,inside,rfl⟩
      split
      next => exact .inl rfl
      next apart => exact .inr ⟨inside,apart⟩
    · rintro (rfl | ⟨inside,apart⟩)
      · obtain ⟨old,inside,rfl⟩ := List.mem_map.mp known
        exact ⟨old,inside,if_pos rfl⟩
      · exact ⟨item,inside,if_neg apart⟩
  · rw [set_new known,List.mem_append,List.mem_singleton,or_comm]
    refine or_congr_right ⟨fun inside => ⟨inside,?_⟩,And.left⟩
    rintro rfl
    exact known (List.mem_map_of_mem inside)

theorem mem_moveToEnd {item : κ × ν} : item ∈ (d.moveToEnd key).items ↔ item ∈ d.items := by
  by_cases same : item.1 = key <;> simp [moveToEnd,same]

theorem get?_congr {d' : OrderedDict κ ν} (alike : ∀ value, (key,value) ∈ d.items ↔ (key,value) ∈ d'.items) :
    d.get? key = d'.get? key := by
  apply Option.ext
  intro value
  rw [get?_some,alike,← get?_some]

@[simp] theorem get?_set : (d.set key value).get? key = some value :=
  get?_some.mpr (mem_set.mpr (.inl rfl))

theorem get?_set_other (apart : other ≠ key) : (d.set key value).get? other = d.get? other := by
  apply get?_congr
  intro held
  simp [mem_set,apart]

@[simp] theorem get?_moveToEnd : (d.moveToEnd key).get? other = d.get? other := get?_congr fun _ => mem_moveToEnd

theorem set_moveToEnd (known : key ∈ d.keys) :
    ((d.set key value).moveToEnd key).items = d.items.filter (·.1 ≠ key) ++ [(key,value)] := by
  have others : ∀ items : List (κ × ν), (items.map fun item => if item.1 = key then (key,value) else item).filter
      (·.1 ≠ key) = items.filter (·.1 ≠ key) := by
    intro items
    induction items with
    | nil => rfl
    | cons item items ih => by_cases same : item.1 = key <;> simp_all
  have itself : ∀ items : List (κ × ν), (items.map Prod.fst).Nodup → key ∈ items.map Prod.fst →
      (items.map fun item => if item.1 = key then (key,value) else item).filter (·.1 = key) = [(key,value)] := by
    intro items
    induction items with
    | nil => simp
    | cons item items ih =>
      intro distinct inside
      obtain ⟨apart,distinct⟩ := List.nodup_cons.mp distinct
      by_cases same : item.1 = key
      · have rest : ∀ other ∈ items, other.1 ≠ key := by
          intro other known equal
          exact apart (same ▸ equal ▸ List.mem_map_of_mem known)
        have none : (items.map fun item => if item.1 = key then (key,value) else item).filter (·.1 = key) = [] := by
          simp only [List.filter_eq_nil_iff,List.mem_map,decide_eq_true_eq]
          rintro _ ⟨other,known,rfl⟩
          simp [rest other known]
        rw [List.map_cons,if_pos same,List.filter_cons_of_pos (by simp),none]
      · have inside : key ∈ items.map Prod.fst := by
          simpa [Ne.symm same] using inside
        rw [List.map_cons,if_neg same,List.filter_cons_of_neg (by simpa using same),ih distinct inside]
  change _ ++ _ = _
  rw [set_known known,others,itself _ d.distinct known]

theorem size_set_known (known : key ∈ d.keys) : (d.set key value).size = d.size := by
  rw [size,set_known known,List.length_map,size]

theorem update_items (other : List (κ × ν)) : ∀ d : OrderedDict κ ν, (d.keys ++ other.map Prod.fst).Nodup →
    (d.update other).items = d.items ++ other := by
  induction other with
  | nil => simp [update]
  | cons item other ih =>
    intro d distinct
    have new : item.1 ∉ d.keys := by
      intro known
      exact (List.nodup_append.mp distinct).2.2 _ known _ (by simp) rfl
    have grown : (d.set item.1 item.2).keys = d.keys ++ [item.1] := by simp [keys,set_new new]
    have again : ((d.set item.1 item.2).keys ++ other.map Prod.fst).Nodup := by
      simpa [grown] using distinct
    calc (d.update (item :: other)).items
      _ = ((d.set item.1 item.2).update other).items := by rw [update,List.foldl_cons,update]
      _ = (d.set item.1 item.2).items ++ other := ih _ again
      _ = d.items ++ item :: other := by rw [set_new new]; simp

theorem update_empty {other : List (κ × ν)} (distinct : (other.map Prod.fst).Nodup) :
    (empty.update other).items = other := by
  rw [update_items other empty (by simpa [empty,keys] using distinct),empty,List.nil_append]

theorem update_empty_items (d : OrderedDict κ ν) : empty.update d.items = d := by
  ext1
  exact update_empty d.distinct

end Lookups
end OrderedDict
end Orrery.Foundation
