import Mathlib.Data.List.Perm.Subperm
import Orrery.Foundation.JsonAlike

/-! Python's `==` on JSON values is an equivalence as long as no dictionary names a key
twice, and values that are one document are equal. -/
namespace Orrery.Foundation.Json

inductive UniqueKeys : Json → Prop
  | null : UniqueKeys .null
  | bool (b : Bool) : UniqueKeys (.bool b)
  | int (i : Int) : UniqueKeys (.int i)
  | float (q : ℚ) : UniqueKeys (.float q)
  | str (s : String) : UniqueKeys (.str s)
  | arr {values : List Json} (items : ∀ v ∈ values, UniqueKeys v) : UniqueKeys (.arr values)
  | obj {d : Dict} (keys : (d.map (·.1)).Nodup) (fields : ∀ field ∈ d, UniqueKeys field.2) : UniqueKeys (.obj d)

theorem UniqueKeys.item {values : List Json} (distinct : UniqueKeys (.arr values)) {v : Json} (inside : v ∈ values) :
    UniqueKeys v := by
  cases distinct with
  | arr items => exact items v inside

theorem UniqueKeys.get {d : Dict} (distinct : UniqueKeys (.obj d)) {key : String} {v : Json}
    (found : Json.get d key = some v) : UniqueKeys v := by
  cases distinct with
  | obj keys fields =>
    obtain ⟨field,inside,rfl⟩ := Option.map_eq_some_iff.mp found
    exact fields field (List.mem_of_find?_eq_some inside)

theorem get_mem {d : Dict} {key : String} {v : Json} (found : get d key = some v) : (key,v) ∈ d := by
  obtain ⟨field,inside,rfl⟩ := Option.map_eq_some_iff.mp found
  have named := List.find?_some inside
  rw [← beq_iff_eq.mp named]
  exact List.mem_of_find?_eq_some inside

theorem get_assigned {items : Dict} (keys : (items.map Prod.fst).Nodup) (key : String) : ∀ d : Dict,
    get (items.foldl (fun d item => setItem d item.1 item.2) d) key = (get items key).or (get d key) := by
  induction items with
  | nil => exact fun _ => rfl
  | cons item rest ih =>
    intro d
    obtain ⟨fresh,keys⟩ := List.nodup_cons.mp keys
    rw [List.foldl_cons,ih keys,get_cons]
    by_cases same : key = item.1
    · have absent : get rest key = none := by
        cases found : get rest key with
        | none => rfl
        | some v => exact absurd (List.mem_map_of_mem (get_mem found)) (same ▸ fresh)
      rw [absent,same,get_setItem_self,beq_self_eq_true,if_pos rfl]
      rfl
    · rw [get_setItem_other _ _ _ _ same,if_neg (by simpa using Ne.symm same)]

theorem get_of_mem {d : Dict} (keys : (d.map (·.1)).Nodup) {field : String × Json} (inside : field ∈ d) :
    get d field.1 = some field.2 := by
  induction d with
  | nil => cases inside
  | cons first d ih =>
    rw [List.map_cons,List.nodup_cons] at keys
    rw [get_cons]
    rcases List.mem_cons.mp inside with rfl | later
    · rw [if_pos (beq_self_eq_true _)]
    · rw [if_neg,ih keys.2 later]
      intro same
      exact keys.1 (List.mem_map.mpr ⟨field,later,(beq_iff_eq.mp same).symm⟩)

theorem pyEqItems_iff (values : List Json) : ∀ others, pyEqItems values others = true ↔
    List.Forall₂ (fun v w => pyEq v w = true) values others := by
  induction values with
  | nil =>
    intro others
    cases others <;> simp [pyEqItems]
  | cons v values ih =>
    intro others
    cases others <;> simp [pyEqItems,ih]

theorem pyEqFields_iff (d e : Dict) : pyEqFields d e = true ↔
    ∀ field ∈ d, ∃ found, get e field.1 = some found ∧ pyEq field.2 found = true := by
  induction d with
  | nil => simp [pyEqFields]
  | cons field d ih =>
    obtain ⟨key,v⟩ := field
    rw [pyEqFields,Bool.and_eq_true,ih,List.forall_mem_cons]
    refine and_congr_left fun _ => ?_
    cases get e key <;> simp

inductive Equal : Json → Json → Prop
  | hashed {v w : Json} {key : Key} (left : hashKey v = .ok key) (right : hashKey w = .ok key) : Equal v w
  | arr {values others : List Json} (items : List.Forall₂ (fun v w => pyEq v w = true) values others) :
      Equal (.arr values) (.arr others)
  | obj {d e : Dict} (size : d.length = e.length)
      (fields : ∀ field ∈ d, ∃ found, get e field.1 = some found ∧ pyEq field.2 found = true) : Equal (.obj d) (.obj e)

theorem pyEq_iff (v w : Json) : pyEq v w = true ↔ Equal v w := by
  constructor
  · intro same
    unfold pyEq at same
    split at same
    next => exact .arr ((pyEqItems_iff _ _).mp same)
    next =>
      rw [Bool.and_eq_true,beq_iff_eq,pyEqFields_iff] at same
      exact .obj same.1 same.2
    next =>
      split at same
      next x y left right =>
        obtain rfl := of_decide_eq_true same
        exact .hashed left right
      next => cases same
  · intro equal
    cases equal with
    | hashed left right => cases v <;> cases w <;> simp_all [pyEq,hashKey]
    | arr items => exact (pyEqItems_iff _ _).mpr items
    | obj size fields =>
      rw [pyEq,Bool.and_eq_true,beq_iff_eq,pyEqFields_iff]
      exact ⟨size,fields⟩

theorem pyEq_symm {v : Json} (distinct : UniqueKeys v) : ∀ {w : Json}, UniqueKeys w → pyEq v w = true → pyEq w v = true := by
  induction distinct with
  | arr items ih =>
    intro w distinct' same
    rw [pyEq_iff] at same ⊢
    cases same with
    | hashed left => cases left
    | arr related =>
      refine .arr (List.forall₂_iff_get.mpr ⟨related.length_eq.symm,?_⟩)
      intro i below below'
      exact ih _ (List.get_mem _ _) (distinct'.item (List.get_mem _ _)) ((List.forall₂_iff_get.mp related).2 i below' below)
  | @obj d keys fields ih =>
    intro w distinct' same
    rw [pyEq_iff] at same ⊢
    cases same with
    | hashed left => cases left
    | @obj _ e size matched =>
      cases distinct' with
      | obj keys' fields' =>
        refine .obj size.symm ?_
        intro field inside
        -- all keys of the first are keys of the second, which has no more of them
        have within : d.map (·.1) ⊆ e.map (·.1) := by
          intro key named
          obtain ⟨own,among,rfl⟩ := List.mem_map.mp named
          obtain ⟨found,held,_⟩ := matched own among
          exact List.mem_map.mpr ⟨_,get_mem held,rfl⟩
        have covered : e.map (·.1) ⊆ d.map (·.1) :=
          ((keys.subperm within).perm_of_length_le (by simp [size])).symm.subset
        obtain ⟨own,among,named⟩ := List.mem_map.mp (covered (List.mem_map.mpr ⟨field,inside,rfl⟩))
        obtain ⟨found,held,equal⟩ := matched own among
        rw [named,get_of_mem keys' inside] at held
        obtain rfl := Option.some.inj held
        refine ⟨own.2,by rw [← named,get_of_mem keys among],?_⟩
        exact ih own among (fields' field inside) equal
  | _ =>
    intro w _ same
    rw [pyEq_iff] at same ⊢
    cases same with
    | hashed left right => exact .hashed right left

theorem pyEq_trans (u : Json) : ∀ {v w : Json}, pyEq u v = true → pyEq v w = true → pyEq u w = true := by
  induction u using byMembers with
  | arr values ih =>
    intro v w first second
    rw [pyEq_iff] at first second ⊢
    cases first with
    | hashed left => cases left
    | arr related =>
      cases second with
      | hashed left => cases left
      | arr related' =>
        obtain ⟨length,one⟩ := List.forall₂_iff_get.mp related
        obtain ⟨length',two⟩ := List.forall₂_iff_get.mp related'
        refine .arr (List.forall₂_iff_get.mpr ⟨length.trans length',?_⟩)
        intro i below below'
        exact ih _ (List.get_mem _ _) (one i below (length ▸ below)) (two i (length ▸ below) below')
  | obj d ih =>
    intro v w first second
    rw [pyEq_iff] at first second ⊢
    cases first with
    | hashed left => cases left
    | obj size matched =>
      cases second with
      | hashed left => cases left
      | obj size' matched' =>
        refine .obj (size.trans size') ?_
        intro field inside
        obtain ⟨between,held,equal⟩ := matched field inside
        obtain ⟨found,held',equal'⟩ := matched' _ (get_mem held)
        exact ⟨found,held',ih field inside equal equal'⟩
  | _ =>
    intro v w first second
    rw [pyEq_iff] at first second ⊢
    cases first with
    | hashed left right =>
      cases second with
      | hashed left' right' =>
        rw [right] at left'
        obtain rfl := Except.ok.inj left'
        exact .hashed left right'
      | _ => cases right

theorem pyEq_of_alike {v : Json} (distinct : UniqueKeys v) : ∀ {w : Json}, UniqueKeys w → Alike v w → pyEq v w = true := by
  induction distinct with
  | arr items ih =>
    intro w distinct' alike
    obtain ⟨others,rfl,related⟩ := alike.items
    rw [pyEq_iff]
    refine .arr (List.forall₂_iff_get.mpr ⟨related.length_eq,?_⟩)
    intro i below below'
    exact ih _ (List.get_mem _ _) (distinct'.item (List.get_mem _ _)) ((List.forall₂_iff_get.mp related).2 i below below')
  | @obj d keys fields ih =>
    intro w distinct' alike
    obtain ⟨e,rfl,related⟩ := alike.fields
    cases distinct' with
    | obj keys' fields' =>
      have within : ∀ {d e : Dict}, AlikeFields d e → (d.map (·.1)).Nodup → (d.map (·.1)).Subperm (e.map (·.1)) := by
        intro d e related keys
        refine keys.subperm fun key named => ?_
        obtain ⟨own,among,rfl⟩ := List.mem_map.mp named
        obtain ⟨found,held,_⟩ := related.get_some (get_of_mem keys among)
        exact List.mem_map.mpr ⟨_,get_mem held,rfl⟩
      have back : AlikeFields e d := (alike_obj_iff e d).mp related.alike.symm
      have size : d.length = e.length := by
        have one := (within related keys).length_le
        have two := (within back keys').length_le
        simp only [List.length_map] at one two
        omega
      rw [pyEq_iff]
      refine .obj size fun field inside => ?_
      obtain ⟨found,held,equal⟩ := related.get_some (get_of_mem keys inside)
      exact ⟨found,held,ih field inside (fields' _ (get_mem held)) equal⟩
  | _ =>
    intro w _ alike
    rw [pyEq_iff]
    exact .hashed rfl alike.hashKey.symm

end Orrery.Foundation.Json
