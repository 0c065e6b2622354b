import Mathlib.Data.String.Basic
import Orrery.Foundation.JsonText

/-! The order of keys: what sorting them does to a value, that the sorted text reads
back as the sorted value, and that the text settles the value up to the order. -/
namespace Orrery.Foundation.Json

section Induction
variable {P : Json → Prop} (null : P .null) (bool : ∀ b, P (.bool b)) (int : ∀ i, P (.int i))
  (float : ∀ q, P (.float q))
  (str : ∀ s, P (.str s)) (arr : ∀ values, (∀ v ∈ values, P v) → P (.arr values))
  (obj : ∀ fields : List (String × Json), (∀ field ∈ fields, P field.2) → P (.obj fields))
include null bool int float str arr obj

set_option linter.unusedSectionVars false in
mutual
theorem byMembers : ∀ v, P v
  | .null => null
  | .bool b => bool b
  | .int i => int i
  | .float q => float q
  | .str s => str s
  | .arr values => arr values (byItems values)
  | .obj fields => obj fields (byFields fields)
theorem byItems : ∀ values : List Json, ∀ v ∈ values, P v
  | [], _, member => nomatch member
  | first :: rest, v, member =>
    (List.mem_cons.mp member).elim (fun same => same ▸ byMembers first) (byItems rest v)
theorem byFields : ∀ fields : List (String × Json), ∀ field ∈ fields, P field.2
  | [], _, member => nomatch member
  | (_,first) :: rest, field, member =>
    (List.mem_cons.mp member).elim (fun same => same ▸ byMembers first) (byFields rest field)
end

end Induction

def sortFields (fields : Dict) : Dict := fields.insertionSort fun a b => a.1 ≤ b.1

mutual
def ordered : Json → Json
  | .arr values => .arr (orderedItems values)
  | .obj fields => .obj (sortFields (orderedFields fields))
  | v => v
def orderedItems : List Json → List Json
  | [] => []
  | first :: rest => ordered first :: orderedItems rest
def orderedFields : List (String × Json) → List (String × Json)
  | [] => []
  | (key,first) :: rest => (key,ordered first) :: orderedFields rest
end

theorem orderedItems_eq (values : List Json) : orderedItems values = values.map ordered := by
  induction values with
  | nil => rfl
  | cons first rest ih => rw [orderedItems,ih]; rfl

theorem orderedFields_eq (fields : List (String × Json)) :
    orderedFields fields = fields.map fun field => (field.1,ordered field.2) := by
  induction fields with
  | nil => rfl
  | cons field rest ih => rw [orderedFields,ih]; rfl

theorem dumpsItems_eq (floatRepr : ℚ → List Char) (layout : Layout) (values : List Json) :
    dumpsItems floatRepr layout values = values.map (dumps floatRepr layout) := by
  induction values with
  | nil => rfl
  | cons first rest ih => rw [dumpsItems,ih]; rfl

theorem dumpsFields_eq (floatRepr : ℚ → List Char) (layout : Layout) (fields : List (String × Json)) :
    dumpsFields floatRepr layout fields = fields.map fun field => (field.1,dumps floatRepr layout field.2) := by
  induction fields with
  | nil => rfl
  | cons field rest ih => rw [dumpsFields,ih]; rfl

section Proper
variable {parseFloat : List Char → ℚ} {floatRepr : ℚ → List Char}

theorem properItems_iff (values : List Json) :
    ProperItems parseFloat floatRepr values ↔ ∀ v ∈ values, Proper parseFloat floatRepr v := by
  induction values with
  | nil => simp [ProperItems]
  | cons first rest ih => simp [ProperItems,ih]

theorem properFields_iff (fields : List (String × Json)) :
    ProperFields parseFloat floatRepr fields ↔ ∀ field ∈ fields, Proper parseFloat floatRepr field.2 := by
  induction fields with
  | nil => simp [ProperFields]
  | cons field rest ih => simp [ProperFields,ih]

theorem sortFields_perm (fields : Dict) : (sortFields fields).Perm fields := List.perm_insertionSort _ fields

theorem Proper.ordered {v : Json} (proper : Proper parseFloat floatRepr v) :
    Proper parseFloat floatRepr (Json.ordered v) := by
  induction v using byMembers with
  | null => trivial
  | bool b => trivial
  | int i => trivial
  | float q => exact proper
  | str s => trivial
  | arr values ih =>
    rw [Proper,properItems_iff] at proper
    rw [Json.ordered,orderedItems_eq,Proper,properItems_iff]
    intro v member
    obtain ⟨w,inside,rfl⟩ := List.mem_map.mp member
    exact ih w inside (proper w inside)
  | obj fields ih =>
    rw [Proper,properFields_iff] at proper
    rw [Json.ordered,orderedFields_eq,Proper,properFields_iff]
    refine ⟨?_,?_⟩
    · have keys := (sortFields_perm (fields.map fun field => (field.1,Json.ordered field.2))).map Prod.fst
      rw [List.map_map] at keys
      exact keys.nodup_iff.mpr proper.1
    · intro field member
      obtain ⟨own,inside,rfl⟩ := List.mem_map.mp ((sortFields_perm _).mem_iff.mp member)
      exact ih own inside (proper.2 own inside)

end Proper

def Layout.unsorted (layout : Layout) : Layout := { layout with sortKeys := false }

theorem Layout.Readable.unsorted {layout : Layout} (readable : layout.Readable) : layout.unsorted.Readable :=
  ⟨readable.item,readable.key⟩

theorem map_sortFields (f : Json → List Char) (fields : Dict) :
    (sortFields fields).map (fun field => (field.1,f field.2)) =
      sortByKey (fields.map fun field => (field.1,f field.2)) :=
  List.map_insertionSort _ _ _ fields fun _ _ _ _ => Iff.rfl

theorem dumps_ordered (floatRepr : ℚ → List Char) {layout : Layout} (sorts : layout.sortKeys = true) (v : Json) :
    dumps floatRepr layout v = dumps floatRepr layout.unsorted (ordered v) := by
  induction v using byMembers with
  | null => rfl
  | bool b => cases b <;> rfl
  | int i => rfl
  | float q => rfl
  | str s => rfl
  | arr values ih =>
    rw [ordered,dumps,dumps,dumpsItems_eq,dumpsItems_eq,orderedItems_eq,List.map_map]
    rw [List.map_congr_left ih]
    rfl
  | obj fields ih =>
    have texts : sortByKey (dumpsFields floatRepr layout fields) =
        dumpsFields floatRepr layout.unsorted (sortFields (orderedFields fields)) := by
      rw [dumpsFields_eq,dumpsFields_eq,orderedFields_eq,map_sortFields,List.map_map]
      exact congrArg sortByKey (List.map_congr_left fun field member => by rw [ih field member]; rfl)
    rw [ordered,dumps,dumps,texts,sorts]
    rfl

instance : Std.Total fun a b : String × Json => a.1 ≤ b.1 := ⟨fun a b => le_total a.1 b.1⟩

instance : IsTrans (String × Json) fun a b => a.1 ≤ b.1 := ⟨fun _ _ _ => le_trans⟩

theorem sortFields_sortFields (fields : Dict) : sortFields (sortFields fields) = sortFields fields :=
  (List.pairwise_insertionSort _ fields).insertionSort_eq

theorem ordered_obj {fields fields' : Dict} (same : orderedFields fields = orderedFields fields') :
    ordered (.obj fields) = ordered (.obj fields') := by
  rw [ordered,ordered,same]

theorem ordered_ordered (v : Json) : ordered (ordered v) = ordered v := by
  induction v using byMembers with
  | null => rfl
  | bool b => rfl
  | int i => rfl
  | float q => rfl
  | str s => rfl
  | arr values ih =>
    rw [ordered,ordered,orderedItems_eq,orderedItems_eq,List.map_map]
    exact congrArg Json.arr (List.map_congr_left ih)
  | obj fields ih =>
    have fixed : orderedFields (sortFields (orderedFields fields)) = sortFields (orderedFields fields) := by
      rw [orderedFields_eq,orderedFields_eq]
      refine (List.map_congr_left fun field member => ?_).trans (List.map_id _)
      obtain ⟨own,inside,rfl⟩ := List.mem_map.mp ((sortFields_perm _).mem_iff.mp member)
      rw [ih own inside]
      rfl
    rw [ordered,ordered,fixed,sortFields_sortFields]

theorem truthy_ordered (v : Json) : (ordered v).truthy = v.truthy := by
  cases v with
  | arr values => cases values <;> rfl
  | obj fields =>
    have length : (sortFields (orderedFields fields)).length = fields.length := by
      rw [(sortFields_perm _).length_eq,orderedFields_eq,List.length_map]
    have empty : (sortFields (orderedFields fields)).isEmpty = fields.isEmpty := by
      rw [Bool.eq_iff_iff,List.isEmpty_iff_length_eq_zero,List.isEmpty_iff_length_eq_zero,length]
    rw [ordered,truthy,truthy,empty]
  | _ => rfl

theorem dumps_of_ordered (floatRepr : ℚ → List Char) {layout : Layout} (sorts : layout.sortKeys = true) (v : Json) :
    dumps floatRepr layout (ordered v) = dumps floatRepr layout v := by
  rw [dumps_ordered floatRepr sorts,ordered_ordered,← dumps_ordered floatRepr sorts]

section Texts
variable {parseFloat : List Char → ℚ} {floatRepr : ℚ → List Char} {layout : Layout}

theorem loads_dumps (readable : layout.Readable) (sorts : layout.sortKeys = true) {v : Json}
    (proper : Proper parseFloat floatRepr v) : loads parseFloat (dumps floatRepr layout v) = some (ordered v) := by
  rw [dumps_ordered floatRepr sorts]
  exact loads_dumps_unsorted readable.unsorted rfl (ordered v) proper.ordered

theorem ordered_of_dumps (readable : layout.Readable) (sorts : layout.sortKeys = true) {v w : Json}
    (first : Proper parseFloat floatRepr v) (second : Proper parseFloat floatRepr w)
    (same : dumps floatRepr layout v = dumps floatRepr layout w) : ordered v = ordered w := by
  have read := loads_dumps readable sorts first
  rw [same,loads_dumps readable sorts second] at read
  exact (Option.some.inj read).symm

end Texts

theorem get_iff {d : Dict} (distinct : (d.map Prod.fst).Nodup) (key : String) (v : Json) :
    get d key = some v ↔ (key,v) ∈ d := by
  induction d with
  | nil => simp [get]
  | cons field rest ih =>
    obtain ⟨own,first⟩ := field
    rw [List.map_cons,List.nodup_cons] at distinct
    rw [get_cons,List.mem_cons,Prod.mk.injEq]
    split
    next same =>
      obtain rfl : own = key := beq_iff_eq.mp same
      have once : (own,v) ∉ rest := fun again => distinct.1 (List.mem_map.mpr ⟨_,again,rfl⟩)
      simp [once,eq_comm]
    next other =>
      have apart : own ≠ key := by simpa using other
      simp [ih distinct.2,apart.symm]

theorem get_orderedFields (fields : Dict) (key : String) :
    get (orderedFields fields) key = (get fields key).map ordered := by
  induction fields with
  | nil => rfl
  | cons field rest ih =>
    rw [orderedFields,get_cons,get_cons]
    split
    next => rfl
    next => exact ih

theorem get_orderedInsert (field : String × Json) (fields : Dict) (key : String) :
    get (fields.orderedInsert (fun a b => a.1 ≤ b.1) field) key = get (field :: fields) key := by
  induction fields with
  | nil => rfl
  | cons other rest ih =>
    rw [List.orderedInsert]
    split
    next => rfl
    next later =>
      have apart : field.1 ≠ other.1 := fun same => later same.le
      rw [get_cons,ih]
      simp only [get_cons,beq_iff_eq]
      split_ifs with first second
      · exact absurd (second.trans first.symm) apart
      all_goals rfl

theorem get_sortFields (fields : Dict) (key : String) :
    get (sortFields (orderedFields fields)) key = (get fields key).map ordered := by
  have stable (rest : Dict) : get (sortFields rest) key = get rest key := by
    induction rest with
    | nil => rfl
    | cons field rest ih =>
      refine (get_orderedInsert field (sortFields rest) key).trans ?_
      rw [get_cons,get_cons,ih]
  rw [stable,get_orderedFields]

theorem get_of_ordered {d e : Dict} (same : ordered (.obj d) = ordered (.obj e)) (key : String) :
    (get d key).map ordered = (get e key).map ordered := by
  rw [ordered,ordered] at same
  rw [← get_sortFields,Json.obj.inj same,get_sortFields]

theorem mem_setItem {d : Dict} {key : String} {v : Json} {field : String × Json} (member : field ∈ setItem d key v) :
    field = (key,v) ∨ field ∈ d := by
  induction d with
  | nil => exact Or.inl (List.mem_singleton.mp member)
  | cons first rest ih =>
    rw [setItem] at member
    split at member
    next => exact (List.mem_cons.mp member).imp_right (List.mem_cons_of_mem _)
    next =>
      rcases List.mem_cons.mp member with rfl | further
      · exact Or.inr List.mem_cons_self
      · exact (ih further).imp_right (List.mem_cons_of_mem _)

theorem setItem_nodup {d : Dict} (distinct : (d.map Prod.fst).Nodup) (key : String) (v : Json) :
    ((setItem d key v).map Prod.fst).Nodup := by
  induction d with
  | nil => simp [setItem]
  | cons first rest ih =>
    rw [List.map_cons,List.nodup_cons] at distinct
    rw [setItem]
    split
    next same =>
      rw [List.map_cons,List.nodup_cons,← beq_iff_eq.mp same]
      exact distinct
    next other =>
      rw [List.map_cons,List.nodup_cons]
      refine ⟨fun again => ?_,ih distinct.2⟩
      obtain ⟨field,member,same⟩ := List.mem_map.mp again
      rcases mem_setItem member with rfl | inside
      · exact other (beq_iff_eq.mpr same.symm)
      · exact distinct.1 (List.mem_map.mpr ⟨field,inside,same⟩)

section Reading
variable {parseFloat : List Char → ℚ} {floatRepr : ℚ → List Char}

def ReadsBack (parseFloat : List Char → ℚ) (floatRepr : ℚ → List Char) : Prop :=
  ∀ token, Proper parseFloat floatRepr (.float (parseFloat token))

theorem literal_proper (floats : ReadsBack parseFloat floatRepr) {text rest : List Char} {v : Json}
    (read : literal parseFloat text = some (v,rest)) : Proper parseFloat floatRepr v := by
  rw [literal] at read
  split at read
  next name _ =>
    cases read
    exact floats name
  next =>
    obtain ⟨found,_,same⟩ := Option.map_eq_some_iff.mp read
    dsimp only at same
    by_cases plain : ((fraction found.2).1.isEmpty && (exponent (fraction found.2).2).1.isEmpty) = true
    · rw [if_pos plain] at same
      cases same
      trivial
    · rw [if_neg plain] at same
      cases same
      exact floats _

structure ReadsProper (parseFloat : List Char → ℚ) (floatRepr : ℚ → List Char) (fuel : Nat) : Prop where
  value : ∀ text v rest, value parseFloat fuel text = some (v,rest) → Proper parseFloat floatRepr v
  items : ∀ text values rest, items parseFloat fuel text = some (values,rest) →
    ProperItems parseFloat floatRepr values
  members : ∀ before text fields rest, Proper parseFloat floatRepr (.obj before) →
    members parseFloat fuel before text = some (fields,rest) → Proper parseFloat floatRepr (.obj fields)

theorem proper_empty : Proper parseFloat floatRepr (.obj []) := ⟨List.nodup_nil,trivial⟩

theorem proper_setItem {before : Dict} (proper : Proper parseFloat floatRepr (.obj before)) (key : String) {v : Json}
    (new : Proper parseFloat floatRepr v) : Proper parseFloat floatRepr (.obj (setItem before key v)) := by
  refine ⟨setItem_nodup proper.1 key v,(properFields_iff _).mpr fun field member => ?_⟩
  rcases mem_setItem member with rfl | inside
  · exact new
  · exact (properFields_iff _).mp proper.2 field inside

theorem ReadsProper.value_succ (floats : ReadsBack parseFloat floatRepr) {fuel : Nat}
    (inner : ReadsProper parseFloat floatRepr fuel) {text rest : List Char} {v : Json}
    (read : Json.value parseFloat (fuel+1) text = some (v,rest)) : Proper parseFloat floatRepr v := by
  rw [Json.value.eq_def] at read
  dsimp only at read
  split at read
  next found known =>
    cases read
    exact literal_proper floats known
  next =>
    split at read
    next => cases read; trivial
    next => cases read; trivial
    next => cases read; trivial
    next =>
      obtain ⟨found,_,same⟩ := Option.map_eq_some_iff.mp read
      cases same
      trivial
    next =>
      split at read
      next => cases read; trivial
      next =>
        obtain ⟨found,list,same⟩ := Option.map_eq_some_iff.mp read
        cases same
        exact inner.items _ _ _ list
    next =>
      split at read
      next => cases read; exact proper_empty
      next =>
        obtain ⟨found,list,same⟩ := Option.map_eq_some_iff.mp read
        cases same
        exact inner.members [] _ _ _ proper_empty list
    next => cases read

theorem ReadsProper.items_succ {fuel : Nat} (inner : ReadsProper parseFloat floatRepr fuel) {text rest : List Char}
    {values : List Json} (read : Json.items parseFloat (fuel+1) text = some (values,rest)) :
    ProperItems parseFloat floatRepr values := by
  rw [Json.items] at read
  obtain ⟨first,head,read⟩ := Option.bind_eq_some_iff.mp read
  have proper := inner.value _ _ _ head
  split at read
  next =>
    obtain ⟨found,list,same⟩ := Option.map_eq_some_iff.mp read
    cases same
    exact ⟨proper,inner.items _ _ _ list⟩
  next => cases read; exact ⟨proper,trivial⟩
  next => cases read

theorem ReadsProper.members_succ {fuel : Nat} (inner : ReadsProper parseFloat floatRepr fuel) {before fields : Dict}
    {text rest : List Char} (proper : Proper parseFloat floatRepr (.obj before))
    (read : Json.members parseFloat (fuel+1) before text = some (fields,rest)) :
    Proper parseFloat floatRepr (.obj fields) := by
  rw [Json.members.eq_def] at read
  dsimp only at read
  split at read
  next =>
    obtain ⟨key,_,read⟩ := Option.bind_eq_some_iff.mp read
    split at read
    next =>
      obtain ⟨found,head,read⟩ := Option.bind_eq_some_iff.mp read
      have further := proper_setItem proper key.1 (inner.value _ _ _ head)
      split at read
      next => exact inner.members _ _ _ _ further read
      next => cases read; exact further
      next => cases read
    next => cases read
  next => cases read

theorem readsProper (floats : ReadsBack parseFloat floatRepr) (fuel : Nat) :
    ReadsProper parseFloat floatRepr fuel := by
  induction fuel with
  | zero => exact ⟨nofun,nofun,nofun⟩
  | succ fuel inner =>
    refine ⟨?_,?_,?_⟩
    · exact fun _ _ _ read => inner.value_succ floats read
    · exact fun _ _ _ read => inner.items_succ read
    · exact fun _ _ _ _ proper read => inner.members_succ proper read

theorem loads_proper (floats : ReadsBack parseFloat floatRepr) {text : List Char} {v : Json}
    (read : loads parseFloat text = some v) : Proper parseFloat floatRepr v := by
  obtain ⟨found,inner,read⟩ := Option.bind_eq_some_iff.mp read
  split at read
  next =>
    cases read
    exact (readsProper floats _).value _ _ _ inner
  next => cases read

end Reading

end Orrery.Foundation.Json
