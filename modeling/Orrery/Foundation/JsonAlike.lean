import Orrery.Foundation.JsonOrder

/-! Values that are one JSON document: the order of fields and the spelling of numbers
do not count, while a truth value stays apart from the number it equals in Python.
What is read of two such values is again alike. -/
namespace Orrery.Foundation.Json

def numeral : Json → Option ℚ
  | .int i => some i
  | .float q => some q
  | _ => none

inductive Alike : Json → Json → Prop
  | null : Alike .null .null
  | bool (b : Bool) : Alike (.bool b) (.bool b)
  | number {v w : Json} {q : ℚ} (left : v.numeral = some q) (right : w.numeral = some q) : Alike v w
  | str (s : String) : Alike (.str s) (.str s)
  | arr {values others : List Json} (length : values.length = others.length)
      (items : ∀ (i : Nat) v w, values[i]? = some v → others[i]? = some w → Alike v w) :
        Alike (.arr values) (.arr others)
  | obj {d e : Dict} (keys : ∀ key, (get d key).isSome = (get e key).isSome)
      (fields : ∀ key v w, get d key = some v → get e key = some w → Alike v w) : Alike (.obj d) (.obj e)

theorem Alike.refl (v : Json) : Alike v v := by
  induction v using byMembers with
  | null => exact .null
  | bool b => exact .bool b
  | int i => exact .number rfl rfl
  | float q => exact .number rfl rfl
  | str s => exact .str s
  | arr values ih =>
    refine .arr rfl ?_
    intro i v w left right
    obtain rfl := Option.some.inj (left.symm.trans right)
    exact ih v (List.mem_of_getElem? left)
  | obj fields ih =>
    refine .obj (fun _ => rfl) ?_
    intro key v w left right
    obtain rfl := Option.some.inj (left.symm.trans right)
    obtain ⟨field,found,rfl⟩ := Option.map_eq_some_iff.mp left
    exact ih field (List.mem_of_find?_eq_some found)

theorem Alike.symm {v w : Json} (alike : Alike v w) : Alike w v := by
  induction alike with
  | null => exact .null
  | bool b => exact .bool b
  | number left right => exact .number right left
  | str s => exact .str s
  | arr length _ ih => exact .arr length.symm fun i v w left right => ih i w v right left
  | obj keys _ ih => exact .obj (fun key => (keys key).symm) fun key v w left right => ih key w v right left

theorem Alike.text {s : String} {w : Json} (alike : Alike (.str s) w) : w = .str s := by
  cases alike with
  | number left => cases left
  | str => rfl

theorem Alike.items {values : List Json} {w : Json} (alike : Alike (.arr values) w) :
    ∃ others, w = .arr others ∧ List.Forall₂ Alike values others := by
  cases alike with
  | number left => cases left
  | arr length items =>
    refine ⟨_,rfl,List.forall₂_iff_get.mpr ⟨length,?_⟩⟩
    intro i below below'
    exact items i _ _ (List.getElem?_eq_getElem below) (List.getElem?_eq_getElem below')

def AlikeFields (d e : Dict) : Prop := ∀ key, Option.Rel Alike (get d key) (get e key)

theorem Alike.fields {d : Dict} {w : Json} (alike : Alike (.obj d) w) : ∃ e, w = .obj e ∧ AlikeFields d e := by
  cases alike with
  | number left => cases left
  | @obj _ e keys fields =>
    refine ⟨e,rfl,fun key => ?_⟩
    have both := keys key
    cases left : get d key with
    | none =>
      rw [left] at both
      rw [Option.isNone_iff_eq_none.mp (Option.isSome_eq_false_iff.mp both.symm)]
      exact .none
    | some v =>
      rw [left] at both
      obtain ⟨w,right⟩ := Option.isSome_iff_exists.mp both.symm
      rw [right]
      exact .some (fields key v w left right)

theorem AlikeFields.alike {d e : Dict} (fields : AlikeFields d e) : Alike (.obj d) (.obj e) := by
  refine .obj (fun key => ?_) ?_
  · have both := fields key
    generalize get d key = left, get e key = right at both
    cases both with
    | none => rfl
    | some _ => rfl
  · intro key v w left right
    have both := fields key
    rw [left,right] at both
    cases both with
    | some alike => exact alike

theorem alike_obj_iff (d e : Dict) : Alike (.obj d) (.obj e) ↔ AlikeFields d e := by
  constructor
  · intro alike
    obtain ⟨_,same,fields⟩ := alike.fields
    obtain rfl := Json.obj.inj same
    exact fields
  · exact AlikeFields.alike

namespace AlikeFields
variable {d e : Dict} (fields : AlikeFields d e)
include fields

theorem get_some {key : String} {v : Json} (found : get d key = some v) : ∃ w, get e key = some w ∧ Alike v w := by
  have both := fields key
  rw [found] at both
  generalize get e key = right at both
  cases both with
  | some alike => exact ⟨_,rfl,alike⟩

theorem getD (key : String) (fallback : Json) : Alike ((get d key).getD fallback) ((get e key).getD fallback) := by
  have both := fields key
  generalize get d key = left, get e key = right at both
  cases both with
  | none => exact .refl fallback
  | some alike => exact alike

theorem isEmpty : d.isEmpty = e.isEmpty := by
  have nonempty : ∀ {a b : Dict}, AlikeFields a b → a.isEmpty = false → b.isEmpty = false := by
    intro a b fields filled
    cases a with
    | nil => cases filled
    | cons field rest =>
      have first : get (field :: rest) field.1 = some field.2 := by
        rw [get_cons,beq_self_eq_true,if_pos rfl]
      obtain ⟨w,found,_⟩ := get_some fields first
      cases b with
      | nil => cases found
      | cons _ _ => rfl
  have back : AlikeFields e d := ((alike_obj_iff e d).mp fields.alike.symm)
  cases left : d.isEmpty with
  | false => exact (nonempty fields left).symm
  | true =>
    cases right : e.isEmpty with
    | true => rfl
    | false => exact absurd (nonempty back right) (by simp [left])

theorem pop (key : String) : AlikeFields (pop d key) (pop e key) := by
  intro other
  by_cases here : other = key
  · subst here
    rw [get_pop_self,get_pop_self]
    exact .none
  · rw [get_pop_other _ _ _ here,get_pop_other _ _ _ here]
    exact fields other

theorem setItem (key : String) {v w : Json} (alike : Alike v w) : AlikeFields (setItem d key v) (setItem e key w) := by
  intro other
  by_cases here : other = key
  · subst here
    rw [get_setItem_self,get_setItem_self]
    exact .some alike
  · rw [get_setItem_other _ _ _ _ here,get_setItem_other _ _ _ _ here]
    exact fields other

end AlikeFields

theorem truthy_number {v : Json} {q : ℚ} (numeric : v.numeral = some q) : v.truthy = (q != 0) := by
  cases v with
  | int i =>
    obtain rfl := Option.some.inj numeric
    rw [truthy,Bool.eq_iff_iff]
    simp
  | float p =>
    obtain rfl := Option.some.inj numeric
    rfl
  | _ => cases numeric

theorem Alike.truthy {v w : Json} (alike : Alike v w) : v.truthy = w.truthy := by
  cases alike with
  | null => rfl
  | bool b => rfl
  | number left right => rw [truthy_number left,truthy_number right]
  | str s => rfl
  | @arr values others length =>
    cases values <;> cases others <;> simp_all [Json.truthy]
  | obj keys fields =>
    have same := ((alike_obj_iff _ _).mp (.obj keys fields)).isEmpty
    simp [Json.truthy,same]

theorem hashKey_number {v : Json} {q : ℚ} (numeric : v.numeral = some q) : hashKey v = .ok (.num q) := by
  cases v with
  | int i =>
    obtain rfl := Option.some.inj numeric
    rfl
  | float p =>
    obtain rfl := Option.some.inj numeric
    rfl
  | _ => cases numeric

theorem Alike.hashKey {v w : Json} (alike : Alike v w) : hashKey v = hashKey w := by
  cases alike with
  | number left right => rw [hashKey_number left,hashKey_number right]
  | _ => rfl

end Orrery.Foundation.Json
