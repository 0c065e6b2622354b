import Orrery.Foundation.JsonOrder

/-! Dictionaries merged over each other at every level, and what a sequence of merges makes
of a leaf: the value that the last of them that touched it gave it. -/
namespace Orrery.Foundation.Json

mutual
def Distinct : Json → Prop
  | .obj fields => (fields.map Prod.fst).Nodup ∧ DistinctFields fields
  | _ => True
def DistinctFields : List (String × Json) → Prop
  | [] => True
  | (_,first) :: rest => Distinct first ∧ DistinctFields rest
end

mutual
def merged (old : Option Json) : Json → Json
  | .obj patch =>
    match old with
    | some (.obj base) => .obj (deepMerge base patch)
    | _ => .obj patch
  | value => value
def deepMerge (base : Dict) : List (String × Json) → Dict
  | [] => base
  | (key,value) :: rest => deepMerge (setItem base key (merged (get base key) value)) rest
end

def leafOf : Option Json → List String → Option Json
  | some (.obj fields), key :: path => leafOf (get fields key) path
  | some (.obj _), [] => none
  | some value, [] => some value
  | _, _ => none

def leaf (d : Dict) (path : List String) : Option Json := leafOf (some (.obj d)) path

def nodeOf : Option Json → List String → Option (Option Json)
  | some (.obj fields), key :: path => nodeOf (get fields key) path
  | some (.obj _), [] => some none
  | some value, [] => some (some value)
  | _, _ => none

def touches : Json → List String → Bool
  | .obj fields, key :: path =>
    match get fields key with
    | some value => touches value path
    | none => false
  | _, _ => true

theorem distinct_str (s : String) : Distinct (.str s) := trivial

theorem distinct_bool (b : Bool) : Distinct (.bool b) := trivial

section Fields
variable {fields : List (String × Json)} {key : String} {value : Json}

theorem distinctFields_iff : DistinctFields fields ↔ ∀ field ∈ fields, Distinct field.2 := by
  induction fields with
  | nil => simp [DistinctFields]
  | cons field rest ih =>
    obtain ⟨key,first⟩ := field
    rw [DistinctFields,ih,List.forall_mem_cons]

theorem mem_of_get (found : get fields key = some value) : (key,value) ∈ fields := by
  obtain ⟨⟨key',value'⟩,held,rfl⟩ := Option.map_eq_some_iff.mp found
  have same : key' = key := by simpa using List.find?_some held
  exact same ▸ List.mem_of_find?_eq_some held

theorem distinct_get (distinct : Distinct (.obj fields)) (found : get fields key = some value) : Distinct value :=
  distinctFields_iff.mp distinct.2 _ (mem_of_get found)

theorem get_none_of_not_mem (absent : key ∉ fields.map Prod.fst) : get fields key = none := by
  cases found : get fields key with
  | none => rfl
  | some value => exact absurd (List.mem_map_of_mem (mem_of_get found)) absent

theorem get_filter {keeps : String → Bool} (kept : keeps key = true) :
    get (fields.filter fun field => keeps field.1) key = get fields key := by
  induction fields with
  | nil => rfl
  | cons field rest ih =>
    rw [List.filter_cons,get_cons]
    split
    next => rw [get_cons,ih]
    next removed =>
      have other : ¬ (field.1 == key) = true := fun same => removed (beq_iff_eq.mp same ▸ kept)
      rw [if_neg other,ih]

end Fields

section Merging
variable {base patch : Dict} {key : String} {value : Json} {path : List String}

theorem get_deepMerge (distinct : (patch.map Prod.fst).Nodup) : ∀ {base : Dict}, get (deepMerge base patch) key =
    match get patch key with
    | some value => some (merged (get base key) value)
    | none => get base key := by
  induction patch with
  | nil => exact rfl
  | cons field rest ih =>
    intro base
    obtain ⟨first,value⟩ := field
    rw [List.map_cons,List.nodup_cons] at distinct
    rw [deepMerge,ih distinct.2,get_cons]
    by_cases here : first = key
    · subst here
      rw [get_none_of_not_mem distinct.1,get_setItem_self,beq_self_eq_true,if_pos rfl]
    · rw [get_setItem_other _ _ _ _ (Ne.symm here),if_neg (by simpa using here)]

theorem nodeOf_untouched : ∀ {value : Json}, touches value path = false → nodeOf (some value) path = none := by
  induction path with
  | nil =>
    intro value untouched
    cases value <;> simp_all [touches]
  | cons key path ih =>
    intro value untouched
    cases value with
    | obj fields =>
      rw [touches] at untouched
      rw [nodeOf]
      cases found : get fields key with
      | none => cases path <;> rfl
      | some inner =>
        rw [found] at untouched
        exact ih untouched
    | _ => cases untouched

theorem leafOf_eq : ∀ value : Option Json, leafOf value path = (nodeOf value path).join := by
  induction path with
  | nil =>
    intro value
    cases value with
    | none => rfl
    | some value => cases value <;> rfl
  | cons key path ih =>
    intro value
    cases value with
    | none => rfl
    | some value =>
      cases value with
      | obj fields => exact ih _
      | _ => rfl

theorem leafOf_untouched {value : Json} (untouched : touches value path = false) :
    leafOf (some value) path = none := by
  rw [leafOf_eq,nodeOf_untouched untouched]
  rfl

theorem merged_flat {old : Option Json} (flat : ∀ base, old ≠ some (.obj base)) : merged old value = value := by
  cases value with
  | obj patch =>
    rw [merged]
    exact flat
  | _ => rfl

theorem nodeOf_flat {old : Option Json} (flat : ∀ base, old ≠ some (.obj base)) : nodeOf old (key :: path) = none := by
  cases old with
  | none => rfl
  | some value =>
    cases value with
    | obj base => exact absurd rfl (flat base)
    | _ => rfl

theorem nodeOf_merged : ∀ {value : Json} {old : Option Json}, Distinct value →
    nodeOf (some (merged old value)) path =
      if touches value path then nodeOf (some value) path else nodeOf old path := by
  induction path with
  | nil =>
    intro value old _
    by_cases nested : ∃ base patch, old = some (.obj base) ∧ value = .obj patch
    · obtain ⟨base,patch,rfl,rfl⟩ := nested
      rfl
    · have plain : merged old value = value := by
        cases value with
        | obj patch => exact merged_flat fun base same => nested ⟨base,patch,same,rfl⟩
        | _ => rfl
      rw [plain,if_pos (by cases value <;> rfl)]
  | cons key path ih =>
    intro value old distinct
    cases value with
    | obj patch =>
      by_cases nested : ∃ base, old = some (.obj base)
      · obtain ⟨base,rfl⟩ := nested
        change nodeOf (get (deepMerge base patch) key) path = _
        rw [get_deepMerge distinct.1,touches,nodeOf,nodeOf]
        cases found : get patch key with
        | none => rfl
        | some inner => exact ih (distinct_get distinct found)
      · have flat : ∀ base, old ≠ some (.obj base) := fun base same => nested ⟨base,same⟩
        rw [merged_flat flat,nodeOf_flat flat]
        split
        · rfl
        next untouched => exact nodeOf_untouched (Bool.eq_false_iff.mpr untouched)
    | _ => rfl

theorem leafOf_merged {value : Json} {old : Option Json} (distinct : Distinct value) :
    leafOf (some (merged old value)) path =
      if touches value path then leafOf (some value) path else leafOf old path := by
  simp only [leafOf_eq,nodeOf_merged distinct]
  split <;> rfl

theorem leaf_deepMerge (distinct : Distinct (.obj patch)) :
    leaf (deepMerge base patch) path = if touches (.obj patch) path then leaf patch path else leaf base path :=
  @leafOf_merged path (.obj patch) (some (.obj base)) distinct

theorem leaf_touched (held : leaf patch path = some value) : touches (.obj patch) path = true := by
  by_contra untouched
  cases (leafOf_untouched (Bool.eq_false_iff.mpr untouched)).symm.trans held

end Merging

section Distinct
variable {d : Dict} {key : String} {value : Json}

theorem distinct_setItem (distinct : Distinct (.obj d)) (new : Distinct value) :
    Distinct (.obj (setItem d key value)) := by
  refine ⟨setItem_nodup distinct.1 key value,distinctFields_iff.mpr fun field inside => ?_⟩
  obtain rfl | held := mem_setItem inside
  · exact new
  · exact distinctFields_iff.mp distinct.2 field held

theorem distinct_filter (distinct : Distinct (.obj d)) (keeps : String × Json → Bool) :
    Distinct (.obj (d.filter keeps)) :=
  ⟨distinct.1.sublist (List.filter_sublist.map Prod.fst),
    distinctFields_iff.mpr fun field inside => distinctFields_iff.mp distinct.2 field (List.mem_of_mem_filter inside)⟩

mutual
theorem distinct_merged (old : Option Json) (known : ∀ before, old = some before → Distinct before) :
    ∀ value : Json, Distinct value → Distinct (merged old value)
  | .obj patch, distinct => by
    by_cases nested : ∃ base, old = some (.obj base)
    · obtain ⟨base,rfl⟩ := nested
      exact distinct_deepMerge patch base (known _ rfl) distinct.2
    · rw [merged_flat fun base same => nested ⟨base,same⟩]
      exact distinct
  | .null, distinct => distinct
  | .bool _, distinct => distinct
  | .int _, distinct => distinct
  | .float _, distinct => distinct
  | .str _, distinct => distinct
  | .arr _, distinct => distinct
theorem distinct_deepMerge : ∀ (patch : List (String × Json)) (base : Dict), Distinct (.obj base) →
    DistinctFields patch →
    Distinct (.obj (deepMerge base patch))
  | [], _, distinct, _ => distinct
  | (_,value) :: rest, _, distinct, fields =>
    distinct_deepMerge rest _
      (distinct_setItem distinct (distinct_merged _ (fun _ held => distinct_get distinct held) value fields.1)) fields.2
end

end Distinct

structure PyDict where
  items : Dict
  distinct : Distinct (.obj items)

namespace PyDict

def empty : PyDict := ⟨[],List.nodup_nil,trivial⟩

def merge (base patch : PyDict) : PyDict :=
  ⟨deepMerge base.items patch.items,distinct_deepMerge patch.items base.items base.distinct patch.distinct.2⟩

def leaf (d : PyDict) (path : List String) : Option Json := Json.leaf d.items path

def node (d : PyDict) (path : List String) : Option (Option Json) := nodeOf (some (.obj d.items)) path

def touches (patch : PyDict) (path : List String) : Bool := Json.touches (.obj patch.items) path

def set (d : PyDict) (key : String) (value : Json) (distinct : Distinct value) : PyDict :=
  ⟨setItem d.items key value,distinct_setItem d.distinct distinct⟩

def restrict (d : PyDict) (keeps : String → Bool) : PyDict :=
  ⟨d.items.filter fun field => keeps field.1,distinct_filter d.distinct _⟩

def said : List PyDict → List String → Option Json
  | [], _ => none
  | patch :: older, path => if patch.touches path then patch.leaf path else said older path

def Keeps (d : PyDict) (patches : List PyDict) : Prop :=
  ∀ path value, said patches path = some value → d.leaf path = some value

section Leaves
variable {base d patch : PyDict} {patches : List PyDict} {path : List String} {value : Json}

theorem leaf_merge (base patch : PyDict) (path : List String) :
    (base.merge patch).leaf path = if patch.touches path then patch.leaf path else base.leaf path :=
  leaf_deepMerge patch.distinct

theorem Keeps.merge (keeps : base.Keeps patches) (patch : PyDict) : (base.merge patch).Keeps (patch :: patches) := by
  intro path value told
  rw [leaf_merge]
  rw [said] at told
  split
  next touched => rwa [if_pos touched] at told
  next untouched =>
    rw [if_neg untouched] at told
    exact keeps path value told

theorem Keeps.under (keeps : d.Keeps patches) (base : PyDict) : (base.merge d).Keeps patches := by
  intro path value told
  have held := keeps path value told
  have touched : d.touches path = true := leaf_touched held
  rw [leaf_merge,if_pos touched,held]

theorem leaf_set_other {key : String} (apart : ∀ first rest, path = first :: rest → first ≠ key)
    (distinct : Distinct value) : (d.set key value distinct).leaf path = d.leaf path := by
  cases path with
  | nil => rfl
  | cons first rest =>
    change leafOf (get (setItem d.items key value) first) rest = leafOf (get d.items first) rest
    rw [get_setItem_other _ _ _ _ (apart first rest rfl)]

theorem leaf_restrict {keeps : String → Bool} (kept : ∀ first rest, path = first :: rest → keeps first = true) :
    (d.restrict keeps).leaf path = d.leaf path := by
  cases path with
  | nil => rfl
  | cons first rest =>
    change leafOf (get (d.items.filter fun field => keeps field.1) first) rest = leafOf (get d.items first) rest
    rw [get_filter (kept first rest rfl)]

theorem said_key (told : said patches path = some value) :
    ∃ patch ∈ patches, ∃ first rest, path = first :: rest ∧ first ∈ patch.items.map Prod.fst := by
  induction patches with
  | nil => cases told
  | cons patch older ih =>
    rw [said] at told
    split at told
    next =>
      refine ⟨patch,List.mem_cons_self,?_⟩
      cases path with
      | nil => cases told
      | cons first rest =>
        refine ⟨first,rest,rfl,?_⟩
        cases found : get patch.items first with
        | none =>
          have nothing : leafOf (get patch.items first) rest = some value := told
          rw [found] at nothing
          cases rest <;> cases nothing
        | some inner => exact List.mem_map_of_mem (mem_of_get found)
    next =>
      obtain ⟨patch',inside,found⟩ := ih told
      exact ⟨patch',List.mem_cons_of_mem _ inside,found⟩

end Leaves

section Nodes
variable {a b p q : PyDict}

theorem node_merge (base patch : PyDict) (path : List String) :
    (base.merge patch).node path = if patch.touches path then patch.node path else base.node path :=
  @nodeOf_merged path (.obj patch.items) (some (.obj base.items)) patch.distinct

def Same (a b : PyDict) : Prop := ∀ path, a.node path = b.node path

theorem Same.trans {c : PyDict} (left : Same a b) (right : Same b c) : Same a c :=
  fun path => (left path).trans (right path)

theorem Same.leaf (same : Same a b) (path : List String) : a.leaf path = b.leaf path := by
  change leafOf _ path = leafOf _ path
  rw [leafOf_eq,leafOf_eq]
  exact congrArg Option.join (same path)

theorem Same.keeps {patches : List PyDict} (same : Same a b) (keeps : b.Keeps patches) : a.Keeps patches :=
  fun path value told => (same.leaf path).trans (keeps path value told)

theorem Same.merge (same : Same a b) (patch : PyDict) : Same (a.merge patch) (b.merge patch) := by
  intro path
  rw [node_merge,node_merge,same path]

theorem Same.foldl (same : Same a b) (queue : List PyDict) :
    Same (queue.foldl PyDict.merge a) (queue.foldl PyDict.merge b) := by
  induction queue generalizing a b with
  | nil => exact same
  | cons patch rest ih => exact ih (same.merge patch)

def Agree (p q : PyDict) : Prop :=
  ∀ path, p.touches path = true → q.touches path = true → p.node path = q.node path

theorem Agree.merge_comm (agree : Agree p q) (base : PyDict) :
    Same ((base.merge q).merge p) ((base.merge p).merge q) := by
  intro path
  simp only [node_merge]
  by_cases left : p.touches path = true
  · by_cases right : q.touches path = true
    · simp [left,right,agree path left right]
    · simp [left,right]
  · simp [left]

theorem merge_before {queue : List PyDict} (agree : ∀ p ∈ queue, Agree p q) : ∀ base : PyDict,
    Same (queue.foldl PyDict.merge (base.merge q)) ((queue.foldl PyDict.merge base).merge q) := by
  induction queue with
  | nil => exact fun _ _ => rfl
  | cons p rest ih =>
    intro base
    have swapped := (agree p List.mem_cons_self).merge_comm base
    exact (swapped.foldl rest).trans (ih (fun other inside => agree other (List.mem_cons_of_mem p inside)) _)

theorem merge_twice (base patch : PyDict) : Same ((base.merge patch).merge patch) (base.merge patch) := by
  intro path
  rw [node_merge (base.merge patch),node_merge]
  split <;> rfl

theorem agree_of_disjoint (disjoint : ∀ key ∈ p.items.map Prod.fst, key ∉ q.items.map Prod.fst) : Agree p q := by
  intro path left right
  cases path with
  | nil => rfl
  | cons key rest =>
    change Json.touches (.obj p.items) (key :: rest) = true at left
    change Json.touches (.obj q.items) (key :: rest) = true at right
    rw [Json.touches] at left right
    have mine : key ∈ p.items.map Prod.fst := by
      by_contra absent
      rw [get_none_of_not_mem absent] at left
      cases left
    rw [get_none_of_not_mem (disjoint key mine)] at right
    cases right

end Nodes
end PyDict

end Orrery.Foundation.Json
