import Mathlib.Logic.Equiv.List
import Orrery.Foundation.JsonAlike

/-! Documents and what a decoder makes of their numbers: a reading that rounds is the
exact reading with every float rounded, and a document that comes back with its keys in
another order and its decimals written otherwise is read as the same value. -/
namespace Orrery.Foundation.Json

mutual
def mapFloats (g : ℚ → ℚ) : Json → Json
  | .float q => .float (g q)
  | .arr values => .arr (mapItems g values)
  | .obj fields => .obj (mapFields g fields)
  | v => v
def mapItems (g : ℚ → ℚ) : List Json → List Json
  | [] => []
  | first :: rest => mapFloats g first :: mapItems g rest
def mapFields (g : ℚ → ℚ) : List (String × Json) → List (String × Json)
  | [] => []
  | (key,first) :: rest => (key,mapFloats g first) :: mapFields g rest
end

theorem mapItems_eq (g : ℚ → ℚ) (values : List Json) : mapItems g values = values.map (mapFloats g) := by
  induction values with
  | nil => rfl
  | cons first rest ih => rw [mapItems,ih]; rfl

theorem mapFields_eq (g : ℚ → ℚ) (fields : List (String × Json)) :
    mapFields g fields = fields.map fun field => (field.1,mapFloats g field.2) := by
  induction fields with
  | nil => rfl
  | cons field rest ih => rw [mapFields,ih]; rfl

theorem get_mapFields (g : ℚ → ℚ) (fields : Dict) (key : String) :
    get (mapFields g fields) key = (get fields key).map (mapFloats g) := by
  induction fields with
  | nil => rfl
  | cons field rest ih =>
    obtain ⟨name,v⟩ := field
    rw [mapFields,get_cons,get_cons,ih]
    split
    · rfl
    · rfl

theorem mapFields_setItem (g : ℚ → ℚ) (fields : Dict) (key : String) (v : Json) :
    mapFields g (setItem fields key v) = setItem (mapFields g fields) key (mapFloats g v) := by
  induction fields with
  | nil => rfl
  | cons field rest ih =>
    obtain ⟨name,w⟩ := field
    rw [setItem,mapFields,setItem]
    split
    · rfl
    · rw [mapFields,ih]

section Reading
variable (parse : List Char → ℚ) (g : ℚ → ℚ)

theorem literal_map (text : List Char) : literal (g ∘ parse) text =
    (literal parse text).map fun found => (mapFloats g found.1,found.2) := by
  unfold literal
  split
  · rfl
  · rw [number,number,Option.map_map]
    refine congrArg (fun f => Option.map f _) (funext fun found => ?_)
    dsimp only [Function.comp_apply]
    split
    · rfl
    · rfl

structure ReadsMapped (fuel : ℕ) : Prop where
  value : ∀ text, value (g ∘ parse) fuel text = (value parse fuel text).map fun found => (mapFloats g found.1,found.2)
  items : ∀ text, items (g ∘ parse) fuel text = (items parse fuel text).map fun found => (mapItems g found.1,found.2)
  members : ∀ before text, members (g ∘ parse) fuel (mapFields g before) text =
    (members parse fuel before text).map fun found => (mapFields g found.1,found.2)

variable {parse g}

theorem ReadsMapped.value_succ {fuel : ℕ} (inner : ReadsMapped parse g fuel) (text : List Char) :
    Json.value (g ∘ parse) (fuel+1) text =
      (Json.value parse (fuel+1) text).map fun found => (mapFloats g found.1,found.2) := by
  rw [Json.value.eq_def,Json.value.eq_def]
  dsimp only
  rw [literal_map]
  cases literal parse text with
  | some found => rfl
  | none =>
    dsimp only [Option.map_none]
    split
    · rfl
    · rfl
    · rfl
    · rw [Option.map_map]
      rfl
    · split
      · rfl
      · rw [inner.items,Option.map_map,Option.map_map]
        rfl
    · split
      · rfl
      · have read := inner.members []
        rw [mapFields] at read
        rw [read,Option.map_map,Option.map_map]
        rfl
    · rfl

theorem ReadsMapped.items_succ {fuel : ℕ} (inner : ReadsMapped parse g fuel) (text : List Char) :
    Json.items (g ∘ parse) (fuel+1) text =
      (Json.items parse (fuel+1) text).map fun found => (mapItems g found.1,found.2) := by
  rw [Json.items,Json.items,inner.value]
  cases Json.value parse fuel text with
  | none => rfl
  | some first =>
    simp only [Option.map_some,Option.bind_some]
    split
    · rw [inner.items,Option.map_map,Option.map_map]
      rfl
    · rfl
    · rfl

theorem ReadsMapped.members_succ {fuel : ℕ} (inner : ReadsMapped parse g fuel) (before : Dict) (text : List Char) :
    Json.members (g ∘ parse) (fuel+1) (mapFields g before) text =
      (Json.members parse (fuel+1) before text).map fun found => (mapFields g found.1,found.2) := by
  rw [Json.members.eq_def,Json.members.eq_def]
  dsimp only
  split
  · cases string _ with
    | none => rfl
    | some key =>
      simp only [Option.bind_some]
      split
      · rw [inner.value]
        cases Json.value parse fuel _ with
        | none => rfl
        | some found =>
          simp only [Option.map_some,Option.bind_some,← mapFields_setItem]
          split
          · exact inner.members _ _
          · rfl
          · rfl
      · rfl
  · rfl

theorem readsMapped (fuel : ℕ) : ReadsMapped parse g fuel := by
  induction fuel with
  | zero => exact ⟨fun _ => rfl,fun _ => rfl,fun _ _ => rfl⟩
  | succ fuel inner => exact ⟨inner.value_succ,inner.items_succ,inner.members_succ⟩

theorem loads_map (text : List Char) : loads (g ∘ parse) text = (loads parse text).map (mapFloats g) := by
  rw [loads,loads,(readsMapped _).value]
  cases Json.value parse (2*text.length+1) (skip text) with
  | none => rfl
  | some found =>
    simp only [Option.map_some,Option.bind_some]
    split
    · rfl
    · rfl

end Reading

section Numerals
variable {parse : List Char → ℚ} {text rest : List Char} {v : Json}

theorem minus_split (text : List Char) : (minus text).1 ++ (minus text).2 = text := by
  unfold minus
  split <;> rfl

theorem sign_split (text : List Char) : (sign text).1 ++ (sign text).2 = text := by
  unfold sign
  split <;> rfl

theorem whole_split {found : List Char × List Char} (read : whole text = some found) : found.1 ++ found.2 = text := by
  unfold whole at read
  split at read
  · obtain rfl := Option.some.inj read
    rfl
  · dsimp only at read
    split at read
    · cases read
    · obtain rfl := Option.some.inj read
      exact List.takeWhile_append_dropWhile

theorem fraction_split (text : List Char) : (fraction text).1 ++ (fraction text).2 = text := by
  unfold fraction
  split
  · dsimp only
    split
    · rfl
    · rw [List.cons_append,List.takeWhile_append_dropWhile]
  · rfl

theorem exponent_split (text : List Char) : (exponent text).1 ++ (exponent text).2 = text := by
  unfold exponent
  split
  · rfl
  · dsimp only
    split
    · rw [List.cons_append,List.append_assoc,List.takeWhile_append_dropWhile,sign_split]
    · rfl

theorem literal_float {q : ℚ} (read : literal parse text = some (.float q,[])) (other : List Char → ℚ) :
    literal other text = some (.float (other text),[]) := by
  unfold literal at read ⊢
  cases named : constants.find? (·.isPrefixOf text) with
  | some name =>
    rw [named] at read
    have behind : text.drop name.length = [] := (Prod.mk.inj (Option.some.inj read)).2
    have same : name = text := by
      have front : name.isPrefixOf text = true := by simpa using (List.find?_eq_some_iff_append.mp named).1
      exact (List.isPrefixOf_iff_prefix.mp front).eq_of_length_le (by simpa using behind)
    dsimp only
    rw [behind,same]
  | none =>
    rw [named] at read
    obtain ⟨found,size,same⟩ := Option.map_eq_some_iff.mp read
    dsimp only at same
    split at same
    · cases same
    next plain =>
      have behind := (Prod.mk.inj same).2
      have split : (minus text).1 ++ found.1 ++ (fraction found.2).1 ++ (exponent (fraction found.2).2).1 = text := by
        have power := exponent_split (fraction found.2).2
        rw [behind,List.append_nil] at power
        rw [power,List.append_assoc,fraction_split,List.append_assoc,whole_split size,minus_split]
      dsimp only
      rw [number,size]
      simp only [Option.map_some]
      rw [if_neg plain,split,behind]

theorem literal_numeral (read : literal parse text = some (v,rest)) : v.numeral.isSome = true := by
  unfold literal at read
  split at read
  · obtain ⟨rfl,_⟩ := Prod.mk.inj (Option.some.inj read)
    rfl
  · obtain ⟨found,_,same⟩ := Option.map_eq_some_iff.mp read
    dsimp only at same
    split at same
    · obtain ⟨rfl,_⟩ := Prod.mk.inj same
      rfl
    · obtain ⟨rfl,_⟩ := Prod.mk.inj same
      rfl

def isContainer : Json → Bool
  | .arr _ => true
  | .obj _ => true
  | _ => false

theorem value_container {fuel : ℕ} (read : Json.value parse fuel text = some (v,rest)) (container : v.isContainer = true) :
    text.head? = some '[' ∨ text.head? = some '\x7b' := by
  cases fuel with
  | zero => cases read
  | succ fuel =>
    rw [Json.value.eq_def] at read
    dsimp only at read
    split at read
    next found literally =>
      obtain rfl := Option.some.inj read
      have number := literal_numeral literally
      cases v with
      | arr values => simp [numeral] at number
      | obj fields => simp [numeral] at number
      | _ => cases container
    next =>
      split at read
      · cases read; cases container
      · cases read; cases container
      · cases read; cases container
      · obtain ⟨found,_,same⟩ := Option.map_eq_some_iff.mp read
        cases same
        cases container
      · exact .inl rfl
      · exact .inr rfl
      · cases read

theorem loads_container {c : Char} (read : loads parse (c :: rest) = some v) (container : v.isContainer = true)
    (black : isWhite c = false) : c = '[' ∨ c = '\x7b' := by
  obtain ⟨found,inner,read⟩ := Option.bind_eq_some_iff.mp read
  rw [skip_black black] at inner
  split at read
  next =>
    obtain rfl := Option.some.inj read
    simpa using value_container inner container
  next => cases read

end Numerals

section Documents

/-- What one document comes back as: its keys may be in another order and its decimals
written otherwise, while a whole number stays one. -/
inductive Kept : Json → Json → Prop
  | null : Kept .null .null
  | bool (b : Bool) : Kept (.bool b) (.bool b)
  | int (i : Int) : Kept (.int i) (.int i)
  | float {q : ℚ} {w : Json} (same : w.numeral = some q) : Kept (.float q) w
  | str (s : String) : Kept (.str s) (.str s)
  | arr {values others : List Json} (length : values.length = others.length)
      (items : ∀ (i : ℕ) v w, values[i]? = some v → others[i]? = some w → Kept v w) : Kept (.arr values) (.arr others)
  | obj {d e : Dict} (keys : ∀ key, (get d key).isSome = (get e key).isSome)
      (fields : ∀ key v w, get d key = some v → get e key = some w → Kept v w) : Kept (.obj d) (.obj e)

theorem Kept.refl (v : Json) : Kept v v := by
  induction v using byMembers with
  | null => exact .null
  | bool b => exact .bool b
  | int i => exact .int i
  | float q => exact .float rfl
  | str s => exact .str s
  | arr values ih =>
    refine .arr rfl ?_
    intro i v w left right
    obtain rfl := Option.some.inj (left.symm.trans right)
    exact ih v (List.mem_of_getElem? left)
  | obj fields ih =>
    refine .obj (fun _ => rfl) ?_
    intro key v w left right
    obtain rfl := Option.some.inj (left.symm.trans right)
    obtain ⟨field,found,rfl⟩ := Option.map_eq_some_iff.mp left
    exact ih field (List.mem_of_find?_eq_some found)

variable {floatRepr : ℚ → List Char}

theorem mapFloats_mapFloats (g h : ℚ → ℚ) (v : Json) : mapFloats g (mapFloats h v) = mapFloats (g ∘ h) v := by
  induction v using byMembers with
  | arr values ih =>
    simp only [mapFloats,mapItems_eq,List.map_map]
    exact congrArg Json.arr (List.map_congr_left fun v inside => ih v inside)
  | obj fields ih =>
    simp only [mapFloats,mapFields_eq,List.map_map]
    exact congrArg Json.obj (List.map_congr_left fun field inside => congrArg (Prod.mk field.1) (ih field inside))
  | _ => rfl

theorem dumps_mapFloats (g : ℚ → ℚ) (floatRepr : ℚ → List Char) (layout : Layout) (v : Json) :
    dumps floatRepr layout (mapFloats g v) = dumps (floatRepr ∘ g) layout v := by
  induction v using byMembers with
  | bool b => cases b <;> rfl
  | arr values ih =>
    have items : dumpsItems floatRepr layout (mapItems g values) = dumpsItems (floatRepr ∘ g) layout values := by
      rw [dumpsItems_eq,dumpsItems_eq,mapItems_eq,List.map_map]
      exact List.map_congr_left fun v inside => ih v inside
    rw [mapFloats,dumps,dumps,items]
  | obj fields ih =>
    have members : dumpsFields floatRepr layout (mapFields g fields) = dumpsFields (floatRepr ∘ g) layout fields := by
      rw [dumpsFields_eq,dumpsFields_eq,mapFields_eq,List.map_map]
      exact List.map_congr_left fun field inside => congrArg (Prod.mk field.1) (ih field inside)
    rw [mapFloats,dumps,dumps,members]
  | _ => rfl

def document (decimal : List Char → ℚ) (floatRepr : ℚ → List Char) (v : Json) : Json := mapFloats (decimal ∘ floatRepr) v

theorem proper_mapFloats {parse code : List Char → ℚ} {letters : ℚ → List Char} (back : ∀ text, letters (code text) = text)
    {v : Json} (proper : Proper parse floatRepr v) : Proper code letters (mapFloats (code ∘ floatRepr) v) := by
  induction v using byMembers with
  | float q =>
    have text : letters (code (floatRepr q)) = floatRepr q := back _
    change literal code (letters (code (floatRepr q))) = some (.float (code (floatRepr q)),[])
    rw [text]
    exact literal_float proper code
  | arr values ih =>
    rw [Proper,properItems_iff] at proper
    rw [mapFloats,Proper,properItems_iff,mapItems_eq]
    intro w inside
    obtain ⟨v,listed,rfl⟩ := List.mem_map.mp inside
    exact ih v listed (proper v listed)
  | obj fields ih =>
    rw [Proper,properFields_iff] at proper
    rw [mapFloats,Proper,properFields_iff,mapFields_eq,List.map_map]
    refine ⟨proper.1,?_⟩
    intro field inside
    obtain ⟨field,listed,rfl⟩ := List.mem_map.mp inside
    exact ih field listed (proper.2 field listed)
  | _ => trivial

theorem loads_document {parse : List Char → ℚ} (decimal : List Char → ℚ) {layout : Layout} (readable : layout.Readable)
    (unsorted : layout.sortKeys = false) {v : Json} (proper : Proper parse floatRepr v) :
    loads decimal (dumps floatRepr layout v) = some (document decimal floatRepr v) := by
  have countable : Countable Char := ⟨Char.toNat,fun one two same => Char.toNat_inj.mp same⟩
  obtain ⟨number,injective⟩ := Countable.exists_injective_nat (List Char)
  let code : List Char → ℚ := fun text => number text
  have distinct : Function.Injective code := fun one two same => injective (Rat.natCast_inj.mp same)
  let letters := Function.invFun code
  have back : ∀ text, letters (code text) = text := Function.leftInverse_invFun distinct
  have composed : letters ∘ code ∘ floatRepr = floatRepr := funext fun q => back _
  have read := loads_dumps_unsorted readable unsorted _ (proper_mapFloats back proper)
  rw [dumps_mapFloats,composed] at read
  have rounded := @loads_map code (decimal ∘ letters) (dumps floatRepr layout v)
  have same : (decimal ∘ letters) ∘ code = decimal := funext fun text => congrArg decimal (back text)
  rw [same,read,Option.map_some,mapFloats_mapFloats] at rounded
  rw [rounded,document]
  exact congrArg (fun g => some (mapFloats g v)) (congrArg (fun letters => decimal ∘ letters) composed)

theorem Kept.document {decimal : List Char → ℚ} {round : ℚ → ℚ} {v d : Json}
    (proper : Proper (round ∘ decimal) floatRepr v) (kept : Kept (Json.document decimal floatRepr v) d) :
    Alike (Json.document decimal floatRepr v) (Json.document decimal floatRepr (mapFloats round d)) := by
  induction v using byMembers generalizing d with
  | null => cases kept; exact .null
  | bool b => cases kept; exact .bool b
  | int i => cases kept; exact .number rfl rfl
  | str s => cases kept; exact .str s
  | float q =>
    have rounded : round (decimal (floatRepr q)) = q := by
      have own := literal_float proper (round ∘ decimal)
      exact Json.float.inj (Prod.mk.inj (Option.some.inj (own.symm.trans proper))).1
    cases kept with
    | float same =>
      cases d with
      | int i => exact .number rfl same
      | float p =>
        obtain rfl := Option.some.inj same
        refine .number rfl ?_
        change some (decimal (floatRepr (round (decimal (floatRepr q))))) = _
        rw [rounded]
        rfl
      | _ => cases same
  | arr values ih =>
    rw [Proper,properItems_iff] at proper
    simp only [Json.document,mapFloats,mapItems_eq] at kept ⊢
    cases kept with
    | @arr _ others length items =>
      rw [mapFloats,mapFloats,mapItems_eq,mapItems_eq]
      refine .arr (by simpa using length) fun i v w left right => ?_
      rw [List.getElem?_map] at left
      obtain ⟨v,at_,rfl⟩ := Option.map_eq_some_iff.mp left
      rw [List.getElem?_map,List.getElem?_map,Option.map_map] at right
      obtain ⟨w,other,rfl⟩ := Option.map_eq_some_iff.mp right
      have inside := List.mem_of_getElem? at_
      exact ih v inside (proper v inside) (items i _ _ (by rw [List.getElem?_map,at_]; rfl) other)
  | obj fields ih =>
    rw [Proper,properFields_iff] at proper
    simp only [Json.document,mapFloats] at kept ⊢
    cases kept with
    | @obj _ e keys members =>
      rw [mapFloats,mapFloats]
      refine .obj (fun key => ?_) fun key v w left right => ?_
      · rw [keys key,get_mapFields,get_mapFields,Option.isSome_map,Option.isSome_map]
      · rw [get_mapFields] at left
        obtain ⟨v,found,rfl⟩ := Option.map_eq_some_iff.mp left
        rw [get_mapFields,get_mapFields,Option.map_map] at right
        obtain ⟨w,other,rfl⟩ := Option.map_eq_some_iff.mp right
        obtain ⟨field,inside,rfl⟩ := Option.map_eq_some_iff.mp found
        have inside := List.mem_of_find?_eq_some inside
        exact ih field inside (proper.2 field inside) (members key _ _ (by rw [get_mapFields,found]; rfl) other)

end Documents

end Orrery.Foundation.Json
