import Mathlib.Data.Rat.Defs
import Mathlib.Algebra.Order.Ring.Unbundled.Rat
import Mathlib.Data.List.Sort
import Mathlib.Data.List.Dedup

/-! JSON values as Python programs handle them: dictionaries with lookups that may
raise, truth values, text comparison, sets of hashable values and the text that
`json.dumps` writes. Integers and finite floats are kept apart, as the decoder
keeps them; a dictionary is its list of items in insertion order. -/
namespace Orrery.Foundation

inductive Json
  | null
  | bool (b : Bool)
  | int (i : Int)
  | float (q : ℚ)
  | str (s : String)
  | arr (items : List Json)
  | obj (fields : List (String × Json))

abbrev Dict := List (String × Json)

inductive Exc
  | keyError (key : String)
  | typeError (text : String)
  | attributeError (text : String)
  | valueError (text : String)
  | other (kind text : String)
deriving DecidableEq

def Exc.text : Exc → String
  | .keyError key => "'" ++ key ++ "'"
  | .typeError text | .attributeError text | .valueError text | .other _ text => text

def Exc.kind : Exc → String
  | .keyError _ => "KeyError"
  | .typeError _ => "TypeError"
  | .attributeError _ => "AttributeError"
  | .valueError _ => "ValueError"
  | .other kind _ => kind

theorem bind_success {ε α β : Type} (first : Except ε α) (next : α → Except ε β) (result : β)
    (ok : (first >>= next) = .ok result) : ∃ value, first = .ok value ∧ next value = .ok result := by
  cases first with
  | error e => cases ok
  | ok value => exact ⟨value,rfl,ok⟩

theorem ok_bind {ε α β : Type} (value : α) (next : α → Except ε β) : (Except.ok value >>= next) = next value := rfl

namespace Json

def typeName : Json → String
  | .null => "NoneType"
  | .bool _ => "bool"
  | .int _ => "int"
  | .float _ => "float"
  | .str _ => "str"
  | .arr _ => "list"
  | .obj _ => "dict"

def truthy : Json → Bool
  | .null => false
  | .bool b => b
  | .int i => i != 0
  | .float q => q != 0
  | .str s => s != ""
  | .arr items => !items.isEmpty
  | .obj fields => !fields.isEmpty

def get (d : Dict) (key : String) : Option Json := (d.find? (fun field => field.1 == key)).map (·.2)

def item (d : Dict) (key : String) : Except Exc Json :=
  match get d key with
  | some value => .ok value
  | none => .error (.keyError key)

def setItem (d : Dict) (key : String) (value : Json) : Dict :=
  match d with
  | [] => [(key,value)]
  | field :: rest => if field.1 == key then (key,value) :: rest else field :: setItem rest key value

def pop (d : Dict) (key : String) : Dict := d.filter fun field => field.1 != key

theorem get_cons (field : String × Json) (rest : Dict) (key : String) :
    get (field :: rest) key = if field.1 == key then some field.2 else get rest key := by
  rw [get,List.find?_cons]
  split
  next same => rw [if_pos same]; rfl
  next other => rw [if_neg (by rw [other]; decide)]; rfl

theorem get_append (first second : Dict) (key : String) :
    get (first ++ second) key = (get first key).or (get second key) := by
  simp only [get,List.find?_append,Option.map_or]

theorem get_setItem_other (d : Dict) (key other : String) (value : Json) (apart : other ≠ key) :
    get (setItem d key value) other = get d other := by
  induction d with
  | nil => simp [setItem,get_cons,Ne.symm apart]
  | cons field rest ih =>
    rw [setItem]
    split
    next same =>
      have elsewhere : ¬ (field.1 == other) = true := by
        rw [beq_iff_eq.mp same]
        simpa using Ne.symm apart
      rw [get_cons,get_cons,if_neg (by simpa using Ne.symm apart),if_neg elsewhere]
    next => rw [get_cons,get_cons,ih]

theorem get_setItem_self (d : Dict) (key : String) (value : Json) : get (setItem d key value) key = some value := by
  induction d with
  | nil => rw [setItem,get_cons,beq_self_eq_true,if_pos rfl]
  | cons field rest ih =>
    rw [setItem]
    split
    next same => rw [get_cons,beq_self_eq_true,if_pos rfl]
    next other => rw [get_cons,if_neg other,ih]

theorem get_pop_self (d : Dict) (key : String) : get (pop d key) key = none := by
  rw [get,Option.map_eq_none_iff,List.find?_eq_none]
  intro field inside
  simpa [pop] using (List.mem_filter.mp inside).2

theorem get_pop_other (d : Dict) (key other : String) (apart : other ≠ key) : get (pop d key) other = get d other := by
  induction d with
  | nil => rfl
  | cons field rest ih =>
    rw [pop,List.filter_cons]
    split
    next => rw [get_cons,get_cons,← ih]; rfl
    next removed =>
      have elsewhere : ¬ (field.1 == other) = true := by
        have same : field.1 = key := by simpa using removed
        rw [same]
        simpa using Ne.symm apart
      rw [get_cons,if_neg elsewhere]
      exact ih

theorem pop_absent {d : Dict} {key : String} (absent : get d key = none) : pop d key = d := by
  rw [get,Option.map_eq_none_iff,List.find?_eq_none] at absent
  exact List.filter_eq_self.mpr fun field inside => by simpa using absent field inside

theorem setItem_same {d : Dict} {key : String} {value : Json} (held : get d key = some value) :
    setItem d key value = d := by
  induction d with
  | nil => simp [get] at held
  | cons field rest ih =>
    rw [get_cons] at held
    rw [setItem]
    split
    next here =>
      rw [if_pos here] at held
      rw [← beq_iff_eq.mp here,← Option.some.inj held]
    next elsewhere =>
      rw [if_neg elsewhere] at held
      rw [ih held]

theorem setItem_setItem (d : Dict) (key : String) (value later : Json) :
    setItem (setItem d key value) key later = setItem d key later := by
  induction d with
  | nil => simp [setItem]
  | cons field rest ih =>
    by_cases here : field.1 = key
    · simp [setItem,here]
    · simp [setItem,here,ih]

theorem pop_setItem_self (d : Dict) (key : String) (value : Json) : pop (setItem d key value) key = pop d key := by
  induction d with
  | nil => simp [setItem,pop]
  | cons field rest ih =>
    unfold pop at ih
    by_cases here : field.1 = key
    · simp [setItem,pop,here]
    · simp [setItem,pop,here,ih]

theorem pop_setItem_other (d : Dict) {key other : String} (value : Json) (apart : key ≠ other) :
    pop (setItem d key value) other = setItem (pop d other) key value := by
  induction d with
  | nil => simp [setItem,pop,apart]
  | cons field rest ih =>
    unfold pop at ih
    by_cases here : field.1 = key
    · simp [setItem,pop,here,apart]
    · by_cases gone : field.1 = other
      · simp [setItem,pop,gone,Ne.symm apart,ih]
      · simp [setItem,pop,here,gone,ih]

def eqStr (value : Option Json) (text : String) : Bool :=
  match value with
  | some (.str s) => s == text
  | _ => false

theorem eqStr_iff (value : Option Json) (text : String) :
    eqStr value text = true ↔ value = some (.str text) := by
  unfold eqStr
  split
  next s => simp
  next other =>
    simp only [Bool.false_eq_true,false_iff]
    intro equal
    exact other text equal

def le (left right : Json) : Except Exc Bool :=
  match left, right with
  | .str a, .str b => .ok (decide (a ≤ b))
  | a, b => .error (.typeError s!"'<=' not supported between instances of '{a.typeName}' and '{b.typeName}'")

theorem le_true (left right : Json) :
    le left right = .ok true ↔ ∃ a b, left = .str a ∧ right = .str b ∧ a ≤ b := by
  unfold le
  split
  next a b => simp
  next other =>
    simp only [reduceCtorEq,false_iff,not_exists]
    intro a b premise
    obtain ⟨rfl,rfl,_⟩ := premise
    exact other a b rfl rfl

/-- What a hashable value is to a set: numbers compare by value, booleans as 0 and 1. -/
inductive Key
  | none
  | num (q : ℚ)
  | str (s : String)
deriving DecidableEq

def hashKey : Json → Except Exc Key
  | .null => .ok .none
  | .bool b => .ok (.num (if b then 1 else 0))
  | .int i => .ok (.num i)
  | .float q => .ok (.num q)
  | .str s => .ok (.str s)
  | value => .error (.typeError s!"unhashable type: '{value.typeName}'")

def toSet : Json → Except Exc (List Key)
  | .arr items => items.mapM hashKey
  | .str s => .ok (s.toList.map fun c => .str (String.singleton c))
  | .obj fields => .ok (fields.map fun field => .str field.1)
  | value => .error (.typeError s!"'{value.typeName}' object is not iterable")

def Key.isStr : Key → Bool
  | .str _ => true
  | _ => false

def Key.isNum : Key → Bool
  | .num _ => true
  | _ => false

def Key.le : Key → Key → Bool
  | .str a, .str b => decide (a ≤ b)
  | .num a, .num b => decide (a ≤ b)
  | _, _ => true

def sortedSet (keys : List Key) : Except Exc (List Key) :=
  let distinct := keys.dedup
  if distinct.length ≤ 1 || distinct.all Key.isStr || distinct.all Key.isNum then
    .ok (distinct.insertionSort fun a b => Key.le a b)
  else .error (.typeError "'<' not supported between elements of different types")

mutual
def pyEq : Json → Json → Bool
  | .arr a, .arr b => pyEqItems a b
  | .obj a, .obj b => a.length == b.length && pyEqFields a b
  | a, b =>
    match hashKey a, hashKey b with
    | .ok x, .ok y => decide (x = y)
    | _, _ => false
def pyEqItems : List Json → List Json → Bool
  | [], [] => true
  | x :: xs, y :: ys => pyEq x y && pyEqItems xs ys
  | _, _ => false
def pyEqFields : List (String × Json) → Dict → Bool
  | [], _ => true
  | (key,value) :: rest, other =>
    (match get other key with
      | some found => pyEq value found
      | none => false) && pyEqFields rest other
end

theorem pyEq_str {value : Json} {s : String} (same : pyEq (.str s) value = true) : value = .str s := by
  cases value <;> simp_all [pyEq,hashKey]

theorem pyEqFields_get {fields other : Dict} (same : pyEqFields fields other = true) {key : String} {value : Json}
    (field : (key,value) ∈ fields) : ∃ found, get other key = some found ∧ pyEq value found = true := by
  induction fields with
  | nil => cases field
  | cons first rest ih =>
    obtain ⟨key',value'⟩ := first
    rw [pyEqFields,Bool.and_eq_true] at same
    rcases List.mem_cons.mp field with here | further
    · obtain ⟨rfl,rfl⟩ := Prod.mk.inj here
      have equal := same.1
      split at equal
      next found at_key => exact ⟨found,at_key,equal⟩
      next => cases equal
    · exact ih same.2 further

theorem pyEq_get_str {fields other : Dict} (same : pyEq (.obj fields) (.obj other) = true) {key s : String}
    (field : (key,.str s) ∈ fields) : get other key = some (.str s) := by
  rw [pyEq,Bool.and_eq_true] at same
  obtain ⟨found,at_key,equal⟩ := pyEqFields_get same.2 field
  rw [at_key,pyEq_str equal]

structure Layout where
  itemSeparator : List Char
  keySeparator : List Char
  sortKeys : Bool

def Layout.plain : Layout := ⟨[',',' '],[':',' '],false⟩

def Layout.canonical : Layout := ⟨[','],[':'],true⟩

def hexDigit (n : Nat) : Char := if n < 10 then Char.ofNat (48+n) else Char.ofNat (87+n)

def escapeUnit (n : Nat) : List Char :=
  ['\\','u',hexDigit (n/4096 % 16),hexDigit (n/256 % 16),hexDigit (n/16 % 16),hexDigit (n % 16)]

def escapeChar (c : Char) : List Char :=
  if c = '"' then ['\\','"']
  else if c = '\\' then ['\\','\\']
  else if c = '\n' then ['\\','n']
  else if c = '\r' then ['\\','r']
  else if c = '\t' then ['\\','t']
  else if c.toNat = 8 then ['\\','b']
  else if c.toNat = 12 then ['\\','f']
  else if 32 ≤ c.toNat ∧ c.toNat ≤ 126 then [c]
  else if c.toNat < 65536 then escapeUnit c.toNat
  -- outside the basic plane the encoder writes a surrogate pair
  else escapeUnit (55296+(c.toNat-65536)/1024) ++ escapeUnit (56320+(c.toNat-65536) % 1024)

def quote (s : String) : List Char := '"' :: (s.toList.flatMap escapeChar ++ ['"'])

def sortByKey (fields : List (String × List Char)) : List (String × List Char) :=
  fields.insertionSort fun a b => a.1 ≤ b.1

mutual
def dumps (floatRepr : ℚ → List Char) (layout : Layout) : Json → List Char
  | .null => ['n','u','l','l']
  | .bool true => ['t','r','u','e']
  | .bool false => ['f','a','l','s','e']
  | .int i => (toString i).toList
  | .float q => floatRepr q
  | .str s => quote s
  | .arr items => '[' :: (layout.itemSeparator.intercalate (dumpsItems floatRepr layout items) ++ [']'])
  | .obj fields =>
    let rendered := dumpsFields floatRepr layout fields
    let ordered := if layout.sortKeys then sortByKey rendered else rendered
    '\x7b' :: (layout.itemSeparator.intercalate
      (ordered.map fun field => quote field.1 ++ layout.keySeparator ++ field.2) ++ ['\x7d'])
def dumpsItems (floatRepr : ℚ → List Char) (layout : Layout) : List Json → List (List Char)
  | [] => []
  | value :: rest => dumps floatRepr layout value :: dumpsItems floatRepr layout rest
def dumpsFields (floatRepr : ℚ → List Char) (layout : Layout) : List (String × Json) → List (String × List Char)
  | [] => []
  | (key,value) :: rest => (key,dumps floatRepr layout value) :: dumpsFields floatRepr layout rest
end

end Json
end Orrery.Foundation
