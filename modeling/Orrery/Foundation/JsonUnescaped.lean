import Orrery.Foundation.JsonLines

/-! The text that `json.dumps` writes without `ensure_ascii`: the one in ASCII with its
letters in the place of their escapes. So it settles the value as much as that one does. -/
namespace Orrery.Foundation.Json
open JsonLines

def unescapedChar (c : Char) : List Char := if 126 < c.toNat then [c] else escapeChar c

def unescapedQuote (s : String) : List Char := '"' :: (s.toList.flatMap unescapedChar ++ ['"'])

mutual
def unescapedDumps (floatRepr : ℚ → List Char) (layout : Layout) : Json → List Char
  | .null => ['n','u','l','l']
  | .bool true => ['t','r','u','e']
  | .bool false => ['f','a','l','s','e']
  | .int i => (toString i).toList
  | .float q => floatRepr q
  | .str s => unescapedQuote s
  | .arr items => '[' :: (layout.itemSeparator.intercalate (unescapedItems floatRepr layout items) ++ [']'])
  | .obj fields =>
    let rendered := unescapedFields floatRepr layout fields
    let ordered := if layout.sortKeys then sortByKey rendered else rendered
    '\x7b' :: (layout.itemSeparator.intercalate
      (ordered.map fun field => unescapedQuote field.1 ++ layout.keySeparator ++ field.2) ++ ['\x7d'])
def unescapedItems (floatRepr : ℚ → List Char) (layout : Layout) : List Json → List (List Char)
  | [] => []
  | value :: rest => unescapedDumps floatRepr layout value :: unescapedItems floatRepr layout rest
def unescapedFields (floatRepr : ℚ → List Char) (layout : Layout) :
    List (String × Json) → List (String × List Char)
  | [] => []
  | (key,value) :: rest => (key,unescapedDumps floatRepr layout value) :: unescapedFields floatRepr layout rest
end

def inAscii (text : List Char) : List Char := text.flatMap fun c => if 126 < c.toNat then escapeChar c else [c]

theorem inAscii_plain {text : List Char} (plain : Plain text) : inAscii text = text := by
  induction text with
  | nil => rfl
  | cons c rest ih =>
    have low : ¬ 126 < c.toNat := not_lt.mpr (plain c List.mem_cons_self).2
    rw [inAscii,List.flatMap_cons,if_neg low]
    exact congrArg (c :: ·) (ih fun d inside => plain d (List.mem_cons_of_mem c inside))

theorem inAscii_append (first second : List Char) : inAscii (first ++ second) = inAscii first ++ inAscii second :=
  List.flatMap_append

theorem inAscii_cons {c : Char} (low : c.toNat ≤ 126) (rest : List Char) : inAscii (c :: rest) = c :: inAscii rest := by
  rw [inAscii,List.flatMap_cons,if_neg (not_lt.mpr low)]
  rfl

theorem inAscii_unescapedChar (c : Char) : inAscii (unescapedChar c) = escapeChar c := by
  unfold unescapedChar
  split
  next high => simp [inAscii,high]
  next => exact inAscii_plain (plain_escapeChar c)

theorem inAscii_unescapedQuote (s : String) : inAscii (unescapedQuote s) = quote s := by
  have letters (cs : List Char) : inAscii (cs.flatMap unescapedChar) = cs.flatMap escapeChar := by
    induction cs with
    | nil => rfl
    | cons c cs ih => rw [List.flatMap_cons,inAscii_append,inAscii_unescapedChar,ih,List.flatMap_cons]
  rw [unescapedQuote,inAscii_cons (by decide),inAscii_append,letters]
  rfl

theorem inAscii_intercalate {separator : List Char} (plain : Plain separator) (texts : List (List Char)) :
    inAscii (separator.intercalate texts) = separator.intercalate (texts.map inAscii) := by
  induction texts with
  | nil => rfl
  | cons text texts ih =>
    cases texts with
    | nil => simp [List.intercalate]
    | cons next texts =>
      have split (text next : List Char) (texts : List (List Char)) : separator.intercalate (text :: next :: texts) =
          text ++ (separator ++ separator.intercalate (next :: texts)) := by simp [List.intercalate]
      rw [split,inAscii_append,inAscii_append,ih,inAscii_plain plain]
      simp only [List.map_cons,split]

section Texts
variable {parseFloat : List Char → ℚ} {floatRepr : ℚ → List Char} {layout : Layout}

theorem unescapedItems_eq (values : List Json) :
    unescapedItems floatRepr layout values = values.map (unescapedDumps floatRepr layout) := by
  induction values with
  | nil => rfl
  | cons first rest ih => rw [unescapedItems,ih]; rfl

theorem unescapedFields_eq (fields : List (String × Json)) : unescapedFields floatRepr layout fields =
    fields.map fun field => (field.1,unescapedDumps floatRepr layout field.2) := by
  induction fields with
  | nil => rfl
  | cons field rest ih => rw [unescapedFields,ih]; rfl

theorem sortByKey_map (f : List Char → List Char) (fields : List (String × List Char)) :
    (sortByKey fields).map (fun field => (field.1,f field.2)) =
      sortByKey (fields.map fun field => (field.1,f field.2)) :=
  List.map_insertionSort _ _ _ fields fun _ _ _ _ => Iff.rfl

theorem dumps_eq_inAscii (floats : ∀ q, Plain (floatRepr q)) (items : Plain layout.itemSeparator)
    (keys : Plain layout.keySeparator) (v : Json) :
    dumps floatRepr layout v = inAscii (unescapedDumps floatRepr layout v) := by
  induction v using byMembers with
  | null => rfl
  | bool b => cases b <;> rfl
  | int i => exact (inAscii_plain (plain_int i)).symm
  | float q => exact (inAscii_plain (floats q)).symm
  | str s => exact (inAscii_unescapedQuote s).symm
  | arr values ih =>
    rw [dumps,unescapedDumps,inAscii_cons (by decide),inAscii_append,inAscii_intercalate items,dumpsItems_eq,
      unescapedItems_eq,List.map_map,List.map_congr_left ih]
    rfl
  | obj fields ih =>
    have texts : dumpsFields floatRepr layout fields =
        (unescapedFields floatRepr layout fields).map fun field => (field.1,inAscii field.2) := by
      rw [dumpsFields_eq,unescapedFields_eq,List.map_map]
      exact List.map_congr_left fun field member => congrArg (field.1,·) (ih field member)
    have sorted : (if layout.sortKeys then sortByKey (dumpsFields floatRepr layout fields)
        else dumpsFields floatRepr layout fields) =
        (if layout.sortKeys then sortByKey (unescapedFields floatRepr layout fields)
          else unescapedFields floatRepr layout fields).map fun field => (field.1,inAscii field.2) := by
      rw [texts]
      split
      · exact (sortByKey_map inAscii _).symm
      · rfl
    rw [dumps,unescapedDumps,inAscii_cons (by decide),inAscii_append,inAscii_intercalate items]
    rw [sorted,List.map_map,List.map_map]
    have field (field : String × List Char) : quote field.1 ++ layout.keySeparator ++ inAscii field.2 =
        inAscii (unescapedQuote field.1 ++ layout.keySeparator ++ field.2) := by
      rw [inAscii_append,inAscii_append,inAscii_unescapedQuote,inAscii_plain keys]
    exact congrArg (fun texts => '\x7b' :: (layout.itemSeparator.intercalate texts ++ ['\x7d']))
      (List.map_congr_left fun entry _ => field entry)

theorem ordered_of_unescapedDumps (floats : ∀ q, Plain (floatRepr q)) (items : Plain layout.itemSeparator)
    (keys : Plain layout.keySeparator) (readable : layout.Readable) (sorts : layout.sortKeys = true) {v w : Json}
    (first : Proper parseFloat floatRepr v) (second : Proper parseFloat floatRepr w)
    (same : unescapedDumps floatRepr layout v = unescapedDumps floatRepr layout w) : ordered v = ordered w := by
  apply ordered_of_dumps readable sorts first second
  rw [dumps_eq_inAscii floats items keys,dumps_eq_inAscii floats items keys,same]

end Texts

end Orrery.Foundation.Json
