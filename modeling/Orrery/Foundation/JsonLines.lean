import Orrery.Foundation.JsonOrder

/-! Files of JSON texts, one on each line, as Python programs append to them and read
them back: `str.splitlines`, `str.strip`, and a reader that passes over what it cannot
decode. -/
namespace Orrery.Foundation.JsonLines
open Json

def isSpace (c : Char) : Bool :=
  (9 ≤ c.toNat && c.toNat ≤ 13) || (28 ≤ c.toNat && c.toNat ≤ 32) || c.toNat == 0x85 || c.toNat == 0xa0 ||
    c.toNat == 0x1680 || (0x2000 ≤ c.toNat && c.toNat ≤ 0x200a) || c.toNat == 0x2028 || c.toNat == 0x2029 ||
    c.toNat == 0x202f || c.toNat == 0x205f || c.toNat == 0x3000

def strip (text : List Char) : List Char := ((text.dropWhile isSpace).reverse.dropWhile isSpace).reverse

def isBoundary (c : Char) : Bool :=
  (10 ≤ c.toNat && c.toNat ≤ 13) || (28 ≤ c.toNat && c.toNat ≤ 30) || c.toNat == 0x85 || c.toNat == 0x2028 ||
    c.toNat == 0x2029

def linesFrom (line : List Char) : List Char → List (List Char)
  | [] => if line.isEmpty then [] else [line]
  | c :: rest =>
    if isBoundary c then
      -- `\r\n` ends one line
      match c, rest with
      | '\r', '\n' :: rest => line :: linesFrom [] rest
      | _, rest => line :: linesFrom [] rest
    else linesFrom (line ++ [c]) rest

def splitlines (text : List Char) : List (List Char) := linesFrom [] text

def readLines (parseFloat : List Char → ℚ) (text : List Char) : List Json :=
  (splitlines text).filterMap fun line => if (strip line).isEmpty then none else loads parseFloat (strip line)

def writeLine (floatRepr : ℚ → List Char) (layout : Layout) (v : Json) : List Char := dumps floatRepr layout v ++ ['\n']

def Plain (text : List Char) : Prop := ∀ c ∈ text, 32 ≤ c.toNat ∧ c.toNat ≤ 126

section Plainness
variable {first second : List Char}

theorem Plain.append (left : Plain first) (right : Plain second) : Plain (first ++ second) := by
  intro c inside
  rcases List.mem_append.mp inside with here | there
  · exact left c here
  · exact right c there

theorem Plain.cons {c : Char} (printable : 32 ≤ c.toNat ∧ c.toNat ≤ 126) (rest : Plain second) :
    Plain (c :: second) := by
  intro d inside
  rcases List.mem_cons.mp inside with rfl | there
  · exact printable
  · exact rest d there

theorem plain_of (checked : (first.all fun c => decide (32 ≤ c.toNat) && decide (c.toNat ≤ 126)) = true) :
    Plain first := by
  intro c inside
  simpa using List.all_eq_true.mp checked c inside

theorem plain_nil : Plain [] := by
  intro c inside
  cases inside

theorem Plain.intercalate (separator : Plain first) {texts : List (List Char)} (each : ∀ text ∈ texts, Plain text) :
    Plain (first.intercalate texts) := by
  induction texts with
  | nil => exact plain_nil
  | cons text texts ih =>
    have rest : Plain (first.intercalate texts) := ih fun text member => each text (List.mem_cons_of_mem _ member)
    cases texts with
    | nil => simpa [List.intercalate] using each text List.mem_cons_self
    | cons next texts =>
      have split : first.intercalate (text :: next :: texts) =
          text ++ (first ++ first.intercalate (next :: texts)) := by
        simp [List.intercalate]
      rw [split]
      exact (each text List.mem_cons_self).append (separator.append rest)

theorem plain_escapeUnit (n : Nat) : Plain (escapeUnit n) := by
  have digit : ∀ n < 16, 32 ≤ (hexDigit n).toNat ∧ (hexDigit n).toNat ≤ 126 := by decide
  have last (n : Nat) : n % 16 < 16 := Nat.mod_lt n (by decide)
  simp only [Plain,escapeUnit,List.forall_mem_cons]
  exact ⟨by decide,by decide,digit _ (last _),digit _ (last _),digit _ (last _),digit _ (last _),plain_nil⟩

theorem plain_toDigits (n : Nat) : Plain (Nat.toDigits 10 n) := by
  intro c inside
  have digit : c.isDigit = true := Nat.isDigit_of_mem_toDigits (by decide) (by decide) inside
  rw [Char.isDigit,Bool.and_eq_true,decide_eq_true_iff,decide_eq_true_iff] at digit
  have lower : 48 ≤ c.toNat := digit.1
  have upper : c.toNat ≤ 57 := digit.2
  omega

theorem plain_int (i : Int) : Plain (toString i).toList := by
  rw [Int.toString_eq_repr,Int.repr_eq_if]
  split
  next => simpa using plain_toDigits i.toNat
  next =>
    have text : ("-" ++ (-i).toNat.repr).toList = '-' :: Nat.toDigits 10 (-i).toNat := by simp
    rw [text]
    exact .cons (by decide) (plain_toDigits _)

theorem plain_escapeChar (c : Char) : Plain (escapeChar c) := by
  have two (d : Char) (printable : 32 ≤ d.toNat ∧ d.toNat ≤ 126) : Plain ['\\',d] :=
    .cons (by decide) (.cons printable plain_nil)
  unfold escapeChar
  split
  · exact two _ (by decide)
  split
  · exact two _ (by decide)
  split
  · exact two _ (by decide)
  split
  · exact two _ (by decide)
  split
  · exact two _ (by decide)
  split
  · exact two _ (by decide)
  split
  · exact two _ (by decide)
  split
  next printable => exact .cons printable plain_nil
  split
  · exact plain_escapeUnit _
  · exact (plain_escapeUnit _).append (plain_escapeUnit _)

theorem plain_quote (s : String) : Plain (quote s) := by
  unfold quote
  refine .cons (by decide) (.append ?_ (.cons (by decide) plain_nil))
  intro c inside
  obtain ⟨d,_,within⟩ := List.mem_flatMap.mp inside
  exact plain_escapeChar d c within

end Plainness

section Texts
variable {floatRepr : ℚ → List Char} {layout : Layout}

theorem plain_dumps (floats : ∀ q, Plain (floatRepr q)) (items : Plain layout.itemSeparator)
    (keys : Plain layout.keySeparator) (v : Json) : Plain (dumps floatRepr layout v) := by
  have letters : Plain ['n','u','l','l'] ∧ Plain ['t','r','u','e'] ∧ Plain ['f','a','l','s','e'] :=
    ⟨plain_of rfl,plain_of rfl,plain_of rfl⟩
  induction v using byMembers with
  | null => exact letters.1
  | bool b =>
    cases b with
    | true => exact letters.2.1
    | false => exact letters.2.2
  | int i => exact plain_int i
  | float q => exact floats q
  | str s => exact plain_quote s
  | arr values ih =>
    rw [dumps,dumpsItems_eq]
    refine .cons (by decide) (.append (.intercalate items ?_) (.cons (by decide) plain_nil))
    intro text member
    obtain ⟨v,inside,rfl⟩ := List.mem_map.mp member
    exact ih v inside
  | obj fields ih =>
    rw [dumps,dumpsFields_eq]
    refine .cons (by decide) (.append (.intercalate items ?_) (.cons (by decide) plain_nil))
    intro text member
    obtain ⟨rendered,inside,rfl⟩ := List.mem_map.mp member
    refine ((plain_quote rendered.1).append keys).append ?_
    have found : rendered ∈ fields.map fun field => (field.1,dumps floatRepr layout field.2) := by
      split at inside
      · exact (List.perm_insertionSort _ _).mem_iff.mp inside
      · exact inside
    obtain ⟨field,within,rfl⟩ := List.mem_map.mp found
    exact ih field within

end Texts

theorem linesFrom_line {text : List Char} (plain : Plain text) (rest : List Char) :
    ∀ line, linesFrom line (text ++ '\n' :: rest) = (line ++ text) :: linesFrom [] rest := by
  induction text with
  | nil =>
    intro line
    rw [List.append_nil]
    rfl
  | cons c text ih =>
    intro line
    have printable := plain c List.mem_cons_self
    have inner : isBoundary c = false := by
      simp only [isBoundary,Bool.or_eq_false_iff,Bool.and_eq_false_iff,decide_eq_false_iff_not,beq_eq_false_iff_ne]
      omega
    rw [List.cons_append,linesFrom,inner,if_neg Bool.false_ne_true,
      ih (fun d inside => plain d (List.mem_cons_of_mem _ inside))]
    · simp
    · intro _ same _
      rw [same] at inner
      cases inner

theorem strip_closed {first last : Char} {middle : List Char} (opens : isSpace first = false)
    (closes : isSpace last = false) :
    strip (first :: (middle ++ [last])) = first :: (middle ++ [last]) := by
  have front : (first :: (middle ++ [last])).dropWhile isSpace = first :: (middle ++ [last]) := by
    rw [List.dropWhile_cons,opens,if_neg Bool.false_ne_true]
  have back : ((first :: (middle ++ [last])).reverse).dropWhile isSpace = (first :: (middle ++ [last])).reverse := by
    simp [closes]
  rw [strip,front,back,List.reverse_reverse]

theorem strip_front {c : Char} (opens : isSpace c = false) (text : List Char) :
    ∃ front back, strip (c :: text) = c :: front ∧ text = front ++ back := by
  have whole : (c :: text).dropWhile isSpace = c :: text := by
    rw [List.dropWhile_cons,opens,if_neg Bool.false_ne_true]
  have parts := List.takeWhile_append_dropWhile (p := isSpace) (l := (c :: text).reverse)
  have filled : (c :: text).reverse.dropWhile isSpace ≠ [] := by
    rw [ne_eq,List.dropWhile_eq_nil_iff,not_forall]
    exact ⟨c,fun all => by simp [opens] at all⟩
  have split : strip (c :: text) ++ ((c :: text).reverse.takeWhile isSpace).reverse = c :: text := by
    rw [strip,whole,← List.reverse_append,parts,List.reverse_reverse]
  obtain ⟨d,front,same⟩ := List.exists_cons_of_ne_nil (show strip (c :: text) ≠ [] by simpa [strip,whole] using filled)
  rw [same,List.cons_append] at split
  obtain ⟨rfl,rest⟩ := List.cons.inj split
  exact ⟨front,_,same,rest.symm⟩

section Files
variable {parseFloat : List Char → ℚ} {floatRepr : ℚ → List Char} {layout : Layout}

theorem readLines_written (readable : layout.Readable) (sorts : layout.sortKeys = true)
    (floats : ∀ q, Plain (floatRepr q)) (separators : Plain layout.itemSeparator ∧ Plain layout.keySeparator)
    (rows : List Dict) (proper : ∀ row ∈ rows, Proper parseFloat floatRepr (.obj row)) :
    readLines parseFloat (rows.flatMap fun row => writeLine floatRepr layout (.obj row)) =
      rows.map fun row => ordered (.obj row) := by
  induction rows with
  | nil => rfl
  | cons row rows ih =>
    have plain : Plain (dumps floatRepr layout (.obj row)) := plain_dumps floats separators.1 separators.2 _
    have closed : strip (dumps floatRepr layout (.obj row)) = dumps floatRepr layout (.obj row) := by
      rw [dumps]
      exact strip_closed (by decide) (by decide)
    have decoded := loads_dumps readable sorts (proper row List.mem_cons_self)
    have filled : (dumps floatRepr layout (.obj row)).isEmpty = false := by
      rw [dumps]
      rfl
    have further := ih fun other member => proper other (List.mem_cons_of_mem _ member)
    rw [readLines,splitlines] at further ⊢
    rw [List.flatMap_cons,writeLine,List.append_assoc,List.singleton_append,linesFrom_line plain,List.nil_append,
      List.filterMap_cons,closed,filled,if_neg Bool.false_ne_true,decoded,further]
    rfl

end Files

end Orrery.Foundation.JsonLines
