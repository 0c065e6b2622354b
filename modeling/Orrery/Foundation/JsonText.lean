import Mathlib.Data.List.Find
import Mathlib.Data.List.Sort
import Mathlib.Data.List.TakeWhile
import Orrery.Foundation.Json
import Orrery.Foundation.Hex

/-! Reading JSON text back: `json.loads`, and that it undoes `json.dumps`. Beyond JSON
proper the decoder takes NaN and the infinities, which count as floats here. -/
namespace Orrery.Foundation.Json
open Hex

def isWhite (c : Char) : Bool := c == ' ' || c == '\t' || c == '\n' || c == '\r'

def skip (text : List Char) : List Char := text.dropWhile isWhite

def hexUnit : List Char → Option (Nat × List Char)
  | a :: b :: c :: d :: rest => do
    let a ← digitValue a
    let b ← digitValue b
    let c ← digitValue c
    let d ← digitValue d
    return (4096*a+256*b+16*c+d,rest)
  | _ => none

/-- What follows a backslash. A surrogate without its partner is not a character. -/
def escape : List Char → Option (Char × List Char)
  | '"' :: rest => some ('"',rest)
  | '\\' :: rest => some ('\\',rest)
  | '/' :: rest => some ('/',rest)
  | 'b' :: rest => some (Char.ofNat 8,rest)
  | 'f' :: rest => some (Char.ofNat 12,rest)
  | 'n' :: rest => some ('\n',rest)
  | 'r' :: rest => some ('\r',rest)
  | 't' :: rest => some ('\t',rest)
  | 'u' :: rest => do
    let (unit,rest) ← hexUnit rest
    if unit < 55296 ∨ 57344 ≤ unit then return (Char.ofNat unit,rest)
    else
      match rest with
      | '\\' :: 'u' :: rest => do
        let (low,rest) ← hexUnit rest
        if unit < 56320 ∧ 56320 ≤ low ∧ low < 57344 then
          return (Char.ofNat (65536+1024*(unit-55296)+(low-56320)),rest)
        else none
      | _ => none
  | _ => none

def characters : Nat → List Char → Option (List Char × List Char)
  | 0, _ => none
  | _+1, [] => none
  | _+1, '"' :: rest => some ([],rest)
  | fuel+1, '\\' :: rest =>
    (escape rest).bind fun read => (characters fuel read.2).map fun found => (read.1 :: found.1,found.2)
  | fuel+1, c :: rest =>
    if c.toNat < 32 then none else (characters fuel rest).map fun found => (c :: found.1,found.2)

def string (text : List Char) : Option (String × List Char) :=
  (characters text.length text).map fun found => (String.ofList found.1,found.2)

theorem hexUnit_escape (n : Nat) (small : n < 65536) (rest : List Char) :
    hexUnit (hexDigit (n/4096 % 16) :: hexDigit (n/256 % 16) :: hexDigit (n/16 % 16) :: hexDigit (n % 16) :: rest) =
      some (n,rest) := by
  have whole : 4096*(n/4096 % 16)+256*(n/256 % 16)+16*(n/16 % 16)+n % 16 = n := by omega
  simp [hexUnit,digitValue_hexDigit,Nat.mod_lt,whole]

theorem not_surrogate (c : Char) : c.toNat < 55296 ∨ 57344 ≤ c.toNat := by
  have valid := c.valid
  simp only [UInt32.isValidChar,Nat.isValidChar] at valid
  change c.toNat < 55296 ∨ 57343 < c.toNat ∧ c.toNat < 1114112 at valid
  omega

theorem toNat_lt (c : Char) : c.toNat < 1114112 := by
  have valid := c.valid
  simp only [UInt32.isValidChar,Nat.isValidChar] at valid
  change c.toNat < 55296 ∨ 57343 < c.toNat ∧ c.toNat < 1114112 at valid
  omega

theorem escape_unit (c : Char) (small : c.toNat < 65536) (rest : List Char) :
    escape ((escapeUnit c.toNat).tail ++ rest) = some (c,rest) := by
  simp only [escapeUnit,List.tail_cons,List.cons_append,List.nil_append,escape,hexUnit_escape c.toNat small]
  simp [not_surrogate c]

theorem escape_surrogates {high low : Nat} (above : 55296 ≤ high) (leads : high < 56320) (follows : 56320 ≤ low)
    (below : low < 57344) (rest : List Char) : escape ((escapeUnit high).tail ++ (escapeUnit low ++ rest)) =
      some (Char.ofNat (65536+1024*(high-55296)+(low-56320)),rest) := by
  simp only [escapeUnit,List.tail_cons,List.cons_append,List.nil_append,escape,hexUnit_escape high (by omega),
    hexUnit_escape low (by omega),Option.bind_eq_bind,Option.bind_some]
  rw [if_neg (by omega),if_pos ⟨leads,follows,below⟩]
  rfl

theorem escape_pair (c : Char) (large : 65536 ≤ c.toNat) (rest : List Char) :
    escape ((escapeUnit (55296+(c.toNat-65536)/1024)).tail ++ (escapeUnit (56320+(c.toNat-65536) % 1024) ++ rest)) =
      some (c,rest) := by
  have bound := toNat_lt c
  obtain ⟨n,same⟩ : ∃ n, n = c.toNat := ⟨_,rfl⟩
  rw [← same] at large bound ⊢
  rw [escape_surrogates (by omega) (by omega) (by omega) (by omega)]
  have whole : 65536+1024*(55296+(n-65536)/1024-55296)+(56320+(n-65536) % 1024-56320) = n := by omega
  rw [whole,same,Char.ofNat_toNat]

theorem characters_backslash {text rest : List Char} {c : Char} (read : escape text = some (c,rest)) (fuel : Nat) :
    characters (fuel+1) ('\\' :: text) = (characters fuel rest).map fun found => (c :: found.1,found.2) := by
  rw [characters,read]
  rfl

theorem characters_escapeChar (fuel : Nat) (c : Char) (rest : List Char) :
    characters (fuel+1) (escapeChar c ++ rest) =
      (characters fuel rest).map fun found => (c :: found.1,found.2) := by
  have read : ∀ n, c.toNat = n → c = Char.ofNat n := fun n same => by rw [← same,Char.ofNat_toNat]
  unfold escapeChar
  split
  next same => subst same; exact characters_backslash rfl fuel
  split
  next same => subst same; exact characters_backslash rfl fuel
  split
  next same => subst same; exact characters_backslash rfl fuel
  split
  next same => subst same; exact characters_backslash rfl fuel
  split
  next same => subst same; exact characters_backslash rfl fuel
  split
  next same => rw [read 8 same]; exact characters_backslash rfl fuel
  split
  next same => rw [read 12 same]; exact characters_backslash rfl fuel
  split
  next quoted slash _ _ _ _ _ printable =>
    rw [List.singleton_append,characters]
    · rw [if_neg (by omega)]
    · exact fun same => quoted same
    · exact fun same => slash same
  split
  next small => exact characters_backslash (escape_unit c small rest) fuel
  next large =>
    rw [List.append_assoc]
    exact characters_backslash (escape_pair c (not_lt.mp large) rest) fuel

theorem characters_quoted (cs : List Char) (rest : List Char) : ∀ fuel, cs.length < fuel →
    characters fuel (cs.flatMap escapeChar ++ '"' :: rest) = some (cs,rest) := by
  induction cs with
  | nil =>
    intro fuel enough
    obtain ⟨fuel,rfl⟩ := Nat.exists_eq_add_one.mpr enough
    rfl
  | cons c cs ih =>
    intro fuel enough
    obtain ⟨fuel,rfl⟩ := Nat.exists_eq_add_one.mpr (Nat.zero_lt_of_lt enough)
    rw [List.flatMap_cons,List.append_assoc,characters_escapeChar,ih fuel (Nat.lt_of_succ_lt_succ enough)]
    rfl

theorem escapeChar_ne_nil (c : Char) : escapeChar c ≠ [] := by
  unfold escapeChar escapeUnit
  split_ifs <;> simp

theorem length_le_escaped (cs : List Char) : cs.length ≤ (cs.flatMap escapeChar).length := by
  induction cs with
  | nil => exact Nat.zero_le _
  | cons c cs ih =>
    have positive := List.length_pos_of_ne_nil (escapeChar_ne_nil c)
    rw [List.flatMap_cons,List.length_append,List.length_cons]
    omega

theorem string_quote (s : String) (rest : List Char) :
    string (s.toList.flatMap escapeChar ++ '"' :: rest) = some (s,rest) := by
  have enough := length_le_escaped s.toList
  rw [string,characters_quoted]
  · simp
  · simp only [List.length_append,List.length_cons]
    omega

def endings : List Char := [',',']','\x7d',' ','\t','\n','\r']

def Ends (rest : List Char) : Prop := ∀ c ∈ rest.head?, c ∈ endings

theorem Ends.nil : Ends [] := by
  intro c head
  cases head

theorem Ends.cons {c : Char} (ending : c ∈ endings) (rest : List Char) : Ends (c :: rest) := by
  intro d head
  cases head
  exact ending

def whole : List Char → Option (List Char × List Char)
  | '0' :: rest => some (['0'],rest)
  | text =>
    let digits := text.takeWhile Char.isDigit
    if digits.isEmpty then none else some (digits,text.dropWhile Char.isDigit)

def fraction : List Char → List Char × List Char
  | '.' :: rest =>
    let digits := rest.takeWhile Char.isDigit
    if digits.isEmpty then ([],'.' :: rest) else ('.' :: digits,rest.dropWhile Char.isDigit)
  | text => ([],text)

def sign : List Char → List Char × List Char
  | '+' :: rest => (['+'],rest)
  | '-' :: rest => (['-'],rest)
  | text => ([],text)

def exponent : List Char → List Char × List Char
  | [] => ([],[])
  | e :: rest =>
    let digits := (sign rest).2.takeWhile Char.isDigit
    if (e == 'e' || e == 'E') && !digits.isEmpty then
      (e :: ((sign rest).1 ++ digits),(sign rest).2.dropWhile Char.isDigit)
    else ([],e :: rest)

def minus : List Char → List Char × List Char
  | '-' :: rest => (['-'],rest)
  | text => ([],text)

def number (parseFloat : List Char → ℚ) (text : List Char) : Option (Json × List Char) :=
  (whole (minus text).2).map fun found =>
    let decimals := fraction found.2
    let power := exponent decimals.2
    if decimals.1.isEmpty && power.1.isEmpty then
      let size : Int := Nat.ofDigitChars 10 found.1 0
      (.int (if (minus text).1.isEmpty then size else -size),power.2)
    else (.float (parseFloat ((minus text).1 ++ found.1 ++ decimals.1 ++ power.1)),power.2)

def constants : List (List Char) := ["NaN".toList,"Infinity".toList,"-Infinity".toList]

def literal (parseFloat : List Char → ℚ) (text : List Char) : Option (Json × List Char) :=
  match constants.find? (·.isPrefixOf text) with
  | some name => some (.float (parseFloat name),text.drop name.length)
  | none => number parseFloat text

section Literals
variable {rest : List Char}

theorem Ends.not_digit (ends : Ends rest) : ∀ c ∈ rest.head?, c.isDigit = false := by
  have none : ∀ c ∈ endings, c.isDigit = false := by simp [endings]
  exact fun c head => none c (ends c head)

theorem takeWhile_append (ends : Ends rest) (text : List Char) :
    (text ++ rest).takeWhile Char.isDigit = text.takeWhile Char.isDigit := by
  induction text with
  | nil =>
    cases rest with
    | nil => rfl
    | cons c rest => rw [List.nil_append,List.takeWhile_cons_of_neg (by simp [ends.not_digit c rfl])]; rfl
  | cons c text ih => rw [List.cons_append,List.takeWhile_cons,List.takeWhile_cons,ih]

theorem dropWhile_append (ends : Ends rest) (text : List Char) :
    (text ++ rest).dropWhile Char.isDigit = text.dropWhile Char.isDigit ++ rest := by
  induction text with
  | nil =>
    cases rest with
    | nil => rfl
    | cons c rest => rw [List.nil_append,List.dropWhile_cons_of_neg (by simp [ends.not_digit c rfl])]; rfl
  | cons c text ih =>
    rw [List.cons_append,List.dropWhile_cons,List.dropWhile_cons,ih]
    split
    next => rfl
    next => rfl

theorem Ends.starts (ends : Ends rest) {d : Char} (other : d ∉ endings) {text more : List Char}
    (same : text ++ rest = d :: more) : ∃ own, text = d :: own := by
  cases text with
  | nil =>
    rw [List.nil_append] at same
    subst same
    exact absurd (ends d rfl) other
  | cons c text => exact ⟨text,by rw [(List.cons.inj same).1]⟩

theorem whole_append (ends : Ends rest) (text : List Char) :
    whole (text ++ rest) = (whole text).map fun found => (found.1,found.2 ++ rest) := by
  by_cases zero : ∃ more, text = '0' :: more
  · obtain ⟨more,rfl⟩ := zero
    rfl
  · rw [whole.eq_2 _ fun more same => zero (ends.starts (by decide) same),
      whole.eq_2 _ fun more same => zero ⟨more,same⟩,takeWhile_append ends,dropWhile_append ends]
    split <;> rfl

theorem fraction_append (ends : Ends rest) (text : List Char) :
    fraction (text ++ rest) = ((fraction text).1,(fraction text).2 ++ rest) := by
  by_cases dot : ∃ more, text = '.' :: more
  · obtain ⟨more,rfl⟩ := dot
    rw [List.cons_append,fraction,fraction,takeWhile_append ends,dropWhile_append ends]
    split <;> rfl
  · rw [fraction.eq_2 _ fun more same => dot (ends.starts (by decide) same),
      fraction.eq_2 _ fun more same => dot ⟨more,same⟩]

theorem sign_append (ends : Ends rest) (text : List Char) :
    sign (text ++ rest) = ((sign text).1,(sign text).2 ++ rest) := by
  by_cases plus : ∃ more, text = '+' :: more
  · obtain ⟨more,rfl⟩ := plus
    rfl
  by_cases dash : ∃ more, text = '-' :: more
  · obtain ⟨more,rfl⟩ := dash
    rfl
  rw [sign.eq_3 _ (fun more same => plus (ends.starts (by decide) same))
      (fun more same => dash (ends.starts (by decide) same)),
    sign.eq_3 _ (fun more same => plus ⟨more,same⟩) fun more same => dash ⟨more,same⟩]

theorem minus_append (ends : Ends rest) (text : List Char) :
    minus (text ++ rest) = ((minus text).1,(minus text).2 ++ rest) := by
  by_cases dash : ∃ more, text = '-' :: more
  · obtain ⟨more,rfl⟩ := dash
    rfl
  · rw [minus.eq_2 _ fun more same => dash (ends.starts (by decide) same),
      minus.eq_2 _ fun more same => dash ⟨more,same⟩]

theorem exponent_append (ends : Ends rest) (text : List Char) :
    exponent (text ++ rest) = ((exponent text).1,(exponent text).2 ++ rest) := by
  cases text with
  | nil =>
    cases rest with
    | nil => rfl
    | cons c rest =>
      have neither : ∀ c ∈ endings, (c == 'e' || c == 'E') = false := by simp [endings]
      simp only [List.nil_append,exponent,neither c (ends c rfl),Bool.false_and,Bool.false_eq_true,if_false]
  | cons e text =>
    rw [List.cons_append,exponent,exponent,sign_append ends,takeWhile_append ends,dropWhile_append ends]
    dsimp only
    split <;> rfl

theorem number_append (ends : Ends rest) (parseFloat : List Char → ℚ) (text : List Char) :
    number parseFloat (text ++ rest) = (number parseFloat text).map fun found => (found.1,found.2 ++ rest) := by
  rw [number,number,minus_append ends,whole_append ends,Option.map_map,Option.map_map]
  congr 1
  funext found
  simp only [Function.comp_apply,fraction_append ends,exponent_append ends]
  split <;> rfl

theorem isPrefixOf_append (ends : Ends rest) (name : List Char) : (∀ c ∈ name, c ∉ endings) → ∀ text,
    name.isPrefixOf (text ++ rest) = name.isPrefixOf text := by
  induction name with
  | nil => simp
  | cons d name ih =>
    intro other text
    cases text with
    | nil =>
      cases rest with
      | nil => rfl
      | cons c rest =>
        have apart : d ≠ c := fun same => other d (by simp) (same ▸ ends c rfl)
        simp [List.isPrefixOf,apart]
    | cons c text =>
      rw [List.cons_append,List.isPrefixOf,List.isPrefixOf,ih (fun e member => other e (by simp [member]))]

theorem literal_append (ends : Ends rest) (parseFloat : List Char → ℚ) (text : List Char) :
    literal parseFloat (text ++ rest) = (literal parseFloat text).map fun found => (found.1,found.2 ++ rest) := by
  have letters : ∀ name ∈ constants, ∀ c ∈ name, c ∉ endings := by simp [constants,endings]
  have same : constants.find? (·.isPrefixOf (text ++ rest)) = constants.find? (·.isPrefixOf text) :=
    List.find?_congr fun name known => isPrefixOf_append ends name (letters name known) text
  rw [literal,literal,same]
  split
  next name found =>
    have initial : name.isPrefixOf text = true := by simpa using List.find?_some found
    have within := (List.isPrefixOf_iff_prefix.mp initial).length_le
    rw [Option.map_some,List.drop_append_of_le_length within]
  next => exact number_append ends parseFloat text

end Literals

theorem toDigits_starts (n : Nat) : n = 0 ∨ ∃ d more, Nat.toDigits 10 n = d :: more ∧ d ≠ '0' := by
  induction n using Nat.strong_induction_on with
  | h n ih =>
    by_cases small : n < 10
    · rw [Nat.toDigits_of_lt_base small]
      have digit : ∀ n < 10, n = 0 ∨ Nat.digitChar n ≠ '0' := by decide
      exact (digit n small).imp_right fun apart => ⟨_,[],rfl,apart⟩
    · rw [Nat.toDigits_of_base_le (by decide) (not_lt.mp small)]
      rcases ih (n/10) (by omega) with zero | ⟨d,more,same,apart⟩
      · omega
      · rw [same]
        exact Or.inr ⟨d,_,rfl,apart⟩

theorem whole_toDigits (n : Nat) : whole (Nat.toDigits 10 n) = some (Nat.toDigits 10 n,[]) := by
  have digits : ∀ c ∈ Nat.toDigits 10 n, c.isDigit = true :=
    fun c member => Nat.isDigit_of_mem_toDigits (by decide) (by decide) member
  rcases toDigits_starts n with rfl | ⟨d,more,same,apart⟩
  · rw [Nat.toDigits_zero]
    rfl
  · rw [whole.eq_2 _ fun _ equal => apart (List.cons.inj (same.symm.trans equal)).1,
      List.takeWhile_eq_self_iff.mpr digits,List.dropWhile_eq_nil_iff.mpr digits,same]
    rfl

theorem toDigits_cons (n : Nat) : ∃ d more, Nat.toDigits 10 n = d :: more ∧ d.isDigit = true := by
  obtain ⟨d,more,same⟩ := List.exists_cons_of_ne_nil (Nat.toDigits_ne_nil (n := n) (b := 10))
  have member : d ∈ Nat.toDigits 10 n := by simp [same]
  exact ⟨d,more,same,Nat.isDigit_of_mem_toDigits (by decide) (by decide) member⟩

theorem minus_toDigits (n : Nat) : minus (Nat.toDigits 10 n) = ([],Nat.toDigits 10 n) := by
  obtain ⟨d,more,same,digit⟩ := toDigits_cons n
  refine minus.eq_2 _ fun rest equal => ?_
  rw [(List.cons.inj (same.symm.trans equal)).1] at digit
  cases digit

theorem number_toDigits (parseFloat : List Char → ℚ) (n : Nat) :
    number parseFloat (Nat.toDigits 10 n) = some (.int n,[]) := by
  rw [number,minus_toDigits,whole_toDigits]
  simp [fraction,exponent]

theorem number_neg_toDigits (parseFloat : List Char → ℚ) (n : Nat) :
    number parseFloat ('-' :: Nat.toDigits 10 n) = some (.int (-n),[]) := by
  rw [number,minus,whole_toDigits]
  simp [fraction,exponent]

theorem literal_digits (parseFloat : List Char → ℚ) {text : List Char} (starts : ∃ d more, (minus text).2 = d :: more ∧
    d.isDigit = true) : literal parseFloat text = number parseFloat text := by
  obtain ⟨d,more,same,digit⟩ := starts
  have apart : ∀ c : Char, c.isDigit = false → c ≠ d := by
    rintro c other rfl
    exact Bool.noConfusion (other.symm.trans digit)
  have none : constants.find? (·.isPrefixOf text) = none := by
    by_cases dash : ∃ rest, text = '-' :: rest
    · obtain ⟨rest,rfl⟩ := dash
      rw [minus] at same
      subst same
      simp [constants,List.isPrefixOf,apart 'I' (by decide)]
    · rw [minus.eq_2 _ fun rest equal => dash ⟨rest,equal⟩] at same
      subst same
      simp [constants,List.isPrefixOf,apart 'N' (by decide),apart 'I' (by decide),apart '-' (by decide)]
  rw [literal,none]

theorem literal_int (parseFloat : List Char → ℚ) (i : Int) :
    literal parseFloat (toString i).toList = some (.int i,[]) := by
  rw [Int.toString_eq_repr,Int.repr_eq_if]
  split
  next positive =>
    rw [Nat.toList_repr,literal_digits,number_toDigits,Int.toNat_of_nonneg positive]
    rw [minus_toDigits]
    exact toDigits_cons i.toNat
  next negative =>
    have text : ("-" ++ (-i).toNat.repr).toList = '-' :: Nat.toDigits 10 (-i).toNat := by simp
    rw [text,literal_digits,number_neg_toDigits,Int.toNat_of_nonneg (by omega),neg_neg]
    exact toDigits_cons (-i).toNat

section Decoding
variable (parseFloat : List Char → ℚ)

mutual
def value : Nat → List Char → Option (Json × List Char)
  | 0, _ => none
  | fuel+1, text =>
    match literal parseFloat text with
    | some found => some found
    | none =>
      match text with
      | 'n' :: 'u' :: 'l' :: 'l' :: rest => some (.null,rest)
      | 't' :: 'r' :: 'u' :: 'e' :: rest => some (.bool true,rest)
      | 'f' :: 'a' :: 'l' :: 's' :: 'e' :: rest => some (.bool false,rest)
      | '"' :: rest => (string rest).map fun found => (.str found.1,found.2)
      | '[' :: rest =>
        match skip rest with
        | ']' :: rest => some (.arr [],rest)
        | rest => (items fuel rest).map fun found => (.arr found.1,found.2)
      | '\x7b' :: rest =>
        match skip rest with
        | '\x7d' :: rest => some (.obj [],rest)
        | rest => (members fuel [] rest).map fun found => (.obj found.1,found.2)
      | _ => none
def items : Nat → List Char → Option (List Json × List Char)
  | 0, _ => none
  | fuel+1, text =>
    (value fuel text).bind fun first =>
      match skip first.2 with
      | ',' :: rest => (items fuel (skip rest)).map fun found => (first.1 :: found.1,found.2)
      | ']' :: rest => some ([first.1],rest)
      | _ => none
def members : Nat → Dict → List Char → Option (Dict × List Char)
  | 0, _, _ => none
  | fuel+1, before, text =>
    match text with
    | '"' :: rest =>
      (string rest).bind fun key =>
        match skip key.2 with
        | ':' :: rest =>
          (value fuel (skip rest)).bind fun found =>
            let fields := setItem before key.1 found.1
            match skip found.2 with
            | ',' :: rest => members fuel fields (skip rest)
            | '\x7d' :: rest => some (fields,rest)
            | _ => none
        | _ => none
    | _ => none
end

def loads (text : List Char) : Option Json :=
  (value parseFloat (2*text.length+1) (skip text)).bind fun found =>
    if (skip found.2).isEmpty then some found.1 else none

variable (floatRepr : ℚ → List Char)

mutual
/-- A value as Python holds it: the keys of a dictionary differ, and its floats are
numbers whose text reads back as them. -/
def Proper : Json → Prop
  | .float q => literal parseFloat (floatRepr q) = some (.float q,[])
  | .arr values => ProperItems values
  | .obj fields => (fields.map Prod.fst).Nodup ∧ ProperFields fields
  | _ => True
def ProperItems : List Json → Prop
  | [] => True
  | first :: rest => Proper first ∧ ProperItems rest
def ProperFields : List (String × Json) → Prop
  | [] => True
  | (_,first) :: rest => Proper first ∧ ProperFields rest
end

end Decoding

structure Layout.Readable (layout : Layout) : Prop where
  item : ∃ white, layout.itemSeparator = ',' :: white ∧ ∀ c ∈ white, isWhite c = true
  key : ∃ white, layout.keySeparator = ':' :: white ∧ ∀ c ∈ white, isWhite c = true

def Layout.sorted : Layout := ⟨[',',' '],[':',' '],true⟩

theorem Layout.sorted_readable : Layout.sorted.Readable :=
  ⟨⟨[' '],rfl,by simp [isWhite]⟩,⟨[' '],rfl,by simp [isWhite]⟩⟩

theorem Layout.plain_readable : Layout.plain.Readable :=
  ⟨⟨[' '],rfl,by simp [isWhite]⟩,⟨[' '],rfl,by simp [isWhite]⟩⟩

theorem Layout.canonical_readable : Layout.canonical.Readable := ⟨⟨[],rfl,nofun⟩,⟨[],rfl,nofun⟩⟩

section RoundTrip
variable {parseFloat : List Char → ℚ} {floatRepr : ℚ → List Char} {layout : Layout}

theorem skip_white {white : List Char} (all : ∀ c ∈ white, isWhite c = true) {text : List Char}
    (starts : ∃ c more, text = c :: more ∧ isWhite c = false) : skip (white ++ text) = text := by
  obtain ⟨c,more,rfl,black⟩ := starts
  rw [skip,List.dropWhile_append_of_pos all,List.dropWhile_cons_of_neg (by simp [black])]

theorem skip_black {c : Char} (black : isWhite c = false) (text : List Char) : skip (c :: text) = c :: text :=
  List.dropWhile_cons_of_neg (by simp [black])

theorem value_starts {fuel : Nat} {text rest : List Char} {found : Json}
    (read : value parseFloat fuel text = some (found,rest)) :
    ∃ c more, text = c :: more ∧ isWhite c = false ∧ c ≠ ']' := by
  cases fuel with
  | zero => cases read
  | succ fuel =>
    cases text with
    | nil => cases read
    | cons c more =>
      refine ⟨c,more,rfl,?_,?_⟩
      · by_contra white
        simp only [isWhite,Bool.not_eq_false,Bool.or_eq_true,beq_iff_eq] at white
        rcases white with ((rfl | rfl) | rfl) | rfl <;> cases read
      · rintro rfl
        cases read

theorem value_literal {text : List Char} {found : Json} (read : literal parseFloat text = some (found,[]))
    (fuel : Nat) {rest : List Char} (ends : Ends rest) :
    value parseFloat (fuel+1) (text ++ rest) = some (found,rest) := by
  rw [value.eq_def]
  dsimp only
  rw [literal_append ends,read]
  rfl

theorem value_string (s : String) (fuel : Nat) (rest : List Char) :
    value parseFloat (fuel+1) (quote s ++ rest) = some (.str s,rest) := by
  rw [quote,List.cons_append,List.append_assoc,List.singleton_append]
  have read : value parseFloat (fuel+1) ('"' :: (s.toList.flatMap escapeChar ++ '"' :: rest)) =
      (string (s.toList.flatMap escapeChar ++ '"' :: rest)).map fun found => (.str found.1,found.2) := rfl
  rw [read,string_quote]
  rfl

theorem value_items {fuel : Nat} {text rest : List Char} {values : List Json}
    (starts : ∃ c more, text = c :: more ∧ isWhite c = false ∧ c ≠ ']')
    (read : items parseFloat fuel text = some (values,rest)) :
    value parseFloat (fuel+1) ('[' :: text) = some (.arr values,rest) := by
  have opened : value parseFloat (fuel+1) ('[' :: text) = match skip text with
      | ']' :: rest => some (.arr [],rest)
      | rest => (items parseFloat fuel rest).map fun found => (.arr found.1,found.2) := rfl
  obtain ⟨c,more,rfl,black,other⟩ := starts
  rw [opened,skip_black black]
  split
  next same => exact absurd (List.cons.inj same).1 other
  next => rw [read]; rfl

theorem value_members {fuel : Nat} {text rest : List Char} {fields : Dict}
    (read : members parseFloat fuel [] ('"' :: text) = some (fields,rest)) :
    value parseFloat (fuel+1) ('\x7b' :: '"' :: text) = some (.obj fields,rest) := by
  have opened : value parseFloat (fuel+1) ('\x7b' :: '"' :: text) =
      (members parseFloat fuel [] ('"' :: text)).map fun found => (.obj found.1,found.2) := rfl
  rw [opened,read]
  rfl

theorem items_last {fuel : Nat} {text rest : List Char} {first : Json}
    (read : value parseFloat fuel text = some (first,']' :: rest)) :
    items parseFloat (fuel+1) text = some ([first],rest) := by
  rw [items,read]
  rfl

theorem items_further {fuel : Nat} {text white more rest : List Char} {first : Json} {values : List Json}
    (blank : ∀ c ∈ white, isWhite c = true) (starts : ∃ c tail, more = c :: tail ∧ isWhite c = false)
    (read : value parseFloat fuel text = some (first,',' :: (white ++ more)))
    (further : items parseFloat fuel more = some (values,rest)) :
    items parseFloat (fuel+1) text = some (first :: values,rest) := by
  rw [items,read,Option.bind_some,skip_black (by decide)]
  change (items parseFloat fuel (skip (white ++ more))).map _ = _
  rw [skip_white blank starts,further]
  rfl

theorem members_first (fuel : Nat) (before : Dict) (key : String) {text white rest : List Char} {found : Json}
    (blank : ∀ c ∈ white, isWhite c = true) (read : value parseFloat fuel text = some (found,rest)) :
    members parseFloat (fuel+1) before (quote key ++ ':' :: (white ++ text)) =
      match skip rest with
      | ',' :: rest => members parseFloat fuel (setItem before key found) (skip rest)
      | '\x7d' :: rest => some (setItem before key found,rest)
      | _ => none := by
  obtain ⟨c,more,same,black,_⟩ := value_starts read
  rw [quote,List.cons_append,List.append_assoc,List.singleton_append,members,string_quote,Option.bind_some,
    skip_black (by decide)]
  change (value parseFloat fuel (skip (white ++ text))).bind _ = _
  rw [skip_white blank ⟨c,more,same,black⟩,read]
  rfl

theorem dumps_length_pos (layout : Layout) {v : Json} (proper : Proper parseFloat floatRepr v) :
    0 < (dumps floatRepr layout v).length := by
  apply List.length_pos_of_ne_nil
  intro empty
  cases v with
  | null => simp [dumps] at empty
  | bool b => cases b <;> simp [dumps] at empty
  | int i =>
    have read := literal_int parseFloat i
    rw [dumps] at empty
    rw [empty] at read
    cases read
  | float q =>
    rw [Proper] at proper
    rw [dumps] at empty
    rw [empty] at proper
    cases proper
  | str s => simp [dumps,quote] at empty
  | arr values => simp [dumps] at empty
  | obj fields => simp [dumps] at empty

def itemsText (floatRepr : ℚ → List Char) (layout : Layout) (values : List Json) : List Char :=
  layout.itemSeparator.intercalate (dumpsItems floatRepr layout values)

def fieldText (layout : Layout) (field : String × List Char) : List Char :=
  quote field.1 ++ layout.keySeparator ++ field.2

def fieldsText (floatRepr : ℚ → List Char) (layout : Layout) (fields : List (String × Json)) : List Char :=
  layout.itemSeparator.intercalate ((dumpsFields floatRepr layout fields).map (fieldText layout))

theorem dumps_arr (values : List Json) :
    dumps floatRepr layout (.arr values) = '[' :: (itemsText floatRepr layout values ++ [']']) := by
  rw [dumps,itemsText]

theorem dumps_obj (unsorted : layout.sortKeys = false) (fields : List (String × Json)) :
    dumps floatRepr layout (.obj fields) = '\x7b' :: (fieldsText floatRepr layout fields ++ ['\x7d']) := by
  simp only [dumps,unsorted,fieldsText]
  rfl

theorem itemsText_single (v : Json) : itemsText floatRepr layout [v] = dumps floatRepr layout v := by
  simp [itemsText,dumpsItems]

theorem itemsText_cons (v w : Json) (more : List Json) : itemsText floatRepr layout (v :: w :: more) =
    dumps floatRepr layout v ++ layout.itemSeparator ++ itemsText floatRepr layout (w :: more) := by
  simp [itemsText,dumpsItems]

theorem fieldsText_single (key : String) (v : Json) : fieldsText floatRepr layout [(key,v)] =
    quote key ++ layout.keySeparator ++ dumps floatRepr layout v := by
  simp [fieldsText,dumpsFields,fieldText]

theorem fieldsText_cons (key : String) (v : Json) (next : String × Json) (more : List (String × Json)) :
    fieldsText floatRepr layout ((key,v) :: next :: more) =
      quote key ++ layout.keySeparator ++ dumps floatRepr layout v ++
      layout.itemSeparator ++ fieldsText floatRepr layout (next :: more) := by
  simp [fieldsText,dumpsFields,fieldText]

theorem fieldsText_starts (floatRepr : ℚ → List Char) (layout : Layout) (field : String × Json)
    (more : List (String × Json)) :
    ∃ text, fieldsText floatRepr layout (field :: more) = '"' :: text := by
  cases more with
  | nil => exact ⟨_,fieldsText_single field.1 field.2⟩
  | cons next more => exact ⟨_,fieldsText_cons field.1 field.2 next more⟩

theorem new_of_nodup {before fields : Dict} {key : String} {v : Json}
    (distinct : ((before ++ (key,v) :: fields).map Prod.fst).Nodup) : key ∉ before.map Prod.fst := by
  rw [List.map_append,List.map_cons] at distinct
  intro old
  exact (List.nodup_append.mp distinct).2.2 key old key List.mem_cons_self rfl

theorem setItem_new {before : Dict} {key : String} (new : key ∉ before.map Prod.fst) (v : Json) :
    setItem before key v = before ++ [(key,v)] := by
  induction before with
  | nil => rfl
  | cons field before ih =>
    simp only [List.map_cons,List.mem_cons,not_or] at new
    rw [setItem,if_neg (by simpa using Ne.symm new.1),ih new.2]
    rfl

mutual
theorem value_dumps (readable : layout.Readable) (unsorted : layout.sortKeys = false) (v : Json)
    (proper : Proper parseFloat floatRepr v) (fuel : Nat) (enough : 2*(dumps floatRepr layout v).length ≤ fuel)
    {rest : List Char} (ends : Ends rest) :
    value parseFloat fuel (dumps floatRepr layout v ++ rest) = some (v,rest) := by
  have positive := dumps_length_pos layout proper
  obtain ⟨fuel,rfl⟩ : ∃ n, fuel = n+1 := ⟨fuel-1,by omega⟩
  match v with
  | .null => rfl
  | .bool true => rfl
  | .bool false => rfl
  | .int i => exact value_literal (literal_int parseFloat i) fuel ends
  | .float q => exact value_literal proper fuel ends
  | .str s => exact value_string s fuel rest
  | .arr [] => rfl
  | .arr (first :: values) =>
    rw [dumps_arr] at enough ⊢
    simp only [List.length_cons,List.length_append] at enough
    have read := items_dumps readable unsorted (first :: values) (by simp) proper fuel (by omega) rest
    obtain ⟨starting,found⟩ := read
    rw [List.cons_append,List.append_assoc,List.singleton_append]
    exact value_items starting found
  | .obj [] =>
    rw [dumps_obj unsorted]
    rfl
  | .obj (field :: fields) =>
    rw [dumps_obj unsorted] at enough ⊢
    simp only [List.length_cons,List.length_append] at enough
    have read := members_dumps readable unsorted (field :: fields) (by simp) proper.2 [] (by simpa using proper.1) fuel
      (by omega) rest
    obtain ⟨text,starting⟩ := fieldsText_starts floatRepr layout field fields
    rw [starting] at read ⊢
    rw [List.cons_append,List.append_assoc,List.singleton_append]
    exact value_members read

theorem items_dumps (readable : layout.Readable) (unsorted : layout.sortKeys = false) (values : List Json)
    (filled : values ≠ []) (proper : ProperItems parseFloat floatRepr values) (fuel : Nat)
    (enough : 2*(itemsText floatRepr layout values).length+1 ≤ fuel) (rest : List Char) :
    (∃ c more, itemsText floatRepr layout values ++ ']' :: rest = c :: more ∧ isWhite c = false ∧ c ≠ ']') ∧
      items parseFloat fuel (itemsText floatRepr layout values ++ ']' :: rest) = some (values,rest) := by
  obtain ⟨fuel,rfl⟩ : ∃ n, fuel = n+1 := ⟨fuel-1,by omega⟩
  match values with
  | [] => exact absurd rfl filled
  | [v] =>
    rw [itemsText_single] at enough ⊢
    have ends : Ends (']' :: rest) := Ends.cons (by decide) rest
    have read := value_dumps readable unsorted v proper.1 fuel (by omega) ends
    exact ⟨value_starts read,items_last read⟩
  | v :: w :: more =>
    obtain ⟨white,separator,blank⟩ := readable.item
    rw [itemsText_cons,separator] at enough ⊢
    simp only [List.length_cons,List.length_append] at enough
    simp only [List.append_assoc,List.cons_append]
    have ends : Ends (',' :: (white ++ (itemsText floatRepr layout (w :: more) ++ ']' :: rest))) :=
      Ends.cons (by decide) _
    have read := value_dumps readable unsorted v proper.1 fuel (by omega) ends
    obtain ⟨⟨c,tail,same,black,_⟩,further⟩ :=
      items_dumps readable unsorted (w :: more) (by simp) proper.2 fuel (by omega) rest
    exact ⟨value_starts read,items_further blank ⟨c,tail,same,black⟩ read further⟩

theorem members_dumps (readable : layout.Readable) (unsorted : layout.sortKeys = false) (fields : List (String × Json))
    (filled : fields ≠ []) (proper : ProperFields parseFloat floatRepr fields) (before : Dict)
    (distinct : ((before ++ fields).map Prod.fst).Nodup) (fuel : Nat)
    (enough : 2*(fieldsText floatRepr layout fields).length+1 ≤ fuel) (rest : List Char) :
    members parseFloat fuel before (fieldsText floatRepr layout fields ++ '\x7d' :: rest) =
      some (before ++ fields,rest) := by
  obtain ⟨fuel,rfl⟩ : ∃ n, fuel = n+1 := ⟨fuel-1,by omega⟩
  obtain ⟨blanks,colon,blank⟩ := readable.key
  match fields with
  | [] => exact absurd rfl filled
  | [(key,v)] =>
    rw [fieldsText_single,colon] at enough ⊢
    simp only [List.length_cons,List.length_append] at enough
    simp only [List.append_assoc,List.cons_append]
    have ends : Ends ('\x7d' :: rest) := Ends.cons (by decide) rest
    have read := value_dumps readable unsorted v proper.1 fuel (by omega) ends
    rw [members_first fuel before key blank read,skip_black (by decide),setItem_new (new_of_nodup distinct)]
    rfl
  | (key,v) :: next :: more =>
    obtain ⟨white,separator,clear⟩ := readable.item
    rw [fieldsText_cons,colon,separator] at enough ⊢
    simp only [List.length_cons,List.length_append] at enough
    simp only [List.append_assoc,List.cons_append]
    have ends : Ends (',' :: (white ++ (fieldsText floatRepr layout (next :: more) ++ '\x7d' :: rest))) :=
      Ends.cons (by decide) _
    have read := value_dumps readable unsorted v proper.1 fuel (by omega) ends
    have further := members_dumps readable unsorted (next :: more) (by simp) proper.2 (before ++ [(key,v)])
      (by simpa using distinct) fuel (by omega) rest
    obtain ⟨text,starting⟩ := fieldsText_starts floatRepr layout next more
    rw [members_first fuel before key blank read,skip_black (by decide),setItem_new (new_of_nodup distinct)]
    change members parseFloat fuel _ (skip (white ++ _)) = _
    rw [skip_white clear ⟨'"',text ++ '\x7d' :: rest,by rw [starting]; rfl,by decide⟩,further,List.append_assoc]
    rfl
end

theorem loads_dumps_unsorted (readable : layout.Readable) (unsorted : layout.sortKeys = false) (v : Json)
    (proper : Proper parseFloat floatRepr v) : loads parseFloat (dumps floatRepr layout v) = some v := by
  have read := value_dumps readable unsorted v proper (2*(dumps floatRepr layout v).length+1) (by omega) Ends.nil
  rw [List.append_nil] at read
  obtain ⟨c,more,same,black,_⟩ := value_starts read
  have start : skip (dumps floatRepr layout v) = dumps floatRepr layout v := by rw [same,skip_black black]
  rw [loads,start,read]
  rfl

end RoundTrip

theorem number_not_str {parseFloat : List Char → ℚ} {text rest : List Char} {t : String} :
    number parseFloat text ≠ some (.str t,rest) := by
  intro read
  obtain ⟨found,_,same⟩ := Option.map_eq_some_iff.mp read
  dsimp only at same
  split at same <;> cases same

theorem literal_not_str {parseFloat : List Char → ℚ} {text rest : List Char} {t : String} :
    literal parseFloat text ≠ some (.str t,rest) := by
  intro read
  unfold literal at read
  split at read
  next => cases read
  next => exact number_not_str read

theorem value_str {parseFloat : List Char → ℚ} {fuel : Nat} {text rest : List Char} {t : String}
    (read : value parseFloat fuel text = some (.str t,rest)) : text.head? = some '"' := by
  cases fuel with
  | zero => cases read
  | succ fuel =>
    unfold value at read
    split at read
    next found literally => exact absurd (literally.trans read) literal_not_str
    next =>
    split at read
    · cases read
    · cases read
    · cases read
    · rfl
    · split at read
      · cases read
      · obtain ⟨_,_,same⟩ := Option.map_eq_some_iff.mp read
        cases same
    · split at read
      · cases read
      · obtain ⟨_,_,same⟩ := Option.map_eq_some_iff.mp read
        cases same
    · cases read

theorem loads_str {parseFloat : List Char → ℚ} {c : Char} {text : List Char} {t : String} (black : isWhite c = false)
    (read : loads parseFloat (c :: text) = some (.str t)) : c = '"' := by
  obtain ⟨found,valued,ended⟩ := Option.bind_eq_some_iff.mp read
  rw [skip_black black] at valued
  split at ended
  · rcases found with ⟨found,rest⟩
    cases ended
    exact Option.some.inj (value_str valued)
  · cases ended

end Orrery.Foundation.Json
