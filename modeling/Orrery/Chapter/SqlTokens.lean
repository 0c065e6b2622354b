import Orrery.Chapter.SqlText

/-! What the statements of the data layer are made of: names, signs, the shapes of filters
and the kinds of values, with the tokens of each. The texts of the builders are read as
these tokens, whatever the values are. -/
namespace Orrery.Chapter
open Foundation Json
open Foundation.Sql

def Spells (text : List Char) (tokens : List Token) : Prop :=
  ∀ rest more, Stops rest → Lexes rest more → Lexes (text ++ rest) (tokens ++ more)

def keyword (name : String) : Token := .word name.toList

def comma : Token := .symbol [',']
def opening : Token := .symbol ['(']
def closing : Token := .symbol [')']
def cast : Token := .symbol [':',':']

section Spelling
variable {text : List Char} {tokens : List Token}

theorem stops_comma (rest : List Char) : Stops (',' :: rest) := .inr (.inl ⟨_,rest,rfl,by decide⟩)
theorem stops_closing (rest : List Char) : Stops (')' :: rest) := .inr (.inl ⟨_,rest,rfl,by decide⟩)
theorem stops_bracket (rest : List Char) : Stops (']' :: rest) := .inr (.inl ⟨_,rest,rfl,by decide⟩)
theorem stops_cast (rest : List Char) : Stops (':' :: rest) := .inr (.inl ⟨_,rest,rfl,by decide⟩)

theorem stops_word {c : Char} (letter : isLetter c = true) (rest : List Char) : Stops (' ' :: c :: rest) :=
  .inr (.inr ⟨c,rest,rfl,letter⟩)

structure Separates (separator : List Char) (tokens : List Token) : Prop where
  stops : ∀ rest, Stops (separator ++ rest)
  reads : ∀ rest more, Lexes rest more → Lexes (separator ++ rest) (tokens ++ more)

theorem separates_comma : Separates ", ".toList [comma] where
  stops _ := stops_comma _
  reads _ _ behind := behind.front 2 fun _ _ => rfl

theorem separates_and : Separates " AND ".toList [keyword "AND"] where
  stops _ := stops_word (by decide) _
  reads _ _ behind := behind.front 3 fun _ _ => rfl

theorem separates_or : Separates " OR ".toList [keyword "OR"] where
  stops _ := stops_word (by decide) _
  reads _ _ behind := behind.front 3 fun _ _ => rfl

theorem Spells.nil : Spells [] [] := fun _ _ _ behind => behind

theorem spells_quoteText (value : List Char) : Spells (quoteText value) [.literal value] := by
  intro rest more stops behind
  have read := Lexes.literal value stops behind
  simpa [quoteText] using read

theorem spells_number {text : List Char} (numeral : Numeral text) : Spells text [.number text] :=
  fun _ _ stops behind => Lexes.number numeral stops behind

theorem spells_minus {text : List Char} (numeral : Numeral text) : Spells ('-' :: text) [.operator ['-'],.number text] := by
  intro rest more stops behind
  have read := Lexes.number numeral stops behind
  obtain ⟨whole,decimals,power,rfl,filled,digits,_⟩ := numeral.shape
  obtain ⟨c,whole,rfl⟩ := List.exists_cons_of_ne_nil filled
  have digit := digits c (.head _)
  have other : c ≠ '-' := by
    rintro rfl
    exact absurd digit (by decide)
  have plain : isOpChar c = false := by
    obtain ⟨large,small⟩ := isDigit_bounds digit
    have apart (d : Char) (outside : d.toNat < 48 ∨ 57 < d.toNat) : c ≠ d := by
      rintro rfl
      omega
    simp [isOpChar,apart]
  refine Lexes.token rfl (by simp [other]) (by decide) ?_ read
  have minus (t : List Char) : Sql.token '-' t = some (.operator (operatorOf ('-' :: t.takeWhile isOpChar)),
      t.drop ((operatorOf ('-' :: t.takeWhile isOpChar)).length-1)) := rfl
  have run : ((c :: whole ++ (decimals ++ power)) ++ rest).takeWhile isOpChar = [] := by simp [plain]
  exact (minus _).trans (by rw [show List.append _ rest = (c :: whole ++ (decimals ++ power)) ++ rest from rfl,run]; rfl)

theorem joinWith_cons (separator : String) (first second : List Char) (rest : List (List Char)) :
    joinWith separator (first :: second :: rest) = first ++ (separator.toList ++ joinWith separator (second :: rest)) := by
  simp [joinWith,List.intercalate,List.intersperse]

def listed {α : Type} (between : List α) (members : List (List α)) : List α := between.intercalate members

theorem listed_cons {α : Type} (between first second : List α) (rest : List (List α)) :
    listed between (first :: second :: rest) = first ++ (between ++ listed between (second :: rest)) := by
  simp [listed,List.intercalate,List.intersperse]

theorem spells_joinWith {separator : String} {between : List Token} (separates : Separates separator.toList between)
    {α : Type} (text : α → List Char) (tokens : α → List Token) (items : List α)
    (each : ∀ item ∈ items, Spells (text item) (tokens item)) :
    Spells (joinWith separator (items.map text)) (listed between (items.map tokens)) := by
  induction items with
  | nil => exact .nil
  | cons first items ih =>
    have here := each first (.head _)
    cases items with
    | nil => simpa [joinWith,listed,List.intercalate,List.intersperse] using here
    | cons second items =>
      intro rest more stops behind
      have tail := ih (fun item inside => each item (.tail _ inside)) rest more stops behind
      rw [List.map_cons,List.map_cons,joinWith_cons,List.map_cons,List.map_cons,listed_cons]
      simp only [List.append_assoc]
      exact here _ _ (separates.stops _) (separates.reads _ _ tail)

end Spelling

structure Name where
  chars : List Char
  filled : chars ≠ []
  unquoted : '"' ∉ chars

def Name.text (name : Name) : List Char := '"' :: (name.chars ++ ['"'])

def Name.token (name : Name) : Token := .quoted name.chars

theorem lexes_name (name : Name) {rest : List Char} {more : List Token} (ends : rest.head? ≠ some '"')
    (behind : Lexes rest more) : Lexes (name.text ++ rest) (name.token :: more) := by
  have read := Lexes.quoted name.filled ends behind
  rw [double_plain name.unquoted] at read
  simpa [Name.text,Name.token] using read

theorem spells_name (name : Name) : Spells name.text [name.token] := by
  intro rest more stops behind
  exact lexes_name name (fun first => absurd (stops.head '"' first) (by decide)) behind

section Names
variable (py : PyText)

theorem plainName_filled {name : List Char} (plain : plainName py name = true) : name ≠ [] := by
  rintro rfl
  cases plain

theorem plainName_unquoted {name : List Char} (plain : plainName py name = true) : '"' ∉ name := by
  intro inside
  rw [plainName,Bool.and_eq_true] at plain
  have letter := List.all_eq_true.mp plain.2 '"' (List.mem_filter.mpr ⟨inside,by decide⟩)
  rw [py.alnum_quote] at letter
  cases letter

def nameOf (name : List Char) : Except Exc Name :=
  if plain : plainName py name = true then .ok ⟨name,plainName_filled py plain,plainName_unquoted py plain⟩
  else .error (.valueError s!"unsafe SQL identifier: {py.repr (String.ofList name)}")

theorem identText_eq (name : List Char) : identText py name = Name.text <$> nameOf py name := by
  rw [identText,nameOf]
  split
  · rfl
  · rfl

end Names

inductive TypeName
  | plain (first : Char) (rest : List Char) (starts : isIdentStart first = true)
      (continues : ∀ c ∈ rest, isIdentCont c = true)
  | quoted (name : List Char) (filled : name ≠ [])

structure TypeWord where
  name : TypeName
  sizes : List ℕ

structure ColType where
  first : TypeWord
  more : List (Bool × TypeWord)
  array : Bool

def TypeName.text : TypeName → List Char
  | .plain first rest _ _ => first :: rest
  | .quoted name _ => '"' :: (double '"' name ++ ['"'])

def TypeName.token : TypeName → Token
  | .plain first rest _ _ => .word (first :: rest)
  | .quoted name _ => .quoted name

def sizesText (sizes : List ℕ) : List Char :=
  if sizes.isEmpty then [] else '(' :: (joinWith "," (sizes.map (Nat.toDigits 10)) ++ [')'])

def TypeWord.text (w : TypeWord) : List Char := w.name.text ++ sizesText w.sizes

def TypeWord.tokens (w : TypeWord) : List Token := w.name.token ::
  if w.sizes.isEmpty then [] else opening :: (listed [comma] (w.sizes.map fun n => [.number (Nat.toDigits 10 n)]) ++
    [closing])

def moreText : List (Bool × TypeWord) → List Char
  | [] => []
  | (dotted,w) :: more => (if dotted then '.' else ' ') :: (w.text ++ moreText more)

def moreTokens : List (Bool × TypeWord) → List Token
  | [] => []
  | (dotted,w) :: more => (if dotted then [.symbol ['.']] else []) ++ (w.tokens ++ moreTokens more)

def ColType.text (t : ColType) : List Char :=
  t.first.text ++ (moreText t.more ++ if t.array then ['[',']'] else [])

def ColType.tokens (t : ColType) : List Token :=
  t.first.tokens ++ (moreTokens t.more ++ if t.array then [.symbol ['['],.symbol [']']] else [])

section Types
variable {rest : List Char} {more : List Token}

theorem numeral_digits (n : ℕ) : Numeral (Nat.toDigits 10 n) where
  shape := by
    refine ⟨Nat.toDigits 10 n,[],[],by simp,?_,?_,.inl rfl,.inl rfl⟩
    · exact Nat.toDigits_ne_nil
    · exact fun c inside => Nat.isDigit_of_mem_toDigits (by decide) (by decide) inside

theorem separates_bare : Separates ",".toList [comma] where
  stops _ := stops_comma _
  reads _ _ behind := behind.front 1 fun _ _ => rfl

def TypeEnds (rest : List Char) : Prop := ∀ d ∈ rest.head?, d ∈ [',',')',']',':',' ','(','.','[']

theorem TypeEnds.cons {d : Char} (ending : d ∈ [',',')',']',':',' ','(','.','[']) (rest : List Char) :
    TypeEnds (d :: rest) := by
  intro e first
  obtain rfl : d = e := by simpa using first
  exact ending

theorem stops_typeEnds (stops : Stops rest) : TypeEnds rest := by
  intro d first
  have inside := stops.head d first
  simp only [List.mem_cons,List.not_mem_nil,or_false] at inside ⊢
  tauto

theorem lexes_typeName (name : TypeName) (ends : TypeEnds rest) (behind : Lexes rest more) :
    Lexes (name.text ++ rest) (name.token :: more) := by
  have absent (d : Char) (outside : d ∉ [',',')',']',':',' ','(','.','[']) : rest.head? ≠ some d :=
    fun first => outside (ends d first)
  cases name with
  | plain first word starts continues =>
    refine Lexes.word starts continues ?_ (absent _ (by decide)) (absent _ (by decide)) behind
    intro d first
    have inside := ends d first
    simp only [List.mem_cons,List.not_mem_nil,or_false] at inside
    obtain rfl | rfl | rfl | rfl | rfl | rfl | rfl | rfl := inside <;> rfl
  | quoted name filled =>
    have read := Lexes.quoted filled (absent '"' (by decide)) behind
    simpa [TypeName.text,TypeName.token] using read

theorem TypeName.starts (name : TypeName) : ∃ c text, name.text = c :: text ∧ c.isDigit = false ∧ c ≠ '.' := by
  cases name with
  | plain first word starts continues =>
    refine ⟨first,word,rfl,isIdentStart_digit starts,?_⟩
    rintro rfl
    exact absurd starts (by decide)
  | quoted name filled => exact ⟨'"',_,rfl,by decide,by decide⟩

theorem lexes_typeWord (w : TypeWord) (ends : TypeEnds rest) (behind : Lexes rest more) :
    Lexes (w.text ++ rest) (w.tokens ++ more) := by
  rw [TypeWord.text,TypeWord.tokens,List.append_assoc,List.cons_append]
  by_cases none_ : w.sizes.isEmpty = true
  · rw [sizesText,if_pos none_,if_pos none_]
    exact lexes_typeName w.name ends behind
  · have sizes := spells_joinWith separates_bare (Nat.toDigits 10) (fun n => [.number (Nat.toDigits 10 n)]) w.sizes
      (fun n _ => spells_number (numeral_digits n)) (')' :: rest) (closing :: more) (stops_closing rest)
      (behind.symbol (by decide))
    have opened : Lexes (sizesText w.sizes ++ rest) (opening :: (listed [comma] (w.sizes.map fun n =>
        [.number (Nat.toDigits 10 n)]) ++ closing :: more)) := by
      rw [sizesText,if_neg none_,List.cons_append,List.append_assoc]
      exact sizes.symbol (by decide)
    rw [if_neg none_,List.cons_append,List.append_assoc]
    refine lexes_typeName w.name ?_ opened
    rw [sizesText,if_neg none_]
    exact .cons (by decide) _

theorem lexes_moreText (words : List (Bool × TypeWord)) (ends : TypeEnds rest) (behind : Lexes rest more) :
    Lexes (moreText words ++ rest) (moreTokens words ++ more) ∧ TypeEnds (moreText words ++ rest) := by
  induction words with
  | nil => exact ⟨behind,ends⟩
  | cons word words ih =>
    obtain ⟨dotted,w⟩ := word
    have read := lexes_typeWord w ih.2 ih.1
    cases dotted with
    | true =>
      refine ⟨?_,TypeEnds.cons (by decide) _⟩
      have split : moreText ((true,w) :: words) ++ rest = '.' :: (w.text ++ (moreText words ++ rest)) := by
        simp [moreText]
      obtain ⟨c,text,chars,digit,dot⟩ := w.name.starts
      have first : (w.text ++ (moreText words ++ rest)).head? = some c := by simp [TypeWord.text,chars]
      rw [split,moreTokens,if_pos rfl,List.append_assoc,List.append_assoc]
      refine Lexes.dot ?_ ?_ read
      · simpa [first] using digit
      · simpa [first] using dot
    | false =>
      refine ⟨?_,TypeEnds.cons (by decide) _⟩
      have split : moreText ((false,w) :: words) ++ rest = ' ' :: (w.text ++ (moreText words ++ rest)) := by
        simp [moreText]
      rw [split,moreTokens,if_neg (by simp),List.nil_append,List.append_assoc]
      exact read.space rfl

theorem spells_colType (t : ColType) : Spells t.text t.tokens := by
  intro rest more stops behind
  obtain ⟨read,ends⟩ : Lexes ((if t.array then ['[',']'] else []) ++ rest)
      ((if t.array then [.symbol ['['],.symbol [']']] else []) ++ more) ∧
        TypeEnds ((if t.array then ['[',']'] else []) ++ rest) := by
    cases t.array with
    | true => exact ⟨(behind.symbol (by decide)).symbol (by decide),TypeEnds.cons (by decide) _⟩
    | false => exact ⟨behind,stops_typeEnds stops⟩
  obtain ⟨read,ends⟩ := lexes_moreText t.more ends read
  rw [ColType.text,ColType.tokens,List.append_assoc,List.append_assoc,List.append_assoc,List.append_assoc]
  exact lexes_typeWord t.first ends read

end Types

inductive Lit
  | null
  | bool (b : Bool)
  | number (negative : Bool) (digits : List Char) (numeral : Numeral digits)
  | string (value : List Char)
  | cast (value : List Char) (coltype : ColType)

def Lit.sql : Lit → List Char
  | .null => "NULL".toList
  | .bool b => if b then "TRUE".toList else "FALSE".toList
  | .number negative digits _ => if negative then '-' :: digits else digits
  | .string value => quoteText value
  | .cast value t => quoteText value ++ "::".toList ++ t.text

def Lit.tokens : Lit → List Token
  | .null => [keyword "NULL"]
  | .bool b => [keyword (if b then "TRUE" else "FALSE")]
  | .number negative digits _ => if negative then [.operator ['-'],.number digits] else [.number digits]
  | .string value => [.literal value]
  | .cast value t => .literal value :: Chapter.cast :: t.tokens

def Lit.blank : Lit → Lit
  | .number negative _ _ => .number negative _ (numeral_digits 0)
  | .string _ => .string []
  | .cast _ t => .cast [] t
  | other => other

def Lit.value? : Lit → Option (List Char)
  | .string value => some value
  | .cast value _ => some value
  | _ => none

def erase : Token → Token
  | .literal _ => .literal []
  | .number _ => .number []
  | other => other

def constants (tokens : List Token) : List (List Char) := tokens.filterMap fun
  | .literal value => some value
  | _ => none

section Constants

@[simp] theorem constants_nil : constants [] = [] := rfl

@[simp] theorem constants_append (one two : List Token) : constants (one ++ two) = constants one ++ constants two :=
  List.filterMap_append

@[simp] theorem constants_literal (value : List Char) (tokens : List Token) :
    constants (.literal value :: tokens) = value :: constants tokens := rfl

@[simp] theorem constants_word (text : List Char) (tokens : List Token) :
    constants (.word text :: tokens) = constants tokens := rfl

@[simp] theorem constants_quoted (name : List Char) (tokens : List Token) :
    constants (.quoted name :: tokens) = constants tokens := rfl

@[simp] theorem constants_number (text : List Char) (tokens : List Token) :
    constants (.number text :: tokens) = constants tokens := rfl

@[simp] theorem constants_operator (text : List Char) (tokens : List Token) :
    constants (.operator text :: tokens) = constants tokens := rfl

@[simp] theorem constants_symbol (text : List Char) (tokens : List Token) :
    constants (.symbol text :: tokens) = constants tokens := rfl

end Constants

section Literals

theorem spells_keyword {name : String} (shape : ∃ c word, name.toList = c :: word ∧ isIdentStart c = true ∧
    word.all isIdentCont = true) : Spells name.toList [keyword name] := by
  obtain ⟨c,word,chars,start,all⟩ := shape
  intro rest more stops behind
  rw [keyword,chars]
  refine Lexes.word start (List.all_eq_true.mp all) ?_ ?_ ?_ behind
  · exact stops.fails (by decide)
  · exact fun first => absurd (stops.head _ first) (by decide)
  · exact fun first => absurd (stops.head _ first) (by decide)

theorem spells_lit (l : Lit) : Spells l.sql l.tokens := by
  cases l with
  | null => exact spells_keyword ⟨'N',"ULL".toList,rfl,rfl,by decide⟩
  | bool b =>
    cases b with
    | true => exact spells_keyword ⟨'T',"RUE".toList,rfl,rfl,by decide⟩
    | false => exact spells_keyword ⟨'F',"ALSE".toList,rfl,rfl,by decide⟩
  | number negative digits numeral =>
    cases negative with
    | true => simpa [Lit.sql,Lit.tokens] using spells_minus numeral
    | false => simpa [Lit.sql,Lit.tokens] using spells_number numeral
  | string value => simpa [Lit.sql,Lit.tokens] using spells_quoteText value
  | cast value t =>
    intro rest more stops behind
    have named := spells_colType t rest more stops behind
    have cast_ : Lexes (':' :: ':' :: (t.text ++ rest)) (Chapter.cast :: (t.tokens ++ more)) :=
      Lexes.token rfl (by simp) (by decide) rfl named
    rw [Lit.sql,List.append_assoc,List.append_assoc]
    exact spells_quoteText value _ _ (stops_cast _) cast_

theorem Lit.erased (l : Lit) : l.tokens.map erase = l.blank.tokens.map erase := by
  cases l with
  | null => rfl
  | bool b => rfl
  | number negative digits numeral => cases negative <;> rfl
  | string value => rfl
  | cast value t => rfl

end Literals

section Lists
variable {α β : Type}

theorem map_listed (f : α → β) (between : List α) (members : List (List α)) :
    (listed between members).map f = listed (between.map f) (members.map (List.map f)) := by
  induction members with
  | nil => rfl
  | cons first members ih =>
    cases members with
    | nil => simp [listed,List.intercalate,List.intersperse]
    | cons second members =>
      rw [listed_cons,List.map_append,List.map_append,ih,List.map_cons,List.map_cons,List.map_cons,listed_cons]

theorem flatMap_listed (f : α → List β) (between : List α) (members : List (List α)) :
    (listed between members).flatMap f = listed (between.flatMap f) (members.map (List.flatMap f)) := by
  induction members with
  | nil => rfl
  | cons first members ih =>
    cases members with
    | nil => simp [listed,List.intercalate,List.intersperse]
    | cons second members =>
      rw [listed_cons,List.flatMap_append,List.flatMap_append,ih,List.map_cons,List.map_cons,List.map_cons,listed_cons]

theorem constants_listed {between : List Token} (none_ : constants between = []) (members : List (List Token)) :
    constants (listed between members) = members.flatMap constants := by
  induction members with
  | nil => rfl
  | cons first members ih =>
    cases members with
    | nil => simp [listed,List.intercalate,List.intersperse]
    | cons second members =>
      rw [listed_cons,constants_append,constants_append,none_,ih]
      rfl

end Lists

section Values

theorem TypeWord.valueless (w : TypeWord) : constants w.tokens = [] := by
  have sizes (ns : List ℕ) : constants (listed [comma] (ns.map fun n => [Token.number (Nat.toDigits 10 n)])) = [] := by
    rw [constants_listed rfl]
    simp
  rw [TypeWord.tokens]
  cases w.name <;> split <;> simp [TypeName.token,opening,closing,sizes]

theorem ColType.valueless (t : ColType) : constants t.tokens = [] := by
  have more (words : List (Bool × TypeWord)) : constants (moreTokens words) = [] := by
    induction words with
    | nil => rfl
    | cons word words ih =>
      obtain ⟨dotted,w⟩ := word
      cases dotted <;> simp [moreTokens,w.valueless,ih]
  cases array : t.array <;> simp [ColType.tokens,t.first.valueless,more,array]

theorem Lit.values (l : Lit) : constants l.tokens = l.value?.toList := by
  cases l with
  | null => rfl
  | bool b => rfl
  | number negative digits numeral => cases negative <;> rfl
  | string value => rfl
  | cast value t => simp [Lit.tokens,Chapter.cast,t.valueless,Lit.value?]

end Values

end Orrery.Chapter
