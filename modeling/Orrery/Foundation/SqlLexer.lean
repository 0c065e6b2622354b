import Mathlib.Data.List.Basic

/-! The lexical rules of PostgreSQL's SQL with standard-conforming strings: white space and
comments, quoted and plain identifiers, string constants of every kind, numbers, and runs
of operator characters. -/
namespace Orrery.Foundation.Sql

/-- A token. `special` is a constant with a marker before its quote (`E`, `B`, `X`, `U`)
or between dollar signs, with its body as it stands. -/
inductive Token
  | word (text : List Char)
  | quoted (name : List Char)
  | literal (value : List Char)
  | special (kind : Char) (body : List Char)
  | number (text : List Char)
  | parameter (digits : List Char)
  | operator (text : List Char)
  | symbol (text : List Char)
deriving DecidableEq

section Characters

def isSpace (c : Char) : Bool := c == ' ' || c == '\t' || c == '\n' || c == '\r' || c == '\x0c' || c == '\x0b'

def isNewline (c : Char) : Bool := c == '\n' || c == '\r'

def isLetter (c : Char) : Bool := (65 ≤ c.toNat && c.toNat ≤ 90) || (97 ≤ c.toNat && c.toNat ≤ 122)

def isIdentStart (c : Char) : Bool := isLetter c || c == '_' || 128 ≤ c.toNat

def isIdentCont (c : Char) : Bool := isIdentStart c || c.isDigit || c == '$'

def isOpChar (c : Char) : Bool := "~!@#^&|`?+-*/%<>=".toList.contains c

def isFree (c : Char) : Bool := "~!@#^&|`?%".toList.contains c

end Characters

section Strings

def closeQuote (quote : Char) : List Char → Option (List Char × List Char)
  | [] => none
  | [c] => if c = quote then some ([],[]) else none
  | c :: d :: rest =>
    if c = quote then
      if d = quote then (closeQuote quote rest).map fun body => (quote :: body.1,body.2) else some ([],d :: rest)
    else (closeQuote quote (d :: rest)).map fun body => (c :: body.1,body.2)

def closeBits : List Char → Option (List Char × List Char)
  | [] => none
  | c :: rest => if c = '\'' then some ([],rest) else (closeBits rest).map fun body => (c :: body.1,body.2)

def closeEscaped : List Char → Option (List Char × List Char)
  | [] => none
  | '\\' :: c :: rest => (closeEscaped rest).map fun body => ('\\' :: c :: body.1,body.2)
  | '\'' :: '\'' :: rest => (closeEscaped rest).map fun body => ('\'' :: body.1,body.2)
  | '\'' :: rest => some ([],rest)
  | c :: rest => (closeEscaped rest).map fun body => (c :: body.1,body.2)

def skipBlank (newlines : Bool) : ℕ → List Char → List Char
  | 0, text => text
  | fuel+1, text =>
    match text with
    | '-' :: '-' :: rest => skipBlank newlines fuel (rest.dropWhile fun c => !isNewline c)
    | c :: rest => if isSpace c && (newlines || !isNewline c) then skipBlank newlines fuel rest else text
    | [] => []

def continued (text : List Char) : Option (List Char) :=
  match skipBlank false text.length text with
  | c :: rest =>
    if isNewline c then
      match skipBlank true rest.length rest with
      | '\'' :: more => some more
      | _ => none
    else none
  | [] => none

def parts (body : List Char → Option (List Char × List Char)) : ℕ → List Char → Option (List Char × List Char)
  | 0, _ => none
  | fuel+1, text => do
    let (front,rest) ← body text
    match continued rest with
    | some more => (parts body fuel more).map fun back => (front ++ back.1,back.2)
    | none => some (front,rest)

def closeDollar (mark : List Char) : List Char → Option (List Char × List Char)
  | [] => none
  | c :: rest =>
    if mark.isPrefixOf (c :: rest) then some ([],(c :: rest).drop mark.length)
    else (closeDollar mark rest).map fun body => (c :: body.1,body.2)

def closeComment : ℕ → List Char → Option (List Char)
  | 0, text => some text
  | _, [] => none
  | depth+1, '*' :: '/' :: rest => closeComment depth rest
  | depth+1, '/' :: '*' :: rest => closeComment (depth+2) rest
  | depth+1, _ :: rest => closeComment (depth+1) rest

end Strings

section Numbers

def fraction : List Char → List Char × List Char
  | '.' :: rest => if rest.head? = some '.' then ([],'.' :: rest)
    else ('.' :: rest.takeWhile Char.isDigit,rest.dropWhile Char.isDigit)
  | text => ([],text)

def exponent : List Char → Option (List Char × List Char)
  | c :: rest =>
    if c = 'e' ∨ c = 'E' then
      let sign := rest.take 1 |>.filter fun d => d == '+' || d == '-'
      let digits := rest.drop sign.length
      if (digits.takeWhile Char.isDigit).isEmpty then none
      else some (c :: sign ++ digits.takeWhile Char.isDigit,digits.dropWhile Char.isDigit)
    else some ([],c :: rest)
  | [] => some ([],[])

def number (text : List Char) : Option (Token × List Char) := do
  let (decimals,rest) := fraction (text.dropWhile Char.isDigit)
  let (power,rest) ← exponent rest
  if rest.head?.any isIdentStart then none
  else some (.number (text.takeWhile Char.isDigit ++ decimals ++ power),rest)

end Numbers

def beforeComment : List Char → List Char
  | '-' :: '-' :: _ => []
  | '/' :: '*' :: _ => []
  | c :: rest => c :: beforeComment rest
  | [] => []

def operatorOf (run : List Char) : List Char :=
  let op := beforeComment run
  if op.dropLast.any isFree then op
  else op.take 1 ++ ((op.drop 1).reverse.dropWhile fun c => c == '+' || c == '-').reverse

def identToken (c : Char) (rest : List Char) : Option (Token × List Char) :=
  match c.toLower, rest with
  | 'e', '\'' :: more => (parts closeEscaped (more.length+1) more).map fun found => (.special 'E' found.1,found.2)
  | 'b', '\'' :: more => (parts closeBits (more.length+1) more).map fun found => (.special 'B' found.1,found.2)
  | 'x', '\'' :: more => (parts closeBits (more.length+1) more).map fun found => (.special 'X' found.1,found.2)
  | 'u', '&' :: '\'' :: more =>
    (parts (closeQuote '\'') (more.length+1) more).map fun found => (.special 'U' found.1,found.2)
  | 'u', '&' :: '"' :: more => (closeQuote '"' more).map fun found => (.special 'u' found.1,found.2)
  | _, _ => some (.word (c :: rest.takeWhile isIdentCont),rest.dropWhile isIdentCont)

def dollarToken (rest : List Char) : Option (Token × List Char) :=
  let tag := rest.takeWhile fun d => isIdentStart d || d.isDigit
  if rest.head?.any Char.isDigit then some (.parameter (rest.takeWhile Char.isDigit),rest.dropWhile Char.isDigit)
  else if (rest.drop tag.length).head? = some '$' then
    (closeDollar ('$' :: tag ++ ['$']) (rest.drop (tag.length+1))).map fun found => (.special '$' found.1,found.2)
  else some (.symbol ['$'],rest)

def token (c : Char) (rest : List Char) : Option (Token × List Char) :=
  if c = '\'' then (parts (closeQuote '\'') (rest.length+1) rest).map fun found => (.literal found.1,found.2)
  else if c = '"' then
    (closeQuote '"' rest).bind fun found => if found.1.isEmpty then none else some (.quoted found.1,found.2)
  else if isIdentStart c then identToken c rest
  else if c.isDigit || (c = '.' && rest.head?.any Char.isDigit) then number (c :: rest)
  else if c = ':' && (rest.head? = some ':' || rest.head? = some '=') then some (.symbol (c :: rest.take 1),rest.drop 1)
  else if c = '.' && rest.head? = some '.' then some (.symbol ['.','.'],rest.drop 1)
  else if c = '$' then dollarToken rest
  else if isOpChar c then
    let op := operatorOf (c :: rest.takeWhile isOpChar)
    some (.operator op,rest.drop (op.length-1))
  else some (.symbol [c],rest)

def lexFrom : ℕ → List Token → List Char → Option (List Token)
  | 0, _, _ => none
  | _+1, before, [] => some before.reverse
  | fuel+1, before, c :: rest =>
    if isSpace c then lexFrom fuel before rest
    else if c = '-' ∧ rest.head? = some '-' then lexFrom fuel before (rest.dropWhile fun d => !isNewline d)
    else if c = '/' ∧ rest.head? = some '*' then (closeComment 1 rest.tail).bind (lexFrom fuel before)
    else (token c rest).bind fun found => lexFrom fuel (found.1 :: before) found.2

def Lexes (text : List Char) (tokens : List Token) : Prop :=
  ∃ fuel, ∀ before, lexFrom fuel before text = some (before.reverse ++ tokens)

theorem Lexes.nil : Lexes [] [] := ⟨1,fun before => by simp [lexFrom]⟩

theorem Lexes.front {front rest : List Char} {tokens more : List Token} (n : ℕ)
    (reads : ∀ fuel before, lexFrom (fuel+n) before (front ++ rest) = lexFrom fuel (tokens.reverse ++ before) rest)
    (behind : Lexes rest more) : Lexes (front ++ rest) (tokens ++ more) := by
  obtain ⟨fuel,read⟩ := behind
  refine ⟨fuel+n,fun before => ?_⟩
  rw [reads,read,List.reverse_append,List.reverse_reverse,List.append_assoc]

def Stops (rest : List Char) : Prop :=
  rest = [] ∨ (∃ c more, rest = c :: more ∧ c ∈ [',',')',']',':']) ∨ ∃ c more, rest = ' ' :: c :: more ∧ isLetter c = true

section Stopping
variable {rest text : List Char} {p : Char → Bool}

theorem Stops.head (stops : Stops rest) : ∀ c ∈ rest.head?, c ∈ [',',')',']',':',' '] := by
  rintro c first
  obtain rfl | ⟨d,more,rfl,inside⟩ | ⟨d,more,rfl,_⟩ := stops
  · cases first
  · obtain rfl : d = c := by simpa using first
    simp only [List.mem_cons,List.not_mem_nil,or_false] at inside ⊢
    tauto
  · obtain rfl : ' ' = c := by simpa using first
    simp

theorem Stops.fails (stops : Stops rest) (outside : [',',')',']',':',' '].any p = false) :
    ∀ c ∈ rest.head?, p c = false := by
  intro c first
  simpa using List.any_eq_false.mp outside c (stops.head c first)

theorem takeWhile_until (all : ∀ c ∈ text, p c = true) (ends : ∀ c ∈ rest.head?, p c = false) :
    (text ++ rest).takeWhile p = text := by
  rw [List.takeWhile_append_of_pos all]
  cases rest with
  | nil => simp
  | cons c rest => simp [ends c rfl]

theorem dropWhile_until (all : ∀ c ∈ text, p c = true) (ends : ∀ c ∈ rest.head?, p c = false) :
    (text ++ rest).dropWhile p = rest := by
  rw [List.dropWhile_append_of_pos all]
  cases rest with
  | nil => rfl
  | cons c rest => simp [ends c rfl]

theorem Stops.continued (stops : Stops rest) : continued rest = none := by
  obtain rfl | ⟨c,more,rfl,inside⟩ | ⟨c,more,rfl,letter⟩ := stops
  · rfl
  · simp only [List.mem_cons,List.not_mem_nil,or_false] at inside
    obtain rfl | rfl | rfl | rfl := inside <;> rfl
  · have apart (d : Char) (other : isLetter d = false) : c ≠ d := by
      rintro rfl
      simp [letter] at other
    have solid : isSpace c = false := by
      simp [isSpace,apart ' ' rfl,apart '\t' rfl,apart '\n' rfl,apart '\r' rfl,apart '\x0c' rfl,apart '\x0b' rfl]
    have line : isNewline c = false := by simp [isNewline,apart '\n' rfl,apart '\r' rfl]
    have blank : skipBlank false (more.length+1) (c :: more) = c :: more := by
      unfold skipBlank
      split
      next same => exact absurd (List.cons.inj same).1 (apart '-' rfl)
      next same => rw [← (List.cons.inj same).1,solid,Bool.false_and,if_neg (by simp)]
      next same => cases same
    have passed : skipBlank false ((' ' :: c :: more).length) (' ' :: c :: more) = c :: more := blank
    rw [Sql.continued,passed]
    simp [line]

end Stopping

def double (quote : Char) (text : List Char) : List Char := text.flatMap fun c => if c = quote then [quote,quote] else [c]

structure Numeral (text : List Char) : Prop where
  shape : ∃ whole decimals power, text = whole ++ (decimals ++ power) ∧ whole ≠ [] ∧ (∀ c ∈ whole, c.isDigit = true) ∧
    (decimals = [] ∨ ∃ digits, decimals = '.' :: digits ∧ ∀ c ∈ digits, c.isDigit = true) ∧
    (power = [] ∨ ∃ sign digits, power = 'e' :: (sign ++ digits) ∧ (sign = [] ∨ sign = ['+'] ∨ sign = ['-']) ∧
      digits ≠ [] ∧ ∀ c ∈ digits, c.isDigit = true)

section Constants
variable {rest text name : List Char} {tokens : List Token} {c : Char}

theorem Lexes.space (blank : isSpace c = true) (behind : Lexes rest tokens) : Lexes (c :: rest) tokens := by
  obtain ⟨fuel,read⟩ := behind
  refine ⟨fuel+1,fun before => ?_⟩
  rw [lexFrom,if_pos blank,read]

theorem Lexes.token {t : Token} (solid : isSpace c = false) (line : c = '-' → text.head? ≠ some '-') (block : c ≠ '/')
    (here : Sql.token c text = some (t,rest)) (behind : Lexes rest tokens) : Lexes (c :: text) (t :: tokens) := by
  obtain ⟨fuel,read⟩ := behind
  refine ⟨fuel+1,fun before => ?_⟩
  rw [lexFrom,if_neg (by simp [solid]),if_neg fun both => line both.1 both.2,if_neg (by simp [block]),here,Option.bind_some,read]
  simp

theorem closeQuote_cons {quote : Char} (other : c ≠ quote) (text : List Char) :
    closeQuote quote (c :: text) = (closeQuote quote text).map fun body => (c :: body.1,body.2) := by
  cases text with
  | nil => simp [closeQuote,other]
  | cons d text => simp [closeQuote,other]

theorem closeQuote_double (quote : Char) (value : List Char) (ends : rest.head? ≠ some quote) :
    closeQuote quote (double quote value ++ quote :: rest) = some (value,rest) := by
  induction value with
  | nil =>
    cases rest with
    | nil => simp [double,closeQuote]
    | cons d rest =>
      have other : d ≠ quote := by simpa using ends
      simp [double,closeQuote,other]
  | cons c value ih =>
    by_cases same : c = quote
    · subst same
      have split : double c (c :: value) ++ c :: rest = c :: c :: (double c value ++ c :: rest) := by simp [double]
      rw [split,closeQuote,if_pos rfl,if_pos rfl,ih]
      rfl
    · have split : double quote (c :: value) ++ quote :: rest = c :: (double quote value ++ quote :: rest) := by
        simp [double,same]
      rw [split,closeQuote_cons same,ih]
      rfl

theorem double_plain {quote : Char} (absent : quote ∉ text) : double quote text = text := by
  induction text with
  | nil => rfl
  | cons c text ih =>
    rw [List.mem_cons,not_or] at absent
    have split : double quote (c :: text) = c :: double quote text := by simp [double,Ne.symm absent.1]
    rw [split,ih absent.2]

theorem Lexes.literal (value : List Char) (stops : Stops rest) (behind : Lexes rest tokens) :
    Lexes ('\'' :: (double '\'' value ++ '\'' :: rest)) (.literal value :: tokens) := by
  have ends : rest.head? ≠ some '\'' := fun first => absurd (stops.head '\'' first) (by decide)
  refine Lexes.token rfl (by simp) (by decide) ?_ behind
  rw [Sql.token,if_pos rfl,parts,closeQuote_double '\'' value ends]
  simp [stops.continued]

theorem Lexes.quoted (filled : name ≠ []) (ends : rest.head? ≠ some '"') (behind : Lexes rest tokens) :
    Lexes ('"' :: (double '"' name ++ '"' :: rest)) (.quoted name :: tokens) := by
  refine Lexes.token rfl (by simp) (by decide) ?_ behind
  rw [Sql.token,if_neg (by decide),if_pos rfl,closeQuote_double '"' name ends]
  simp [filled]

theorem Lexes.symbol (single : c ∈ [',','(',')','[',']']) (behind : Lexes rest tokens) :
    Lexes (c :: rest) (.symbol [c] :: tokens) := by
  simp only [List.mem_cons,List.not_mem_nil,or_false] at single
  obtain rfl | rfl | rfl | rfl | rfl := single <;> exact Lexes.token rfl (by simp) (by decide) rfl behind

theorem Lexes.dot (digit : rest.head?.any Char.isDigit = false) (other : rest.head? ≠ some '.')
    (behind : Lexes rest tokens) : Lexes ('.' :: rest) (.symbol ['.'] :: tokens) := by
  refine Lexes.token rfl (by simp) (by decide) ?_ behind
  have plain : Sql.token '.' rest = if '.'.isDigit || (decide ('.' = '.') && rest.head?.any Char.isDigit) then
      Sql.number ('.' :: rest) else if decide ('.' = ':') && (decide (rest.head? = some ':') || decide (rest.head? = some '='))
        then some (.symbol ('.' :: rest.take 1),rest.drop 1)
      else if decide ('.' = '.') && decide (rest.head? = some '.') then some (.symbol ['.','.'],rest.drop 1)
      else some (.symbol ['.'],rest) := rfl
  rw [plain,digit]
  simp [other]

theorem isIdentStart_apart {d : Char} (start : isIdentStart c = true) (other : isIdentStart d = false) : c ≠ d := by
  rintro rfl
  rw [start] at other
  cases other

theorem identToken_word {word : List Char} (all : ∀ d ∈ word, isIdentCont d = true)
    (ends : ∀ d ∈ rest.head?, isIdentCont d = false) (quote : rest.head? ≠ some '\'') (mark : rest.head? ≠ some '&') :
    identToken c (word ++ rest) = some (.word (c :: word),rest) := by
  have apart (d : Char) (outside : isIdentCont d = false) (ends : rest.head? ≠ some d) :
      ∀ more, word ++ rest ≠ d :: more := by
    intro more same
    cases word with
    | nil => exact ends (by rw [← List.nil_append rest,same,List.head?_cons])
    | cons e word =>
      have inside := all e (.head _)
      rw [(List.cons.inj same).1,outside] at inside
      cases inside
  have quoteApart := apart '\'' rfl quote
  have markApart := apart '&' rfl mark
  unfold identToken
  split
  next same => exact absurd same (quoteApart _)
  next same => exact absurd same (quoteApart _)
  next same => exact absurd same (quoteApart _)
  next same => exact absurd same (markApart _)
  next same => exact absurd same (markApart _)
  next => rw [takeWhile_until all ends,dropWhile_until all ends]

theorem Lexes.word {word : List Char} (start : isIdentStart c = true) (all : ∀ d ∈ word, isIdentCont d = true)
    (ends : ∀ d ∈ rest.head?, isIdentCont d = false) (quote : rest.head? ≠ some '\'') (mark : rest.head? ≠ some '&')
    (behind : Lexes rest tokens) : Lexes (c :: (word ++ rest)) (.word (c :: word) :: tokens) := by
  have apart (d : Char) (other : isIdentStart d = false) : c ≠ d := isIdentStart_apart start other
  have solid : isSpace c = false := by
    simp [isSpace,apart ' ' rfl,apart '\t' rfl,apart '\n' rfl,apart '\r' rfl,apart '\x0c' rfl,apart '\x0b' rfl]
  refine Lexes.token solid (fun same => absurd same (apart '-' rfl)) (apart '/' rfl) ?_ behind
  rw [Sql.token,if_neg (apart '\'' rfl),if_neg (apart '"' rfl),if_pos start,identToken_word all ends quote mark]

theorem fraction_append {decimals power : List Char}
    (shape : decimals = [] ∨ ∃ digits, decimals = '.' :: digits ∧ ∀ c ∈ digits, c.isDigit = true)
    (ends : ∀ c ∈ power.head?, c.isDigit = false ∧ c ≠ '.') : fraction (decimals ++ power) = (decimals,power) := by
  obtain rfl | ⟨digits,rfl,all⟩ := shape
  · unfold fraction
    split
    next rest same => exact absurd rfl (ends '.' (by rw [← List.nil_append power,same,List.head?_cons]; rfl)).2
    next => rfl
  · have digit : ∀ c ∈ power.head?, c.isDigit = false := fun c first => (ends c first).1
    have first : (digits ++ power).head? ≠ some '.' := by
      intro first
      cases digits with
      | nil => exact (ends '.' first).2 rfl
      | cons d digits =>
        have inside := all d (.head _)
        rw [show d = '.' from by simpa using first] at inside
        exact absurd inside (by decide)
    rw [List.cons_append,fraction,if_neg first,takeWhile_until all digit,dropWhile_until all digit]

theorem exponent_append {power : List Char}
    (shape : power = [] ∨ ∃ sign digits, power = 'e' :: (sign ++ digits) ∧ (sign = [] ∨ sign = ['+'] ∨ sign = ['-']) ∧
      digits ≠ [] ∧ ∀ c ∈ digits, c.isDigit = true)
    (ends : ∀ c ∈ rest.head?, c.isDigit = false ∧ c ≠ 'e' ∧ c ≠ 'E') :
    exponent (power ++ rest) = some (power,rest) := by
  have digit : ∀ c ∈ rest.head?, c.isDigit = false := fun c first => (ends c first).1
  obtain rfl | ⟨sign,digits,rfl,signed,filled,all⟩ := shape
  · cases rest with
    | nil => rfl
    | cons c rest =>
      obtain ⟨_,small,capital⟩ := ends c rfl
      rw [List.nil_append,exponent,if_neg (by simp [small,capital])]
  · have kept : ((sign ++ digits ++ rest).take 1).filter (fun d => d == '+' || d == '-') = sign := by
      obtain rfl | rfl | rfl := signed
      · obtain ⟨d,digits,rfl⟩ := List.exists_cons_of_ne_nil filled
        have inside := all d (.head _)
        have plus : d ≠ '+' := by
          rintro rfl
          exact absurd inside (by decide)
        have minus : d ≠ '-' := by
          rintro rfl
          exact absurd inside (by decide)
        simp [plus,minus]
      · rfl
      · rfl
    have behind : (sign ++ digits ++ rest).drop sign.length = digits ++ rest := by
      rw [List.append_assoc,List.drop_left]
    rw [List.cons_append,exponent,if_pos (.inl rfl)]
    dsimp only
    rw [kept,behind,takeWhile_until all digit,dropWhile_until all digit,if_neg (by simpa using filled)]
    rfl

theorem isDigit_bounds (digit : c.isDigit = true) : 48 ≤ c.toNat ∧ c.toNat ≤ 57 := by
  simpa [Char.isDigit,UInt32.le_iff_toNat_le] using digit

theorem isIdentStart_digit (start : isIdentStart c = true) : c.isDigit = false := by
  by_contra digit
  obtain ⟨large,small⟩ := isDigit_bounds (by simpa using digit)
  have other : c ≠ '_' := by
    rintro rfl
    exact absurd small (by decide)
  simp [isIdentStart,isLetter,other] at start
  omega

theorem Lexes.number (numeral : Numeral text) (stops : Stops rest) (behind : Lexes rest tokens) :
    Lexes (text ++ rest) (.number text :: tokens) := by
  obtain ⟨whole,decimals,power,rfl,filled,digits,fractional,powered⟩ := numeral.shape
  have outside : ∀ c ∈ rest.head?, c.isDigit = false ∧ c ≠ 'e' ∧ c ≠ 'E' ∧ c ≠ '.' ∧ isIdentStart c = false := by
    intro c first
    have inside := stops.head c first
    simp only [List.mem_cons,List.not_mem_nil,or_false] at inside
    obtain rfl | rfl | rfl | rfl | rfl := inside <;> decide
  have afterDecimals : ∀ c ∈ (power ++ rest).head?, c.isDigit = false ∧ c ≠ '.' := by
    obtain rfl | ⟨sign,digits,rfl,_⟩ := powered
    · exact fun c first => ⟨(outside c first).1,(outside c first).2.2.2.1⟩
    · intro c first
      obtain rfl : 'e' = c := by simpa using first
      decide
  have afterWhole : ∀ c ∈ (decimals ++ (power ++ rest)).head?, c.isDigit = false := by
    obtain rfl | ⟨digits,rfl,_⟩ := fractional
    · exact fun c first => (afterDecimals c first).1
    · intro c first
      obtain rfl : '.' = c := by simpa using first
      decide
  have read : Sql.number (whole ++ (decimals ++ (power ++ rest))) = some (.number (whole ++ (decimals ++ power)),rest) := by
    rw [Sql.number,dropWhile_until digits afterWhole,fraction_append fractional afterDecimals]
    dsimp only
    rw [exponent_append powered fun c first => ⟨(outside c first).1,(outside c first).2.1,(outside c first).2.2.1⟩]
    have letter : rest.head?.any isIdentStart = false := by
      cases rest with
      | nil => rfl
      | cons c rest => exact (outside c rfl).2.2.2.2
    simp [takeWhile_until digits afterWhole,letter]
  obtain ⟨c,whole,rfl⟩ := List.exists_cons_of_ne_nil filled
  obtain ⟨large,small⟩ := isDigit_bounds (digits c (.head _))
  have apart (d : Char) (other : d.toNat < 48 ∨ 57 < d.toNat) : c ≠ d := by
    rintro rfl
    omega
  have solid : isSpace c = false := by
    simp [isSpace,apart ' ' (by decide),apart '\t' (by decide),apart '\n' (by decide),apart '\r' (by decide),
      apart '\x0c' (by decide),apart '\x0b' (by decide)]
  have start : isIdentStart c = false := by
    simp [isIdentStart,isLetter,apart '_' (by decide)]
    omega
  rw [List.append_assoc,List.append_assoc]
  refine Lexes.token solid (fun same => absurd same (apart '-' (by decide))) (apart '/' (by decide)) ?_ behind
  rw [Sql.token,if_neg (apart '\'' (by decide)),if_neg (apart '"' (by decide)),if_neg (by simp [start]),
    if_pos (by simp [digits c (.head _)])]
  exact read

end Constants

section Reading
variable {text : List Char}

theorem lexFrom_mono {fuel : ℕ} {before tokens : List Token} (read : lexFrom fuel before text = some tokens) :
    lexFrom (fuel+1) before text = some tokens := by
  induction fuel generalizing before text with
  | zero => cases read
  | succ fuel ih =>
    cases text with
    | nil => exact read
    | cons c rest =>
      rw [lexFrom] at read ⊢
      split at read
      next space => rw [if_pos space,ih read]
      next solid =>
        rw [if_neg solid]
        split at read
        next line => rw [if_pos line,ih read]
        next other =>
          rw [if_neg other]
          split at read
          next block =>
            obtain ⟨more,closed,read⟩ := Option.bind_eq_some_iff.mp read
            rw [if_pos block,closed,Option.bind_some,ih read]
          next plain =>
            obtain ⟨found,here,read⟩ := Option.bind_eq_some_iff.mp read
            rw [if_neg plain,here,Option.bind_some,ih read]

theorem Lexes.unique {one two : List Token} (first : Lexes text one) (second : Lexes text two) : one = two := by
  obtain ⟨m,first⟩ := first
  obtain ⟨n,second⟩ := second
  have grown {fuel : ℕ} {tokens : List Token} (read : lexFrom fuel [] text = some tokens) (k : ℕ) :
      lexFrom (fuel+k) [] text = some tokens := by
    induction k with
    | zero => exact read
    | succ k ih => exact lexFrom_mono ih
  have one' := grown (first []) n
  have two' := grown (second []) m
  rw [Nat.add_comm] at two'
  simpa using one'.symm.trans two'

end Reading

end Orrery.Foundation.Sql
