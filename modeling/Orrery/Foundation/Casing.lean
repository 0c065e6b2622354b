import Orrery.Foundation.JsonLines
import Orrery.Foundation.TextSplits

/-! `str.lower` and `int`. Every character has its lower case by itself but for the capital
sigma, which at the end of a word becomes another letter than inside one; a word ends where
no cased letter follows, characters such as full stops and colons passed over. -/
namespace Orrery.Foundation.Casing
open JsonLines (isSpace)

structure Unicode where
  lower : Char → List Char
  cased : Char → Bool
  ignorable : Char → Bool
  digit : Char → Option Nat

namespace Unicode
variable (u : Unicode)

def inert (c : Char) : Bool := (c.toNat < 128 && !c.isAlpha) || isSpace c || (u.digit c).isSome

def breaks (c : Char) : Bool := isSpace c || c == '/' || c == '@' || c == '\\' || c == '*'

structure Lawful : Prop where
  nonempty : ∀ c, u.lower c ≠ []
  stable : ∀ c, c ≠ 'Σ' → ∀ x ∈ u.lower c, u.lower x = [x] ∧ x ≠ 'Σ'
  inert : ∀ c, ∀ x ∈ u.lower c, u.inert x = true → c = x
  kept : ∀ c, u.inert c = true → u.lower c = [c] ∧ u.cased c = false
  ascii : ∀ c : Char, c.toNat < 128 → u.lower c = [c.toLower]
  numerals : ∀ c : Char, c.toNat < 128 → u.digit c = if c.isDigit then some (c.toNat-48) else none
  sigmas : ∀ c, c = 'Σ' ∨ c = 'σ' ∨ c = 'ς' → u.inert c = false
  sigma : u.lower 'σ' = ['σ'] ∧ u.lower 'ς' = ['ς']
  breaks : ∀ c, breaks c = true → u.ignorable c = false

def closes (rest : List Char) : Bool :=
  match rest.dropWhile u.ignorable with
  | c :: _ => !u.cased c
  | [] => true

def step (before : Bool) (c : Char) : Bool := if u.ignorable c then before else u.cased c

def lowerOne (before : Bool) (c : Char) (rest : List Char) : List Char :=
  if c = 'Σ' then [if before && u.closes rest then 'ς' else 'σ'] else u.lower c

def lowerFrom (before : Bool) : List Char → List Char
  | [] => []
  | c :: rest => u.lowerOne before c rest ++ lowerFrom (u.step before c) rest

def lowercase (text : List Char) : List Char := u.lowerFrom false text

def intSpace (c : Char) : Bool := isSpace c && !(28 ≤ c.toNat && c.toNat ≤ 31)

def digitsOf : List Char → Option (List Nat)
  | [] => none
  | c :: rest =>
    match u.digit c, rest with
    | none, _ => none
    | some d, [] => some [d]
    | some d, '_' :: more => (digitsOf more).map (d :: ·)
    | some d, rest => (digitsOf rest).map (d :: ·)

def unsigned (body : List Char) : List Char :=
  if body.head? = some '-' ∨ body.head? = some '+' then body.tail else body

def pyInt (text : List Char) : Option Int :=
  let body := (text.dropWhile intSpace).rdropWhile intSpace
  match u.digitsOf (unsigned body) with
  | none => none
  | some digits =>
    if 4300 < digits.length then none
    else
      let n : Int := digits.foldl (fun n d => 10 * n + d) 0
      some (if body.head? = some '-' then -n else n)

def numeric (c : Char) : Bool := (u.digit c).isSome || isSpace c || c == '_' || c == '+' || c == '-'

variable {u}

theorem isAlpha_outside {c : Char} (outside : c.toNat < 65 ∨ 122 < c.toNat) : c.isAlpha = false := by
  delta Char.isAlpha Char.isUpper Char.isLower
  simp only [Bool.or_eq_false_iff,Bool.and_eq_false_imp,decide_eq_true_eq,decide_eq_false_iff_not,ge_iff_le,
    UInt32.le_iff_toNat_le]
  change c.val.toNat < 65 ∨ 122 < c.val.toNat at outside
  have capital : 'A'.val.toNat = 65 ∧ 'Z'.val.toNat = 90 := ⟨rfl,rfl⟩
  have small : 'a'.val.toNat = 97 ∧ 'z'.val.toNat = 122 := ⟨rfl,rfl⟩
  constructor
  · omega
  · intro above
    omega

theorem isAlpha_of_isSpace {c : Char} (space : isSpace c = true) : c.isAlpha = false := by
  refine isAlpha_outside ?_
  simp only [isSpace,Bool.or_eq_true,Bool.and_eq_true,decide_eq_true_eq,beq_iff_eq] at space
  omega

theorem closes_append {rest : List Char} (last : u.closes rest = true) (text : List Char) :
    u.closes (text ++ rest) = u.closes text := by
  induction text with
  | nil => exact last
  | cons c text ih =>
    unfold closes at ih ⊢
    by_cases passed : u.ignorable c = true
    · simpa [passed] using ih
    · simp [passed]

theorem closes_uncased {rest : List Char} (uncased : ∀ c ∈ rest, u.cased c = false) : u.closes rest = true := by
  unfold closes
  split
  next c _ found =>
    have inside : c ∈ rest := (List.dropWhile_sublist u.ignorable).subset (by simp [found])
    simp [uncased c inside]
  next => rfl

theorem lowerFrom_append {rest : List Char} (last : u.closes rest = true) (text : List Char) : ∀ before : Bool,
    u.lowerFrom before (text ++ rest) = u.lowerFrom before text ++ u.lowerFrom (text.foldl u.step before) rest := by
  induction text with
  | nil => exact fun _ => rfl
  | cons c text ih =>
    intro before
    rw [List.cons_append,lowerFrom,lowerFrom,ih,List.append_assoc,List.foldl_cons,lowerOne,lowerOne,
      closes_append last text]

theorem lowerFrom_fixed {text : List Char} (fixed : ∀ x ∈ text, u.lower x = [x] ∧ x ≠ 'Σ') :
    ∀ before : Bool, u.lowerFrom before text = text := by
  induction text with
  | nil => exact fun _ => rfl
  | cons c text ih =>
    intro before
    obtain ⟨same,other⟩ := fixed c (by simp)
    rw [lowerFrom,lowerOne,if_neg other,same,ih fun x inside => fixed x (by simp [inside])]
    rfl

theorem inert_of_breaks {c : Char} (separate : Unicode.breaks c = true) : u.inert c = true := by
  simp only [Unicode.breaks,Bool.or_eq_true,beq_iff_eq] at separate
  rcases separate with (((space | rfl) | rfl) | rfl) | rfl
  · simp [Unicode.inert,space]
  all_goals simp [Unicode.inert]

theorem digitsOf_numeric (text : List Char) : ∀ {digits}, u.digitsOf text = some digits →
    ∀ c ∈ text, u.numeric c = true := by
  fun_induction digitsOf u text with
  | case1 => simp
  | case2 => simp
  | case3 c d here =>
    intro _ _ x inside
    simp_all [numeric]
  | case4 c d more here ih =>
    intro digits found x inside
    obtain ⟨_,rest,_⟩ := Option.map_eq_some_iff.mp found
    simp only [List.mem_cons] at inside
    rcases inside with rfl | rfl | later
    · simp [numeric,here]
    · simp [numeric]
    · exact ih rest x later
  | case5 c d rest _ _ here ih =>
    intro digits found x inside
    obtain ⟨_,read,_⟩ := Option.map_eq_some_iff.mp found
    rcases List.mem_cons.mp inside with rfl | later
    · simp [numeric,here]
    · exact ih read x later

theorem pyInt_numeric {text : List Char} {n : Int} (read : u.pyInt text = some n) :
    ∀ c ∈ text, u.numeric c = true := by
  have spaces : ∀ c, intSpace c = true → u.numeric c = true := by
    intro c space
    simp only [intSpace,Bool.and_eq_true] at space
    simp [numeric,space.1]
  have inner : ∀ c ∈ (text.dropWhile intSpace).rdropWhile intSpace, u.numeric c = true := by
    unfold pyInt at read
    dsimp only at read
    generalize (text.dropWhile intSpace).rdropWhile intSpace = body at read ⊢
    split at read
    · cases read
    next digits found =>
      intro c inside
      have rest := digitsOf_numeric _ found
      unfold unsigned at rest
      split at rest
      next sign =>
        cases body with
        | nil => cases inside
        | cons first body =>
          rcases List.mem_cons.mp inside with rfl | later
          · simp only [List.head?_cons,Option.some.injEq] at sign
            rcases sign with rfl | rfl <;> simp [numeric]
          · exact rest c later
      · exact rest c inside
  intro c inside
  rw [← List.takeWhile_append_dropWhile (p := intSpace) (l := text)] at inside
  rcases List.mem_append.mp inside with here | inside
  · exact spaces c (List.mem_takeWhile_imp here)
  rw [← List.rdropWhile_append_rtakeWhile (p := intSpace) (l := text.dropWhile intSpace)] at inside
  rcases List.mem_append.mp inside with here | here
  · exact inner c here
  · exact spaces c (List.mem_rtakeWhile_imp here)

section Lawful
variable (lawful : u.Lawful)
include lawful

theorem lowerOne_stable (before : Bool) (c : Char) (rest : List Char) :
    ∀ x ∈ u.lowerOne before c rest, u.lower x = [x] ∧ x ≠ 'Σ' := by
  intro x inside
  unfold lowerOne at inside
  split at inside
  · obtain rfl := List.mem_singleton.mp inside
    split
    · exact ⟨lawful.sigma.2,by decide⟩
    · exact ⟨lawful.sigma.1,by decide⟩
  next other => exact lawful.stable c other x inside

theorem lowerOne_inert {before : Bool} {c x : Char} {rest : List Char} (inside : x ∈ u.lowerOne before c rest)
    (still : u.inert x = true) : c = x := by
  unfold lowerOne at inside
  split at inside
  · obtain rfl := List.mem_singleton.mp inside
    have letter : ∀ b : Bool, u.inert (if b = true then 'ς' else 'σ') = false := by
      intro b
      cases b
      · exact lawful.sigmas 'σ' (by simp)
      · exact lawful.sigmas 'ς' (by simp)
    rw [letter] at still
    cases still
  · exact lawful.inert c x inside still

theorem lowerOne_kept {c : Char} (still : u.inert c = true) (before : Bool) (rest : List Char) :
    u.lowerOne before c rest = [c] := by
  have other : c ≠ 'Σ' := by
    rintro rfl
    rw [lawful.sigmas 'Σ' (by simp)] at still
    cases still
  rw [lowerOne,if_neg other,(lawful.kept c still).1]

theorem lowerFrom_split (text rest : List Char) : ∀ before : Bool, ∃ front after,
    u.lowerFrom before (text ++ rest) = front ++ u.lowerFrom after rest ∧
      ∀ x ∈ front, u.inert x = true → x ∈ text := by
  induction text with
  | nil => exact fun before => ⟨[],before,rfl,by simp⟩
  | cons c text ih =>
    intro before
    obtain ⟨front,after,same,letters⟩ := ih (u.step before c)
    refine ⟨u.lowerOne before c (text ++ rest) ++ front,after,?_,?_⟩
    · rw [List.cons_append,lowerFrom,same,List.append_assoc]
    · intro x inside still
      rcases List.mem_append.mp inside with here | later
      · rw [lowerOne_inert lawful here still]
        exact List.mem_cons_self
      · exact List.mem_cons_of_mem c (letters x later still)

theorem lowerFrom_stable (text : List Char) : ∀ before : Bool, ∀ x ∈ u.lowerFrom before text,
    u.lower x = [x] ∧ x ≠ 'Σ' := by
  induction text with
  | nil => simp [lowerFrom]
  | cons c text ih =>
    intro before x inside
    rcases List.mem_append.mp inside with here | later
    · exact lowerOne_stable lawful before c text x here
    · exact ih _ x later

theorem mem_lowerFrom {x : Char} (still : u.inert x = true) (text : List Char) : ∀ before : Bool,
    x ∈ u.lowerFrom before text ↔ x ∈ text := by
  induction text with
  | nil => exact fun _ => Iff.rfl
  | cons c text ih =>
    intro before
    rw [lowerFrom,List.mem_append,ih,List.mem_cons]
    constructor
    · rintro (here | later)
      · exact .inl (lowerOne_inert lawful here still).symm
      · exact .inr later
    · rintro (rfl | later)
      · exact .inl (by rw [lowerOne_kept lawful still]; exact List.mem_singleton_self _)
      · exact .inr later

theorem lowerOne_nonempty (before : Bool) (c : Char) (rest : List Char) : u.lowerOne before c rest ≠ [] := by
  unfold lowerOne
  split
  · simp
  · exact lawful.nonempty c

theorem inert_of_lowerFrom {text : List Char} : ∀ {before : Bool},
    (∀ x ∈ u.lowerFrom before text, u.inert x = true) → ∀ c ∈ text, u.inert c = true := by
  induction text with
  | nil => simp
  | cons c text ih =>
    intro before still d inside
    obtain ⟨x,rest,first⟩ := List.exists_cons_of_ne_nil (lowerOne_nonempty lawful before c text)
    have here : x ∈ u.lowerOne before c text := by simp [first]
    rcases List.mem_cons.mp inside with rfl | later
    · have same := lowerOne_inert lawful here (still x (List.mem_append_left _ here))
      rw [same]
      exact still x (List.mem_append_left _ here)
    · exact ih (fun y member => still y (List.mem_append_right _ member)) d later

theorem lowerFrom_inert {text : List Char} (still : ∀ c ∈ text, u.inert c = true) :
    ∀ before : Bool, u.lowerFrom before text = text := by
  refine lowerFrom_fixed ?_
  intro x inside
  refine ⟨(lawful.kept x (still x inside)).1,?_⟩
  rintro rfl
  have letter := still 'Σ' inside
  rw [lawful.sigmas 'Σ' (by simp)] at letter
  cases letter

theorem lowerFrom_ascii {text : List Char} (ascii : ∀ c ∈ text, c.toNat < 128) :
    ∀ before : Bool, u.lowerFrom before text = text.map Char.toLower := by
  induction text with
  | nil => exact fun _ => rfl
  | cons c text ih =>
    intro before
    have here := ascii c (by simp)
    have other : c ≠ 'Σ' := by
      rintro rfl
      exact absurd here (by decide)
    rw [lowerFrom,lowerOne,if_neg other,lawful.ascii c here,ih fun x inside => ascii x (by simp [inside])]
    rfl

theorem lowercase_lowercase (text : List Char) : u.lowercase (u.lowercase text) = u.lowercase text :=
  lowerFrom_fixed (lowerFrom_stable lawful text false) false

theorem lowercase_append_inert (text : List Char) {rest : List Char} (still : ∀ c ∈ rest, u.inert c = true) :
    u.lowercase (text ++ rest) = u.lowercase text ++ rest := by
  rw [lowercase,lowerFrom_append (closes_uncased fun c inside => (lawful.kept c (still c inside)).2),
    lowerFrom_inert lawful still]
  rfl

theorem lowercase_cons_inert {c : Char} (still : u.inert c = true) (text : List Char) :
    u.lowercase (c :: text) = c :: u.lowercase text := by
  rw [lowercase,lowerFrom,lowerOne_kept lawful still]
  simp [step,(lawful.kept c still).2,lowercase]

theorem lowercase_last {c : Char} (still : u.inert c = true) (text : List Char) :
    ∃ front, u.lowercase (text ++ [c]) = front ++ [c] := by
  obtain ⟨front,after,same,_⟩ := lowerFrom_split lawful text [c] false
  refine ⟨front,?_⟩
  rw [lowercase,same,lowerFrom,lowerOne_kept lawful still]
  rfl

theorem lowercase_trim (text : List Char) :
    (u.lowercase text).rdropWhile isSpace = u.lowercase (text.rdropWhile isSpace) := by
  have spaces : ∀ c ∈ text.rtakeWhile isSpace, u.inert c = true := by
    intro c inside
    simp [inert,List.mem_rtakeWhile_imp inside]
  have parts : u.lowercase text = u.lowercase (text.rdropWhile isSpace) ++ text.rtakeWhile isSpace := by
    rw [← lowercase_append_inert lawful _ spaces,List.rdropWhile_append_rtakeWhile]
  rw [parts,TextSplits.rdropWhile_append_all _ fun c inside => List.mem_rtakeWhile_imp inside]
  rcases List.eq_nil_or_concat (text.rdropWhile isSpace) with none | ⟨front,c,ends⟩
  · rw [none]
    rfl
  · have kept : ¬isSpace c = true := by
      have last := List.rdropWhile_last_not isSpace text (by simp [ends])
      simpa [ends] using last
    obtain ⟨before,after,same,_⟩ := lowerFrom_split lawful front [c] false
    obtain ⟨first,x,letters⟩ := (List.eq_nil_or_concat _).resolve_left (lowerOne_nonempty lawful after c [])
    have whole : u.lowercase (front ++ [c]) = (before ++ first) ++ [x] := by
      rw [lowercase,same,lowerFrom,letters]
      simp [lowerFrom]
    rw [ends,List.concat_eq_append,whole,List.rdropWhile_concat_neg]
    intro space
    have still : u.inert x = true := by simp [inert,space]
    exact kept (lowerOne_inert lawful (by rw [letters]; simp) still ▸ space)

theorem lowercase_breaks {c : Char} (separate : Unicode.breaks c = true) (text rest : List Char) :
    u.lowercase (text ++ c :: rest) = u.lowercase text ++ c :: u.lowercase rest := by
  have still : u.inert c = true := inert_of_breaks separate
  have apart := lawful.breaks c separate
  have uncased := (lawful.kept c still).2
  have last : u.closes (c :: rest) = true := by simp [closes,apart,uncased]
  rw [lowercase,lowerFrom_append last,lowerFrom,lowerOne_kept lawful still]
  simp [step,apart,uncased,lowercase]

end Lawful

section Ascii

def ascii : Unicode where
  lower c := [if c = 'Σ' then 'σ' else c.toLower]
  cased c := c.isAlpha
  ignorable c := c == '.' || c == ':' || c == '\''
  digit c := if c.isDigit then some (c.toNat-48) else none

theorem toLower_capital : ∀ k < 26, (Char.ofNat (65+k)).isAlpha = true ∧
    (Char.ofNat (65+k)).toLower.toLower = (Char.ofNat (65+k)).toLower ∧ (Char.ofNat (65+k)).toLower ≠ 'Σ' ∧
      ascii.inert (Char.ofNat (65+k)).toLower = false := by
  decide

theorem toLower_cases (c : Char) : c.toLower = c ∨ c.isAlpha = true ∧ c.toLower.toLower = c.toLower ∧
    c.toLower ≠ 'Σ' ∧ ascii.inert c.toLower = false := by
  by_cases capital : c.isUpper = true
  · right
    have bounds : 'A'.val ≤ c.val ∧ c.val ≤ 'Z'.val := of_decide_eq_true capital
    simp only [UInt32.le_iff_toNat_le] at bounds
    obtain ⟨large,small⟩ : 65 ≤ c.toNat ∧ c.toNat ≤ 90 := bounds
    have letter := toLower_capital (c.toNat-65) (by omega)
    rwa [Nat.add_sub_cancel' large,Char.ofNat_toNat] at letter
  · left
    have outside : ¬('A'.val ≤ c.val ∧ c.val ≤ 'Z'.val) := fun inside => capital (decide_eq_true inside)
    exact dif_neg outside

theorem ascii_lawful : ascii.Lawful where
  nonempty c := by simp [ascii]
  stable := by
    intro c other x inside
    obtain rfl : x = c.toLower := by simpa [ascii,other] using inside
    rcases toLower_cases c with same | ⟨_,again,letter,_⟩
    · simp [ascii,same,other]
    · simp [ascii,again,letter]
  inert := by
    intro c x inside still
    by_cases sigma : c = 'Σ'
    · obtain rfl : x = 'σ' := by simpa [ascii,sigma] using inside
      exact absurd still (by decide)
    · obtain rfl : x = c.toLower := by simpa [ascii,sigma] using inside
      rcases toLower_cases c with same | ⟨_,_,_,letter⟩
      · exact same.symm
      · rw [letter] at still
        cases still
  kept := by
    intro c still
    have other : c ≠ 'Σ' := by
      rintro rfl
      exact absurd still (by decide)
    have apart : c.isAlpha = false := by
      simp only [inert,Bool.or_eq_true,Bool.and_eq_true,Bool.not_eq_true'] at still
      rcases still with (⟨_,apart⟩ | space) | digit
      · exact apart
      · exact isAlpha_of_isSpace space
      · have digit : c.isDigit = true := by
          by_contra none
          simp [ascii,none] at digit
        simp only [Char.isDigit,Bool.and_eq_true,decide_eq_true_eq,ge_iff_le,UInt32.le_iff_toNat_le] at digit
        have small : c.toNat ≤ 57 := digit.2
        exact isAlpha_outside (.inl (by omega))
    rcases toLower_cases c with same | ⟨letter,_⟩
    · simp [ascii,same,other,apart]
    · rw [apart] at letter
      cases letter
  ascii := by
    intro c small
    have other : c ≠ 'Σ' := by
      rintro rfl
      exact absurd small (by decide)
    simp [ascii,other]
  numerals c _ := rfl
  sigmas := by
    rintro c (rfl | rfl | rfl) <;> decide
  sigma := by decide
  breaks := by
    intro c separate
    simp only [Unicode.breaks,Bool.or_eq_true,beq_iff_eq] at separate
    rcases separate with (((space | rfl) | rfl) | rfl) | rfl
    · simp only [ascii,Bool.or_eq_false_iff,beq_eq_false_iff_ne]
      refine ⟨⟨?_,?_⟩,?_⟩ <;> rintro rfl <;> exact absurd space (by decide)
    all_goals decide

end Ascii

end Unicode

end Orrery.Foundation.Casing
