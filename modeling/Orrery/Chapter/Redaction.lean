import Orrery.Foundation.Substitution

/-! The handles of members in prose (server/thought_redaction.py): what counts as one, and
what is left of a text, or of a nested value, after each has been replaced. -/
namespace Orrery.Chapter
open Foundation

structure WordTable where
  isWord : Char → Bool
  ascii : ∀ c : Char, c.toNat < 128 → isWord c = (c.isAlphanum || c == '_')

def redacted : List Char := "@[member]".toList

def isHandleChar (c : Char) : Bool := c.isAlphanum || c == '.' || c == '_' || c == '-'

section Functions
variable (table : WordTable)

def mayBegin : Option Char → Bool
  | none => true
  | some c => !(table.isWord c || c == '@' || c == '.')

def handleLength (prev : Option Char) : List Char → Option ℕ
  | '@' :: c :: text =>
    if mayBegin table prev && c.isAlphanum then some (2+((text.take 63).takeWhile isHandleChar).length) else none
  | _ => none

theorem handleLength_inside {prev : Option Char} {text : List Char} {n : ℕ} (taken : handleLength table prev text = some n) :
    0 < n ∧ n ≤ text.length := by
  unfold handleLength at taken
  split at taken
  next c text =>
    split at taken
    next =>
      cases taken
      have short := (List.takeWhile_sublist isHandleChar (l := text.take 63)).length_le
      rw [List.length_take] at short
      simp only [List.length_cons]
      omega
    next => cases taken
  next => cases taken

def handleRe : Matcher Char := ⟨handleLength table,handleLength_inside table⟩

def redactHandles (text : Option String) : String :=
  match text.filter (· ≠ "") with
  | none => ""
  | some text => String.ofList ((handleRe table).sub redacted text.toList)

def containsHandle (text : Option String) : Bool :=
  match text.filter (· ≠ "") with
  | none => false
  | some text => (handleRe table).occurs none text.toList

end Functions

/-- A value of Python's: dictionaries with any keys, lists, tuples, texts and other leaves. -/
inductive Nested (κ ι : Type)
  | text (s : String)
  | dict (fields : List (κ × Nested κ ι))
  | list (items : List (Nested κ ι))
  | tuple (items : List (Nested κ ι))
  | leaf (value : ι)

section Nesting
variable {κ ι : Type} (table : WordTable)

mutual
def redactDeep : Nested κ ι → Nested κ ι
  | .text s => .text (redactHandles table (some s))
  | .dict fields => .dict (redactFields fields)
  | .list items => .list (redactItems items)
  | .tuple items => .tuple (redactItems items)
  | .leaf value => .leaf value
def redactItems : List (Nested κ ι) → List (Nested κ ι)
  | [] => []
  | value :: rest => redactDeep value :: redactItems rest
def redactFields : List (κ × Nested κ ι) → List (κ × Nested κ ι)
  | [] => []
  | (key,value) :: rest => (key,redactDeep value) :: redactFields rest
end

mutual
def texts : Nested κ ι → List String
  | .text s => [s]
  | .dict fields => textsFields fields
  | .list items | .tuple items => textsItems items
  | .leaf _ => []
def textsItems : List (Nested κ ι) → List String
  | [] => []
  | value :: rest => texts value ++ textsItems rest
def textsFields : List (κ × Nested κ ι) → List String
  | [] => []
  | (_,value) :: rest => texts value ++ textsFields rest
end

mutual
theorem texts_redactDeep (value : Nested κ ι) :
    texts (redactDeep table value) = (texts value).map fun s => redactHandles table (some s) := by
  cases value with
  | text s => rfl
  | dict fields =>
    rw [redactDeep,texts,texts]
    exact texts_redactFields fields
  | list items =>
    rw [redactDeep,texts,texts]
    exact texts_redactItems items
  | tuple items =>
    rw [redactDeep,texts,texts]
    exact texts_redactItems items
  | leaf value => rfl
theorem texts_redactItems (items : List (Nested κ ι)) :
    textsItems (redactItems table items) = (textsItems items).map fun s => redactHandles table (some s) := by
  cases items with
  | nil => rfl
  | cons value rest =>
    rw [redactItems,textsItems,textsItems,List.map_append,texts_redactDeep value,texts_redactItems rest]
theorem texts_redactFields (fields : List (κ × Nested κ ι)) :
    textsFields (redactFields table fields) = (textsFields fields).map fun s => redactHandles table (some s) := by
  cases fields with
  | nil => rfl
  | cons field rest =>
    rw [redactFields,textsFields,textsFields,List.map_append,texts_redactDeep field.2,texts_redactFields rest]
end

end Nesting

section Handles
variable {table : WordTable} {prev : Option Char} {c : Char} {body text piece rest : List Char}

structure IsHandle (body : List Char) : Prop where
  begins : ∃ c rest, body = c :: rest ∧ c.isAlphanum = true
  all : ∀ c ∈ body, isHandleChar c = true
  short : body.length ≤ 64

structure Exposed (table : WordTable) (prev : Option Char) (text before body : List Char) (c : Char) (rest : List Char) : Prop where
  whole : text = before ++ '@' :: (body ++ '@' :: c :: rest)
  free : mayBegin table (before.getLast?.or prev) = true
  handle : IsHandle body
  last : body.getLast? ≠ some '-'
  next : c.isAlphanum = true

theorem alphanum_small (alphanum : c.isAlphanum = true) : c.toNat < 128 := by
  delta Char.isAlphanum Char.isAlpha Char.isUpper Char.isLower Char.isDigit at alphanum
  simp only [Bool.or_eq_true,Bool.and_eq_true,decide_eq_true_eq,UInt32.le_iff_toNat_le,Char.toNat,ge_iff_le] at alphanum ⊢
  have bounds : 'A'.val.toNat = 65 ∧ 'Z'.val.toNat = 90 ∧ 'a'.val.toNat = 97 ∧ 'z'.val.toNat = 122 ∧
    '0'.val.toNat = 48 ∧ '9'.val.toNat = 57 := by decide
  omega

theorem mayBegin_handleChar (inside : isHandleChar c = true) : mayBegin table (some c) = false ↔ c ≠ '-' := by
  have dash : mayBegin table (some '-') = true := by
    rw [mayBegin,table.ascii '-' (by decide)]
    decide
  constructor
  · rintro closed rfl
    rw [dash] at closed
    cases closed
  · intro other
    unfold mayBegin
    dsimp only
    rw [Bool.not_eq_false',Bool.or_eq_true,Bool.or_eq_true]
    simp only [isHandleChar,Bool.or_eq_true,beq_iff_eq] at inside
    rcases inside with ((alphanum | rfl) | rfl) | rfl
    · rw [table.ascii c (alphanum_small alphanum),alphanum]
      exact .inl (.inl rfl)
    · exact .inr rfl
    · rw [table.ascii '_' (by decide)]
      exact .inl (.inl (by decide))
    · exact absurd rfl other

theorem handle_isSome (prev : Option Char) (text : List Char) : (handleLength table prev text).isSome = true ↔
    mayBegin table prev = true ∧ ∃ c rest, text = '@' :: c :: rest ∧ c.isAlphanum = true := by
  unfold handleLength
  split
  next c rest =>
    by_cases both : (mayBegin table prev && c.isAlphanum) = true
    · rw [if_pos both]
      rw [Bool.and_eq_true] at both
      exact iff_of_true rfl ⟨both.1,c,rest,rfl,both.2⟩
    · rw [if_neg both]
      refine iff_of_false Bool.false_ne_true ?_
      rintro ⟨free,c',rest',same,alphanum⟩
      cases same
      exact both (Bool.and_eq_true _ _ ▸ ⟨free,alphanum⟩)
  next other =>
    refine iff_of_false Bool.false_ne_true ?_
    rintro ⟨-,c,rest,rfl,-⟩
    exact other c rest rfl

theorem handleLength_body (free : mayBegin table prev = true) (handle : IsHandle body) (rest : List Char) :
    handleLength table prev ('@' :: (body ++ '@' :: rest)) = some ('@' :: body).length := by
  obtain ⟨c,body,rfl,alphanum⟩ := handle.begins
  have all : ∀ d ∈ body, isHandleChar d = true := fun d inside => handle.all d (List.mem_cons_of_mem c inside)
  have short : body.length ≤ 63 := Nat.le_of_succ_le_succ handle.short
  have stops (n : ℕ) : (('@' :: rest).take n).takeWhile isHandleChar = [] := by
    cases n <;> rfl
  have whole : ((body ++ '@' :: rest).take 63).takeWhile isHandleChar = body := by
    rw [List.take_append,List.take_of_length_le short,List.takeWhile_append_of_pos all,stops,List.append_nil]
  rw [List.cons_append,handleLength,free,alphanum,whole]
  simp only [Bool.and_self,if_true,List.length_cons,Option.some.injEq]
  omega

theorem handle_of_taken (taken : handleLength table prev (piece ++ rest) = some piece.length) :
    mayBegin table prev = true ∧ ∃ body, piece = '@' :: body ∧ IsHandle body := by
  obtain ⟨free,c,text,whole,alphanum⟩ := (handle_isSome prev (piece ++ rest)).mp (by rw [taken]; rfl)
  have cut : piece = (piece ++ rest).take piece.length := (List.take_left ..).symm
  rw [whole] at cut taken
  rw [handleLength,free,alphanum] at taken
  have size : piece.length = ((text.take 63).takeWhile isHandleChar).length+2 := by
    have := Option.some.inj taken
    omega
  have short := (List.takeWhile_prefix isHandleChar (l := text.take 63)).trans (List.take_prefix 63 text)
  rw [size,List.take_succ_cons,List.take_succ_cons,← List.prefix_iff_eq_take.mp short] at cut
  refine ⟨free,_,cut,⟨c,_,rfl,alphanum⟩,?_,?_⟩
  · intro d inside
    rcases List.mem_cons.mp inside with rfl | further
    · simp [isHandleChar,alphanum]
    · exact List.all_eq_true.mp List.all_takeWhile d further
  · have bound := (List.takeWhile_sublist isHandleChar (l := text.take 63)).length_le
    rw [List.length_take] at bound
    rw [List.length_cons]
    omega

end Handles

section Redacting
variable {table : WordTable} {prev : Option Char} {c : Char} {text : List Char}

def ExposedIn (table : WordTable) (prev : Option Char) (text : List Char) : Prop :=
  ∃ before body c rest, Exposed table prev text before body c rest

def FrontOnly (table : WordTable) (prev : Option Char) (text : List Char) : Prop :=
  mayBegin table prev = false ∧ ∃ c rest, text = '@' :: c :: rest ∧ c.isAlphanum = true

theorem taken_none : (handleRe table).taken prev text = none ↔
    ¬ (mayBegin table prev = true ∧ ∃ c rest, text = '@' :: c :: rest ∧ c.isAlphanum = true) := by
  rw [← handle_isSome,Bool.not_eq_true,Option.isSome_eq_false_iff,Option.isNone_iff_eq_none]
  rfl

theorem sub_head (table : WordTable) (prev : Option Char) (text : List Char) :
    (∃ c rest, (handleRe table).subFrom redacted 0 prev text = c :: rest ∧ c.isAlphanum = true) ↔
      ∃ c rest, text = c :: rest ∧ c.isAlphanum = true := by
  cases text with
  | nil => rw [Matcher.subFrom_nil]
  | cons d text =>
    cases found : (handleRe table).taken prev (d :: text) with
    | none =>
      rw [Matcher.subFrom_keep found]
      simp
    | some n =>
      obtain ⟨piece,rest,whole,taken⟩ := Matcher.taken_split found
      obtain ⟨-,body,rfl,-⟩ := handle_of_taken taken
      rw [whole,Matcher.subFrom_match taken]
      refine iff_of_false ?_ ?_
      · rintro ⟨c,rest,same,alphanum⟩
        cases same
        exact absurd alphanum (by decide)
      · rintro ⟨c,rest,same,alphanum⟩
        cases same
        exact absurd alphanum (by decide)

theorem exposed_keep (free : (handleRe table).taken prev (c :: text) = none) :
    ExposedIn table prev (c :: text) ↔ ExposedIn table (some c) text := by
  have before_getLast (before : List Char) : (c :: before).getLast?.or prev = before.getLast?.or (some c) := by
    rw [List.getLast?_cons]
    cases before.getLast? <;> rfl
  constructor
  · rintro ⟨before,body,d,rest,exposed⟩
    cases before with
    | nil =>
      obtain ⟨e,body',rfl,alphanum⟩ := exposed.handle.begins
      exact absurd ⟨exposed.free,e,_,exposed.whole,alphanum⟩ (taken_none.mp free)
    | cons e before =>
      obtain ⟨rfl,tail⟩ := List.cons.inj exposed.whole
      exact ⟨before,body,d,rest,tail,before_getLast before ▸ exposed.free,exposed.handle,exposed.last,exposed.next⟩
  · rintro ⟨before,body,d,rest,exposed⟩
    exact ⟨c :: before,body,d,rest,congrArg (c :: ·) exposed.whole,(before_getLast before).symm ▸ exposed.free,
      exposed.handle,exposed.last,exposed.next⟩

theorem exposed_match {piece rest : List Char} (taken : (handleRe table).taken prev (piece ++ rest) = some piece.length) :
    ExposedIn table prev (piece ++ rest) ↔ ExposedIn table piece.getLast? rest ∨ FrontOnly table piece.getLast? rest := by
  obtain ⟨free,body,rfl,handle⟩ := handle_of_taken taken
  obtain ⟨last,ends⟩ : ∃ last, body.getLast? = some last := by
    obtain ⟨c,body',rfl,-⟩ := handle.begins
    exact ⟨_,List.getLast?_cons⟩
  have own : ('@' :: body).getLast? = some last := by
    rw [List.getLast?_cons,ends]
    rfl
  have lastly : isHandleChar last = true := handle.all last (List.mem_of_getLast? ends)
  have behind (before : List Char) : (('@' :: body) ++ before).getLast?.or prev = before.getLast?.or ('@' :: body).getLast? := by
    rw [List.getLast?_append,own]
    cases before.getLast? <;> rfl
  constructor
  · rintro ⟨before,body',d,rest',exposed⟩
    cases before with
    | nil =>
      have whole : ('@' :: body) ++ rest = ('@' :: body') ++ '@' :: d :: rest' := exposed.whole
      have again := handleLength_body free exposed.handle (d :: rest')
      rw [← List.cons_append,← whole] at again
      obtain ⟨same,tail⟩ := List.append_inj whole (Option.some.inj (taken.symm.trans again))
      obtain rfl := (List.cons.inj same).2
      refine .inr ⟨?_,d,rest',tail,exposed.next⟩
      rw [own,mayBegin_handleChar lastly]
      rintro rfl
      exact exposed.last ends
    | cons e before =>
      obtain rfl := (List.cons.inj exposed.whole).1
      have tails : body ++ rest = before ++ '@' :: (body' ++ '@' :: d :: rest') := (List.cons.inj exposed.whole).2
      rcases List.append_eq_append_iff.mp tails with ⟨before',rfl,tail⟩ | ⟨cut,same,tail⟩
      · exact .inl ⟨before',body',d,rest',tail,behind before' ▸ exposed.free,exposed.handle,exposed.last,exposed.next⟩
      · cases cut with
        | nil =>
          rw [List.append_nil] at same
          subst same
          have free := exposed.free
          rw [← List.append_nil ('@' :: body),behind] at free
          exact .inl ⟨[],body',d,rest',tail.symm,free,exposed.handle,exposed.last,exposed.next⟩
        | cons e cut =>
          obtain rfl := (List.cons.inj tail).1
          exact absurd (handle.all '@' (by rw [same]; simp)) (by decide)
  · rintro (⟨before,body',d,rest',exposed⟩ | ⟨closed,d,rest',rfl,alphanum⟩)
    · exact ⟨('@' :: body) ++ before,body',d,rest',by rw [exposed.whole,List.append_assoc],(behind before).symm ▸ exposed.free,
        exposed.handle,exposed.last,exposed.next⟩
    · refine ⟨[],body,d,rest',by simp,free,handle,?_,alphanum⟩
      rw [own,mayBegin_handleChar lastly] at closed
      rw [ends]
      exact fun same => closed (Option.some.inj same)

theorem mayBegin_marker (table : WordTable) : mayBegin table (some ']') = true := by
  rw [mayBegin,table.ascii ']' (by decide)]
  decide

theorem occurs_redacted (seen : Option Char) (rest : List Char) :
    (handleRe table).occurs seen (redacted ++ rest) = (handleRe table).occurs (some ']') rest := by
  have front : (handleRe table).taken seen ('@' :: '[' :: (['m','e','m','b','e','r',']'] ++ rest)) = none := by
    rw [taken_none]
    rintro ⟨-,c,rest,same,alphanum⟩
    cases same
    exact absurd alphanum (by decide)
  have later (prev : Option Char) (c : Char) (text : List Char) (other : c ≠ '@') :
      (handleRe table).occurs prev (c :: text) = (handleRe table).occurs (some c) text := by
    have free : (handleRe table).taken prev (c :: text) = none := by
      rw [taken_none]
      rintro ⟨-,d,rest,same,-⟩
      exact other (List.cons.inj same).1
    rw [Matcher.occurs_cons,free]
    rfl
  change (handleRe table).occurs seen ('@' :: '[' :: (['m','e','m','b','e','r',']'] ++ rest)) = _
  rw [Matcher.occurs_cons,front]
  change (handleRe table).occurs (some '@') ('[' :: 'm' :: 'e' :: 'm' :: 'b' :: 'e' :: 'r' :: ']' :: rest) = _
  rw [later _ '[' _ (by decide),later _ 'm' _ (by decide),later _ 'e' _ (by decide),later _ 'm' _ (by decide),
    later _ 'b' _ (by decide),later _ 'e' _ (by decide),later _ 'r' _ (by decide),later _ ']' _ (by decide)]

theorem occurs_sub (prev : Option Char) (text : List Char) : ∀ seen, (mayBegin table prev = true → mayBegin table seen = true) →
    ((handleRe table).occurs seen ((handleRe table).subFrom redacted 0 prev text) = true ↔
      ExposedIn table prev text ∨ mayBegin table seen = true ∧ FrontOnly table prev text) := by
  induction prev, text using (handleRe table).scan_induction with
  | nil prev =>
    intro seen _
    rw [Matcher.subFrom_nil]
    refine iff_of_false Bool.false_ne_true ?_
    rintro (⟨before,body,c,rest,exposed⟩ | ⟨-,-,c,rest,same,-⟩)
    · simpa using exposed.whole
    · cases same
  | keep prev c text free ih =>
    intro seen wider
    have first : ((handleRe table).taken seen (c :: (handleRe table).subFrom redacted 0 (some c) text)).isSome = true ↔
        mayBegin table seen = true ∧ FrontOnly table prev (c :: text) := by
      refine (handle_isSome _ _).trans (and_congr_right fun _ => ?_)
      constructor
      · rintro ⟨d,rest,same,alphanum⟩
        obtain ⟨rfl,out⟩ := List.cons.inj same
        obtain ⟨d',rest',rfl,alphanum'⟩ := (sub_head table _ text).mp ⟨d,rest,out,alphanum⟩
        refine ⟨?_,d',rest',rfl,alphanum'⟩
        rw [← Bool.not_eq_true]
        exact fun opened => taken_none.mp free ⟨opened,d',rest',rfl,alphanum'⟩
      · rintro ⟨-,d,rest,same,alphanum⟩
        obtain ⟨rfl,rfl⟩ := List.cons.inj same
        obtain ⟨d',rest',out,alphanum'⟩ := (sub_head table (some '@') _).mpr ⟨d,rest,rfl,alphanum⟩
        exact ⟨d',rest',by rw [out],alphanum'⟩
    have never : ¬ (mayBegin table (some c) = true ∧ FrontOnly table (some c) text) := fun both => by
      cases both.1.symm.trans both.2.1
    rw [Matcher.subFrom_keep free,Matcher.occurs_cons,Bool.or_eq_true,ih (some c) id,exposed_keep free,first,
      or_iff_left never]
    exact or_comm
  | matched prev piece rest taken ih =>
    intro seen wider
    have opened := (handle_of_taken taken).1
    have never : ¬ (mayBegin table seen = true ∧ FrontOnly table prev (piece ++ rest)) := fun both => by
      cases opened.symm.trans both.2.1
    rw [Matcher.subFrom_match taken,exposed_match taken,occurs_redacted,or_iff_left never,
      ih (some ']') fun _ => mayBegin_marker table,and_iff_right (mayBegin_marker table)]

theorem free_of_sub (prev : Option Char) (text : List Char) (same : (handleRe table).subFrom redacted 0 prev text = text) :
    (handleRe table).occurs prev text = false := by
  induction prev, text using (handleRe table).scan_induction with
  | nil prev => rfl
  | keep prev c text free ih =>
    rw [Matcher.subFrom_keep free] at same
    rw [Matcher.occurs_cons,free,ih (List.cons.inj same).2]
    rfl
  | matched prev piece rest taken ih =>
    obtain ⟨-,body,rfl,handle⟩ := handle_of_taken taken
    obtain ⟨c,body,rfl,alphanum⟩ := handle.begins
    rw [Matcher.subFrom_match taken] at same
    obtain rfl : '[' = c := (List.cons.inj (List.cons.inj same).2).1
    exact absurd alphanum (by decide)

end Redacting

section Texts
variable {table : WordTable}

theorem redactHandles_toList (t : String) :
    (redactHandles table (some t)).toList = (handleRe table).sub redacted t.toList := by
  unfold redactHandles
  by_cases empty : t = ""
  · rw [empty]
    rfl
  · rw [Option.filter_some,if_pos (decide_eq_true empty)]
    exact String.toList_ofList

theorem containsHandle_occurs (t : String) : containsHandle table (some t) = (handleRe table).occurs none t.toList := by
  unfold containsHandle
  by_cases empty : t = ""
  · rw [empty]
    rfl
  · rw [Option.filter_some,if_pos (decide_eq_true empty)]

theorem contains_redacted (t : String) : containsHandle table (some (redactHandles table (some t))) = false ↔
    ¬ ExposedIn table none t.toList := by
  rw [containsHandle_occurs,redactHandles_toList,← Bool.not_eq_true]
  refine not_congr ((occurs_sub none t.toList none id).trans (or_iff_left ?_))
  rintro ⟨-,closed,-⟩
  cases closed

theorem redactHandles_same (t : String) : redactHandles table (some t) = t ↔ containsHandle table (some t) = false := by
  rw [← String.toList_inj,redactHandles_toList,containsHandle_occurs]
  exact ⟨free_of_sub none t.toList,Matcher.subFrom_free⟩

/-- Nothing is left to redact, in a text and in a nested value, exactly where no handle is
exposed by the one before it. -/
theorem redaction_clean_iff (table : WordTable) :
    (∀ t : String, (containsHandle table (some (redactHandles table (some t))) = false ↔ ¬ ExposedIn table none t.toList) ∧
      (redactHandles table (some (redactHandles table (some t))) = redactHandles table (some t) ↔
        ¬ ExposedIn table none t.toList) ∧
      (containsHandle table (some t) = false → redactHandles table (some t) = t)) ∧
    ∀ (κ ι : Type) (value : Nested κ ι),
      (∀ s ∈ texts (redactDeep table value), containsHandle table (some s) = false) ↔
        ∀ s ∈ texts value, ¬ ExposedIn table none s.toList := by
  refine ⟨fun t => ⟨contains_redacted t,(redactHandles_same _).trans (contains_redacted t),(redactHandles_same t).mpr⟩,
    fun κ ι value => ?_⟩
  rw [texts_redactDeep,List.forall_mem_map]
  exact forall₂_congr fun s _ => contains_redacted s

def asciiWords : WordTable where
  isWord c := c.isAlphanum || c == '_'
  ascii _ _ := rfl

/-- Of two handles without anything between them, the second one stays. -/
theorem adjacent_stays : redactHandles asciiWords (some "@a@b") = "@[member]@b" ∧
    containsHandle asciiWords (some (redactHandles asciiWords (some "@a@b"))) = true ∧
    redactHandles asciiWords (some (redactHandles asciiWords (some "@a@b"))) ≠ redactHandles asciiWords (some "@a@b") := by
  decide +kernel

end Texts
end Orrery.Chapter
