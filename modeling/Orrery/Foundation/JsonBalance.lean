import Orrery.Foundation.JsonOrder

/-! Brackets of JSON texts: what a decoder takes for a value closes every bracket that it
opens, and of the text of a dictionary nothing shorter does. So a line that was cut off
is not read as another one. -/
namespace Orrery.Foundation.Json

inductive Mode
  | code
  | quoted
  | escaped
deriving DecidableEq

structure Place where
  mode : Mode
  depth : Nat
deriving DecidableEq

def isOpening (c : Char) : Bool := c == '[' || c == '\x7b'

def isClosing (c : Char) : Bool := c == ']' || c == '\x7d'

theorem opening_cases {c : Char} (opens : isOpening c = true) : c = '[' ∨ c = '\x7b' := by
  simpa [isOpening] using opens

theorem closing_cases {c : Char} (closes : isClosing c = true) : c = ']' ∨ c = '\x7d' := by
  simpa [isClosing] using closes

def move (place : Place) (c : Char) : Option Place :=
  match place.mode with
  | .escaped => some ⟨.quoted,place.depth⟩
  | .quoted =>
    if c = '\\' then some ⟨.escaped,place.depth⟩
    else if c = '"' then some ⟨.code,place.depth⟩
    else some place
  | .code =>
    if c = '"' then some ⟨.quoted,place.depth⟩
    else if isOpening c then some ⟨.code,place.depth+1⟩
    else if isClosing c then
      match place.depth with
      | 0 => none
      | depth+1 => some ⟨.code,depth⟩
    else some place

def scan (place : Place) (text : List Char) : Option Place := text.foldlM move place

def Leads (text : List Char) (start goal : Place) : Prop :=
  ∀ d, scan ⟨start.mode,start.depth+d⟩ text = some ⟨goal.mode,goal.depth+d⟩

def outside : Place := ⟨.code,0⟩

def Balanced (text : List Char) : Prop := Leads text outside outside

section Scanning
variable {first second text : List Char} {start mid goal : Place}

theorem scan_append (place : Place) (first second : List Char) :
    scan place (first ++ second) = (scan place first).bind fun mid => scan mid second :=
  List.foldlM_append

theorem scan_cons (place : Place) (c : Char) (rest : List Char) :
    scan place (c :: rest) = (move place c).bind fun next => scan next rest := rfl

theorem Leads.append (left : Leads first start mid) (right : Leads second mid goal) :
    Leads (first ++ second) start goal := by
  intro d
  rw [scan_append,left d]
  exact right d

theorem Leads.cons {c : Char} (left : Leads [c] start mid) (right : Leads second mid goal) :
    Leads (c :: second) start goal := left.append right

theorem leads_nil : Leads [] start start := fun _ => rfl

def Neutral (c : Char) : Prop := c ≠ '"' ∧ isOpening c = false ∧ isClosing c = false

instance (c : Char) : Decidable (Neutral c) := inferInstanceAs (Decidable (_ ∧ _))

theorem leads_neutral {c : Char} (neutral : Neutral c) : Leads [c] outside outside := by
  intro d
  simp [scan,move,outside,neutral.1,neutral.2.1,neutral.2.2]

theorem balanced_neutral (neutral : ∀ c ∈ text, Neutral c) : Balanced text := by
  induction text with
  | nil => exact leads_nil
  | cons c rest ih =>
    apply (leads_neutral (neutral c List.mem_cons_self)).cons
    exact ih fun d inside => neutral d (List.mem_cons_of_mem c inside)

theorem leads_open {c : Char} (opens : isOpening c = true) : Leads [c] outside ⟨.code,1⟩ := by
  intro d
  have quoted : c ≠ '"' := by
    rintro rfl
    cases opens
  simp [scan,move,outside,opens,quoted,Nat.add_comm]

theorem leads_close {c : Char} (closes : isClosing c = true) : Leads [c] ⟨.code,1⟩ outside := by
  intro d
  have quoted : c ≠ '"' := by
    rintro rfl
    cases closes
  have inner : isOpening c = false := by
    rcases closing_cases closes with rfl | rfl <;> rfl
  simp [scan,move,outside,closes,quoted,inner,Nat.add_comm]

theorem leads_comma : Leads [','] outside outside := leads_neutral (by decide)

theorem leads_colon : Leads [':'] outside outside := leads_neutral (by decide)

theorem leads_quote : Leads ['"'] outside ⟨.quoted,0⟩ := fun d => by simp [scan,move,outside]

theorem leads_unquote : Leads ['"'] ⟨.quoted,0⟩ outside := fun d => by simp [scan,move,outside]

theorem leads_backslash : Leads ['\\'] ⟨.quoted,0⟩ ⟨.escaped,0⟩ := fun d => by simp [scan,move]

theorem leads_escape (c : Char) : Leads [c] ⟨.escaped,0⟩ ⟨.quoted,0⟩ := fun d => by simp [scan,move]

theorem leads_letter {c : Char} (quote : c ≠ '"') (backslash : c ≠ '\\') : Leads [c] ⟨.quoted,0⟩ ⟨.quoted,0⟩ :=
  fun d => by simp [scan,move,quote,backslash]

theorem leads_letters (letters : ∀ c ∈ text, c ≠ '"' ∧ c ≠ '\\') : Leads text ⟨.quoted,0⟩ ⟨.quoted,0⟩ := by
  induction text with
  | nil => exact leads_nil
  | cons c rest ih =>
    obtain ⟨quote,backslash⟩ := letters c List.mem_cons_self
    exact (leads_letter quote backslash).cons (ih fun d inside => letters d (List.mem_cons_of_mem c inside))

theorem Leads.deeper (leads : Leads text start goal) (d : Nat) :
    Leads text ⟨start.mode,start.depth+d⟩ ⟨goal.mode,goal.depth+d⟩ := by
  intro e
  rw [Nat.add_assoc,Nat.add_assoc]
  exact leads (d+e)

theorem Balanced.bracketed {left right : Char} (opens : isOpening left = true) (closes : isClosing right = true)
    (inner : Balanced text) : Balanced (left :: (text ++ [right])) :=
  (leads_open opens).cons ((inner.deeper 1).append (leads_close closes))

end Scanning

section Reading
variable {text rest : List Char}

def Takes (text rest : List Char) (start goal : Place) : Prop := ∃ taken, text = taken ++ rest ∧ Leads taken start goal

theorem takes_neutral {taken : List Char} (neutral : ∀ c ∈ taken, Neutral c) (split : text = taken ++ rest) :
    Takes text rest outside outside := ⟨taken,split,balanced_neutral neutral⟩

theorem Takes.append {mid : List Char} {start between goal : Place} (left : Takes text mid start between)
    (right : Takes mid rest between goal) : Takes text rest start goal := by
  obtain ⟨taken,rfl,leads⟩ := left
  obtain ⟨taken',rfl,leads'⟩ := right
  exact ⟨taken ++ taken',(List.append_assoc ..).symm,leads.append leads'⟩

theorem Takes.cons {c : Char} {more : List Char} {start between goal : Place} (left : Leads [c] start between)
    (right : Takes more rest between goal) : Takes (c :: more) rest start goal :=
  Takes.append ⟨[c],rfl,left⟩ right

theorem takes_nil {start : Place} : Takes text text start start := ⟨[],rfl,leads_nil⟩

theorem takes_skip (text : List Char) : Takes text (skip text) outside outside := by
  refine takes_neutral ?_ (List.takeWhile_append_dropWhile (p := isWhite)).symm
  intro c inside
  have white := List.mem_takeWhile_imp inside
  simp only [isWhite,Bool.or_eq_true,beq_iff_eq] at white
  rcases white with ((rfl | rfl) | rfl) | rfl <;> decide

theorem takes_bracketed {left right : Char} (opens : isOpening left = true) (closes : isClosing right = true)
    (inner : Takes text (right :: rest) outside outside) : Takes (left :: text) rest outside outside := by
  obtain ⟨taken,rfl,leads⟩ := inner
  exact ⟨left :: (taken ++ [right]),by simp,Balanced.bracketed opens closes leads⟩

theorem digit_letter {c : Char} {n : Nat} (digit : Hex.digitValue c = some n) : c ≠ '"' ∧ c ≠ '\\' := by
  refine ⟨?_,?_⟩ <;> rintro rfl <;> cases digit

theorem hexUnit_takes {n : Nat} (read : hexUnit text = some (n,rest)) : Takes text rest ⟨.quoted,0⟩ ⟨.quoted,0⟩ := by
  unfold hexUnit at read
  split at read
  next a b c d rest' =>
    obtain ⟨_,first,read⟩ := Option.bind_eq_some_iff.mp read
    obtain ⟨_,second,read⟩ := Option.bind_eq_some_iff.mp read
    obtain ⟨_,third,read⟩ := Option.bind_eq_some_iff.mp read
    obtain ⟨_,fourth,read⟩ := Option.bind_eq_some_iff.mp read
    cases read
    refine ⟨[a,b,c,d],rfl,leads_letters ?_⟩
    simp only [List.forall_mem_cons]
    exact ⟨digit_letter first,digit_letter second,digit_letter third,digit_letter fourth,by simp⟩
  next => cases read

theorem escape_takes {c : Char} (read : escape text = some (c,rest)) : Takes text rest ⟨.escaped,0⟩ ⟨.quoted,0⟩ := by
  have single (d : Char) : Takes (d :: rest) rest ⟨.escaped,0⟩ ⟨.quoted,0⟩ := .cons (leads_escape d) takes_nil
  unfold escape at read
  split at read
  case h_9 more =>
    obtain ⟨⟨unit,rest'⟩,first,read⟩ := Option.bind_eq_some_iff.mp read
    have start := Takes.cons (leads_escape 'u') (hexUnit_takes first)
    dsimp only at read
    split at read
    next => cases read; exact start
    next =>
      split at read
      next more =>
        obtain ⟨⟨low,rest'⟩,second,read⟩ := Option.bind_eq_some_iff.mp read
        dsimp only at read
        split at read
        next =>
          obtain ⟨_,rfl⟩ := Prod.mk.inj (Option.some.inj read)
          exact start.append (.cons leads_backslash (.cons (leads_escape 'u') (hexUnit_takes second)))
        next => cases read
      next => cases read
  case h_10 => cases read
  all_goals cases read; exact single _

theorem characters_takes {fuel : Nat} : ∀ {text rest : List Char} {found : List Char},
    characters fuel text = some (found,rest) → Takes text ('"' :: rest) ⟨.quoted,0⟩ ⟨.quoted,0⟩ := by
  induction fuel with
  | zero =>
    intro text rest found read
    cases read
  | succ fuel ih =>
    intro text rest found read
    rw [characters.eq_def] at read
    split at read
    next none => cases none
    next => cases read
    next => cases read; exact takes_nil
    next same =>
      cases same
      obtain ⟨⟨c,more⟩,escaped,read⟩ := Option.bind_eq_some_iff.mp read
      obtain ⟨others,further,same⟩ := Option.map_eq_some_iff.mp read
      cases same
      exact .cons leads_backslash ((escape_takes escaped).append (ih further))
    next quote backslash same =>
      cases same
      split at read
      next => cases read
      next =>
        obtain ⟨others,further,same⟩ := Option.map_eq_some_iff.mp read
        cases same
        exact .cons (leads_letter quote backslash) (ih further)

theorem string_takes {s : String} (read : string text = some (s,rest)) : Takes ('"' :: text) rest outside outside := by
  obtain ⟨found,inner,same⟩ := Option.map_eq_some_iff.mp read
  cases same
  exact .cons leads_quote ((characters_takes inner).append (.cons leads_unquote takes_nil))

theorem neutral_digit {c : Char} (digit : c.isDigit = true) : Neutral c := by
  refine ⟨?_,?_,?_⟩
  · rintro rfl
    cases digit
  · by_contra opens
    rcases opening_cases (eq_true_of_ne_false opens) with rfl | rfl <;> cases digit
  · by_contra closes
    rcases closing_cases (eq_true_of_ne_false closes) with rfl | rfl <;> cases digit

theorem takes_digits (text : List Char) : Takes text (text.dropWhile Char.isDigit) outside outside :=
  takes_neutral (fun _ inside => neutral_digit (List.mem_takeWhile_imp inside)) List.takeWhile_append_dropWhile.symm

theorem whole_takes {digits : List Char} (read : whole text = some (digits,rest)) : Takes text rest outside outside := by
  unfold whole at read
  split at read
  next =>
    cases read
    exact .cons (leads_neutral (neutral_digit rfl)) takes_nil
  next =>
    dsimp only at read
    split at read
    next => cases read
    next => cases read; exact takes_digits text

theorem fraction_takes (text : List Char) : Takes text (fraction text).2 outside outside := by
  unfold fraction
  split
  next rest =>
    dsimp only
    split
    next => exact takes_nil
    next => exact .cons (leads_neutral (by decide)) (takes_digits rest)
  next => exact takes_nil

theorem sign_takes (text : List Char) : Takes text (sign text).2 outside outside := by
  unfold sign
  split
  · exact .cons (leads_neutral (by decide)) takes_nil
  · exact .cons (leads_neutral (by decide)) takes_nil
  · exact takes_nil

theorem minus_takes (text : List Char) : Takes text (minus text).2 outside outside := by
  unfold minus
  split
  · exact .cons (leads_neutral (by decide)) takes_nil
  · exact takes_nil

theorem exponent_takes (text : List Char) : Takes text (exponent text).2 outside outside := by
  cases text with
  | nil => exact takes_nil
  | cons e text =>
    rw [exponent]
    split
    next power =>
      have letter : e = 'e' ∨ e = 'E' := by simpa using (Bool.and_eq_true_iff.mp power).1
      have neutral : Neutral e := by rcases letter with rfl | rfl <;> decide
      exact .cons (leads_neutral neutral) ((sign_takes text).append (takes_digits _))
    next => exact takes_nil

variable {parseFloat : List Char → ℚ}

theorem number_takes {v : Json} (read : number parseFloat text = some (v,rest)) : Takes text rest outside outside := by
  obtain ⟨⟨digits,more⟩,inner,same⟩ := Option.map_eq_some_iff.mp read
  have taken : Takes text (exponent (fraction more).2).2 outside outside :=
    (minus_takes text).append ((whole_takes inner).append ((fraction_takes more).append (exponent_takes _)))
  dsimp only at same
  by_cases plain : ((fraction more).1.isEmpty && (exponent (fraction more).2).1.isEmpty) = true
  · rw [if_pos plain] at same
    cases same
    exact taken
  · rw [if_neg plain] at same
    cases same
    exact taken

theorem literal_takes {v : Json} (read : literal parseFloat text = some (v,rest)) : Takes text rest outside outside := by
  unfold literal at read
  split at read
  next name known =>
    cases read
    have letters : ∀ name ∈ constants, ∀ c ∈ name, Neutral c := by
      simp [constants,Neutral,isOpening,isClosing]
    have front : name <+: text := List.isPrefixOf_iff_prefix.mp (by simpa using List.find?_some known)
    obtain ⟨rest,rfl⟩ := front
    rw [List.drop_left]
    exact takes_neutral (letters name (List.mem_of_find?_eq_some known)) rfl
  next => exact number_takes read

structure ReadsBalanced (parseFloat : List Char → ℚ) (fuel : Nat) : Prop where
  value : ∀ text v rest, value parseFloat fuel text = some (v,rest) → Takes text rest outside outside
  items : ∀ text values rest, items parseFloat fuel text = some (values,rest) → Takes text (']' :: rest) outside outside
  members : ∀ before text fields rest, members parseFloat fuel before text = some (fields,rest) →
    Takes text ('\x7d' :: rest) outside outside

section Inner
variable {fuel : Nat} (inner : ReadsBalanced parseFloat fuel)
include inner

theorem ReadsBalanced.list {values : List Json} (read : Json.items parseFloat fuel (skip text) = some (values,rest)) :
    Takes text (']' :: rest) outside outside := (takes_skip text).append (inner.items _ _ _ read)

theorem ReadsBalanced.dictionary {fields : Dict}
    (read : Json.members parseFloat fuel [] (skip text) = some (fields,rest)) :
    Takes text ('\x7d' :: rest) outside outside := (takes_skip text).append (inner.members _ _ _ _ read)

theorem ReadsBalanced.value_succ {v : Json} (read : Json.value parseFloat (fuel+1) text = some (v,rest)) :
    Takes text rest outside outside := by
  rw [Json.value.eq_def] at read
  dsimp only at read
  split at read
  next found known =>
    cases read
    exact literal_takes known
  next =>
    split at read
    next =>
      cases read
      exact takes_neutral (by simp [Neutral,isOpening,isClosing] : ∀ c ∈ ['n','u','l','l'], Neutral c) rfl
    next =>
      cases read
      exact takes_neutral (by simp [Neutral,isOpening,isClosing] : ∀ c ∈ ['t','r','u','e'], Neutral c) rfl
    next =>
      cases read
      exact takes_neutral (by simp [Neutral,isOpening,isClosing] : ∀ c ∈ ['f','a','l','s','e'], Neutral c) rfl
    next =>
      obtain ⟨found,quoted,same⟩ := Option.map_eq_some_iff.mp read
      cases same
      exact string_takes quoted
    next =>
      split at read
      next closed =>
        cases read
        exact takes_bracketed rfl rfl (closed ▸ takes_skip _)
      next =>
        obtain ⟨found,list,same⟩ := Option.map_eq_some_iff.mp read
        cases same
        exact takes_bracketed rfl rfl (inner.list list)
    next =>
      split at read
      next closed =>
        cases read
        exact takes_bracketed rfl rfl (closed ▸ takes_skip _)
      next =>
        obtain ⟨found,list,same⟩ := Option.map_eq_some_iff.mp read
        cases same
        exact takes_bracketed rfl rfl (inner.dictionary list)
    next => cases read

theorem ReadsBalanced.items_succ {values : List Json}
    (read : Json.items parseFloat (fuel+1) text = some (values,rest)) : Takes text (']' :: rest) outside outside := by
  rw [Json.items] at read
  obtain ⟨first,head,read⟩ := Option.bind_eq_some_iff.mp read
  have taken := (inner.value _ _ _ head).append (takes_skip first.2)
  split at read
  next comma =>
    obtain ⟨found,list,same⟩ := Option.map_eq_some_iff.mp read
    cases same
    exact taken.append (comma ▸ .cons leads_comma (inner.list list))
  next closed =>
    cases read
    exact closed ▸ taken
  next => cases read

theorem ReadsBalanced.members_succ {before fields : Dict}
    (read : Json.members parseFloat (fuel+1) before text = some (fields,rest)) :
    Takes text ('\x7d' :: rest) outside outside := by
  rw [Json.members.eq_def] at read
  dsimp only at read
  split at read
  next =>
    obtain ⟨key,named,read⟩ := Option.bind_eq_some_iff.mp read
    have taken := (string_takes named).append (takes_skip key.2)
    split at read
    next colon =>
      obtain ⟨found,head,read⟩ := Option.bind_eq_some_iff.mp read
      have valued := (takes_skip _).append ((inner.value _ _ _ head).append (takes_skip found.2))
      rw [colon] at taken
      split at read
      next comma =>
        rw [comma] at valued
        exact taken.append (.cons leads_colon (valued.append (.cons leads_comma ((takes_skip _).append
          (inner.members _ _ _ _ read)))))
      next closed =>
        cases read
        exact taken.append (.cons leads_colon (closed ▸ valued))
      next => cases read
    next => cases read
  next => cases read

end Inner

theorem readsBalanced (parseFloat : List Char → ℚ) (fuel : Nat) : ReadsBalanced parseFloat fuel := by
  induction fuel with
  | zero => exact ⟨nofun,nofun,nofun⟩
  | succ fuel inner =>
    refine ⟨?_,?_,?_⟩
    · exact fun _ _ _ read => inner.value_succ read
    · exact fun _ _ _ read => inner.items_succ read
    · exact fun _ _ _ _ read => inner.members_succ read

theorem loads_dictionary {v : Json} (read : loads parseFloat ('\x7b' :: text) = some v) :
    ∃ white, Takes text ('\x7d' :: white) outside outside ∧ ∀ c ∈ white, isWhite c = true := by
  obtain ⟨⟨found,white⟩,valued,ended⟩ := Option.bind_eq_some_iff.mp read
  have other : literal parseFloat ('\x7b' :: text) = none := rfl
  rw [skip_black (by decide),value,other] at valued
  dsimp only at valued
  have blank : ∀ c ∈ white, isWhite c = true := by
    rw [← List.dropWhile_eq_nil_iff]
    by_contra more
    rw [skip,if_neg (by simpa using more)] at ended
    cases ended
  refine ⟨white,?_,blank⟩
  split at valued
  next closed =>
    cases valued
    exact closed ▸ takes_skip text
  next =>
    obtain ⟨fields,list,same⟩ := Option.map_eq_some_iff.mp valued
    cases same
    exact (readsBalanced parseFloat _).dictionary list

end Reading

section Cutting
variable {first second : List Char}

theorem Balanced.not_closed (balanced : Balanced first) {c : Char} (closes : isClosing c = true) (more : List Char) :
    ¬ Balanced (first ++ c :: more) := by
  intro further
  have whole := further 0
  have stops : move outside c = none := by
    rcases closing_cases closes with rfl | rfl <;> rfl
  rw [scan_append,balanced 0] at whole
  change (move outside c).bind _ = _ at whole
  rw [stops] at whole
  cases whole

theorem closing_unique {c : Char} {rest rest' : List Char} (closes : isClosing c = true) (left : Balanced first)
    (right : Balanced second) (same : first ++ c :: rest = second ++ c :: rest') : rest = rest' := by
  rcases List.append_eq_append_iff.mp same with ⟨between,further,same⟩ | ⟨between,further,same⟩
  · cases between with
    | nil => exact (List.cons.inj same).2
    | cons d between =>
      obtain ⟨rfl,_⟩ := List.cons.inj same
      exact absurd (further ▸ right) (left.not_closed closes between)
  · cases between with
    | nil => exact ((List.cons.inj same).2).symm
    | cons d between =>
      obtain ⟨rfl,_⟩ := List.cons.inj same
      exact absurd (further ▸ left) (right.not_closed closes between)

variable {parseFloat : List Char → ℚ} {body cut more : List Char} {v : Json}

theorem loads_cut (read : loads parseFloat ('\x7b' :: (body ++ ['\x7d'])) = some v)
    (split : cut ++ more = '\x7b' :: (body ++ ['\x7d'])) (started : cut ≠ []) (short : more ≠ []) :
    loads parseFloat cut = none := by
  obtain ⟨c,cut,rfl⟩ := List.exists_cons_of_ne_nil started
  rw [List.cons_append] at split
  obtain ⟨rfl,tail⟩ := List.cons.inj split
  by_contra readable
  obtain ⟨w,early⟩ := Option.ne_none_iff_exists'.mp readable
  obtain ⟨white,⟨inner,whole,balanced⟩,blank⟩ := loads_dictionary read
  obtain ⟨white',⟨inner',part,balanced'⟩,_⟩ := loads_dictionary early
  have same : white = white' ++ more := by
    refine closing_unique (c := '\x7d') rfl balanced balanced' ?_
    rw [← whole,← tail,part,List.append_assoc,List.cons_append]
  have last : '\x7d' ∈ more := by
    apply List.mem_of_getLast?
    rw [← List.getLast?_append_of_ne_nil cut short,tail]
    simp
  have space := blank '\x7d' (same ▸ List.mem_append_right white' last)
  cases space

end Cutting

end Orrery.Foundation.Json
