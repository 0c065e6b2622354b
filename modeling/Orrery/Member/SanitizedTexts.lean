import Orrery.Member.Sanitize

/-! `sanitize_text` (agent/community_member/sanitize.py): the patterns it strips, one pass for
each, and which texts come out without a match and stay as they are. -/
namespace Orrery.Member
open Foundation Patterns
open Chapter (WordTable isSpace strip sliceTo)

/-- What `re.IGNORECASE` takes for a letter: its capital, and the four characters outside of
ASCII whose case is that of one. -/
def folds (letter c : Char) : Bool :=
  c.toLower == letter || (letter == 'i' && (c == '\u0130' || c == '\u0131')) || (letter == 's' && c == '\u017f') ||
    (letter == 'k' && c == '\u212a')

def literal (text : String) : List (Atom Char) := text.toList.map fun letter => .one (folds letter)

def isHexDigit (c : Char) : Bool := ('0' ≤ c && c ≤ '9') || ('a' ≤ c.toLower && c.toLower ≤ 'f')

def scriptElement : List (Atom Char) :=
  literal "<script" ++ [.many (· != '>'),.one (· == '>'),.few fun _ => true] ++ literal "</script>"

def htmlTag : List (Atom Char) := [.one (· == '<'),.one (· != '>'),.many (· != '>'),.one (· == '>')]

def javascriptUrl : List (Atom Char) := literal "javascript:"

section Functions
variable (u : UnicodeData)

def isDecimal (c : Char) : Bool := (u.casing.digit c).isSome

def eventHandler : List (Atom Char) := literal "on" ++ [.one u.words.isWord,.many u.words.isWord,.many isSpace,.one (· == '=')]

def decimalEntity : List (Atom Char) :=
  [.one (· == '&'),.one (· == '#'),.one (isDecimal u),.many (isDecimal u),.one (· == ';')]

def hexEntity : List (Atom Char) := literal "&#x" ++ [.one isHexDigit,.many isHexDigit,.one (· == ';')]

def stripPatterns : List (List (Atom Char)) :=
  [scriptElement,htmlTag,javascriptUrl,eventHandler u,decimalEntity u,hexEntity]

def printedText (text : String) : List Char :=
  (u.nfkc text.toList).filter fun c => c == '\n' || c == '\t' || (u.isPrintable c && 32 ≤ c.toNat)

def stripped (patterns : List (List (Atom Char))) (text : List Char) : List Char :=
  patterns.foldl (fun text pattern => (matcher pattern).sub [] text) text

def sanitizeText (text : String) (maxLength : Int) : String :=
  if text = "" then "" else String.ofList (strip (sliceTo maxLength (stripped (stripPatterns u) (printedText u text))))

structure TextSettled (text : String) (maxLength : Int) : Prop where
  clean : ∀ pattern ∈ stripPatterns u, (matcher pattern).occurs none (sanitizeText u text maxLength).toList = false
  stable : sanitizeText u (sanitizeText u text maxLength) maxLength = sanitizeText u text maxLength

end Functions

def fragmentEnds (c : Char) : Bool := c == ':' || c == '=' || c == ';'

section Fragments
variable {u : UnicodeData} {text piece : List Char} {c : Char}

theorem isWord_ends (u : UnicodeData) : fragmentEnds c = true → u.words.isWord c = false := by
  intro ending
  simp only [fragmentEnds,Bool.or_eq_true,beq_iff_eq] at ending
  obtain (rfl | rfl) | rfl := ending
  all_goals
    rw [u.words.ascii _ (by decide)]
    decide

theorem isDecimal_ascii (u : UnicodeData) (small : c.toNat < 128) : isDecimal u c = c.isDigit := by
  rw [isDecimal,u.lawful.numerals c small]
  split
  next digit => exact digit.symm
  next other => exact (Bool.not_eq_true _ ▸ other).symm

theorem isDecimal_ends (u : UnicodeData) : fragmentEnds c = true → isDecimal u c = false := by
  intro ending
  simp only [fragmentEnds,Bool.or_eq_true,beq_iff_eq] at ending
  obtain (rfl | rfl) | rfl := ending
  all_goals
    rw [isDecimal_ascii u (by decide)]
    decide

theorem allows_ends {p : Char → Bool} (none_ : p ':' = false ∧ p '=' = false ∧ p ';' = false) :
    fragmentEnds c = true → p c = false := by
  intro ending
  simp only [fragmentEnds,Bool.or_eq_true,beq_iff_eq] at ending
  obtain (rfl | rfl) | rfl := ending
  · exact none_.1
  · exact none_.2.1
  · exact none_.2.2

theorem folds_sign {sign : Char} (still : Casing.Unicode.ascii.inert sign = true) (found : folds sign c = true) : c = sign := by
  simp only [folds,Bool.or_eq_true,Bool.and_eq_true,beq_iff_eq] at found
  obtain ((lower | ⟨rfl,-⟩) | ⟨rfl,-⟩) | ⟨rfl,-⟩ := found
  · obtain same | ⟨-,-,-,letter⟩ := Casing.Unicode.toLower_cases c
    · exact same.symm.trans lower
    · rw [lower,still] at letter
      cases letter
  all_goals cases still

def Within (atoms : List (Atom Char)) : Prop := ∀ atom ∈ atoms, ∀ c, fragmentEnds c = true → atom.allows c = false

theorem Within.nil : Within [] := by simp [Within]

theorem Within.cons {atom : Atom Char} {atoms : List (Atom Char)} (first : ∀ c, fragmentEnds c = true → atom.allows c = false)
    (rest : Within atoms) : Within (atom :: atoms) := List.forall_mem_cons.mpr ⟨first,rest⟩

theorem Within.append {one two : List (Atom Char)} (first : Within one) (second : Within two) : Within (one ++ two) :=
  fun atom known => (List.mem_append.mp known).elim (first atom) (second atom)

theorem within_literal {text : String}
    (plain : (text.toList.all fun letter => !folds letter ':' && !folds letter '=' && !folds letter ';') = true) :
    Within (literal text) := by
  intro atom known c ending
  obtain ⟨letter,inside,rfl⟩ := List.mem_map.mp known
  have here := List.all_eq_true.mp plain letter inside
  simp only [Bool.and_eq_true,Bool.not_eq_true'] at here
  exact allows_ends ⟨here.1.1,here.1.2,here.2⟩ ending

theorem javascriptFragment_within : Within (literal "javascript") := within_literal (by decide +kernel)

theorem eventFragment_within (u : UnicodeData) :
    Within (literal "on" ++ [.one u.words.isWord,.many u.words.isWord,.many isSpace]) :=
  .append (within_literal (by decide +kernel)) <| .cons (fun _ => isWord_ends u) <| .cons (fun _ => isWord_ends u) <|
    .cons (fun _ => @allows_ends _ isSpace (by decide)) .nil

theorem decimalFragment_within (u : UnicodeData) :
    Within [.one (· == '&'),.one (· == '#'),.one (isDecimal u),.many (isDecimal u)] :=
  .cons (fun _ => @allows_ends _ (· == '&') (by decide)) <| .cons (fun _ => @allows_ends _ (· == '#') (by decide)) <|
    .cons (fun _ => isDecimal_ends u) <| .cons (fun _ => isDecimal_ends u) .nil

theorem hexFragment_within : Within (literal "&#x" ++ [.one isHexDigit,.many isHexDigit]) :=
  .append (within_literal (by decide +kernel)) <| .cons (fun _ => @allows_ends _ isHexDigit (by decide)) <|
    .cons (fun _ => @allows_ends _ isHexDigit (by decide)) .nil

theorem ends_sign {sign : Char} (ending : fragmentEnds sign = true) : ∀ c, (c == sign) = true → fragmentEnds c = true := by
  intro c same
  rwa [beq_iff_eq.mp same]

theorem ends_colon : ∀ c, folds ':' c = true → fragmentEnds c = true := by
  intro c found
  rw [folds_sign (by decide) found]
  rfl

def javascriptFragment : Fragment fragmentEnds :=
  terminated _ (folds ':') javascriptFragment_within ends_colon

def eventFragment (u : UnicodeData) : Fragment fragmentEnds :=
  terminated _ (· == '=') (eventFragment_within u) (ends_sign rfl)

def decimalFragment (u : UnicodeData) : Fragment fragmentEnds :=
  terminated _ (· == ';') (decimalFragment_within u) (ends_sign rfl)

def hexFragment : Fragment fragmentEnds :=
  terminated _ (· == ';') hexFragment_within (ends_sign rfl)

def fragments (u : UnicodeData) : List (Fragment fragmentEnds) := [javascriptFragment,eventFragment u,decimalFragment u,hexFragment]

theorem stripped_fragments (u : UnicodeData) (text : List Char) :
    stripped (stripPatterns u) text = passes (fragments u) (stripped [scriptElement,htmlTag] text) := rfl

theorem not_suffix {p q : Char → Bool} {x y : List Char} {atoms atoms' : List (Atom Char)}
    (apart : ∀ c, p c = true → q c = false) (first : Matches (atoms ++ [.one p]) x) (second : Matches (atoms' ++ [.one q]) y) :
    ¬x <:+ y ∧ ¬y <:+ x := by
  obtain ⟨body,c,rfl,here,-⟩ := matches_one atoms first
  obtain ⟨body',d,rfl,there,-⟩ := matches_one atoms' second
  have other : c ≠ d := by
    rintro rfl
    cases (apart c here).symm.trans there
  constructor
  · rintro ⟨front,same⟩
    rw [← List.append_assoc] at same
    exact other (List.singleton_inj.mp (List.append_inj' same rfl).2)
  · rintro ⟨front,same⟩
    rw [← List.append_assoc] at same
    exact other (List.singleton_inj.mp (List.append_inj' same rfl).2).symm

theorem not_decimal_of_folds (mark : folds 'x' c = true) : isDecimal u c = false := by
  simp only [folds,Bool.or_eq_true,Bool.and_eq_true,beq_iff_eq] at mark
  obtain ((lower | ⟨same,-⟩) | ⟨same,-⟩) | ⟨same,-⟩ := mark
  · obtain same | ⟨letter,-⟩ := Casing.Unicode.toLower_cases c
    · obtain rfl : c = 'x' := same.symm.trans lower
      rw [isDecimal_ascii u (by decide)]
      decide
    · have bounds : ¬(c.toNat < 65 ∨ 122 < c.toNat) := fun outside => by
        rw [Casing.Unicode.isAlpha_outside outside] at letter
        cases letter
      rw [isDecimal_ascii u (by omega),← Bool.not_eq_true]
      intro digit
      have small := (Bool.and_eq_true_iff.mp digit).2
      rw [decide_eq_true_eq,UInt32.le_iff_toNat_le] at small
      change c.toNat ≤ 57 at small
      omega
  all_goals exact absurd same (by decide)

theorem decimal_shape {x : List Char} (decimal : (decimalFragment u).Is x) :
    ∃ c rest, x = '&' :: '#' :: c :: rest ∧ isDecimal u c = true ∧ '&' ∉ rest := by
  obtain ⟨a,_,rfl,first,b,_,rfl,second,c,_,rfl,digit,run,_,rfl,all,d,_,rfl,last,rfl⟩ := decimal
  refine ⟨c,run ++ [d],by rw [beq_iff_eq.mp first,beq_iff_eq.mp second],digit,fun inside => ?_⟩
  obtain inside | same := List.mem_append.mp inside
  · have number := all '&' inside
    rw [isDecimal_ascii u (by decide)] at number
    cases number
  · obtain rfl := List.mem_singleton.mp same
    cases last

theorem literal_hex : literal "&#x" = [.one (folds '&'),.one (folds '#'),.one (folds 'x')] := by
  rw [literal,show "&#x" = String.ofList ['&','#','x'] from rfl,String.toList_ofList]
  rfl

theorem hex_shape {x : List Char} (hex : hexFragment.Is x) :
    ∃ c rest, x = '&' :: '#' :: c :: rest ∧ folds 'x' c = true ∧ '&' ∉ rest := by
  have hex : Matches ((literal "&#x" ++ [.one isHexDigit,.many isHexDigit]) ++ [.one (· == ';')]) x := hex
  rw [literal_hex] at hex
  obtain ⟨a,_,rfl,first,b,_,rfl,second,c,_,rfl,mark,e,_,rfl,digit,run,_,rfl,all,d,_,rfl,last,rfl⟩ := hex
  refine ⟨c,e :: (run ++ [d]),by rw [folds_sign (by decide) first,folds_sign (by decide) second],mark,fun inside => ?_⟩
  obtain rfl | inside := List.mem_cons.mp inside
  · cases digit
  obtain inside | same := List.mem_append.mp inside
  · cases all '&' inside
  · obtain rfl := List.mem_singleton.mp same
    cases last

theorem eq_of_suffix {x y : List Char} (ends_ : '&' :: x <:+ '&' :: y) (once : '&' ∉ y) : x = y := by
  obtain same | inside := List.suffix_cons_iff.mp ends_
  · exact (List.cons.inj same).2
  · exact absurd (inside.subset (.head _)) once

theorem fragments_unalike (u : UnicodeData) : (fragments u).Pairwise Unalike := by
  have colon {q : Char → Bool} (other : q ':' = false) (c : Char) (found : folds ':' c = true) : q c = false := by
    rwa [folds_sign (by decide) found]
  have equals {q : Char → Bool} (other : q '=' = false) (c : Char) (found : (c == '=') = true) : q c = false := by
    rwa [beq_iff_eq.mp found]
  have entities : Unalike (decimalFragment u) hexFragment := by
    intro x y decimal hex
    obtain ⟨c,rest,rfl,digit,free⟩ := decimal_shape decimal
    obtain ⟨e,rest',rfl,mark,free'⟩ := hex_shape hex
    have other : c ≠ e := by
      rintro rfl
      cases digit.symm.trans (not_decimal_of_folds mark)
    have amp : '&' ≠ c := by
      rintro rfl
      rw [isDecimal_ascii u (by decide)] at digit
      cases digit
    have amp' : '&' ≠ e := by
      rintro rfl
      exact absurd mark (by decide)
    constructor
    · intro ends_
      exact other (List.cons.inj (List.cons.inj (eq_of_suffix ends_ (by simp [amp',free']))).2).1
    · intro ends_
      exact other (List.cons.inj (List.cons.inj (eq_of_suffix ends_ (by simp [amp,free]))).2).1.symm
  simp only [fragments,List.pairwise_cons,List.mem_cons,List.not_mem_nil,or_false,forall_eq_or_imp,forall_eq,
    List.Pairwise.nil,and_true]
  exact ⟨⟨fun _ _ => not_suffix (colon rfl),fun _ _ => not_suffix (colon rfl),fun _ _ => not_suffix (colon rfl)⟩,
    ⟨fun _ _ => not_suffix (equals rfl),fun _ _ => not_suffix (equals rfl)⟩,entities,fun _ => False.elim⟩

theorem isSpace_of_folds {letter : Char} (solid : isSpace letter = false) (found : folds letter c = true) : isSpace c = false := by
  simp only [folds,Bool.or_eq_true,Bool.and_eq_true,beq_iff_eq] at found
  obtain ((lower | ⟨-,rfl | rfl⟩) | ⟨-,rfl⟩) | ⟨-,rfl⟩ := found
  · obtain same | ⟨letter,-⟩ := Casing.Unicode.toLower_cases c
    · rwa [← same,lower]
    · rw [← Bool.not_eq_true]
      intro space
      rw [Casing.Unicode.isAlpha_outside] at letter
      · cases letter
      · simp only [isSpace,Bool.or_eq_true,Bool.and_eq_true,decide_eq_true_eq,beq_iff_eq] at space
        omega
  all_goals decide

theorem fragment_solid {m : Fragment fragmentEnds} (known : m ∈ fragments u) {x : List Char} (is_ : m.Is x) :
    (∀ c ∈ x.head?, isSpace c = false) ∧ ∀ c ∈ x.getLast?, isSpace c = false := by
  have first {letter : Char} {atoms : List (Atom Char)} (solid : isSpace letter = false) (whole : Matches (.one (folds letter) :: atoms) x) :
      ∀ c ∈ x.head?, isSpace c = false := by
    obtain ⟨d,rest,rfl,found,-⟩ := whole
    rintro c ⟨⟩
    exact isSpace_of_folds solid found
  refine ⟨?_,?_⟩
  · simp only [fragments,List.mem_cons,List.not_mem_nil,or_false] at known
    obtain rfl | rfl | rfl | rfl := known
    · have whole : Matches (literal "javascript" ++ [.one (folds ':')]) x := is_
      rw [literal,show "javascript" = String.ofList ['j','a','v','a','s','c','r','i','p','t'] from rfl,String.toList_ofList] at whole
      exact first (by decide) whole
    · have whole : Matches ((literal "on" ++ [.one u.words.isWord,.many u.words.isWord,.many isSpace]) ++ [.one (· == '=')]) x := is_
      rw [literal,show "on" = String.ofList ['o','n'] from rfl,String.toList_ofList] at whole
      exact first (by decide) whole
    · obtain ⟨c,rest,rfl,-⟩ := decimal_shape is_
      rintro c ⟨⟩
      decide
    · obtain ⟨c,rest,rfl,-⟩ := hex_shape is_
      rintro c ⟨⟩
      decide
  · obtain ⟨body,d,rfl,ending,-⟩ := m.shut is_
    rw [List.getLast?_concat]
    rintro c ⟨⟩
    exact allows_ends (by decide) ending

end Fragments

section Tags
variable {u : UnicodeData} {text piece : List Char}

def Untagged (text : List Char) : Prop := ∀ front rest, text = front ++ '<' :: rest → rest.head? = some '>' ∨ '>' ∉ rest

theorem untagged_sub {m : Matcher Char} (closed : ∀ prev text, m.taken prev ('>' :: text) = none) (prev : Option Char) (text : List Char) :
    (∀ front rest, text = front ++ '<' :: rest →
      (∀ prev, (m.taken prev ('<' :: rest)).isSome = true) ∨ rest.head? = some '>' ∨ '>' ∉ rest) →
    Untagged (m.subFrom [] 0 prev text) := by
  induction prev, text using m.scan_induction with
  | nil prev =>
    intro _ front rest same
    rw [Matcher.subFrom_nil] at same
    cases front <;> cases same
  | keep prev c text free ih =>
    intro tags front rest same
    rw [Matcher.subFrom_keep free] at same
    cases front with
    | nil =>
      obtain ⟨rfl,rfl⟩ := List.cons.inj same
      obtain taken | next | none_ := tags [] text rfl
      · have here := taken prev
        rw [free] at here
        cases here
      · obtain ⟨text,rfl⟩ : ∃ rest, text = '>' :: rest := ⟨text.tail,List.eq_cons_of_mem_head? next⟩
        rw [Matcher.subFrom_keep (closed _ _)]
        exact .inl rfl
      · exact .inr fun inside => none_ ((Matcher.subFrom_sublist _ _).subset inside)
    | cons d front =>
      obtain ⟨rfl,later⟩ := List.cons.inj same
      exact ih (fun front rest whole => tags (c :: front) rest (by rw [whole]; rfl)) front rest later
  | matched prev piece text taken ih =>
    intro tags
    rw [Matcher.subFrom_match taken]
    exact ih fun front rest whole => tags (piece ++ front) rest (by rw [whole,List.append_assoc])

theorem htmlTag_taken {rest : List Char} (inside : '>' ∈ rest) (next : rest.head? ≠ some '>') (prev : Option Char) :
    ((matcher htmlTag).taken prev ('<' :: rest)).isSome = true := by
  obtain ⟨body,more,rfl,free⟩ := List.eq_append_cons_of_mem inside
  obtain ⟨c,body,rfl⟩ := List.exists_cons_of_ne_nil (l := body) (by rintro rfl; exact next rfl)
  have other : ∀ d ∈ c :: body, (d != '>') = true := fun d known => by
    rw [bne_iff_ne]
    rintro rfl
    exact free known
  rw [taken_isSome]
  · refine ⟨'<' :: c :: (body ++ ['>']),⟨'<',_,rfl,rfl,c,_,rfl,other c (.head _),body,['>'],rfl,fun d known => other d (.tail _ known),
      '>',[],rfl,rfl,rfl⟩,more,by simp⟩
  · rintro _ ⟨c,rest,rfl,-⟩
    exact List.cons_ne_nil c rest

theorem untagged_htmlTag (text : List Char) : Untagged ((matcher htmlTag).sub [] text) := by
  refine untagged_sub (fun _ _ => rfl) none text fun front rest _ => ?_
  by_cases inside : '>' ∈ rest
  · by_cases next : rest.head? = some '>'
    · exact .inr (.inl next)
    · exact .inl (htmlTag_taken inside next)
  · exact .inr (.inr inside)

theorem Untagged.stripped {patterns : List (List (Atom Char))}
    (closed : ∀ pattern ∈ patterns, ∀ prev text, (matcher pattern).taken prev ('>' :: text) = none) (untagged : Untagged text) :
    Untagged (stripped patterns text) := by
  induction patterns generalizing text with
  | nil => exact untagged
  | cons pattern patterns ih =>
    exact ih (fun other known => closed other (.tail _ known))
      (untagged_sub (closed pattern (.head _)) none text fun front rest whole => .inr (untagged front rest whole))

theorem Untagged.free (untagged : Untagged text) (tag : Matches htmlTag piece) : ¬piece <:+: text := by
  rintro ⟨front,back,rfl⟩
  obtain ⟨a,_,rfl,first,c,_,rfl,other,run,_,rfl,-,d,_,rfl,last,rfl⟩ := tag
  obtain rfl := beq_iff_eq.mp first
  obtain rfl := beq_iff_eq.mp last
  obtain next | none_ := untagged front (c :: (run ++ '>' :: back)) (by simp)
  · obtain rfl : c = '>' := by simpa using next
    cases other
  · exact none_ (by simp)

theorem literal_script : literal "<script" = [.one (folds '<'),.one (folds 's'),.one (folds 'c'),.one (folds 'r'),.one (folds 'i'),
    .one (folds 'p'),.one (folds 't')] := by
  rw [literal,show "<script" = String.ofList ['<','s','c','r','i','p','t'] from rfl,String.toList_ofList]
  rfl

theorem scriptElement_tag (script : Matches scriptElement piece) : ∃ tag, Matches htmlTag tag ∧ tag <+: piece := by
  have script : Matches (literal "<script" ++ [.many (· != '>'),.one (· == '>')] ++ (.few (fun _ => true) :: literal "</script>")) piece := by
    rw [List.append_assoc]
    exact script
  obtain ⟨tag,back,rfl,front,-⟩ := matches_append.mp script
  refine ⟨tag,?_,List.prefix_append tag back⟩
  have other {letter c : Char} (apart : folds letter '>' = false) (found : folds letter c = true) : (c != '>') = true := by
    rw [bne_iff_ne]
    rintro rfl
    cases apart.symm.trans found
  rw [literal_script] at front
  obtain ⟨a,_,rfl,first,b,_,rfl,two,c,_,rfl,three,d,_,rfl,four,e,_,rfl,five,f,_,rfl,six,g,_,rfl,seven,run,_,rfl,all,h,_,rfl,last,rfl⟩ := front
  refine ⟨a,_,rfl,by rw [folds_sign (by decide) first]; rfl,b,_,rfl,other (by decide) two,[c,d,e,f,g] ++ run,[h],rfl,?_,h,[],rfl,last,rfl⟩
  intro x inside
  obtain known | known := List.mem_append.mp inside
  · simp only [List.mem_cons,List.not_mem_nil,or_false] at known
    obtain rfl | rfl | rfl | rfl | rfl := known
    · exact other (by decide) three
    · exact other (by decide) four
    · exact other (by decide) five
    · exact other (by decide) six
    · exact other (by decide) seven
  · exact all x known

theorem stripPatterns_first (u : UnicodeData) : ∀ pattern ∈ stripPatterns u, ∃ p atoms, pattern = .one p :: atoms ∧ p '>' = false := by
  intro pattern known
  have begins {letter : Char} (rest : List Char) {atoms : List (Atom Char)} {text : String} (same : text = String.ofList (letter :: rest))
      (other : folds letter '>' = false) (whole : pattern = literal text ++ atoms) : ∃ p atoms, pattern = .one p :: atoms ∧ p '>' = false := by
    rw [literal,same,String.toList_ofList] at whole
    exact ⟨_,_,whole,other⟩
  simp only [stripPatterns,List.mem_cons,List.not_mem_nil,or_false] at known
  obtain rfl | rfl | rfl | rfl | rfl | rfl := known
  · exact begins ['s','c','r','i','p','t'] rfl (by decide) (List.append_assoc ..)
  · exact ⟨_,_,rfl,rfl⟩
  · exact begins ['a','v','a','s','c','r','i','p','t',':'] rfl (by decide) (List.append_nil _).symm
  · exact begins ['n'] rfl (by decide) rfl
  · exact ⟨_,_,rfl,rfl⟩
  · exact begins ['#','x'] rfl (by decide) rfl

theorem stripPatterns_closed (u : UnicodeData) : ∀ pattern ∈ stripPatterns u, ∀ prev text, (matcher pattern).taken prev ('>' :: text) = none := by
  intro pattern known prev text
  obtain ⟨p,atoms,rfl,other⟩ := stripPatterns_first u pattern known
  change Option.filter _ (Option.map _ (if p '>' then rests atoms text else []).head?) = none
  rw [other]
  rfl

theorem stripPatterns_solid (u : UnicodeData) : ∀ pattern ∈ stripPatterns u, ∀ piece, Matches pattern piece → piece ≠ [] := by
  intro pattern known piece whole
  obtain ⟨p,atoms,rfl,-⟩ := stripPatterns_first u pattern known
  obtain ⟨c,rest,rfl,-⟩ := whole
  exact List.cons_ne_nil c rest

end Tags

def tagsRemoved (u : UnicodeData) (text : String) : List Char := stripped [scriptElement,htmlTag] (printedText u text)

section Texts
variable {u : UnicodeData} {text : String} {maxLength : Int} {t : List Char}

theorem untagged_stripPatterns (u : UnicodeData) (t : List Char) : Untagged (stripped (stripPatterns u) t) := by
  change Untagged (stripped [javascriptUrl,eventHandler u,decimalEntity u,hexEntity] ((matcher htmlTag).sub [] ((matcher scriptElement).sub [] t)))
  exact (untagged_htmlTag _).stripped fun pattern known => stripPatterns_closed u pattern (.tail _ (.tail _ known))

theorem clean_iff (u : UnicodeData) (free : ∀ piece, Matches htmlTag piece → ¬piece <:+: t) :
    (∀ pattern ∈ stripPatterns u, (matcher pattern).occurs none t = false) ↔ Clean (fragments u) t := by
  have found {pattern : List (Atom Char)} (known : pattern ∈ stripPatterns u) :
      (matcher pattern).occurs none t = false ↔ ∀ x, Matches pattern x → ¬x <:+: t := by
    rw [← Bool.not_eq_true,occurs_iff (stripPatterns_solid u pattern known)]
    push Not
    rfl
  constructor
  · intro clean m known
    have here (pattern : List (Atom Char)) (known : pattern ∈ stripPatterns u) : ∀ x, Matches pattern x → ¬x <:+: t :=
      (found known).mp (clean pattern known)
    simp only [fragments,List.mem_cons,List.not_mem_nil,or_false] at known
    obtain rfl | rfl | rfl | rfl := known
    · exact here javascriptUrl (by simp [stripPatterns])
    · exact here (eventHandler u) (by simp [stripPatterns])
    · exact here (decimalEntity u) (by simp [stripPatterns])
    · exact here hexEntity (by simp [stripPatterns])
  · intro clean pattern known
    rw [found known]
    simp only [stripPatterns,List.mem_cons,List.not_mem_nil,or_false] at known
    obtain rfl | rfl | rfl | rfl | rfl | rfl := known
    · intro x script inside
      obtain ⟨tag,whole,begins⟩ := scriptElement_tag script
      exact free tag whole (begins.isInfix.trans inside)
    · exact free
    · exact clean javascriptFragment (by simp [fragments])
    · exact clean (eventFragment u) (by simp [fragments])
    · exact clean (decimalFragment u) (by simp [fragments])
    · exact clean hexFragment (by simp [fragments])

theorem infix_dropWhile {x : List Char} (solid : ∀ c ∈ x.head?, isSpace c = false) (inside : x <:+: t) : x <:+: t.dropWhile isSpace := by
  induction t with
  | nil => exact inside
  | cons c t ih =>
    by_cases space : isSpace c = true
    · rw [List.dropWhile_cons_of_pos space]
      obtain begins | inside := List.infix_cons_iff.mp inside
      · cases x with
        | nil => exact List.nil_infix
        | cons d x =>
          obtain ⟨rfl,_⟩ := List.cons_prefix_cons.mp begins
          exact absurd space (by simp [solid d rfl])
      · exact ih inside
    · rwa [List.dropWhile_cons_of_neg space]

theorem clean_strip : Clean (fragments u) (strip t) ↔ Clean (fragments u) t := by
  constructor
  · intro clean m known x is_ inside
    obtain ⟨first,last⟩ := fragment_solid known is_
    refine clean m known x is_ ?_
    rw [strip,← List.reverse_infix,List.reverse_reverse]
    refine infix_dropWhile (by rwa [List.head?_reverse]) ?_
    rw [List.reverse_infix]
    exact infix_dropWhile first inside
  · exact fun clean => clean.mono (Chapter.strip_isInfix t)

theorem stripped_sublist (patterns : List (List (Atom Char))) (t : List Char) : (stripped patterns t).Sublist t := by
  induction patterns generalizing t with
  | nil => exact List.Sublist.refl t
  | cons pattern patterns ih => exact (ih _).trans (Matcher.subFrom_sublist none t)

theorem sliceTo_inside (maxLength : Int) (t : List Char) : sliceTo maxLength t <:+: t := by
  rw [sliceTo]
  split <;> exact (List.take_prefix _ _).isInfix

theorem sanitizeText_toList (u : UnicodeData) (text : String) (maxLength : Int) : (sanitizeText u text maxLength).toList =
    strip (sliceTo maxLength (passes (fragments u) (tagsRemoved u text))) := by
  unfold sanitizeText
  split
  next empty =>
    have nothing : stripped (stripPatterns u) (printedText u text) = [] := by
      rw [empty,printedText,String.toList_empty,u.nfkc_ascii [] (by simp)]
      rfl
    rw [tagsRemoved,← stripped_fragments,nothing,sliceTo]
    simp [strip]
  next => exact String.toList_ofList

theorem result_sublist (u : UnicodeData) (text : String) (maxLength : Int) :
    (sanitizeText u text maxLength).toList.Sublist (stripped (stripPatterns u) (printedText u text)) := by
  rw [sanitizeText_toList,tagsRemoved,← stripped_fragments]
  exact ((Chapter.strip_isInfix _).trans (sliceTo_inside _ _)).sublist

theorem result_clean (u : UnicodeData) (text : String) (maxLength : Int) :
    (∀ pattern ∈ stripPatterns u, (matcher pattern).occurs none (sanitizeText u text maxLength).toList = false) ↔
      Clean (fragments u) (sliceTo maxLength (passes (fragments u) (tagsRemoved u text))) := by
  have inside : (sanitizeText u text maxLength).toList <:+: stripped (stripPatterns u) (printedText u text) := by
    rw [sanitizeText_toList,tagsRemoved,← stripped_fragments]
    exact (Chapter.strip_isInfix _).trans (sliceTo_inside _ _)
  rw [clean_iff u fun piece tag part => (untagged_stripPatterns u _).free tag (part.trans inside),sanitizeText_toList,clean_strip]

theorem normal_of_stable {result : String} (stable : sanitizeText u result maxLength = result) : u.nfkc result.toList = result.toList := by
  apply u.nfkc_sublist
  have part := (result_sublist u result maxLength).trans ((stripped_sublist _ _).trans List.filter_sublist)
  rwa [stable] at part

theorem printed_result (normal : u.nfkc (sanitizeText u text maxLength).toList = (sanitizeText u text maxLength).toList) :
    printedText u (sanitizeText u text maxLength) = (sanitizeText u text maxLength).toList := by
  rw [printedText,normal,List.filter_eq_self]
  intro c inside
  have printed := (stripped_sublist _ _).subset ((result_sublist u text maxLength).subset inside)
  exact (List.mem_filter.mp printed).2

theorem stripped_free {patterns : List (List (Atom Char))} (free : ∀ pattern ∈ patterns, (matcher pattern).occurs none t = false) :
    stripped patterns t = t := by
  induction patterns with
  | nil => rfl
  | cons pattern patterns ih =>
    rw [stripped,List.foldl_cons,Matcher.sub,Matcher.subFrom_free (free pattern (.head _))]
    exact ih fun other known => free other (.tail _ known)

theorem stable_of_clean (nonneg : 0 ≤ maxLength)
    (clean : ∀ pattern ∈ stripPatterns u, (matcher pattern).occurs none (sanitizeText u text maxLength).toList = false)
    (normal : u.nfkc (sanitizeText u text maxLength).toList = (sanitizeText u text maxLength).toList) :
    sanitizeText u (sanitizeText u text maxLength) maxLength = sanitizeText u text maxLength := by
  have short : (sanitizeText u text maxLength).toList.length ≤ maxLength.toNat := by
    rw [sanitizeText_toList,sliceTo,if_pos nonneg]
    exact (Chapter.strip_isInfix _).length_le.trans (List.length_take_le _ _)
  apply String.toList_inj.mp
  rw [sanitizeText_toList,tagsRemoved,← stripped_fragments,printed_result normal,stripped_free clean,sliceTo,if_pos nonneg,
    List.take_of_length_le short,sanitizeText_toList,Chapter.strip_strip]

theorem empty_of_stable (negative : maxLength < 0)
    (stable : sanitizeText u (sanitizeText u text maxLength) maxLength = sanitizeText u text maxLength) : sanitizeText u text maxLength = "" := by
  have normal := normal_of_stable stable
  have le : (sanitizeText u text maxLength).toList.length ≤ ((sanitizeText u text maxLength).toList.length+maxLength).toNat := by
    have whole := congrArg String.toList stable
    rw [sanitizeText_toList] at whole
    have short := (Chapter.strip_isInfix (sliceTo maxLength (passes (fragments u) (tagsRemoved u (sanitizeText u text maxLength))))).length_le
    rw [whole,sliceTo,if_neg (not_le.mpr negative)] at short
    have part := (stripped_sublist (stripPatterns u) (printedText u (sanitizeText u text maxLength))).length_le
    rw [stripped_fragments,printed_result normal] at part
    have cut := short.trans (List.length_take_le _ _)
    rw [tagsRemoved,printed_result normal] at cut
    omega
  have none_ : (sanitizeText u text maxLength).toList.length = 0 := by omega
  exact String.toList_eq_nil_iff.mp (List.length_eq_zero_iff.mp none_)

theorem textSettled_nonneg (nonneg : 0 ≤ maxLength) : TextSettled u text maxLength ↔
    Clean (fragments u) ((passes (fragments u) (tagsRemoved u text)).take maxLength.toNat) ∧
      u.nfkc (sanitizeText u text maxLength).toList = (sanitizeText u text maxLength).toList := by
  have clean := result_clean u text maxLength
  rw [sliceTo,if_pos nonneg] at clean
  constructor
  · exact fun settled => ⟨clean.mp settled.clean,normal_of_stable settled.stable⟩
  · intro both
    exact ⟨clean.mpr both.1,stable_of_clean nonneg (clean.mpr both.1) both.2⟩

theorem textSettled_negative (negative : maxLength < 0) : TextSettled u text maxLength ↔
    ∀ c ∈ sliceTo maxLength (passes (fragments u) (tagsRemoved u text)), isSpace c = true := by
  rw [← Chapter.strip_nil_iff,← sanitizeText_toList,String.toList_eq_nil_iff]
  constructor
  · exact fun settled => empty_of_stable negative settled.stable
  · intro empty
    refine ⟨?_,by rw [empty]; rfl⟩
    rw [result_clean,← clean_strip,← sanitizeText_toList,empty]
    rintro m _ x is_ inside
    exact (m.shut is_).ne_nil (List.infix_nil.mp inside)

end Texts

/-- Fragments stand in the text only as they would be put in, pattern by pattern from the last
to the first, into a text without any, as far as the length goes; and what they were put into
is normal. If the length counts from the end, what is left is white space but for so much. -/
def FragmentsInOrder (u : UnicodeData) (text : String) (maxLength : Int) : Prop :=
  if 0 ≤ maxLength then
    ∃ bare, Untangled (fragments u) maxLength.toNat bare (tagsRemoved u text) ∧
      u.nfkc (strip (bare.take maxLength.toNat)) = strip (bare.take maxLength.toNat)
  else ∃ bare, Left (fragments u) bare (tagsRemoved u text) ∧ ∀ c ∈ sliceTo maxLength bare, isSpace c = true

theorem textSettled_iff (u : UnicodeData) (text : String) (maxLength : Int) :
    TextSettled u text maxLength ↔ FragmentsInOrder u text maxLength := by
  unfold FragmentsInOrder
  split
  next nonneg =>
    have result := sanitizeText_toList u text maxLength
    rw [sliceTo,if_pos nonneg] at result
    rw [textSettled_nonneg nonneg,result]
    constructor
    · rintro ⟨clean,normal⟩
      obtain ⟨bare,untangled⟩ := exists_untangled clean
      rw [untangled.take (fragments_unalike u)] at normal
      exact ⟨bare,untangled,normal⟩
    · rintro ⟨bare,untangled,normal⟩
      rw [untangled.take (fragments_unalike u)]
      exact ⟨untangled.clean.mono (List.take_prefix _ _).isInfix,normal⟩
  next negative =>
    rw [textSettled_negative (not_le.mp negative)]
    constructor
    · exact fun blank => ⟨_,left_passes (fragments_unalike u) _,blank⟩
    · rintro ⟨bare,left,blank⟩
      rwa [(left_iff (fragments_unalike u)).mp left]

/-- Both sanitizers reach what they are for exactly where an agent id is not cut behind a
hyphen, and the fragments of a text are nested in the order in which they are stripped. -/
theorem sanitizers_settle_iff (u : UnicodeData) : (∀ agentId, IdSettled u agentId ↔ ¬CutBehindHyphen (idWords u agentId)) ∧
    ∀ text maxLength, TextSettled u text maxLength ↔ FragmentsInOrder u text maxLength :=
  ⟨idSettled_iff u,textSettled_iff u⟩

def asciiData : UnicodeData where
  words := Chapter.asciiWords
  casing := Casing.Unicode.ascii
  lawful := Casing.Unicode.ascii_lawful
  nfkc text := text
  isPrintable c := decide (32 ≤ c.toNat) && c.toNat != 127
  nfkc_ascii _ _ := rfl
  nfkc_nfkc _ := rfl
  nfkc_sublist _ _ := rfl
  printable_ascii _ _ := rfl

/-- The fiftieth character is the hyphen, and a `javascript:` within another leaves one. -/
theorem hyphen_stays : sanitizeAgentId asciiData "aaaaaaaaaaaaaaaaaaaaaaaaaaaaaaaaaaaaaaaaaaaaaaaaa-b" =
      "aaaaaaaaaaaaaaaaaaaaaaaaaaaaaaaaaaaaaaaaaaaaaaaaa-" ∧
    ¬IdSettled asciiData "aaaaaaaaaaaaaaaaaaaaaaaaaaaaaaaaaaaaaaaaaaaaaaaaa-b" ∧
    sanitizeText asciiData "javajavascript:script:" 500 = "javascript:" ∧ ¬TextSettled asciiData "javajavascript:script:" 500 := by
  have cut : sanitizeAgentId asciiData "aaaaaaaaaaaaaaaaaaaaaaaaaaaaaaaaaaaaaaaaaaaaaaaaa-b" =
      "aaaaaaaaaaaaaaaaaaaaaaaaaaaaaaaaaaaaaaaaaaaaaaaaa-" := by decide +kernel
  have exposed : sanitizeText asciiData "javajavascript:script:" 500 = "javascript:" := by decide +kernel
  refine ⟨cut,fun settled => ?_,exposed,fun settled => ?_⟩
  · have again := settled.stable
    rw [cut] at again
    revert again
    decide +kernel
  · have again := settled.stable
    rw [exposed] at again
    revert again
    decide +kernel

end Orrery.Member
