import Orrery.Chapter.Redaction
import Orrery.Chapter.SanitizedText
import Orrery.Foundation.Casing
import Orrery.Foundation.Fragments

/-! What leaves the member's machine (agent/community_member/sanitize.py): `sanitize_agent_id`
and when its result is an agent id, which it then leaves as it is. -/
namespace Orrery.Member
open Foundation Patterns
open Chapter (WordTable isSpace strip sliceTo)

/-- The tables of Unicode. Normalising takes characters apart and puts them together; it does
not just add some. -/
structure UnicodeData where
  words : WordTable
  casing : Casing.Unicode
  lawful : casing.Lawful
  nfkc : List Char → List Char
  isPrintable : Char → Bool
  nfkc_ascii : ∀ text, (∀ c ∈ text, c.toNat < 128) → nfkc text = text
  nfkc_nfkc : ∀ text, nfkc (nfkc text) = nfkc text
  nfkc_sublist : ∀ text, text.Sublist (nfkc text) → nfkc text = text
  printable_ascii : ∀ c : Char, c.toNat < 128 → isPrintable c = (decide (32 ≤ c.toNat) && c.toNat != 127)

def maxAgentId : ℕ := 50

def isIdChar (c : Char) : Bool := ('a' ≤ c && c ≤ 'z') || ('0' ≤ c && c ≤ '9')

def inId (c : Char) : Bool := isIdChar c || c == '-'

def agentIdPattern : List (List (Atom Char)) := [[.one isIdChar,.many inId,.one isIdChar],[.one isIdChar]]

def isAgentId (text : List Char) : Bool := agentIdPattern.any fun atoms => (rests atoms text).any fun rest => rest == [] || rest == ['\n']

section Functions
variable (u : UnicodeData)

def foldedId (agentId : String) : List Char :=
  u.casing.lowercase ((u.nfkc agentId.toList).filter fun c => u.isPrintable c && 32 ≤ c.toNat)

def trimmedId (agentId : String) : List Char :=
  let text := strip (foldedId u agentId)
  let text := (matcher [.one fun c => !inId c]).sub ['-'] text
  let text := (matcher [.one (· == '-'),.many (· == '-')]).sub ['-'] text
  (text.dropWhile (· == '-')).rdropWhile (· == '-')

def sanitizeAgentId (agentId : String) : String :=
  if agentId = "" then "" else String.ofList ((trimmedId u agentId).take maxAgentId)

end Functions

def wordsFrom : List Char → List Char → List (List Char)
  | run, [] => if run = [] then [] else [run]
  | run, c :: text =>
    if isIdChar c then wordsFrom (run ++ [c]) text
    else (if run = [] then [] else [run]) ++ wordsFrom [] text

def idWords (u : UnicodeData) (agentId : String) : List (List Char) := wordsFrom [] (foldedId u agentId)

def hyphenated (words : List (List Char)) : List Char := ['-'].intercalate words

structure IdSettled (u : UnicodeData) (agentId : String) : Prop where
  shape : sanitizeAgentId u agentId = "" ∨ (sanitizeAgentId u agentId).toList.length ≤ maxAgentId ∧
    isAgentId (sanitizeAgentId u agentId).toList = true ∧ ¬['-','-'] <:+: (sanitizeAgentId u agentId).toList
  stable : sanitizeAgentId u (sanitizeAgentId u agentId) = sanitizeAgentId u agentId

/-- Some words and the hyphen behind them are as long as an agent id may be. -/
def CutBehindHyphen (words : List (List Char)) : Prop :=
  ∃ front back, words = front ++ back ∧ front ≠ [] ∧ back ≠ [] ∧ (hyphenated front).length+1 = maxAgentId

structure Neat (text : List Char) : Prop where
  inId : ∀ c ∈ text, inId c = true
  single : ¬['-','-'] <:+: text
  first : text.head? ≠ some '-'
  last : text.getLast? ≠ some '-'

section Words
variable {run text : List Char} {words front back : List (List Char)} {c : Char}

theorem isIdChar_hyphen : isIdChar '-' = false := by decide

theorem isIdChar_bounds (letter : isIdChar c = true) : (97 ≤ c.toNat ∧ c.toNat ≤ 122) ∨ (48 ≤ c.toNat ∧ c.toNat ≤ 57) := by
  simp only [isIdChar,Bool.or_eq_true,Bool.and_eq_true,decide_eq_true_eq,Char.le_def,UInt32.le_iff_toNat_le] at letter
  exact letter

theorem wordsFrom_separator (other : isIdChar c = false) (run text : List Char) :
    wordsFrom run (c :: text) = (if run = [] then [] else [run]) ++ wordsFrom [] text := by
  rw [wordsFrom,if_neg (by simp [other])]

theorem wordsFrom_map (text : List Char) : ∀ run, wordsFrom run (text.map fun c => if !inId c then '-' else c) = wordsFrom run text := by
  induction text with
  | nil => exact fun _ => rfl
  | cons c text ih =>
    intro run
    by_cases letter : isIdChar c = true
    · have kept : (if !inId c then '-' else c) = c := if_neg (by simp [inId,letter])
      rw [List.map_cons,kept,wordsFrom,wordsFrom,if_pos letter,if_pos letter,ih]
    · have other := Bool.not_eq_true _ ▸ letter
      have separator : isIdChar (if !inId c then '-' else c) = false := by split <;> simp [other,isIdChar_hyphen]
      rw [List.map_cons,wordsFrom_separator separator,wordsFrom_separator other,ih]

theorem wordsFrom_split (other : isIdChar c = false) (one two : List Char) : ∀ run,
    wordsFrom run (one ++ c :: two) = wordsFrom run one ++ wordsFrom [] two := by
  induction one with
  | nil => exact fun run => wordsFrom_separator other run two
  | cons d one ih =>
    intro run
    rw [List.cons_append,wordsFrom,wordsFrom,ih,ih]
    split
    · rfl
    · rw [List.append_assoc]

theorem wordsFrom_append {back : List Char} (separators : ∀ c ∈ back, isIdChar c = false) (text : List Char) :
    wordsFrom [] (back ++ text) = wordsFrom [] text ∧ ∀ run, wordsFrom run (text ++ back) = wordsFrom run text := by
  induction back generalizing text with
  | nil => simp
  | cons c back ih =>
    have other := separators c (.head _)
    have later := ih fun d inside => separators d (.tail _ inside)
    refine ⟨by rw [List.cons_append,wordsFrom_separator other,(later text).1]; rfl,fun run => ?_⟩
    have nothing := (later []).1
    rw [List.append_nil] at nothing
    rw [wordsFrom_split other,nothing]
    exact List.append_nil _

theorem wordsFrom_trim {p : Char → Bool} (separators : ∀ c, p c = true → isIdChar c = false) (text : List Char) :
    wordsFrom [] ((text.dropWhile p).rdropWhile p) = wordsFrom [] text := by
  have front : ∀ c ∈ text.takeWhile p, isIdChar c = false := fun c inside => separators c (List.mem_takeWhile_imp inside)
  have back : ∀ c ∈ (text.dropWhile p).rtakeWhile p, isIdChar c = false := fun c inside =>
    separators c (List.mem_rtakeWhile_imp inside)
  calc
    _ = wordsFrom [] ((text.dropWhile p).rdropWhile p ++ (text.dropWhile p).rtakeWhile p) := ((wordsFrom_append back _).2 []).symm
    _ = wordsFrom [] (text.dropWhile p) := by rw [List.rdropWhile_append_rtakeWhile]
    _ = wordsFrom [] (text.takeWhile p ++ text.dropWhile p) := ((wordsFrom_append front _).1).symm
    _ = wordsFrom [] text := by rw [List.takeWhile_append_dropWhile]

theorem hyphenated_cons (word : List Char) (more : words ≠ []) : hyphenated (word :: words) = word ++ '-' :: hyphenated words := by
  obtain ⟨next,words,rfl⟩ := List.exists_cons_of_ne_nil more
  rfl

theorem hyphenated_append (some_ : front ≠ []) (more : back ≠ []) :
    hyphenated (front ++ back) = hyphenated front ++ '-' :: hyphenated back := by
  induction front with
  | nil => exact absurd rfl some_
  | cons word front ih =>
    cases front with
    | nil =>
      rw [List.singleton_append,hyphenated_cons word more]
      simp [hyphenated]
    | cons next front =>
      rw [List.cons_append,hyphenated_cons word (by simp),ih (by simp),hyphenated_cons word (by simp),List.append_assoc]
      rfl

theorem wordsFrom_ne_nil (text : List Char) : ∀ run, run ≠ [] → wordsFrom run text ≠ [] := by
  induction text with
  | nil =>
    intro run some_
    simp [wordsFrom,some_]
  | cons c text ih =>
    intro run some_
    rw [wordsFrom]
    split
    · exact ih _ (by simp)
    · exact List.cons_ne_nil run _

theorem hyphenated_wordsFrom (text : List Char) : ∀ run, (∀ c ∈ text, inId c = true) → ¬['-','-'] <:+: text →
    text.getLast? ≠ some '-' → (run = [] → text.head? ≠ some '-') → hyphenated (wordsFrom run text) = run ++ text := by
  induction text with
  | nil =>
    intro run _ _ _ _
    by_cases empty : run = []
    · rw [empty]
      rfl
    · simp [wordsFrom,empty,hyphenated]
  | cons c text ih =>
    intro run kinds single last first
    have kinds' : ∀ d ∈ text, inId d = true := fun d inside => kinds d (.tail _ inside)
    have single' : ¬['-','-'] <:+: text := fun inside => single (inside.trans (List.suffix_cons c text).isInfix)
    have last' : text.getLast? ≠ some '-' := by
      intro ends
      refine last ?_
      rw [List.getLast?_cons,ends]
      rfl
    by_cases letter : isIdChar c = true
    · rw [wordsFrom,if_pos letter,ih _ kinds' single' last' (fun empty => by simp at empty),List.append_assoc]
      rfl
    · have other := Bool.not_eq_true _ ▸ letter
      obtain rfl : c = '-' := by simpa [inId,other] using kinds c (.head _)
      have some_ : run ≠ [] := fun empty => first empty rfl
      have more : text ≠ [] := by
        rintro rfl
        exact last rfl
      have begins : text.head? ≠ some '-' := by
        intro begins
        obtain ⟨rest,rfl⟩ : ∃ rest, text = '-' :: rest := ⟨text.tail,List.eq_cons_of_mem_head? begins⟩
        exact single (List.prefix_append ['-','-'] rest).isInfix
      obtain ⟨d,rest,rfl⟩ := List.exists_cons_of_ne_nil more
      have words : wordsFrom [] (d :: rest) ≠ [] := by
        have letter : isIdChar d = true := by
          have kind := kinds' d (.head _)
          rw [inId,Bool.or_eq_true,beq_iff_eq] at kind
          exact kind.resolve_right fun hyphen => begins (by rw [hyphen]; rfl)
        rw [wordsFrom,if_pos letter]
        exact wordsFrom_ne_nil _ _ (by simp)
      rw [wordsFrom_separator other,if_neg some_,List.singleton_append,hyphenated_cons run words,
        ih [] kinds' single' last' (fun _ => begins)]
      rfl

theorem Neat.hyphenated_words (neat : Neat text) : hyphenated (wordsFrom [] text) = text :=
  hyphenated_wordsFrom text [] neat.inId neat.single neat.last fun _ => neat.first

theorem squeezed (prev : Option Char) (text : List Char) :
    (∀ run, wordsFrom run ((matcher [.one (· == '-'),.many (· == '-')]).subFrom ['-'] 0 prev text) = wordsFrom run text) ∧
    ¬['-','-'] <:+: (matcher [.one (· == '-'),.many (· == '-')]).subFrom ['-'] 0 prev text ∧
    (((matcher [.one (· == '-'),.many (· == '-')]).subFrom ['-'] 0 prev text).head? = some '-' → text.head? = some '-') ∧
    ∀ c ∈ (matcher [.one (· == '-'),.many (· == '-')]).subFrom ['-'] 0 prev text, c ∈ text := by
  induction prev, text using (matcher [.one (· == '-'),.many (· == '-')]).scan_induction with
  | nil prev =>
    rw [Matcher.subFrom_nil]
    exact ⟨fun _ => rfl,by simp,id,fun _ => id⟩
  | keep prev c text free ih =>
    obtain ⟨words,single,begins,kinds⟩ := ih
    have other : c ≠ '-' := by
      rintro rfl
      rw [taken_run] at free
      cases free
    rw [Matcher.subFrom_keep free]
    refine ⟨fun run => ?_,?_,id,fun d inside => ?_⟩
    · rw [wordsFrom,wordsFrom,words,words]
    · intro inside
      obtain starts | inside := List.infix_cons_iff.mp inside
      · exact other (List.cons_prefix_cons.mp starts).1.symm
      · exact single inside
    · exact (List.mem_cons.mp inside).elim (fun same => same ▸ .head _) fun later => .tail _ (kinds d later)
  | matched prev piece rest taken ih =>
    obtain ⟨words,single,begins,kinds⟩ := ih
    obtain ⟨all,next⟩ := run_of_taken taken
    obtain ⟨c,piece,rfl⟩ := List.exists_cons_of_ne_nil (List.ne_nil_of_length_pos ((matcher _).inside taken).1)
    obtain rfl : c = '-' := by simpa using all c (.head _)
    have separators : ∀ d ∈ piece, isIdChar d = false := fun d inside => by
      obtain rfl : d = '-' := by simpa using all d (.tail _ inside)
      rfl
    rw [Matcher.subFrom_match taken,List.singleton_append]
    refine ⟨fun run => ?_,?_,fun _ => rfl,fun d inside => ?_⟩
    · rw [wordsFrom_separator rfl,words,List.cons_append,wordsFrom_separator rfl,(wordsFrom_append separators rest).1]
    · intro inside
      obtain starts | inside := List.infix_cons_iff.mp inside
      · obtain ⟨-,starts⟩ := List.cons_prefix_cons.mp starts
        obtain ⟨more,whole⟩ := starts
        have first := begins (by rw [← whole]; rfl)
        cases next '-' first
      · exact single inside
    · exact (List.mem_cons.mp inside).elim (fun same => same ▸ by simp) fun later => List.mem_append_right _ (kinds d later)

end Words

section Ids
variable {u : UnicodeData} {agentId : String} {text : List Char}

theorem trimmed_neat (u : UnicodeData) (agentId : String) : Neat (trimmedId u agentId) ∧ wordsFrom [] (trimmedId u agentId) = idWords u agentId := by
  unfold trimmedId
  dsimp only
  rw [Matcher.sub,Matcher.sub,sub_one]
  obtain ⟨words,single,-,kinds⟩ := squeezed none ((strip (foldedId u agentId)).map fun c => if !inId c then '-' else c)
  generalize (matcher [.one (· == '-'),.many (· == '-')]).subFrom ['-'] 0 none _ = out at words single kinds ⊢
  have part : (out.dropWhile (· == '-')).rdropWhile (· == '-') <:+: out :=
    (List.rdropWhile_prefix _ _).isInfix.trans (List.dropWhile_suffix _).isInfix
  refine ⟨⟨fun c inside => ?_,fun inside => single (inside.trans part),fun first => ?_,fun last => ?_⟩,?_⟩
  · obtain ⟨d,-,rfl⟩ := List.mem_map.mp (kinds c (part.subset inside))
    split
    · decide
    next kept => simpa using kept
  · obtain ⟨rest,whole⟩ := List.rdropWhile_prefix (· == '-') (out.dropWhile (· == '-'))
    have kept := List.head?_dropWhile_not (· == '-') out
    rw [← whole,List.head?_append,first] at kept
    simp at kept
  · obtain ⟨some_,ends⟩ := List.mem_getLast?_eq_getLast last
    have kept := List.rdropWhile_last_not (· == '-') _ some_
    rw [← ends] at kept
    exact kept (by simp)
  · have hyphens : ∀ c : Char, (c == '-') = true → isIdChar c = false := fun c same => by rw [beq_iff_eq.mp same]; rfl
    have spaces : ∀ c : Char, isSpace c = true → isIdChar c = false := by
      intro c space
      rw [← Bool.not_eq_true]
      intro letter
      have bounds := isIdChar_bounds letter
      simp only [isSpace,Bool.or_eq_true,Bool.and_eq_true,decide_eq_true_eq,beq_iff_eq] at space
      omega
    rw [wordsFrom_trim hyphens,words,wordsFrom_map]
    exact wordsFrom_trim spaces (foldedId u agentId)

theorem inId_ascii {c : Char} (kind : inId c = true) : 32 ≤ c.toNat ∧ c.toNat < 127 ∧ c.toLower = c := by
  rw [inId,Bool.or_eq_true,beq_iff_eq] at kind
  obtain letter | rfl := kind
  · have bounds := isIdChar_bounds letter
    refine ⟨by omega,by omega,dif_neg ?_⟩
    rintro ⟨above,below⟩
    have capital : 'A'.val.toNat = 65 ∧ 'Z'.val.toNat = 90 := ⟨rfl,rfl⟩
    rw [ge_iff_le,UInt32.le_iff_toNat_le] at above
    rw [UInt32.le_iff_toNat_le] at below
    change 65 ≤ c.toNat at above
    change c.toNat ≤ 90 at below
    omega
  · decide

theorem foldedId_same (u : UnicodeData) (kinds : ∀ c ∈ text, inId c = true) : foldedId u (String.ofList text) = text := by
  have printed : text.filter (fun c => u.isPrintable c && 32 ≤ c.toNat) = text := by
    rw [List.filter_eq_self]
    intro c inside
    obtain ⟨large,small,-⟩ := inId_ascii (kinds c inside)
    rw [u.printable_ascii c (by omega)]
    simp only [Bool.and_eq_true,decide_eq_true_eq,bne_iff_ne]
    omega
  have lower : ∀ c ∈ text, u.casing.lower c = [c] ∧ c ≠ 'Σ' := by
    intro c inside
    obtain ⟨-,small,same⟩ := inId_ascii (kinds c inside)
    refine ⟨?_,?_⟩
    · rw [u.lawful.ascii c (by omega),same]
    · rintro rfl
      exact absurd small (by decide)
  rw [foldedId,String.toList_ofList,u.nfkc_ascii text fun c inside => (inId_ascii (kinds c inside)).2.1.trans (by decide),printed]
  exact Casing.Unicode.lowerFrom_fixed lower false

theorem trimmedId_same (u : UnicodeData) (neat : Neat text) : trimmedId u (String.ofList text) = text := by
  obtain ⟨trimmed,words⟩ := trimmed_neat u (String.ofList text)
  rw [← trimmed.hyphenated_words,words,idWords,foldedId_same u neat.inId,neat.hyphenated_words]

theorem sanitizeAgentId_toList (u : UnicodeData) (agentId : String) : (sanitizeAgentId u agentId).toList = (trimmedId u agentId).take maxAgentId := by
  unfold sanitizeAgentId
  split
  next empty =>
    have nothing : Neat [] := ⟨by simp,by simp,by simp,by simp⟩
    rw [empty,show "" = String.ofList [] from rfl,trimmedId_same u nothing]
    rfl
  next => exact String.toList_ofList

theorem isIdChar_of_inId {c : Char} (kind : inId c = true) (other : c ≠ '-') : isIdChar c = true := by
  rw [inId,Bool.or_eq_true,beq_iff_eq] at kind
  exact kind.resolve_right other

theorem Neat.isAgentId (neat : Neat text) (some_ : text ≠ []) : isAgentId text = true := by
  have whole {atoms : List (Atom Char)} (whole : Matches atoms text) : ((rests atoms text).any fun rest => rest == [] || rest == ['\n']) = true :=
    List.any_eq_true.mpr ⟨[],mem_rests.mpr ⟨text,(List.append_nil text).symm,whole⟩,rfl⟩
  rw [Member.isAgentId,List.any_eq_true]
  obtain ⟨c,rest,rfl⟩ := List.exists_cons_of_ne_nil some_
  have first : isIdChar c = true := isIdChar_of_inId (neat.inId c (.head _)) fun hyphen => neat.first (by rw [hyphen]; rfl)
  obtain rfl | ⟨body,d,rfl⟩ := List.eq_nil_or_concat' rest
  · exact ⟨_,.tail _ (.head _),whole ⟨c,[],rfl,first,rfl⟩⟩
  · have last : isIdChar d = true := isIdChar_of_inId (neat.inId d (by simp)) fun hyphen => neat.last (by rw [hyphen,← List.cons_append,List.getLast?_concat])
    refine ⟨_,.head _,whole ⟨c,_,rfl,first,body,[d],rfl,fun e inside => neat.inId e (by simp [inside]),d,[],rfl,last,rfl⟩⟩

theorem isAgentId_last (matched : isAgentId text = true) : text.getLast? ≠ some '-' := by
  obtain ⟨atoms,known,matched⟩ := List.any_eq_true.mp matched
  obtain ⟨rest,inside,ends⟩ := List.any_eq_true.mp matched
  obtain ⟨piece,rfl,whole⟩ := mem_rests.mp inside
  have last : ∃ body d, piece = body ++ [d] ∧ isIdChar d = true := by
    simp only [agentIdPattern,List.mem_cons,List.not_mem_nil,or_false] at known
    obtain rfl | rfl := known
    · obtain ⟨body,d,same,letter,-⟩ := matches_one [.one isIdChar,.many inId] whole
      exact ⟨body,d,same,letter⟩
    · obtain ⟨body,d,same,letter,-⟩ := matches_one [] whole
      exact ⟨body,d,same,letter⟩
  obtain ⟨body,d,rfl,letter⟩ := last
  simp only [Bool.or_eq_true,beq_iff_eq] at ends
  obtain rfl | rfl := ends
  · rw [List.append_nil,List.getLast?_concat]
    rintro ⟨⟩
    cases letter
  · rw [List.getLast?_concat]
    decide

theorem Neat.cut_iff (neat : Neat text) : CutBehindHyphen (wordsFrom [] text) ↔ ∃ one two, text = one ++ '-' :: two ∧ one.length+1 = maxAgentId := by
  constructor
  · rintro ⟨front,back,whole,some_,more,size⟩
    refine ⟨hyphenated front,hyphenated back,?_,size⟩
    rw [← hyphenated_append some_ more,← whole,neat.hyphenated_words]
  · rintro ⟨one,two,rfl,size⟩
    have single : ¬['-','-'] <:+: one := fun inside => neat.single (inside.trans (List.prefix_append one _).isInfix)
    have first : one.head? ≠ some '-' := by
      intro first
      refine neat.first ?_
      rw [List.head?_append,first]
      rfl
    have last : one.getLast? ≠ some '-' := by
      intro last
      obtain ⟨body,rfl⟩ := List.getLast?_eq_some_iff.mp last
      refine neat.single ⟨body,two,?_⟩
      simp
    have some_ : one ≠ [] := by
      rintro rfl
      cases size
    have same : hyphenated (wordsFrom [] one) = one :=
      Neat.hyphenated_words ⟨fun c inside => neat.inId c (by simp [inside]),single,first,last⟩
    refine ⟨wordsFrom [] one,wordsFrom [] two,wordsFrom_split rfl one two [],?_,?_,by rwa [same]⟩
    · intro nothing
      rw [nothing] at same
      exact some_ same.symm
    · cases two with
      | nil => exact absurd (List.getLast?_concat ..) neat.last
      | cons c two =>
        have other : c ≠ '-' := by
          rintro rfl
          exact neat.single ⟨one,two,by simp⟩
        rw [wordsFrom,if_pos (isIdChar_of_inId (neat.inId c (by simp)) other)]
        exact wordsFrom_ne_nil _ _ (by simp)

theorem Neat.take (neat : Neat text) (whole : ¬∃ one two, text = one ++ '-' :: two ∧ one.length+1 = maxAgentId) :
    Neat (text.take maxAgentId) where
  inId c inside := neat.inId c (List.mem_of_mem_take inside)
  single inside := neat.single (inside.trans (List.take_prefix _ _).isInfix)
  first begins := by
    refine neat.first ?_
    rw [← List.take_append_drop maxAgentId text,List.head?_append,begins]
    rfl
  last ends := by
    obtain ⟨body,same⟩ := List.getLast?_eq_some_iff.mp ends
    by_cases long : maxAgentId ≤ text.length
    · refine whole ⟨body,text.drop maxAgentId,?_,?_⟩
      · rw [← List.singleton_append,← List.append_assoc,← same,List.take_append_drop]
      · have size := congrArg List.length same
        rwa [List.length_take_of_le long,List.length_append,eq_comm] at size
    · rw [List.take_of_length_le (by omega)] at ends
      exact neat.last ends

theorem idSettled_iff (u : UnicodeData) (agentId : String) : IdSettled u agentId ↔ ¬CutBehindHyphen (idWords u agentId) := by
  obtain ⟨neat,words⟩ := trimmed_neat u agentId
  have result := sanitizeAgentId_toList u agentId
  rw [← words,neat.cut_iff]
  constructor
  · rintro ⟨shape,-⟩ ⟨one,two,same,size⟩
    have cut : (trimmedId u agentId).take maxAgentId = one ++ ['-'] := by
      rw [same,← size,← List.singleton_append,← List.append_assoc,List.take_left' (by simp)]
    rw [cut] at result
    obtain empty | ⟨-,matched,-⟩ := shape
    · rw [empty] at result
      simp at result
    · rw [result] at matched
      exact isAgentId_last matched List.getLast?_concat
  · intro whole
    have kept := neat.take whole
    rw [← result] at kept
    have short : (sanitizeAgentId u agentId).toList.length ≤ maxAgentId := by
      rw [result]
      exact List.length_take_le _ _
    refine ⟨?_,?_⟩
    · by_cases empty : (sanitizeAgentId u agentId).toList = []
      · exact .inl (String.toList_eq_nil_iff.mp empty)
      · exact .inr ⟨short,kept.isAgentId empty,kept.single⟩
    · have again := trimmedId_same u kept
      rw [String.ofList_toList] at again
      apply String.toList_inj.mp
      rw [sanitizeAgentId_toList u (sanitizeAgentId u agentId),again,List.take_of_length_le short]

end Ids
end Orrery.Member
