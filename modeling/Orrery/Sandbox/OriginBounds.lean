import Orrery.Sandbox.Origins

/-! Whether the origins a policy grants bound the hosts a browser contacts. -/
namespace Orrery.Sandbox
open Foundation Casing TextSplits
open JsonLines (isSpace)

def EndsIn (u : Unicode) (d host : List Char) : Prop := ('.' :: u.lowercase d) <:+ u.lowercase host

section Schemes

theorem splitScheme_some {text scheme rest : List Char} (found : splitScheme text = some (scheme,rest)) :
    text = scheme ++ ':' :: rest ∧ ':' ∉ scheme ∧ scheme.head?.any Char.isAlpha = true ∧
      scheme.all isSchemeChar = true := by
  unfold splitScheme at found
  rcases partition_cases ':' text with ⟨_,cut⟩ | ⟨front,back,rfl,absent,cut⟩
  · simp [cut] at found
  · simp only [cut] at found
    split at found
    next grammar =>
      cases found
      rw [Bool.and_eq_true] at grammar
      exact ⟨rfl,absent,grammar⟩
    · cases found

theorem splitScheme_append {scheme : List Char} (absent : ':' ∉ scheme) (letter : scheme.head?.any Char.isAlpha = true)
    (grammar : scheme.all isSchemeChar = true) (rest : List Char) :
    splitScheme (scheme ++ ':' :: rest) = some (scheme,rest) := by
  have cut : partition [':'] (scheme ++ ':' :: rest) = some (scheme,rest) := by
    simpa using partition_first absent [] rest
  rw [splitScheme,cut]
  simp [letter,grammar]

theorem splitScheme_apart {c : Char} (apart : c.isAlpha = false) (text : List Char) : splitScheme (c :: text) = none := by
  cases found : splitScheme (c :: text) with
  | none => rfl
  | some parts =>
    obtain ⟨scheme,rest⟩ := parts
    obtain ⟨split,_,letter,_⟩ := splitScheme_some found
    cases scheme with
    | nil => simp at letter
    | cons d scheme =>
      obtain ⟨rfl,_⟩ := List.cons.inj split
      simp [apart] at letter

theorem isSchemeChar_bounds {c : Char} (grammar : isSchemeChar c = true) : 32 < c.toNat ∧ c.toNat < 128 := by
  rw [isSchemeChar,Char.isAlphanum,Char.isDigit] at grammar
  delta Char.isAlpha Char.isUpper Char.isLower at grammar
  simp only [Bool.or_eq_true,Bool.and_eq_true,decide_eq_true_eq,beq_iff_eq] at grammar
  rcases grammar with ((((⟨large,small⟩ | ⟨large,small⟩) | ⟨large,small⟩) | rfl) | rfl) | rfl
  · exact ⟨lt_of_lt_of_le (by decide) large,lt_of_le_of_lt small (by decide)⟩
  · exact ⟨lt_of_lt_of_le (by decide) large,lt_of_le_of_lt small (by decide)⟩
  · exact ⟨lt_of_lt_of_le (by decide) large,lt_of_le_of_lt small (by decide)⟩
  all_goals decide

end Schemes

section Gate
variable {library : Library} {url origin : List Char}

theorem splitUrl_some {u : Unicode} {text : List Char} (some : u.lowercase (splitUrl text).1 ≠ []) :
    ∃ scheme rest, splitScheme ((text.dropWhile isBlank).filter fun c => !isRemoved c) = .some (scheme,rest) := by
  cases found : splitScheme ((text.dropWhile isBlank).filter fun c => !isRemoved c) with
  | none =>
    rw [splitUrl,found] at some
    exact absurd rfl some
  | some parts => exact ⟨parts.1,parts.2,rfl⟩

theorem netlocOf_some {text : List Char} (some : netlocOf text ≠ []) : ∃ tail,
    (splitUrl text).2 = '/' :: '/' :: tail ∧ netlocOf text = tail.takeWhile fun c => !endsNetloc c := by
  unfold netlocOf at some ⊢
  dsimp only at some ⊢
  split
  next slashes =>
    obtain ⟨tail,split⟩ := List.isPrefixOf_iff_prefix.mp slashes
    exact ⟨tail,split.symm,by rw [← split]; rfl⟩
  next other => exact absurd (if_neg other) some

theorem originOf_parts (read : originOf library url = .ok origin) :
    ∃ scheme tail, splitScheme (((JsonLines.strip url).dropWhile isBlank).filter fun c => !isRemoved c) =
        some (scheme,'/' :: '/' :: tail) ∧
      netlocOf (JsonLines.strip url) = (tail.takeWhile fun c => !endsNetloc c) ∧ netlocOf (JsonLines.strip url) ≠ [] ∧
      origin = library.unicode.lowercase (library.unicode.lowercase scheme) ++
        "://".toList ++ library.unicode.lowercase (netlocOf (JsonLines.strip url)) := by
  unfold originOf urlparse at read
  cases brackets : checkBrackets library (netlocOf (JsonLines.strip url)) with
  | error message => simp [brackets,bind,Except.bind] at read
  | ok =>
    cases normal : checkNetloc library (netlocOf (JsonLines.strip url)) with
    | error message => simp [brackets,normal,bind,Except.bind] at read
    | ok =>
      simp only [brackets,normal,bind,Except.bind,pure,Except.pure] at read
      split at read
      · cases read
      next some =>
        simp only [Bool.or_eq_true,List.isEmpty_iff,not_or] at some
        obtain ⟨schemed,located⟩ := some
        obtain ⟨scheme,rest,found⟩ := splitUrl_some schemed
        obtain ⟨tail,slashes,netloc⟩ := netlocOf_some located
        have parts : splitUrl (JsonLines.strip url) = (scheme,rest) := by
          rw [splitUrl,found]
          rfl
        obtain rfl : rest = '/' :: '/' :: tail := by rw [← slashes,parts]
        refine ⟨scheme,tail,found,netloc,located,?_⟩
        rw [parts] at read
        exact (Except.ok.inj read).symm

end Gate

section Policy
variable {u : Unicode} (lawful : u.Lawful)
include lawful

theorem splitOrigin_some {scheme netloc : List Char} (first : Char) (start : scheme.head? = some first)
    (letter : isSpace first = false) (absent : ':' ∉ scheme) {s h : List Char} {port : Int}
    (found : splitOrigin u (scheme ++ "://".toList ++ netloc) = some (s,h,port)) :
    s = u.lowercase scheme ∧ ':' ∉ h ∧ (u.lowercase (netloc.rdropWhile isSpace) = h ∨
      ∃ portRaw, u.lowercase (netloc.rdropWhile isSpace) = h ++ ':' :: portRaw ∧ u.pyInt portRaw = some port) := by
  have text : scheme ++ "://".toList ++ netloc = (scheme ++ [':','/']) ++ '/' :: netloc := by simp
  have trimmed : JsonLines.strip (scheme ++ "://".toList ++ netloc) =
      (scheme ++ [':','/']) ++ '/' :: netloc.rdropWhile isSpace := by
    obtain ⟨rest,rfl⟩ : ∃ rest, scheme = first :: rest := by
      cases scheme with
      | nil => cases start
      | cons c rest => exact ⟨rest,by cases start; rfl⟩
    have kept : List.dropWhile isSpace ((first :: rest ++ [':','/']) ++ '/' :: netloc) =
        (first :: rest ++ [':','/']) ++ '/' :: netloc := List.dropWhile_cons_of_neg (by simp [letter])
    rw [text]
    change (List.dropWhile isSpace ((first :: rest ++ [':','/']) ++ '/' :: netloc)).rdropWhile isSpace = _
    rw [kept,rdropWhile_append_cons _ (by decide)]
  have lowered : u.lowercase (JsonLines.strip (scheme ++ "://".toList ++ netloc)) =
      u.lowercase scheme ++ "://".toList ++ u.lowercase (netloc.rdropWhile isSpace) := by
    rw [trimmed,Unicode.lowercase_breaks lawful (by decide),Unicode.lowercase_append_inert lawful scheme]
    · simp
    · intro c inside
      simp only [List.mem_cons,List.not_mem_nil,or_false] at inside
      rcases inside with rfl | rfl <;> rfl
  have free : ':' ∉ u.lowercase scheme := fun inside =>
    absent ((Unicode.mem_lowerFrom lawful (by rfl) scheme false).mp inside)
  have cut : partition "://".toList (u.lowercase scheme ++ "://".toList ++ u.lowercase (netloc.rdropWhile isSpace)) =
      some (u.lowercase scheme,u.lowercase (netloc.rdropWhile isSpace)) := by
    simpa using partition_first free ['/','/'] (u.lowercase (netloc.rdropWhile isSpace))
  unfold splitOrigin at found
  rw [lowered,cut] at found
  dsimp only at found
  generalize u.lowercase (netloc.rdropWhile isSpace) = rest at found ⊢
  obtain ⟨_,found⟩ := Option.ite_none_left_eq_some.mp found
  rcases partition_cases ':' rest with ⟨free,cut⟩ | ⟨front,back,rfl,before,cut⟩
  · rw [cut] at found
    obtain ⟨_,found⟩ := Option.ite_none_left_eq_some.mp found
    obtain ⟨_,_,same⟩ := Option.map_eq_some_iff.mp found
    cases same
    exact ⟨rfl,free,.inl rfl⟩
  · rw [cut] at found
    obtain ⟨_,found⟩ := Option.ite_none_left_eq_some.mp found
    obtain ⟨_,read,same⟩ := Option.map_eq_some_iff.mp found
    cases same
    exact ⟨rfl,before,.inr ⟨back,rfl,read⟩⟩

omit lawful in
theorem isForbidden_of_isSpace {c : Char} (space : isSpace c = true) : isForbidden c = true := by
  simp [isForbidden,space]

omit lawful in
theorem inert_of_isForbidden {c : Char} (other : isForbidden c = true) : u.inert c = true := by
  simp only [isForbidden,Bool.or_eq_true,decide_eq_true_eq,beq_iff_eq,List.contains_iff_mem] at other
  rcases other with ((space | control) | delete) | listed
  · simp [Unicode.inert,space]
  · have apart := Unicode.isAlpha_outside (.inl (by omega : c.toNat < 65))
    simp [Unicode.inert,apart,show c.toNat < 128 by omega]
  · have apart := Unicode.isAlpha_outside (.inr (by omega : 122 < c.toNat))
    simp [Unicode.inert,apart,show c.toNat < 128 by omega]
  · have listed : c ∈ ['#','/',':','<','>','?','@','[','\\',']','^','|'] := listed
    simp only [List.mem_cons,List.not_mem_nil,or_false] at listed
    rcases listed with rfl | rfl | rfl | rfl | rfl | rfl | rfl | rfl | rfl | rfl | rfl | rfl <;> rfl

theorem hostPatternMatches_under {d host : List Char} (fits : hostPatternMatches u ('*' :: '.' :: u.lowercase d) host = true) :
    EndsIn u d host := by
  have lowered : u.lowercase ('*' :: '.' :: u.lowercase d) = '*' :: '.' :: u.lowercase d := by
    rw [Unicode.lowercase_cons_inert lawful (by rfl),Unicode.lowercase_cons_inert lawful (by rfl),
      Unicode.lowercase_lowercase lawful]
  simp only [hostPatternMatches,lowered] at fits
  rw [if_pos (by simp)] at fits
  simp only [Bool.and_eq_true,List.isSuffixOf_iff_suffix] at fits
  exact fits.1

theorem splitOrigin_domain {d : List Char} (domain : ∀ c ∈ d, isForbidden c = false) {s h : List Char} {port : Int}
    (found : splitOrigin u ("https://*.".toList ++ d) = some (s,h,port)) :
    s = "https".toList ∧ h = '*' :: '.' :: u.lowercase d := by
  have text : "https://*.".toList ++ d = "https".toList ++ "://".toList ++ '*' :: '.' :: d := by simp
  rw [text] at found
  obtain ⟨scheme,_,host⟩ := splitOrigin_some lawful 'h' (by rfl) (by decide) (by decide) found
  have spaceless : ('*' :: '.' :: d).rdropWhile isSpace = '*' :: '.' :: d := by
    rw [List.rdropWhile_eq_self_iff]
    intro some space
    have inside := List.getLast_mem some
    rcases List.mem_cons.mp inside with first | inside
    · rw [first] at space
      exact absurd space (by decide)
    rcases List.mem_cons.mp inside with second | inside
    · rw [second] at space
      exact absurd space (by decide)
    · exact absurd (isForbidden_of_isSpace space) (Bool.eq_false_iff.mp (domain _ inside))
  have lowered : u.lowercase (('*' :: '.' :: d).rdropWhile isSpace) = '*' :: '.' :: u.lowercase d := by
    rw [spaceless,Unicode.lowercase_cons_inert lawful (by rfl),Unicode.lowercase_cons_inert lawful (by rfl)]
  rw [lowered] at host
  refine ⟨?_,?_⟩
  · rw [scheme,Unicode.lowercase,Unicode.lowerFrom_ascii lawful (by simp)]
    rfl
  · rcases host with whole | ⟨portRaw,split,_⟩
    · exact whole.symm
    · have colon : ':' ∈ u.lowercase ('*' :: '.' :: d) := by
        rw [← spaceless,lowered,split]
        simp
      have inside := (Unicode.mem_lowerFrom lawful (by rfl) _ _).mp colon
      have forbidden : isForbidden ':' = false := domain ':' (by simpa using inside)
      exact absurd forbidden (by decide)

theorem allowsOrigin_under {grants : List CapabilityGrant} {d scheme netloc : List Char}
    (domain : ∀ c ∈ d, isForbidden c = false)
    (granted : ∀ g ∈ grants, g.capability = "browser.navigate" → ∀ p ∈ g.patterns, p.toList = "https://*.".toList ++ d)
    (first : Char) (start : scheme.head? = some first) (letter : isSpace first = false) (absent : ':' ∉ scheme)
    (allowed : allowsOrigin u grants "browser.navigate" (scheme ++ "://".toList ++ netloc) = true) :
    u.lowercase scheme = "https".toList ∧ ∃ h port, EndsIn u d h ∧ ':' ∉ h ∧
      (u.lowercase (netloc.rdropWhile isSpace) = h ∨
        ∃ portRaw, u.lowercase (netloc.rdropWhile isSpace) = h ++ ':' :: portRaw ∧ u.pyInt portRaw = some port) := by
  obtain ⟨g,inside,fits⟩ := List.any_eq_true.mp allowed
  obtain ⟨inside,capability⟩ := List.mem_filter.mp inside
  unfold matchOrigin at fits
  split at fits
  · cases fits
  split at fits
  · cases fits
  next s h port target =>
    obtain ⟨same,free,host⟩ := splitOrigin_some lawful first start letter absent target
    obtain ⟨pattern,listed,fits⟩ := List.any_eq_true.mp fits
    rw [granted g inside (by simpa using capability) pattern listed] at fits
    obtain ⟨⟨pScheme,pHost,pPort⟩,parsed,fits⟩ := (Option.any_eq_true _ _).mp fits
    obtain ⟨rfl,rfl⟩ := splitOrigin_domain lawful domain parsed
    simp only [Bool.and_eq_true,beq_iff_eq] at fits
    obtain ⟨⟨schemes,_⟩,under⟩ := fits
    exact ⟨same.symm.trans schemes.symm,h,port,hostPatternMatches_under lawful under,free,host⟩

omit lawful in
theorem inert_of_numeric {c : Char} (digit : u.numeric c = true) : u.inert c = true := by
  simp only [Unicode.numeric,Bool.or_eq_true,beq_iff_eq] at digit
  rcases digit with (((digit | space) | rfl) | rfl) | rfl
  · simp [Unicode.inert,digit]
  · simp [Unicode.inert,space]
  all_goals rfl

theorem netloc_shape {d netloc h : List Char} {port : Int} (under : EndsIn u d h) (free : ':' ∉ h)
    (host : u.lowercase (netloc.rdropWhile isSpace) = h ∨
      ∃ portRaw, u.lowercase (netloc.rdropWhile isSpace) = h ++ ':' :: portRaw ∧ u.pyInt portRaw = some port) :
    ∃ x y, netloc = x ++ y ∧ ':' ∉ x ∧ EndsIn u d x ∧
      ((∀ c ∈ y, isSpace c = true) ∨ ∃ p, y = ':' :: p ∧ ∀ c ∈ p, u.numeric c = true) := by
  have parts := List.rdropWhile_append_rtakeWhile (p := isSpace) (l := netloc)
  have spaces : ∀ c ∈ netloc.rtakeWhile isSpace, isSpace c = true := fun c inside => List.mem_rtakeWhile_imp inside
  generalize netloc.rdropWhile isSpace = front at parts host
  generalize netloc.rtakeWhile isSpace = tail at parts spaces
  have colons : ∀ text, ':' ∈ u.lowercase text ↔ ':' ∈ text := fun text =>
    Unicode.mem_lowerFrom lawful (by rfl) text false
  rcases host with rfl | ⟨portRaw,split,read⟩
  · refine ⟨front,tail,parts.symm,mt (colons front).mpr free,?_,.inl spaces⟩
    rw [EndsIn,Unicode.lowercase_lowercase lawful] at under
    exact under
  · have inside : ':' ∈ front := (colons front).mp (by rw [split]; simp)
    obtain ⟨x,p,rfl,absent⟩ := List.eq_append_cons_of_mem inside
    obtain ⟨before,after,same,letters⟩ := Unicode.lowerFrom_split lawful x (':' :: p) false
    have here : u.lowercase (x ++ ':' :: p) = before ++ ':' :: u.lowerFrom (u.step after ':') p := by
      rw [Unicode.lowercase,same,Unicode.lowerFrom,Unicode.lowerOne_kept lawful (by rfl)]
      rfl
    -- the colon of the port is the first one of the netloc too
    obtain ⟨rfl,rest⟩ := append_cons_inj (fun colon => absent (letters _ colon (by rfl))) free (here.symm.trans split)
    have still : ∀ c ∈ p, u.inert c = true := by
      have lowered : ∀ c ∈ u.lowerFrom (u.step after ':') p, u.inert c = true := by
        rw [rest]
        exact fun c inside => inert_of_numeric (Unicode.pyInt_numeric read c inside)
      exact Unicode.inert_of_lowerFrom lawful lowered
    have numeral : portRaw = p := by rw [← rest,Unicode.lowerFrom_inert lawful still]
    have alone : u.lowercase (x ++ ':' :: p) = u.lowercase x ++ ':' :: p := by
      refine Unicode.lowercase_append_inert lawful x ?_
      intro c inside
      rcases List.mem_cons.mp inside with rfl | later
      · rfl
      · exact still c later
    obtain rfl : before = u.lowercase x := by
      rw [split,numeral] at alone
      exact List.append_cancel_right alone
    refine ⟨x,':' :: p ++ tail,?_,absent,?_,.inr ⟨p ++ tail,rfl,?_⟩⟩
    · rw [← parts]
      simp
    · rw [EndsIn,Unicode.lowercase_lowercase lawful] at under
      exact under
    · intro c inside
      rcases List.mem_append.mp inside with here | space
      · exact Unicode.pyInt_numeric read c (numeral ▸ here)
      · simp [Unicode.numeric,spaces c space]

end Policy

section Ends

def isFaint (c : Char) : Bool := isSpace c || isBlank c

def Alike (first second : List Char) : Prop := ∃ more, (∀ c ∈ more, isFaint c = true) ∧
  (first = second ++ more ∨ second = first ++ more)

theorem Alike.takeWhile {p : Char → Bool} {first second : List Char} (alike : Alike first second) :
    Alike (first.takeWhile p) (second.takeWhile p) := by
  obtain ⟨more,faint,rfl | rfl⟩ := alike
  · obtain ⟨rest,same,inside⟩ := takeWhile_append_exists (p := p) second more
    exact ⟨rest,fun c member => faint c (inside member),.inl same⟩
  · obtain ⟨rest,same,inside⟩ := takeWhile_append_exists (p := p) first more
    exact ⟨rest,fun c member => faint c (inside member),.inr same⟩

theorem alike_of_append {first second more more' : List Char} (faint : ∀ c ∈ more, isFaint c = true)
    (faint' : ∀ c ∈ more', isFaint c = true) (same : first ++ more = second ++ more') : Alike first second := by
  rcases List.append_eq_append_iff.mp same with ⟨rest,rfl,split⟩ | ⟨rest,rfl,split⟩
  · exact ⟨rest,fun c inside => faint c (by rw [split]; simp [inside]),.inr rfl⟩
  · exact ⟨rest,fun c inside => faint' c (by rw [split]; simp [inside]),.inl rfl⟩

end Ends

section Texts
variable {url scheme tail : List Char}

def isApart (url : List Char) : Bool := (url.dropWhile isBlank).head?.any isSpace

theorem authorityOf_apart (apart : isApart url = true) : authorityOf url = none := by
  unfold isApart at apart
  have blanks := List.head?_dropWhile_not isBlank url
  unfold authorityOf
  cases text : url.dropWhile isBlank with
  | nil => simp [text] at apart
  | cons c rest =>
    have space : isSpace c = true := by simpa [text] using apart
    have kept : isBlank c = false := by simpa [text] using blanks
    have stays : isRemoved c = false := by
      simp only [isBlank,decide_eq_false_iff_not] at kept
      simp only [isRemoved,Bool.or_eq_false_iff,beq_eq_false_iff_ne]
      refine ⟨⟨?_,?_⟩,?_⟩ <;> rintro rfl <;> exact kept (by decide)
    have first := rdropWhile_append_cons (p := isBlank) [] kept rest
    simp only [List.nil_append] at first
    simp only [first,List.filter_cons,stays,Bool.not_false,if_true,splitScheme_apart (Unicode.isAlpha_of_isSpace space)]

theorem strip_together {c : Char} {rest : List Char} (text : url.dropWhile isBlank = c :: rest) (letter : isSpace c = false) :
    (JsonLines.strip url).dropWhile isBlank = c :: rest.rdropWhile isSpace := by
  have blanks := List.head?_dropWhile_not isBlank url
  have kept : isBlank c = false := by simpa [text] using blanks
  have dropped : (url.dropWhile isSpace).dropWhile isBlank = c :: rest := by
    rw [← text]
    refine dropWhile_dropWhile ?_
    intro d head
    rw [text] at head
    cases head
    exact letter
  have parts : url.dropWhile isSpace = (url.dropWhile isSpace).takeWhile isBlank ++ c :: rest := by
    rw [← dropped,List.takeWhile_append_dropWhile]
  change ((url.dropWhile isSpace).rdropWhile isSpace).dropWhile isBlank = _
  rw [parts,rdropWhile_append_cons _ letter,
    List.dropWhile_append_of_pos fun d inside => List.mem_takeWhile_imp inside,
    List.dropWhile_cons_of_neg (by simp [kept])]

theorem splitScheme_alike (apart : isApart url = false)
    (found : splitScheme (((JsonLines.strip url).dropWhile isBlank).filter fun c => !isRemoved c) =
      some (scheme,'/' :: '/' :: tail)) :
    ∃ tail', splitScheme (((url.dropWhile isBlank).rdropWhile isBlank).filter fun c => !isRemoved c) =
      some (scheme,'/' :: '/' :: tail') ∧ Alike tail tail' := by
  obtain ⟨split,absent,letter,grammar⟩ := splitScheme_some found
  cases text : url.dropWhile isBlank with
  | nil =>
    have none : (JsonLines.strip url).dropWhile isBlank = [] := by
      rw [List.dropWhile_eq_nil_iff] at text ⊢
      intro c inside
      exact text c ((List.dropWhile_sublist isSpace).subset ((List.rdropWhile_prefix isSpace _).subset inside))
    rw [none] at split
    simp at split
  | cons c rest =>
    have start : isSpace c = false := by simpa [isApart,text] using apart
    have kept : isBlank c = false := by
      have blanks := List.head?_dropWhile_not isBlank url
      simpa [text] using blanks
    rw [strip_together text start] at split
    have first := rdropWhile_append_cons (p := isBlank) [] kept rest
    simp only [List.nil_append] at first
    rw [first]
    have spaces := List.rdropWhile_append_rtakeWhile (p := isSpace) (l := rest)
    have blanks := List.rdropWhile_append_rtakeWhile (p := isBlank) (l := rest)
    have same : ((c :: rest.rdropWhile isBlank).filter fun c => !isRemoved c) ++
        ((rest.rtakeWhile isBlank).filter fun c => !isRemoved c) = (scheme ++ [':','/']) ++ '/' :: (tail ++
          ((rest.rtakeWhile isSpace).filter fun c => !isRemoved c)) := by
      rw [← List.filter_append,List.cons_append,blanks]
      conv_lhs => rw [← spaces,← List.cons_append,List.filter_append,split]
      simp
    have behind : ∀ d ∈ (rest.rtakeWhile isBlank).filter fun c => !isRemoved c, isFaint d = true := by
      intro d inside
      simp [isFaint,List.mem_rtakeWhile_imp (List.mem_filter.mp inside).1]
    have faint : ∀ d ∈ (rest.rtakeWhile isSpace).filter fun c => !isRemoved c, isFaint d = true := by
      intro d inside
      simp [isFaint,List.mem_rtakeWhile_imp (List.mem_filter.mp inside).1]
    obtain ⟨tail',whole,ends⟩ := append_last (fun slash => absurd (behind '/' slash) (by decide)) same
    refine ⟨tail',?_,alike_of_append faint behind ends.symm⟩
    rw [whole]
    simpa using splitScheme_append absent letter grammar ('/' :: '/' :: tail')

end Texts

section Cut

def isBackslash (c : Char) : Bool := c == '\\'

def cut (netloc : List Char) : List Char := (netloc.dropWhile isBackslash).takeWhile fun c => !isBackslash c

theorem authority_cut {tail : List Char} (some : ∃ c ∈ tail.takeWhile fun c => !endsNetloc c, isBackslash c = false) :
    ((tail.dropWhile isSlash).takeWhile fun c => !endsAuthority c) = cut (tail.takeWhile fun c => !endsNetloc c) := by
  induction tail with
  | nil => simp at some
  | cons c rest ih =>
    by_cases inside : endsNetloc c = true
    · simp [inside] at some
    · have other : isSlash c = isBackslash c := by
        simp only [endsNetloc,Bool.or_eq_true,beq_iff_eq,not_or] at inside
        simp [isSlash,isBackslash,inside.1.1]
      rw [List.takeWhile_cons_of_pos (by simp [inside])] at some ⊢
      by_cases leading : isBackslash c = true
      · rw [List.dropWhile_cons_of_pos (by rw [other,leading]),cut,List.dropWhile_cons_of_pos leading,ih]
        · rfl
        · obtain ⟨d,member,kept⟩ := some
          rcases List.mem_cons.mp member with rfl | later
          · rw [leading] at kept
            cases kept
          · exact ⟨d,later,kept⟩
      · rw [List.dropWhile_cons_of_neg (by rw [other]; exact leading),cut,List.dropWhile_cons_of_neg leading,
          ← List.takeWhile_cons_of_pos (p := fun c => !endsNetloc c) (by simp [inside]),List.takeWhile_takeWhile]
        congr 1
        funext d
        simp only [endsAuthority,isSlash,endsNetloc,isBackslash]
        grind

variable {front more : List Char}

theorem mem_dropWhile_append (absent : '\\' ∉ more) :
    '\\' ∈ (front ++ more).dropWhile isBackslash ↔ '\\' ∈ front.dropWhile isBackslash := by
  rw [List.dropWhile_append]
  split
  next none =>
    rw [List.isEmpty_iff] at none
    simp only [none,List.not_mem_nil,iff_false]
    exact fun inside => absent ((List.dropWhile_sublist isBackslash).subset inside)
  · simp [absent]

theorem cut_append (inside : '\\' ∈ front.dropWhile isBackslash) : cut (front ++ more) = cut front := by
  have some : (front.dropWhile isBackslash).isEmpty = false := by
    rw [List.isEmpty_eq_false_iff]
    exact List.ne_nil_of_mem inside
  have shorter : ((front.dropWhile isBackslash).takeWhile fun c => !isBackslash c).length ≠
      (front.dropWhile isBackslash).length := by
    intro whole
    have same := (List.takeWhile_sublist fun c => !isBackslash c).eq_of_length whole
    rw [← same] at inside
    simpa [isBackslash] using List.mem_takeWhile_imp inside
  rw [cut,List.dropWhile_append,some]
  simp only [Bool.false_eq_true,if_false]
  rw [List.takeWhile_append,if_neg shorter]
  rfl

theorem backslash_alike {first second : List Char} (alike : Alike first second) :
    '\\' ∈ first.dropWhile isBackslash ↔ '\\' ∈ second.dropWhile isBackslash := by
  obtain ⟨more,faint,rfl | rfl⟩ := alike
  · exact mem_dropWhile_append fun inside => absurd (faint _ inside) (by decide)
  · exact (mem_dropWhile_append fun inside => absurd (faint _ inside) (by decide)).symm

theorem cut_alike {first second : List Char} (alike : Alike first second)
    (inside : '\\' ∈ first.dropWhile isBackslash) : cut first = cut second := by
  have also := (backslash_alike alike).mp inside
  obtain ⟨more,_,rfl | rfl⟩ := alike
  · exact cut_append also
  · exact (cut_append inside).symm

end Cut

section Hosts

def Behind (text rest : List Char) : Prop := text = rest ∨ ∃ front c, text = front ++ c :: rest ∧ (c = '@' ∨ c = '\\')

variable {u : Unicode} (lawful : u.Lawful) {d : List Char} (domain : ∀ c ∈ d, isForbidden c = false)
include lawful domain

theorem not_mem_end {c : Char} (other : isForbidden c = true) : c ∉ '.' :: u.lowercase d := by
  intro inside
  rcases List.mem_cons.mp inside with rfl | inside
  · exact absurd other (by decide)
  · have member := (Unicode.mem_lowerFrom lawful (inert_of_isForbidden other) d false).mp inside
    rw [domain c member] at other
    cases other

theorem under_behind {front back : List Char} {c : Char} (separate : Unicode.breaks c = true)
    (other : isForbidden c = true) (under : EndsIn u d (front ++ c :: back)) : EndsIn u d back := by
  rw [EndsIn,Unicode.lowercase_breaks lawful separate] at under
  exact suffix_behind (not_mem_end lawful domain other) under

theorem under_of_behind {text rest : List Char} (behind : Behind text rest) (under : EndsIn u d text) :
    EndsIn u d rest := by
  rcases behind with rfl | ⟨front,c,rfl,rfl | rfl⟩
  · exact under
  · exact under_behind lawful domain (by decide) (by decide) under
  · exact under_behind lawful domain (by decide) (by decide) under

theorem under_last {x : List Char} (under : EndsIn u d x) : ∃ front c, x = front ++ [c] ∧ isForbidden c = false := by
  rcases List.eq_nil_or_concat x with rfl | ⟨front,c,rfl⟩
  · exact absurd (List.suffix_nil.mp under) (by simp)
  · refine ⟨front,c,List.concat_eq_append,?_⟩
    by_contra forbidden
    have other : isForbidden c = true := by simpa using forbidden
    obtain ⟨before,same⟩ := Unicode.lowercase_last lawful (inert_of_isForbidden other) front
    rw [EndsIn,List.concat_eq_append,same] at under
    have last := @suffix_behind _ c _ before [] (not_mem_end lawful domain other) under
    exact absurd (List.suffix_nil.mp last) (by simp)

omit lawful domain in
theorem isForbidden_of_isFaint {c : Char} (faint : isFaint c = true) : isForbidden c = true := by
  simp only [isFaint,Bool.or_eq_true,isBlank,decide_eq_true_eq] at faint
  rcases faint with space | blank
  · exact isForbidden_of_isSpace space
  · by_cases control : c.toNat < 32
    · simp [isForbidden,control]
    · have space : isSpace c = true := by
        simp only [isSpace,Bool.or_eq_true,Bool.and_eq_true,decide_eq_true_eq,beq_iff_eq]
        omega
      exact isForbidden_of_isSpace space

theorem alike_under {x y text : List Char} (under : EndsIn u d x) (alike : Alike (x ++ y) text) :
    ∃ rest, text = x ++ rest ∧ Alike y rest := by
  obtain ⟨front,c,rfl,kept⟩ := under_last lawful domain under
  obtain ⟨more,faint,longer | shorter⟩ := alike
  · have absent : c ∉ more := by
      intro inside
      rw [isForbidden_of_isFaint (faint c inside)] at kept
      cases kept
    obtain ⟨rest,rfl,rfl⟩ := append_last absent (by simpa using longer.symm)
    exact ⟨rest,by simp,more,faint,.inl rfl⟩
  · exact ⟨y ++ more,by rw [shorter]; simp,more,faint,.inr rfl⟩

omit lawful domain in
theorem afterUserinfo_behind (text : List Char) : Behind text (afterUserinfo (text.dropWhile isBackslash)) := by
  have slashes := List.takeWhile_append_dropWhile (p := isBackslash) (l := text)
  have userinfo := List.rdropWhile_append_rtakeWhile (p := (· != '@')) (l := text.dropWhile isBackslash)
  rcases List.eq_nil_or_concat ((text.dropWhile isBackslash).rdropWhile (· != '@')) with none | ⟨front,c,ends⟩
  · rw [none,List.nil_append] at userinfo
    rcases List.eq_nil_or_concat (text.takeWhile isBackslash) with none | ⟨front,c,ends⟩
    · left
      rw [none,List.nil_append] at slashes
      exact (userinfo.trans slashes).symm
    · right
      refine ⟨front,c,?_,.inr ?_⟩
      · calc
          text = text.takeWhile isBackslash ++ text.dropWhile isBackslash := slashes.symm
          _ = front ++ c :: text.dropWhile isBackslash := by rw [ends]; simp
          _ = front ++ c :: afterUserinfo (text.dropWhile isBackslash) := by rw [afterUserinfo,userinfo]
      · have inside : c ∈ text.takeWhile isBackslash := by simp [ends]
        simpa [isBackslash] using List.mem_takeWhile_imp inside
  · right
    refine ⟨text.takeWhile isBackslash ++ front,c,?_,.inl ?_⟩
    · calc
        text = text.takeWhile isBackslash ++ text.dropWhile isBackslash := slashes.symm
        _ = text.takeWhile isBackslash ++ ((text.dropWhile isBackslash).rdropWhile (· != '@') ++
            afterUserinfo (text.dropWhile isBackslash)) := by rw [afterUserinfo,userinfo]
        _ = (text.takeWhile isBackslash ++ front) ++ c :: afterUserinfo (text.dropWhile isBackslash) := by
          rw [ends]
          simp
    · have last := List.rdropWhile_last_not (· != '@') (text.dropWhile isBackslash) (by simp [ends])
      simpa [ends] using last

omit lawful domain in
theorem dropPort_subset (text : List Char) : ∀ bracket, dropPort bracket text ⊆ text := by
  induction text with
  | nil => exact fun _ => List.Subset.refl _
  | cons c rest ih =>
    intro bracket
    rw [dropPort]
    split
    · exact List.nil_subset _
    · exact List.cons_subset_cons c (ih _)

omit lawful domain in
theorem dropPort_free {text : List Char} (free : ':' ∉ text) : ∀ bracket, dropPort bracket text = text := by
  induction text with
  | nil => exact fun _ => rfl
  | cons c rest ih =>
    intro bracket
    simp only [List.mem_cons,not_or] at free
    rw [dropPort,if_neg fun colon => free.1 colon.1.symm,ih free.2]

omit lawful domain in
theorem dropPort_colon {front : List Char} (free : ':' ∉ front) (port : List Char) : ∀ bracket,
    dropPort bracket (front ++ ':' :: port) = front ∨
      ∃ more, dropPort bracket (front ++ ':' :: port) = front ++ ':' :: more ∧ more ⊆ port := by
  induction front with
  | nil =>
    intro bracket
    cases bracket with
    | false => exact .inl rfl
    | true => exact .inr ⟨dropPort true port,rfl,dropPort_subset port true⟩
  | cons c rest ih =>
    intro bracket
    simp only [List.mem_cons,not_or] at free
    rw [List.cons_append,dropPort,if_neg fun colon => free.1 colon.1.symm]
    rcases ih free.2 (if c = '[' then true else if c = ']' then false else bracket) with whole | ⟨more,split,inside⟩
    · exact .inl (by rw [whole])
    · exact .inr ⟨more,by rw [split]; rfl,inside⟩

omit lawful domain in
theorem isHost_plain {host : List Char} (valid : isHost host = true) (free : ':' ∉ host) :
    host ≠ [] ∧ ∀ c ∈ host, isForbidden c = false := by
  unfold isHost at valid
  split at valid
  · simp [free] at valid
  · simp only [Bool.and_eq_true,Bool.not_eq_true',List.isEmpty_eq_false_iff,List.any_eq_false] at valid
    exact ⟨valid.1,fun c inside => Bool.eq_false_iff.mpr (valid.2 c inside)⟩

omit lawful domain in
theorem isHost_colon {front more : List Char} (valid : isHost (front ++ ':' :: more) = true) : ']' ∈ more := by
  unfold isHost at valid
  split at valid
  · rw [Bool.and_eq_true,decide_eq_true_eq] at valid
    rcases List.eq_nil_or_concat more with rfl | ⟨rest,c,rfl⟩
    · simp at valid
    · have whole : front ++ ':' :: rest.concat c = (front ++ ':' :: rest) ++ [c] := by simp
      rw [whole,List.getLast?_concat,Option.some.injEq] at valid
      simp [valid.1]
  · simp only [Bool.and_eq_true,Bool.not_eq_true',List.any_eq_false] at valid
    exact absurd (valid.2 ':' (by simp)) (by decide)

omit domain in
theorem numeric_apart {c : Char} (listed : c = '@' ∨ c = '\\' ∨ c = ']') : u.numeric c = false ∧ isFaint c = false := by
  rcases listed with rfl | rfl | rfl
  all_goals
    refine ⟨?_,by decide⟩
    rw [Unicode.numeric,lawful.numerals _ (by decide)]
    rfl

omit lawful domain in
theorem behind_subset {text rest : List Char} (behind : Behind text rest) : rest ⊆ text := by
  rcases behind with rfl | ⟨front,c,rfl,_⟩
  · exact List.Subset.refl _
  · intro x inside
    simp [inside]

omit lawful domain in
theorem behind_faint {x rest w : List Char} (faint : ∀ c ∈ rest, isFaint c = true) (behind : Behind (x ++ rest) w)
    (some : w ≠ []) (plain : ∀ c ∈ w, isForbidden c = false) : rest = [] := by
  rcases List.eq_nil_or_concat rest with none | ⟨front,f,rfl⟩
  · exact none
  · obtain ⟨before,g,rfl⟩ := (List.eq_nil_or_concat w).resolve_left some
    have last : f = g := by
      rcases behind with same | ⟨_,_,same,_⟩
      · simpa using congrArg List.getLast? same
      · have ends := congrArg List.getLast? same
        simp only [List.concat_eq_append,List.getLast?_append,List.getLast?_cons,Option.some_or,
          Option.some.injEq] at ends
        simpa using ends
    have forbidden := isForbidden_of_isFaint (faint f (by simp))
    rw [last,plain g (by simp)] at forbidden
    cases forbidden

theorem under_plain {x rest w : List Char} (under : EndsIn u d x) (free : ':' ∉ x) (faint : ∀ c ∈ rest, isFaint c = true)
    (behind : Behind (x ++ rest) w) (valid : isHost (dropPort false w) = true) : EndsIn u d (dropPort false w) := by
  have colonless : ':' ∉ w := by
    intro inside
    rcases List.mem_append.mp (behind_subset behind inside) with here | later
    · exact free here
    · exact absurd (faint ':' later) (by decide)
  rw [dropPort_free colonless] at valid ⊢
  obtain ⟨some,plain⟩ := isHost_plain valid colonless
  obtain rfl := behind_faint faint behind some plain
  rw [List.append_nil] at behind
  exact under_of_behind lawful domain behind under

theorem under_port {x port w : List Char} (under : EndsIn u d x) (free : ':' ∉ x)
    (numeral : ∀ c ∈ port, u.numeric c = true ∨ isFaint c = true) (behind : Behind (x ++ ':' :: port) w)
    (valid : isHost (dropPort false w) = true) : EndsIn u d (dropPort false w) := by
  have apart : ∀ c, c = '@' ∨ c = '\\' ∨ c = ']' → c ∉ port := by
    intro c listed inside
    obtain ⟨digit,faint⟩ := numeric_apart lawful listed
    simpa [digit,faint] using numeral c inside
  obtain ⟨host,rfl,inner⟩ : ∃ host, w = host ++ ':' :: port ∧ Behind x host := by
    rcases behind with rfl | ⟨front,c,split,ends⟩
    · exact ⟨x,rfl,.inl rfl⟩
    · have absent : c ∉ ':' :: port := by
        rw [List.mem_cons,not_or]
        refine ⟨?_,apart c (ends.elim .inl fun slash => .inr (.inl slash))⟩
        rcases ends with rfl | rfl <;> decide
      obtain ⟨host,rfl,same⟩ := append_last absent split
      exact ⟨host,same.symm,.inr ⟨front,c,rfl,ends⟩⟩
  rcases dropPort_colon (fun colon => free (behind_subset inner colon)) port false with whole | ⟨more,split,inside⟩
  · rw [whole]
    exact under_of_behind lawful domain inner under
  · rw [split] at valid
    exact absurd (inside (isHost_colon valid)) (apart ']' (.inr (.inr rfl)))

theorem hostIn_under {x y text host : List Char} (under : EndsIn u d x) (free : ':' ∉ x)
    (shape : (∀ c ∈ y, isSpace c = true) ∨ ∃ p, y = ':' :: p ∧ ∀ c ∈ p, u.numeric c = true)
    (alike : Alike (x ++ y) text) (read : hostIn (text.dropWhile isBackslash) = some host) : EndsIn u d host := by
  have behind := afterUserinfo_behind text
  obtain ⟨rest,rfl,more,faint,near⟩ := alike_under lawful domain under alike
  obtain ⟨valid,found⟩ := Option.ite_none_right_eq_some.mp read
  obtain rfl := Option.some.inj found
  rcases shape with spaces | ⟨p,rfl,numeral⟩
  · refine under_plain lawful domain under free ?_ behind valid
    intro c inside
    rcases near with rfl | rfl
    · simp [isFaint,spaces c (by simp [inside])]
    · rcases List.mem_append.mp inside with here | later
      · simp [isFaint,spaces c here]
      · exact faint c later
  · have colon : ':' ∉ more := fun inside => absurd (faint ':' inside) (by decide)
    rcases near with split | rfl
    · obtain ⟨port,rfl,rfl⟩ := @append_last _ [] _ _ _ _ colon split.symm
      exact under_port lawful domain under free (fun c inside => .inl (numeral c (by simp [inside]))) behind valid
    · refine under_port lawful domain under free ?_ behind valid
      intro c inside
      rcases List.mem_append.mp inside with here | later
      · exact .inl (numeral c here)
      · exact .inr (faint c later)

end Hosts

section Bound
variable {library : Library} (lawful : library.unicode.Lawful) {grants : List CapabilityGrant} {d url origin : List Char}
include lawful

theorem authorityOf_granted (domain : ∀ c ∈ d, isForbidden c = false)
    (granted : ∀ g ∈ grants, g.capability = "browser.navigate" → ∀ p ∈ g.patterns, p.toList = "https://*.".toList ++ d)
    (read : originOf library url = .ok origin)
    (allowed : allowsOrigin library.unicode grants "browser.navigate" origin = true) (apart : isApart url = false) :
    ∃ x y text, netlocOf (JsonLines.strip url) = x ++ y ∧ ':' ∉ x ∧ EndsIn library.unicode d x ∧
      ((∀ c ∈ y, isSpace c = true) ∨ ∃ p, y = ':' :: p ∧ ∀ c ∈ p, library.unicode.numeric c = true) ∧
      Alike (x ++ y) text ∧ authorityOf url = some (cut text) := by
  obtain ⟨scheme,tail,found,netloc,located,rfl⟩ := originOf_parts read
  obtain ⟨tail',other,alike⟩ := splitScheme_alike apart found
  obtain ⟨_,absent,letter,grammar⟩ := splitScheme_some found
  rw [List.all_eq_true] at grammar
  have ascii : library.unicode.lowercase scheme = scheme.map Char.toLower :=
    Unicode.lowerFrom_ascii lawful (fun c inside => (isSchemeChar_bounds (grammar c inside)).2) false
  obtain ⟨first,start⟩ : ∃ first, (library.unicode.lowercase scheme).head? = some first := by
    rw [ascii]
    cases scheme with
    | nil => simp at letter
    | cons c rest => exact ⟨c.toLower,rfl⟩
  have visible : isSpace first = false := by
    rw [Bool.eq_false_iff]
    intro space
    have inside := (Unicode.mem_lowerFrom lawful (by simp [Unicode.inert,space]) scheme false).mp
      (List.mem_of_head? start)
    have bounds := isSchemeChar_bounds (grammar first inside)
    simp only [isSpace,Bool.or_eq_true,Bool.and_eq_true,decide_eq_true_eq,beq_iff_eq] at space
    omega
  have free : ':' ∉ library.unicode.lowercase scheme :=
    mt (Unicode.mem_lowerFrom lawful (by rfl) scheme false).mp absent
  rw [Unicode.lowercase_lowercase lawful] at allowed
  obtain ⟨https,h,port,under,colonless,host⟩ :=
    allowsOrigin_under lawful domain granted first start visible free allowed
  rw [Unicode.lowercase_lowercase lawful,ascii] at https
  rw [Unicode.lowercase_trim lawful,Unicode.lowercase_lowercase lawful] at host
  obtain ⟨x,y,split,bare,ends,shape⟩ := netloc_shape lawful under colonless host
  have near : Alike (x ++ y) (tail'.takeWhile fun c => !endsNetloc c) := by
    rw [← split,netloc]
    exact alike.takeWhile
  refine ⟨x,y,_,split,bare,ends,shape,near,?_⟩
  obtain ⟨rest,longer,_⟩ := alike_under lawful domain ends near
  obtain ⟨front,c,rfl,kept⟩ := under_last lawful domain ends
  have some : ∃ c ∈ tail'.takeWhile fun c => !endsNetloc c, isBackslash c = false := by
    refine ⟨c,by simp [longer],?_⟩
    rw [Bool.eq_false_iff]
    intro slash
    rw [beq_iff_eq.mp slash] at kept
    exact absurd kept (by decide)
  have special : scheme.map Char.toLower ∈ specialSchemes := by
    rw [https]
    decide
  unfold authorityOf
  simp only [other]
  rw [if_pos special,← authority_cut some]
  rfl

/-- Where the two readers of a URL agree well enough: the browser reads no scheme, or no backslash
stands in the netloc after those it begins with, or no host outside the domain stands before it. -/
def Agreed (u : Unicode) (d url : List Char) : Prop :=
  isApart url = true ∨ '\\' ∉ (netlocOf (JsonLines.strip url)).dropWhile isBackslash ∨
    ∀ host, hostIn (cut (netlocOf (JsonLines.strip url))) = some host → EndsIn u d host

/-- A granted origin bounds the host that the browser contacts exactly where the two readers agree. -/
theorem grantedHost_iff (domain : ∀ c ∈ d, isForbidden c = false)
    (granted : ∀ g ∈ grants, g.capability = "browser.navigate" → ∀ p ∈ g.patterns, p.toList = "https://*.".toList ++ d)
    (read : originOf library url = .ok origin)
    (allowed : allowsOrigin library.unicode grants "browser.navigate" origin = true) :
    (∀ host, browserHost url = some host → EndsIn library.unicode d host) ↔ Agreed library.unicode d url := by
  by_cases apart : isApart url = true
  · simp [browserHost,authorityOf_apart apart,Agreed,apart]
  obtain ⟨x,y,text,split,free,under,shape,alike,authority⟩ :=
    authorityOf_granted lawful domain granted read allowed (by simpa using apart)
  have contacts : browserHost url = hostIn (cut text) := by
    rw [browserHost,authority]
    rfl
  rw [contacts,Agreed,split]
  by_cases inside : '\\' ∈ (x ++ y).dropWhile isBackslash
  · simp [apart,inside,cut_alike alike inside]
  · have whole : cut text = text.dropWhile isBackslash := by
      rw [cut,List.takeWhile_eq_self_iff]
      intro c member
      have other : c ≠ '\\' := by
        rintro rfl
        exact inside ((backslash_alike alike).mpr member)
      simpa [isBackslash] using other
    rw [whole]
    exact ⟨fun _ => .inr (.inl inside),fun _ host read => hostIn_under lawful domain under free shape alike read⟩

end Bound

section Samples

def asciiLibrary : Library where
  unicode := Unicode.ascii
  nfkc text := text
  bracketed _ := none
  repr := String.ofList

def docsGrant : CapabilityGrant := ⟨"browser.navigate",["https://*.example.com"]⟩

theorem docsHost_bounded :
    (∀ host, browserHost "https://docs.example.com/a".toList = some host →
      EndsIn Unicode.ascii "example.com".toList host) ↔
        Agreed Unicode.ascii "example.com".toList "https://docs.example.com/a".toList :=
  @grantedHost_iff asciiLibrary Unicode.ascii_lawful [docsGrant] "example.com".toList
    "https://docs.example.com/a".toList "https://docs.example.com".toList
    (fun c inside => Bool.not_eq_eq_eq_not.mp (List.all_eq_true.mp (by decide +kernel :
      ("example.com".toList.all fun c => !isForbidden c) = true) c inside))
    (by simp [docsGrant]) (by decide +kernel) (by decide +kernel)

/-- Of this URL the policy reads a host that ends in the backslash's other side. -/
theorem backslash_escapes : ∃ origin, originOf asciiLibrary "https://evil.com\\.example.com/".toList = .ok origin ∧
    allowsOrigin Unicode.ascii [docsGrant] "browser.navigate" origin = true ∧
    browserHost "https://evil.com\\.example.com/".toList = some "evil.com".toList ∧
    ¬EndsIn Unicode.ascii "example.com".toList "evil.com".toList := by
  refine ⟨"https://evil.com\\.example.com".toList,by decide +kernel,by decide +kernel,by decide +kernel,?_⟩
  rw [EndsIn,← List.isSuffixOf_iff_suffix]
  decide +kernel

end Samples

end Orrery.Sandbox
