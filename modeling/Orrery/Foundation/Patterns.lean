import Orrery.Foundation.Substitution
import Mathlib.Data.List.TakeWhile

/-! Patterns of single characters and repetitions of them, in a row, and the order in which a
backtracking engine finds their matches. -/
namespace Orrery.Foundation.Patterns

inductive Atom (α : Type)
  | one (p : α → Bool)
  | many (p : α → Bool)
  | few (p : α → Bool)

section Engine
variable {α : Type}

def greedily (p : α → Bool) (rests : List α → List (List α)) : List α → List (List α)
  | [] => rests []
  | c :: text => if p c then greedily p rests text ++ rests (c :: text) else rests (c :: text)

def lazily (p : α → Bool) (rests : List α → List (List α)) : List α → List (List α)
  | [] => rests []
  | c :: text => rests (c :: text) ++ if p c then lazily p rests text else []

def rests : List (Atom α) → List α → List (List α)
  | [], text => [text]
  | .one _ :: _, [] => []
  | .one p :: atoms, c :: text => if p c then rests atoms text else []
  | .many p :: atoms, text => greedily p (rests atoms) text
  | .few p :: atoms, text => lazily p (rests atoms) text

def Matches : List (Atom α) → List α → Prop
  | [], piece => piece = []
  | .one p :: atoms, piece => ∃ c rest, piece = c :: rest ∧ p c = true ∧ Matches atoms rest
  | .many p :: atoms, piece => ∃ run rest, piece = run ++ rest ∧ (∀ c ∈ run, p c = true) ∧ Matches atoms rest
  | .few p :: atoms, piece => ∃ run rest, piece = run ++ rest ∧ (∀ c ∈ run, p c = true) ∧ Matches atoms rest

def matcher (atoms : List (Atom α)) : Matcher α where
  taken _ text := ((rests atoms text).head?.map fun rest => text.length-rest.length).filter (0 < ·)
  inside found := by
    obtain ⟨some_,positive⟩ := Option.filter_eq_some_iff.mp found
    obtain ⟨rest,-,rfl⟩ := Option.map_eq_some_iff.mp some_
    exact ⟨of_decide_eq_true positive,Nat.sub_le _ _⟩

end Engine

section Language
variable {α : Type} {p : α → Bool} {after : List α → List (List α)} {atoms : List (Atom α)} {text piece rest : List α} {prev : Option α}

theorem mem_greedily : rest ∈ greedily p after text ↔
    ∃ run text', text = run ++ text' ∧ (∀ c ∈ run, p c = true) ∧ rest ∈ after text' := by
  induction text with
  | nil =>
    constructor
    · exact fun inside => ⟨[],[],rfl,by simp,inside⟩
    · rintro ⟨run,text',whole,-,inside⟩
      rwa [(List.append_eq_nil_iff.mp whole.symm).2] at inside
  | cons c text ih =>
    rw [greedily]
    constructor
    · intro inside
      split at inside
      next here =>
        obtain longer | inside := List.mem_append.mp inside
        · obtain ⟨run,text',rfl,all,inside⟩ := ih.mp longer
          exact ⟨c :: run,text',rfl,by simpa [here] using all,inside⟩
        · exact ⟨[],c :: text,rfl,by simp,inside⟩
      next => exact ⟨[],c :: text,rfl,by simp,inside⟩
    · rintro ⟨run,text',whole,all,inside⟩
      cases run with
      | nil =>
        obtain rfl : c :: text = text' := whole
        split
        · exact List.mem_append_right _ inside
        · exact inside
      | cons d run =>
        obtain ⟨rfl,tail⟩ := List.cons.inj whole
        rw [if_pos (all c (.head _))]
        exact List.mem_append_left _ (ih.mpr ⟨run,text',tail,fun e known => all e (.tail _ known),inside⟩)

theorem mem_lazily : rest ∈ lazily p after text ↔ rest ∈ greedily p after text := by
  induction text with
  | nil => rfl
  | cons c text ih =>
    rw [lazily,greedily]
    split
    · rw [List.mem_append,List.mem_append,ih]
      exact or_comm
    · rw [List.append_nil]

theorem mem_rests : rest ∈ rests atoms text ↔ ∃ piece, text = piece ++ rest ∧ Matches atoms piece := by
  induction atoms generalizing text rest with
  | nil =>
    rw [rests,List.mem_singleton]
    constructor
    · exact fun same => ⟨[],same.symm,rfl⟩
    · rintro ⟨piece,rfl,rfl⟩
      rfl
  | cons atom atoms ih =>
    have repeated (p : α → Bool) : rest ∈ greedily p (rests atoms) text ↔
        ∃ piece, text = piece ++ rest ∧ Matches (.many p :: atoms) piece := by
      rw [mem_greedily]
      constructor
      · rintro ⟨run,text',rfl,all,inside⟩
        obtain ⟨piece,rfl,whole⟩ := ih.mp inside
        exact ⟨run ++ piece,(List.append_assoc ..).symm,run,piece,rfl,all,whole⟩
      · rintro ⟨_,rfl,run,piece,rfl,all,whole⟩
        exact ⟨run,piece ++ rest,List.append_assoc ..,all,ih.mpr ⟨piece,rfl,whole⟩⟩
    cases atom with
    | one p =>
      cases text with
      | nil =>
        refine iff_of_false List.not_mem_nil ?_
        rintro ⟨piece,whole,c,piece',rfl,-⟩
        cases whole
      | cons c text =>
        rw [rests]
        constructor
        · intro inside
          split at inside
          next here =>
            obtain ⟨piece,rfl,whole⟩ := ih.mp inside
            exact ⟨c :: piece,rfl,c,piece,rfl,here,whole⟩
          next => cases inside
        · rintro ⟨_,same,d,piece,rfl,here,whole⟩
          obtain ⟨rfl,rfl⟩ := List.cons.inj same
          rw [if_pos here]
          exact ih.mpr ⟨piece,rfl,whole⟩
    | many p => exact repeated p
    | few p => exact mem_lazily.trans (repeated p)

theorem taken_isSome (solid : ∀ piece, Matches atoms piece → piece ≠ []) :
    ((matcher atoms).taken prev text).isSome = true ↔ ∃ piece, Matches atoms piece ∧ piece <+: text := by
  constructor
  · intro found
    obtain ⟨n,found⟩ := Option.isSome_iff_exists.mp found
    obtain ⟨some_,-⟩ := Option.filter_eq_some_iff.mp found
    obtain ⟨rest,first,-⟩ := Option.map_eq_some_iff.mp some_
    obtain ⟨piece,rfl,whole⟩ := mem_rests.mp (List.mem_of_head? first)
    exact ⟨piece,whole,List.prefix_append piece rest⟩
  · rintro ⟨piece,whole,rest,rfl⟩
    have inside : rest ∈ rests atoms (piece ++ rest) := mem_rests.mpr ⟨piece,rfl,whole⟩
    obtain ⟨rest',others,same⟩ := List.exists_cons_of_ne_nil (List.ne_nil_of_mem inside)
    obtain ⟨piece',split,whole'⟩ := mem_rests.mp (same ▸ List.mem_cons_self : rest' ∈ rests atoms (piece ++ rest))
    have positive := List.length_pos_of_ne_nil (solid piece' whole')
    change Option.isSome (Option.filter _ (Option.map _ (rests atoms (piece ++ rest)).head?)) = true
    rw [same,List.head?_cons,Option.map_some,split,List.length_append,Nat.add_sub_cancel,
      Option.filter_some,if_pos (decide_eq_true positive)]
    rfl

theorem taken_matches {n : ℕ} (found : (matcher atoms).taken prev text = some n) :
    ∃ piece, Matches atoms piece ∧ piece <+: text ∧ piece.length = n := by
  obtain ⟨some_,-⟩ := Option.filter_eq_some_iff.mp found
  obtain ⟨rest,first,rfl⟩ := Option.map_eq_some_iff.mp some_
  obtain ⟨piece,rfl,whole⟩ := mem_rests.mp (List.mem_of_head? first)
  exact ⟨piece,whole,List.prefix_append piece rest,by rw [List.length_append,Nat.add_sub_cancel]⟩

theorem occurs_iff (solid : ∀ piece, Matches atoms piece → piece ≠ []) (prev : Option α) (text : List α) :
    (matcher atoms).occurs prev text = true ↔ ∃ piece, Matches atoms piece ∧ piece <:+: text := by
  induction text generalizing prev with
  | nil =>
    refine iff_of_false Bool.false_ne_true ?_
    rintro ⟨piece,whole,inside⟩
    exact solid piece whole (List.infix_nil.mp inside)
  | cons c text ih =>
    rw [Matcher.occurs_cons,Bool.or_eq_true,taken_isSome solid,ih]
    constructor
    · rintro (⟨piece,whole,begins⟩ | ⟨piece,whole,inside⟩)
      · exact ⟨piece,whole,begins.isInfix⟩
      · exact ⟨piece,whole,inside.trans (List.suffix_cons c text).isInfix⟩
    · rintro ⟨piece,whole,inside⟩
      obtain begins | inside := List.infix_cons_iff.mp inside
      · exact .inl ⟨piece,whole,begins⟩
      · exact .inr ⟨piece,whole,inside⟩

theorem matches_append {later : List (Atom α)} : ∀ {atoms : List (Atom α)} {piece : List α},
    Matches (atoms ++ later) piece ↔ ∃ front back, piece = front ++ back ∧ Matches atoms front ∧ Matches later back := by
  intro atoms
  induction atoms with
  | nil =>
    intro piece
    constructor
    · exact fun whole => ⟨[],piece,rfl,rfl,whole⟩
    · rintro ⟨_,back,rfl,rfl,whole⟩
      exact whole
  | cons atom atoms ih =>
    intro piece
    have repeated (p : α → Bool) : Matches (.many p :: (atoms ++ later)) piece ↔
        ∃ front back, piece = front ++ back ∧ Matches (.many p :: atoms) front ∧ Matches later back := by
      constructor
      · rintro ⟨run,_,rfl,all,whole⟩
        obtain ⟨front,back,rfl,begins,ends⟩ := ih.mp whole
        exact ⟨run ++ front,back,(List.append_assoc ..).symm,⟨run,front,rfl,all,begins⟩,ends⟩
      · rintro ⟨_,back,rfl,⟨run,front,rfl,all,begins⟩,ends⟩
        exact ⟨run,front ++ back,List.append_assoc ..,all,ih.mpr ⟨front,back,rfl,begins,ends⟩⟩
    cases atom with
    | one p =>
      constructor
      · rintro ⟨c,_,rfl,here,whole⟩
        obtain ⟨front,back,rfl,begins,ends⟩ := ih.mp whole
        exact ⟨c :: front,back,rfl,⟨c,front,rfl,here,begins⟩,ends⟩
      · rintro ⟨_,back,rfl,⟨c,front,rfl,here,begins⟩,ends⟩
        exact ⟨c,front ++ back,rfl,here,ih.mpr ⟨front,back,rfl,begins,ends⟩⟩
    | many p => exact repeated p
    | few p => exact repeated p

theorem matches_one {q : α → Bool} (atoms : List (Atom α)) (whole : Matches (atoms ++ [.one q]) piece) :
    ∃ body d, piece = body ++ [d] ∧ q d = true ∧ Matches atoms body := by
  obtain ⟨body,_,rfl,begins,d,_,rfl,last,rfl⟩ := matches_append.mp whole
  exact ⟨body,d,rfl,last,begins⟩

def Atom.allows : Atom α → α → Bool
  | .one p | .many p | .few p => p

theorem matches_allowed {c : α} (whole : Matches atoms piece) (inside : c ∈ piece) : ∃ atom ∈ atoms, atom.allows c = true := by
  induction atoms generalizing piece with
  | nil =>
    obtain rfl : piece = [] := whole
    cases inside
  | cons atom atoms ih =>
    have later {rest : List α} (whole : Matches atoms rest) (inside : c ∈ rest) : ∃ a ∈ atom :: atoms, a.allows c = true :=
      let ⟨a,known,allowed⟩ := ih whole inside
      ⟨a,.tail _ known,allowed⟩
    cases atom with
    | one p =>
      obtain ⟨d,rest,rfl,here,whole⟩ := whole
      obtain rfl | inside := List.mem_cons.mp inside
      · exact ⟨_,.head _,here⟩
      · exact later whole inside
    | many p | few p =>
      obtain ⟨run,rest,rfl,all,whole⟩ := whole
      obtain inside | inside := List.mem_append.mp inside
      · exact ⟨_,.head _,all c inside⟩
      · exact later whole inside

theorem sub_one (filler : α) (prev : Option α) (text : List α) :
    (matcher [.one p]).subFrom [filler] 0 prev text = text.map fun c => if p c then filler else c := by
  induction text generalizing prev with
  | nil => rfl
  | cons c text ih =>
    have here : (matcher [.one p]).taken prev (c :: text) = if p c then some 1 else none := by
      by_cases found : p c = true
      · simp [matcher,rests,found]
      · simp [matcher,rests,found]
    rw [List.map_cons,← ih (some c),Matcher.subFrom,here]
    split
    next n found =>
      split at found
      next match_ => cases found; rw [if_pos match_]; rfl
      next => cases found
    next none_ =>
      split at none_
      next => cases none_
      next other => rw [if_neg other]

theorem greedily_head (p : α → Bool) (text : List α) : (greedily p (rests []) text).head? = some (text.dropWhile p) := by
  induction text with
  | nil => rfl
  | cons c text ih =>
    rw [greedily,List.dropWhile_cons]
    split
    · rw [List.head?_append,ih,Option.some_or]
    · rfl

theorem taken_run (c : α) : (matcher [.one p,.many p]).taken prev (c :: text) =
    if p c then some ((text.takeWhile p).length+1) else none := by
  have size : text.length = (text.takeWhile p).length+(text.dropWhile p).length := by
    rw [← List.length_append,List.takeWhile_append_dropWhile]
  by_cases here : p c = true
  · rw [if_pos here]
    change Option.filter _ (Option.map _ (if p c then greedily p (rests []) text else []).head?) = _
    rw [if_pos here,greedily_head,Option.map_some,List.length_cons,size,Option.filter_some,if_pos (decide_eq_true (by omega))]
    congr 1
    omega
  · rw [if_neg here]
    change Option.filter _ (Option.map _ (if p c then greedily p (rests []) text else []).head?) = _
    rw [if_neg here]
    rfl

theorem run_of_taken (taken : (matcher [.one p,.many p]).taken prev (piece ++ rest) = some piece.length) :
    (∀ c ∈ piece, p c = true) ∧ ∀ c ∈ rest.head?, p c = false := by
  cases piece with
  | nil => exact absurd ((matcher _).inside taken).1 (Nat.lt_irrefl 0)
  | cons c piece =>
    rw [List.cons_append,taken_run] at taken
    split at taken
    next here =>
      have size : (List.takeWhile p (piece ++ rest)).length = piece.length := by simpa using taken
      have run : List.takeWhile p (piece ++ rest) = piece := List.IsPrefix.eq_of_length
        (List.prefix_of_prefix_length_le (List.takeWhile_prefix p) (List.prefix_append piece rest) (Nat.le_of_eq size)) size
      have behind : (piece ++ rest).dropWhile p = rest := by
        have whole := List.takeWhile_append_dropWhile (p := p) (l := piece ++ rest)
        rw [run] at whole
        exact List.append_cancel_left whole
      refine ⟨List.forall_mem_cons.mpr ⟨here,fun d inside => List.mem_takeWhile_imp (run.symm ▸ inside)⟩,fun d first => ?_⟩
      have kept := List.head?_dropWhile_not p (piece ++ rest)
      rw [behind,first] at kept
      simpa using kept
    next => cases taken

end Language
end Orrery.Foundation.Patterns
