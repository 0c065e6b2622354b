import Orrery.Foundation.Patterns

/-! Patterns whose matches end in a terminator and have none before it, taken out of a text one
after the other. What is left of a text without matches, into which others were put, is that
text again; where the removal itself makes a match, it is a terminator that stays behind. -/
namespace Orrery.Foundation
open Patterns

def Shut {α : Type} (ends : α → Bool) (x : List α) : Prop :=
  ∃ body d, x = body ++ [d] ∧ ends d = true ∧ ∀ c ∈ body, ends c = false

structure Fragment {α : Type} (ends : α → Bool) where
  matcher : Matcher α
  Is : List α → Prop
  taken : ∀ {prev text n}, matcher.taken prev text = some n ↔ ∃ x, Is x ∧ x <+: text ∧ x.length = n
  shut : ∀ {x}, Is x → Shut ends x

section Shut
variable {α : Type} {ends : α → Bool} {x y s : List α} {c d : α}

theorem Shut.ne_nil (shut : Shut ends x) : x ≠ [] := by
  obtain ⟨body,d,rfl,-,-⟩ := shut
  exact List.append_ne_nil_of_right_ne_nil body (List.cons_ne_nil d [])

theorem Shut.terminator {front back : List α} (shut : Shut ends (front ++ d :: back)) (terminates : ends d = true) : back = [] := by
  obtain ⟨body,e,same,-,free⟩ := shut
  obtain rfl | ⟨back,last,rfl⟩ := List.eq_nil_or_concat' back
  · rfl
  · rw [← List.cons_append,← List.append_assoc] at same
    have inside : d ∈ body := by simp [← (List.append_inj' same rfl).1]
    cases (free d inside).symm.trans terminates

theorem Shut.cons (shut : Shut ends (c :: x)) : x = [] ∨ Shut ends x := by
  obtain ⟨body,d,same,terminates,free⟩ := shut
  cases body with
  | nil => exact .inl (List.cons.inj same).2
  | cons e body => exact .inr ⟨body,d,(List.cons.inj same).2,terminates,fun c inside => free c (.tail _ inside)⟩

theorem Shut.eq_of_prefix (one : Shut ends x) (two : Shut ends y) (begins : x <+: y) : x = y := by
  obtain ⟨body,d,rfl,terminates,-⟩ := one
  obtain ⟨back,rfl⟩ := begins
  rw [List.append_assoc,List.singleton_append] at two
  rw [two.terminator terminates,List.append_nil]

theorem Shut.unique (one : Shut ends x) (two : Shut ends y) (first : x <+: s) (second : y <+: s) : x = y := by
  obtain short | long := List.prefix_or_prefix_of_prefix first second
  · exact one.eq_of_prefix two short
  · exact (two.eq_of_prefix one long).symm

theorem Shut.infix_append (one : Shut ends x) (two : Shut ends y) (inside : x <:+: y ++ s) : x <:+ y ∨ x <:+: s := by
  induction y with
  | nil => exact .inr inside
  | cons c y ih =>
    obtain begins | inside := List.infix_cons_iff.mp inside
    · exact .inl (one.unique two begins (List.prefix_append (c :: y) s) ▸ List.suffix_rfl)
    · obtain rfl | two := two.cons
      · exact .inr inside
      · exact (ih two inside).imp_left fun ends_ => ends_.trans (List.suffix_cons c y)

end Shut

section Removal
variable {α : Type} {ends : α → Bool} {m : Fragment ends} {before u s v x : List α} {prev : Option α} {d : α}

theorem Fragment.taken_shut (m : Fragment ends) (is_ : m.Is x) (rest : List α) : m.matcher.taken prev (x ++ rest) = some x.length :=
  m.taken.mpr ⟨x,is_,List.prefix_append x rest,rfl⟩

theorem Fragment.taken_none (m : Fragment ends) : m.matcher.taken prev s = none ↔ ∀ x, m.Is x → ¬x <+: s := by
  rw [Option.eq_none_iff_forall_ne_some]
  exact ⟨fun free x is_ begins => free _ (m.taken.mpr ⟨x,is_,begins,rfl⟩),
    fun free n found => let ⟨x,is_,begins,_⟩ := m.taken.mp found; free x is_ begins⟩

theorem Fragment.taken_is (m : Fragment ends) {rest : List α} (taken : m.matcher.taken prev (x ++ rest) = some x.length) : m.Is x := by
  obtain ⟨y,is_,begins,same⟩ := m.taken.mp taken
  obtain rfl : y = x := List.IsPrefix.eq_of_length
    (List.prefix_of_prefix_length_le begins (List.prefix_append x rest) (Nat.le_of_eq same)) same
  exact is_

inductive Filled (m : Fragment ends) : List α → List α → List α → Prop
  | nil {before : List α} : Filled m before [] []
  | keep {before u s : List α} (c : α) : Filled m (before ++ [c]) u s → Filled m before (c :: u) (c :: s)
  | insert {before u s piece : List α} : m.Is piece → (∀ y, y ≠ [] → y <:+ before → ¬m.Is (y ++ piece)) →
      Filled m (before ++ piece) u s → Filled m before u (piece ++ s)

theorem Filled.front (filled : Filled m before u s) : ∀ {x}, Shut ends x → x <+: s → x <+: u ∨
    ∃ y piece, x = y ++ piece ∧ m.Is piece ∧ ∀ z, z ≠ [] → z <:+ before ++ y → ¬m.Is (z ++ piece) := by
  induction filled with
  | nil => exact fun _ begins => .inl begins
  | @keep before u s c filled ih =>
    intro x shut begins
    cases x with
    | nil => exact .inl List.nil_prefix
    | cons e x =>
      obtain ⟨rfl,behind⟩ := List.cons_prefix_cons.mp begins
      obtain rfl | shut := shut.cons
      · exact .inl (List.prefix_append [e] u)
      · refine (ih shut behind).imp (fun here => List.cons_prefix_cons.mpr ⟨rfl,here⟩) ?_
        rintro ⟨y,piece,rfl,is_,longest⟩
        refine ⟨e :: y,piece,rfl,is_,?_⟩
        rwa [List.append_assoc,List.singleton_append] at longest
  | @insert before u s piece is_ longest filled ih =>
    intro x shut begins
    obtain rfl := shut.unique (m.shut is_) begins (List.prefix_append piece s)
    exact .inr ⟨[],x,rfl,is_,by rwa [List.append_nil]⟩

theorem Filled.sub (filled : Filled m before u s) (free : ∀ x, m.Is x → ¬x <:+: u) : m.matcher.subFrom [] 0 prev s = u := by
  induction filled generalizing prev with
  | nil => rfl
  | @keep before u s c filled ih =>
    have none_ : m.matcher.taken prev (c :: s) = none := by
      rw [m.taken_none]
      intro x is_ begins
      cases x with
      | nil => exact (m.shut is_).ne_nil rfl
      | cons e x =>
        obtain ⟨rfl,behind⟩ := List.cons_prefix_cons.mp begins
        obtain rfl | shut := (m.shut is_).cons
        · exact free _ is_ (List.prefix_append [e] u).isInfix
        · obtain here | ⟨y,piece,rfl,-,longest⟩ := filled.front shut behind
          · exact free _ is_ (List.cons_prefix_cons.mpr ⟨rfl,here⟩).isInfix
          · refine longest (e :: y) (List.cons_ne_nil e y) ⟨before,?_⟩ is_
            rw [List.append_assoc,List.singleton_append]
    rw [Matcher.subFrom_keep none_,ih fun x is_ inside => free x is_ (inside.trans (List.suffix_cons c u).isInfix)]
  | insert is_ longest filled ih =>
    rw [Matcher.subFrom_match (m.taken_shut is_ _),ih free]
    rfl

def Quiet (m : Fragment ends) (before text : List α) : Prop :=
  ∀ y, y ≠ [] → y <:+ before → ∀ z, z ≠ [] → z <+: text → ¬m.Is (y ++ z)

theorem Quiet.start (m : Fragment ends) (text : List α) : Quiet m [] text :=
  fun _ some_ inside => absurd (List.suffix_nil.mp inside) some_

theorem suffix_concat {y : List α} {c : α} (some_ : y ≠ []) (inside : y <:+ before ++ [c]) :
    ∃ y', y = y' ++ [c] ∧ y' <:+ before := by
  obtain ⟨front,whole⟩ := inside
  obtain rfl | ⟨y,last,rfl⟩ := List.eq_nil_or_concat' y
  · exact absurd rfl some_
  · rw [← List.append_assoc] at whole
    obtain ⟨same,lasts⟩ := List.append_inj' whole rfl
    exact ⟨y,by rw [List.singleton_inj.mp lasts],front,same⟩

theorem Quiet.keep {c : α} (quiet : Quiet m before (c :: s)) (free : m.matcher.taken prev (c :: s) = none) :
    Quiet m (before ++ [c]) s := by
  intro y some_ inside z nonempty begins is_
  obtain ⟨y,rfl,before_⟩ := suffix_concat some_ inside
  rw [List.append_assoc,List.singleton_append] at is_
  have begins : c :: z <+: c :: s := List.cons_prefix_cons.mpr ⟨rfl,begins⟩
  cases y with
  | nil => exact m.taken_none.mp free (c :: z) is_ begins
  | cons e y => exact quiet (e :: y) (List.cons_ne_nil e y) before_ (c :: z) (List.cons_ne_nil c z) begins is_

theorem Quiet.skip {piece : List α} (is_ : m.Is piece) : Quiet m (before ++ piece) s := by
  obtain ⟨body,d,rfl,terminates,-⟩ := m.shut is_
  intro y some_ inside z nonempty begins whole
  rw [← List.append_assoc] at inside
  obtain ⟨y,rfl,-⟩ := suffix_concat some_ inside
  rw [List.append_assoc,List.singleton_append] at whole
  exact nonempty ((m.shut whole).terminator terminates)

theorem filled_subFrom (prev : Option α) (s : List α) : ∀ before, Quiet m before s → Filled m before (m.matcher.subFrom [] 0 prev s) s := by
  induction prev, s using m.matcher.scan_induction with
  | nil prev =>
    intro before _
    rw [Matcher.subFrom_nil]
    exact .nil
  | keep prev c s free ih =>
    intro before quiet
    rw [Matcher.subFrom_keep free]
    exact .keep c (ih _ (quiet.keep free))
  | matched prev piece s taken ih =>
    intro before quiet
    have is_ := m.taken_is taken
    rw [Matcher.subFrom_match taken,List.nil_append]
    exact .insert is_ (fun y some_ inside => quiet y some_ inside piece (m.shut is_).ne_nil (List.prefix_append piece s))
      (ih _ (.skip is_))

theorem terminator_left {rest : List α} (terminates : ends d = true) (prev : Option α) (s : List α) : ∀ before v, Quiet m before s →
    m.matcher.subFrom [] 0 prev s = v ++ d :: rest →
    ∃ f back, s = f ++ d :: back ∧ Filled m before v f ∧ ∀ y, y <:+ before ++ (f ++ [d]) → ¬m.Is y := by
  induction prev, s using m.matcher.scan_induction with
  | nil prev =>
    intro before v _ left
    rw [Matcher.subFrom_nil] at left
    cases v <;> cases left
  | keep prev c s free ih =>
    intro before v quiet left
    rw [Matcher.subFrom_keep free] at left
    cases v with
    | nil =>
      obtain ⟨rfl,-⟩ := List.cons.inj left
      refine ⟨[],s,rfl,.nil,fun y inside is_ => ?_⟩
      obtain ⟨y,rfl,before_⟩ := suffix_concat (m.shut is_).ne_nil inside
      cases y with
      | nil => exact m.taken_none.mp free [c] is_ (List.prefix_append [c] s)
      | cons e y => exact quiet (e :: y) (List.cons_ne_nil e y) before_ [c] (List.cons_ne_nil c []) (List.prefix_append [c] s) is_
    | cons e v =>
      obtain ⟨rfl,later⟩ := List.cons.inj left
      obtain ⟨f,back,rfl,filled,apart⟩ := ih _ v (quiet.keep free) later
      refine ⟨c :: f,back,rfl,.keep c filled,?_⟩
      rwa [List.append_assoc,List.singleton_append] at apart
  | matched prev piece s taken ih =>
    intro before v quiet left
    have is_ := m.taken_is taken
    rw [Matcher.subFrom_match taken,List.nil_append] at left
    obtain ⟨f,back,rfl,filled,apart⟩ := ih _ v (.skip is_) left
    refine ⟨piece ++ f,back,(List.append_assoc ..).symm,.insert is_ ?_ filled,?_⟩
    · exact fun y some_ inside => quiet y some_ inside piece (m.shut is_).ne_nil (List.prefix_append piece _)
    · rwa [List.append_assoc] at apart ⊢

theorem subFrom_terminator (terminates : ends d = true) (back : List α) (prev : Option α) (s : List α) :
    (∀ y, y <:+ s ++ [d] → ¬m.Is y) →
    m.matcher.subFrom [] 0 prev (s ++ d :: back) = m.matcher.subFrom [] 0 prev s ++ d :: m.matcher.subFrom [] 0 (some d) back := by
  induction prev, s using m.matcher.scan_induction with
  | nil prev =>
    intro apart
    have none_ : m.matcher.taken prev (d :: back) = none := by
      rw [m.taken_none]
      rintro x is_ ⟨rest,whole⟩
      cases x with
      | nil => exact (m.shut is_).ne_nil rfl
      | cons e x =>
        obtain ⟨rfl,-⟩ := List.cons.inj whole
        have last := (m.shut is_ : Shut ends ([] ++ e :: x)).terminator terminates
        exact apart [e] List.suffix_rfl (last ▸ is_)
    rw [Matcher.subFrom_nil,List.nil_append,List.nil_append,Matcher.subFrom_keep none_]
  | keep prev c s free ih =>
    intro apart
    have none_ : m.matcher.taken prev (c :: (s ++ d :: back)) = none := by
      rw [m.taken_none]
      intro x is_ begins
      obtain short | long := List.prefix_or_prefix_of_prefix begins (List.prefix_append (c :: s) (d :: back))
      · exact m.taken_none.mp free x is_ short
      · obtain ⟨z,rfl⟩ := long
        rw [← List.cons_append] at begins
        cases z with
        | nil =>
          rw [List.append_nil] at is_
          exact m.taken_none.mp free _ is_ List.prefix_rfl
        | cons e z =>
          obtain ⟨rfl,-⟩ := List.cons_prefix_cons.mp ((List.prefix_append_right_inj (c :: s)).mp begins)
          obtain rfl := (m.shut is_).terminator terminates
          exact apart _ List.suffix_rfl is_
    rw [List.cons_append,Matcher.subFrom_keep none_,Matcher.subFrom_keep free,List.cons_append,
      ih fun y inside => apart y (inside.trans (List.suffix_cons c _))]
  | matched prev piece s taken ih =>
    intro apart
    rw [List.append_assoc,Matcher.subFrom_match (m.taken_shut (m.taken_is taken) _),Matcher.subFrom_match taken,List.nil_append,
      List.nil_append,ih fun y inside => apart y (inside.trans ?_)]
    rw [List.append_assoc]
    exact List.suffix_append piece _

theorem Fragment.subFrom_prev (m : Fragment ends) (one two : Option α) (s : List α) :
    m.matcher.subFrom [] 0 one s = m.matcher.subFrom [] 0 two s := by
  have same (one two : Option α) (s : List α) : m.matcher.taken one s = m.matcher.taken two s := by
    ext n
    rw [m.taken,m.taken]
  cases s with
  | nil => rw [Matcher.subFrom_nil,Matcher.subFrom_nil]
  | cons c s => rw [Matcher.subFrom,Matcher.subFrom,same one two]

end Removal

section Layers
variable {α : Type} {ends : α → Bool} {ms : List (Fragment ends)} {l m : Fragment ends} {before u v w s f back rest : List α}
  {stop : Option α} {d : α}

def passes (ms : List (Fragment ends)) (s : List α) : List α := ms.foldl (fun s m => m.matcher.sub [] s) s

def Free (m : Fragment ends) (v : List α) : Prop := ∀ x, m.Is x → ¬x <:+: v

def Clean (ms : List (Fragment ends)) (v : List α) : Prop := ∀ m ∈ ms, Free m v

def Unalike (l m : Fragment ends) : Prop := ∀ x y, l.Is x → m.Is y → ¬x <:+ y ∧ ¬y <:+ x

/-- `s` is `v` with matches put in, those of the last pattern first. Behind none of the texts
on the way does `stop` end a match of the pattern whose matches were put in last. -/
def Layered (stop : Option α) : List (Fragment ends) → List α → List α → Prop
  | [], v, s => v = s
  | m :: ms, v, s => (∃ u, Layered stop ms v u ∧ Filled m [] u s) ∧ ∀ d ∈ stop, ∀ y, y <:+ s ++ [d] → ¬m.Is y

inductive Left (ms : List (Fragment ends)) : List α → List α → Prop
  | last {v s : List α} : Clean ms v → Layered none ms v s → Left ms v s
  | next {d : α} {v w f back : List α} : ends d = true → Clean ms v → Layered (some d) ms v f → Left ms w back →
      Left ms (v ++ d :: w) (f ++ d :: back)

theorem Free.mono (free : Free m v) (inside : u <:+: v) : Free m u := fun x is_ part => free x is_ (part.trans inside)

theorem Clean.mono (clean : Clean ms v) (inside : u <:+: v) : Clean ms u := fun m known => (clean m known).mono inside

theorem Filled.free (filled : Filled m before u s) (unalike : Unalike l m) : Free l u → Free l s := by
  induction filled with
  | nil => exact id
  | @keep before u s c filled ih =>
    intro free x is_ inside
    obtain begins | inside := List.infix_cons_iff.mp inside
    · obtain here | ⟨y,piece,rfl,piece_,-⟩ := (Filled.keep c filled).front (l.shut is_) begins
      · exact free x is_ here.isInfix
      · exact (unalike _ piece is_ piece_).2 (List.suffix_append y piece)
    · exact ih (free.mono (List.suffix_cons c u).isInfix) x is_ inside
  | insert piece_ longest filled ih =>
    intro free x is_ inside
    obtain ends_ | inside := (l.shut is_).infix_append (m.shut piece_) inside
    · exact (unalike x _ is_ piece_).1 ends_
    · exact ih free x is_ inside

theorem Layered.free (unalike : ∀ m ∈ ms, Unalike l m) (layered : Layered stop ms v s) (free : Free l v) : Free l s := by
  induction ms generalizing s with
  | nil =>
    obtain rfl : v = s := layered
    exact free
  | cons m ms ih =>
    obtain ⟨⟨u,layered,filled⟩,-⟩ := layered
    exact filled.free (unalike m (.head _)) (ih (fun p known => unalike p (.tail _ known)) layered)

theorem passes_layered (unalike : ms.Pairwise Unalike) (clean : Clean ms v) (layered : Layered stop ms v s) : passes ms s = v := by
  induction ms generalizing s with
  | nil => exact Eq.symm layered
  | cons m ms ih =>
    obtain ⟨⟨u,layered,filled⟩,-⟩ := layered
    have apart := List.pairwise_cons.mp unalike
    have out := @Filled.sub _ _ _ _ _ _ none filled (layered.free apart.1 (clean m (.head _)))
    rw [passes,List.foldl_cons,Matcher.sub,out]
    exact ih apart.2 (fun p known => clean p (.tail _ known)) layered

theorem passes_terminator (unalike : ms.Pairwise Unalike) (clean : Clean ms v) (terminates : ends d = true)
    (layered : Layered (some d) ms v f) (back : List α) : passes ms (f ++ d :: back) = v ++ d :: passes ms back := by
  induction ms generalizing f back with
  | nil =>
    obtain rfl : v = f := layered
    rfl
  | cons m ms ih =>
    obtain ⟨⟨u,layered,filled⟩,apart_⟩ := layered
    have apart := List.pairwise_cons.mp unalike
    have out := @Filled.sub _ _ _ _ _ _ none filled (layered.free apart.1 (clean m (.head _)))
    rw [passes,List.foldl_cons,Matcher.sub,subFrom_terminator terminates back none f (apart_ d rfl),out,
      m.subFrom_prev (some d) none]
    exact ih apart.2 (fun p known => clean p (.tail _ known)) layered (m.matcher.sub [] back)

theorem layered_passes (ms : List (Fragment ends)) (s : List α) : Layered none ms (passes ms s) s := by
  induction ms generalizing s with
  | nil => rfl
  | cons m ms ih =>
    refine ⟨⟨m.matcher.sub [] s,ih _,filled_subFrom none s [] (.start m s)⟩,?_⟩
    rintro d ⟨⟩

theorem layered_terminator (terminates : ends d = true) (left : passes ms s = v ++ d :: rest) :
    ∃ f back, s = f ++ d :: back ∧ Layered (some d) ms v f := by
  induction ms generalizing s with
  | nil => exact ⟨v,rest,left,rfl⟩
  | cons m ms ih =>
    obtain ⟨u,back',out,layered⟩ := ih left
    obtain ⟨f,back,rfl,filled,apart⟩ := terminator_left terminates none s [] u (.start m s) out
    refine ⟨f,back,rfl,⟨u,layered,filled⟩,?_⟩
    rintro d ⟨⟩ y inside
    exact apart y inside

theorem exists_unclean (unclean : ¬Clean ms s) : ∃ v d rest, s = v ++ d :: rest ∧ ends d = true ∧ Clean ms v ∧ ¬Clean ms (v ++ [d]) := by
  obtain ⟨n,size⟩ : ∃ n, s.length = n := ⟨_,rfl⟩
  induction n generalizing s with
  | zero =>
    obtain rfl := List.length_eq_zero_iff.mp size
    refine absurd (fun m _ x is_ inside => ?_) unclean
    exact (m.shut is_).ne_nil (List.infix_nil.mp inside)
  | succ n ih =>
    obtain ⟨v,c,rfl⟩ := (List.eq_nil_or_concat' s).resolve_left (by rintro rfl; cases size)
    by_cases clean : Clean ms v
    · refine ⟨v,c,[],rfl,?_,clean,unclean⟩
      simp only [Clean,Free,not_forall,not_not] at unclean
      obtain ⟨m,known,x,is_,inside⟩ := unclean
      obtain ends_ | inside := List.infix_concat_iff.mp inside
      · obtain ⟨body,d,rfl,terminates,-⟩ := m.shut is_
        obtain ⟨_,same,-⟩ := suffix_concat (m.shut is_).ne_nil ends_
        rwa [List.singleton_inj.mp (List.append_inj' same rfl).2] at terminates
      · exact absurd inside (clean m known x is_)
    · obtain ⟨v,d,rest,rfl,found⟩ := ih clean (by simpa using size)
      exact ⟨v,d,rest ++ [c],by simp,found⟩

theorem left_passes (unalike : ms.Pairwise Unalike) (s : List α) : Left ms (passes ms s) s := by
  induction size : s.length using Nat.strongRecOn generalizing s with
  | _ n ih =>
    subst size
    by_cases clean : Clean ms (passes ms s)
    · exact .last clean (layered_passes ms s)
    · obtain ⟨v,d,rest,left,terminates,before,-⟩ := exists_unclean clean
      obtain ⟨f,back,rfl,layered⟩ := layered_terminator terminates left
      rw [passes_terminator unalike before terminates layered back]
      refine .next terminates before layered (ih back.length ?_ back rfl)
      rw [List.length_append,List.length_cons]
      omega

theorem left_iff (unalike : ms.Pairwise Unalike) : Left ms w s ↔ passes ms s = w := by
  constructor
  · intro left
    induction left with
    | last clean layered => exact passes_layered unalike clean layered
    | next terminates clean layered left ih => rw [passes_terminator unalike clean terminates layered,ih]
  · rintro rfl
    exact left_passes unalike s

/-- All of `s`, or its part before a terminator, is `v` with matches put in, `v` has none by
itself, and there are `limit` elements of it at least unless it is all there is. -/
structure Untangled (ms : List (Fragment ends)) (limit : ℕ) (v s : List α) : Prop where
  clean : Clean ms v
  filled : Layered none ms v s ∨
    limit ≤ v.length ∧ ∃ f d back, s = f ++ d :: back ∧ ends d = true ∧ Layered (some d) ms v f

theorem Untangled.take {limit : ℕ} (unalike : ms.Pairwise Unalike) (untangled : Untangled ms limit v s) :
    (passes ms s).take limit = v.take limit := by
  obtain layered | ⟨enough,f,d,back,rfl,terminates,layered⟩ := untangled.filled
  · rw [passes_layered unalike untangled.clean layered]
  · rw [passes_terminator unalike untangled.clean terminates layered,List.take_append_of_le_length enough]

theorem exists_untangled {limit : ℕ} (clean : Clean ms ((passes ms s).take limit)) : ∃ v, Untangled ms limit v s := by
  by_cases whole : Clean ms (passes ms s)
  · exact ⟨_,whole,.inl (layered_passes ms s)⟩
  · obtain ⟨v,d,rest,left,terminates,before,unclean⟩ := exists_unclean whole
    obtain ⟨f,back,rfl,layered⟩ := layered_terminator terminates left
    refine ⟨v,before,.inr ⟨?_,f,d,back,rfl,terminates,layered⟩⟩
    by_contra short
    refine unclean (clean.mono (List.IsPrefix.isInfix ?_))
    rw [List.prefix_take_iff]
    refine ⟨⟨rest,?_⟩,?_⟩
    · rw [left,List.append_assoc,List.singleton_append]
    · rw [List.length_append,List.length_singleton]
      omega

end Layers

section Terminated
variable {α : Type} {ends : α → Bool} {atoms : List (Atom α)} {last : α → Bool}

theorem shut_of_matches {x : List α} (within : ∀ atom ∈ atoms, ∀ d, ends d = true → atom.allows d = false)
    (terminates : ∀ d, last d = true → ends d = true) (whole : Matches (atoms ++ [.one last]) x) : Shut ends x := by
  obtain ⟨body,d,rfl,found,whole⟩ := matches_one atoms whole
  refine ⟨body,d,rfl,terminates d found,fun c inside => ?_⟩
  obtain ⟨atom,known,allowed⟩ := matches_allowed whole inside
  rw [← Bool.not_eq_true]
  intro ending
  cases (within atom known c ending).symm.trans allowed

/-- A pattern whose last element is the only one that may be a terminator. -/
def terminated (atoms : List (Atom α)) (last : α → Bool) (within : ∀ atom ∈ atoms, ∀ d, ends d = true → atom.allows d = false)
    (terminates : ∀ d, last d = true → ends d = true) : Fragment ends where
  matcher := Patterns.matcher (atoms ++ [.one last])
  Is := Matches (atoms ++ [.one last])
  taken := by
    intro prev text n
    refine ⟨taken_matches,?_⟩
    rintro ⟨x,is_,begins,rfl⟩
    have shut {x : List α} : Matches (atoms ++ [.one last]) x → Shut ends x := shut_of_matches within terminates
    have some_ : ((matcher (atoms ++ [.one last])).taken prev text).isSome = true :=
      (taken_isSome fun piece whole => (shut whole).ne_nil).mpr ⟨x,is_,begins⟩
    obtain ⟨n,found⟩ := Option.isSome_iff_exists.mp some_
    obtain ⟨y,whole,first,rfl⟩ := taken_matches found
    rw [found,(shut is_).unique (shut whole) begins first]
  shut := shut_of_matches within terminates

end Terminated
end Orrery.Foundation
