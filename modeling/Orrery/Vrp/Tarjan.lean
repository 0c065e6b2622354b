import Orrery.Foundation.StrongComponents
import Orrery.Vrp.Components

/-! The search for components (`_sccs`). The dictionaries, the stack and the running
minima of the search are a depth-first search as the library describes it; each `connect`
leaves the stack with what it could not complete, and the lowest number that this reaches. -/
namespace Orrery.Vrp
open Foundation Json
open StrongComponents (Reaches Component)

def nameOf : Key → String
  | .str s => s
  | _ => ""

theorem nameOf_inj {v w : Key} (left : v.isStr = true) (right : w.isStr = true) (same : nameOf v = nameOf w) : v = w := by
  cases v <;> cases w <;> simp_all [nameOf,Key.isStr]

section Sorting

theorem le_names {v w : Key} (left : v.isStr = true) (right : w.isStr = true) :
    Key.le v w = true ↔ nameOf v ≤ nameOf w := by
  cases v <;> cases w <;> simp_all [nameOf,Key.isStr,Key.le]

theorem insertionSort_agree {α : Type} {r s : α → α → Prop} [DecidableRel r] [DecidableRel s] {items : List α}
    (agree : ∀ a ∈ items, ∀ b ∈ items, r a b ↔ s a b) : items.insertionSort r = items.insertionSort s := by
  have mapped := List.map_insertionSort r s id items agree
  rwa [List.map_id,List.map_id] at mapped

theorem sortedSet_names {keys : List Key} (texts : ∀ k ∈ keys, k.isStr = true) : ∃ sorted,
    sortedSet keys = .ok sorted ∧ sorted.Perm keys.dedup ∧ sorted.Pairwise fun v w => nameOf v < nameOf w := by
  let below (v w : Key) : Prop := nameOf v ≤ nameOf w
  have total : Std.Total below := ⟨fun v w => le_total _ _⟩
  have trans : IsTrans Key below := ⟨fun _ _ _ => le_trans⟩
  have strings : ∀ k ∈ keys.dedup, k.isStr = true := fun k inside => texts k (List.mem_dedup.mp inside)
  have moved := List.perm_insertionSort below keys.dedup
  refine ⟨keys.dedup.insertionSort below,?_,moved,?_⟩
  · have plain : keys.dedup.all Key.isStr = true := List.all_eq_true.mpr strings
    unfold sortedSet
    simp only [plain,Bool.or_true,Bool.true_or,if_true]
    exact congrArg Except.ok (insertionSort_agree fun v inside w inside' =>
      le_names (strings v inside) (strings w inside'))
  · have apart := moved.symm.nodup keys.nodup_dedup
    refine ((List.pairwise_insertionSort below keys.dedup).and apart).imp_of_mem ?_
    intro v w inside inside' both
    have here := strings v (moved.mem_iff.mp inside)
    have there := strings w (moved.mem_iff.mp inside')
    exact lt_of_le_of_ne both.1 fun same => both.2 (nameOf_inj here there same)

end Sorting

namespace Search

def known (s : Search) : List Key := s.index.map (·.1)

@[simp] theorem known_enter (s : Search) (v : Key) : (s.enter v).known = v :: s.known := rfl

theorem getD_lookup_cons (entries : List (Key × Nat)) (v x : Key) (n : Nat) :
    ((((v,n) :: entries).lookup x).getD 0) = if x = v then n else (entries.lookup x).getD 0 := by
  by_cases here : x = v
  · simp [here]
  · have apart : (x == v) = false := by simpa using here
    simp [List.lookup_cons,apart,here]

theorem indexOf_enter (s : Search) (v x : Key) :
    (s.enter v).indexOf x = if x = v then s.counter else s.indexOf x := getD_lookup_cons _ _ _ _

theorem lowOf_enter (s : Search) (v x : Key) : (s.enter v).lowOf x = if x = v then s.counter else s.lowOf x :=
  getD_lookup_cons _ _ _ _

@[simp] theorem indexOf_lower (s : Search) (v x : Key) (bound : Nat) : (s.lower v bound).indexOf x = s.indexOf x := rfl

theorem lowOf_lower (s : Search) (v x : Key) (bound : Nat) :
    (s.lower v bound).lowOf x = if x = v then min (s.lowOf v) bound else s.lowOf x :=
  getD_lookup_cons _ _ _ _

end Search

section Search
variable (nodes : List Key) (edge : Key → Key → Prop)

structure Sound (gray : List Key) (s : Search) : Prop where
  numbers : ∀ x ∈ s.known, s.indexOf x < s.counter
  named : ∀ x ∈ s.known, x ∈ nodes
  found : ∀ x, x ∈ s.known ↔ x ∈ s.stack ∨ x ∈ s.comps.flatten
  sorted : ∀ comp ∈ s.comps, comp.Pairwise fun v w => nameOf v < nameOf w
  search : StrongComponents.Search edge gray s.indexOf s.stack s.comps

structure Grown (s t : Search) (pushed : List Key) : Prop where
  stack : t.stack = pushed ++ s.stack
  known : ∀ x ∈ s.known, x ∈ t.known
  index : ∀ x ∈ s.known, t.indexOf x = s.indexOf x
  low : ∀ x ∈ s.known, t.lowOf x = s.lowOf x
  counter : s.counter ≤ t.counter
  fresh : ∀ x ∈ pushed, x ∈ t.known ∧ s.counter ≤ t.indexOf x

structure Settled (gray : List Key) (v : Key) (s t : Search) (pushed : List Key) : Prop where
  sound : Sound nodes edge gray t
  grown : Grown s t pushed
  found : v ∈ t.known
  lowest : s.counter ≤ t.lowOf v ∨ ∃ y ∈ s.stack, t.indexOf y = t.lowOf v ∧ Reaches edge v y
  bound : ∀ x ∈ pushed, ∀ y ∈ s.stack, edge x y → t.lowOf v ≤ t.indexOf y

structure Looking (gray : List Key) (v : Key) (s t : Search) (pushed seen : List Key) : Prop where
  before : Sound nodes edge gray s
  new : v ∉ s.known
  sound : Sound nodes edge (v :: gray) t
  grown : Grown s t (pushed ++ [v])
  root : t.indexOf v = s.counter
  lowest : ∃ y ∈ v :: s.stack, t.indexOf y = t.lowOf v ∧ Reaches edge v y
  bound : ∀ x ∈ pushed, ∀ y ∈ s.stack, edge x y → t.lowOf v ≤ t.indexOf y
  seen : ∀ w ∈ seen, w ∈ t.known ∧ (w ∈ s.stack → t.lowOf v ≤ t.indexOf w)

end Search

section Steps
variable {nodes : List Key} {edge : Key → Key → Prop} {gray pushed seen : List Key} {v w : Key} {s t u : Search}

theorem Sound.lower (sound : Sound nodes edge gray s) (v : Key) (bound : Nat) :
    Sound nodes edge gray (s.lower v bound) :=
  ⟨sound.numbers,sound.named,sound.found,sound.sorted,sound.search⟩

theorem Grown.trans {more : List Key} (first : Grown s t pushed) (second : Grown t u more) :
    Grown s u (more ++ pushed) where
  stack := by rw [second.stack,first.stack,List.append_assoc]
  known x inside := second.known x (first.known x inside)
  index x inside := (second.index x (first.known x inside)).trans (first.index x inside)
  low x inside := (second.low x (first.known x inside)).trans (first.low x inside)
  counter := first.counter.trans second.counter
  fresh x inside := by
    rcases List.mem_append.mp inside with new | old
    · exact ⟨(second.fresh x new).1,first.counter.trans (second.fresh x new).2⟩
    · obtain ⟨here,above⟩ := first.fresh x old
      exact ⟨second.known x here,by rwa [second.index x here]⟩

theorem Grown.lower (grown : Grown s t pushed) (new : v ∉ s.known) (bound : Nat) :
    Grown s (t.lower v bound) pushed where
  stack := grown.stack
  known := grown.known
  index := grown.index
  low x inside := by
    have apart : x ≠ v := fun here => new (here ▸ inside)
    rw [Search.lowOf_lower,if_neg apart]
    exact grown.low x inside
  counter := grown.counter
  fresh := grown.fresh

theorem looking_enter (sound : Sound nodes edge gray s) (new : v ∉ s.known) (node : v ∈ nodes)
    (found : ∀ g ∈ gray, Reaches edge g v) : Looking nodes edge gray v s (s.enter v) [] [] := by
  have absent := new
  rw [sound.found,not_or] at absent
  have apart : ∀ x ∈ s.known, x ≠ v := fun x inside here => new (here ▸ inside)
  have ranks : ∀ x ∈ s.stack, (s.enter v).indexOf x = s.indexOf x := by
    intro x inside
    rw [Search.indexOf_enter,if_neg (apart x ((sound.found x).mpr (.inl inside)))]
  have root : (s.enter v).indexOf v = s.counter := by rw [Search.indexOf_enter,if_pos rfl]
  refine ⟨sound,new,⟨?_,?_,?_,sound.sorted,?_⟩,⟨rfl,?_,?_,?_,Nat.le_succ _,?_⟩,root,?_,by simp,by simp⟩
  · intro x inside
    rw [Search.known_enter,List.mem_cons] at inside
    rw [Search.indexOf_enter]
    split
    · exact Nat.lt_succ_self _
    next other => exact Nat.lt_succ_of_lt (sound.numbers x (inside.resolve_left other))
  · intro x inside
    rcases List.mem_cons.mp inside with rfl | old
    · exact node
    · exact sound.named x old
  · intro x
    rw [Search.known_enter,List.mem_cons,sound.found,← or_assoc]
    simp [Search.enter]
  · refine (sound.search.congr ranks).enter absent.1 absent.2 ?_ found
    intro x inside
    rw [root,ranks x inside]
    exact sound.numbers x ((sound.found x).mpr (.inl inside))
  · exact fun x inside => List.mem_cons_of_mem v inside
  · intro x inside
    rw [Search.indexOf_enter,if_neg (apart x inside)]
  · intro x inside
    rw [Search.lowOf_enter,if_neg (apart x inside)]
  · intro x inside
    obtain rfl := List.mem_singleton.mp inside
    exact ⟨List.mem_cons_self,root.ge⟩
  · refine ⟨v,List.mem_cons_self,?_,.refl⟩
    rw [root,Search.lowOf_enter,if_pos rfl]

namespace Looking
variable (looking : Looking nodes edge gray v s t pushed seen)
include looking

theorem stack : t.stack = pushed ++ v :: s.stack := by
  rw [looking.grown.stack,List.append_assoc]
  rfl

theorem under {y : Key} (inside : y ∈ s.stack) : y ∈ s.known ∧ y ∈ t.stack ∧ t.indexOf y < s.counter := by
  have known := (looking.before.found y).mpr (.inl inside)
  refine ⟨known,by simp [looking.stack,inside],?_⟩
  rw [looking.grown.index y known]
  exact looking.before.numbers y known

theorem here : v ∈ t.known ∧ v ∈ t.stack := by
  have listed : v ∈ t.stack := by simp [looking.stack]
  exact ⟨(looking.sound.found v).mpr (.inl listed),listed⟩

theorem low_le : t.lowOf v ≤ s.counter := by
  obtain ⟨y,inside,same,_⟩ := looking.lowest
  rw [← same]
  rcases List.mem_cons.mp inside with rfl | below
  · exact looking.root.le
  · exact Nat.le_of_lt (looking.under below).2.2

theorem deep {y : Key} (inside : y ∈ t.stack) (less : t.indexOf y < t.lowOf v) : y ∈ v :: s.stack := by
  rw [looking.stack,List.mem_append] at inside
  refine inside.resolve_left fun above => ?_
  have upper := (looking.grown.fresh y (by simp [above])).2
  have lower := looking.low_le
  omega

theorem lower {more : List Key} {bound : Nat} (sound : Sound nodes edge (v :: gray) u) (grown : Grown t u more)
    (lowest : bound < t.lowOf v → ∃ y ∈ t.stack, u.indexOf y = bound ∧ Reaches edge v y)
    (covers : ∀ x ∈ more, ∀ y ∈ t.stack, edge x y → bound ≤ u.indexOf y) (found : w ∈ u.known)
    (covered : w ∈ s.stack → bound ≤ u.indexOf w) :
    Looking nodes edge gray v s (u.lower v bound) (more ++ pushed) (w :: seen) := by
  have low : (u.lower v bound).lowOf v = min (t.lowOf v) bound := by
    rw [Search.lowOf_lower,if_pos rfl,grown.low v looking.here.1]
  have index : ∀ y ∈ t.stack, u.indexOf y = t.indexOf y :=
    fun y inside => grown.index y ((looking.sound.found y).mpr (.inl inside))
  refine ⟨looking.before,looking.new,sound.lower v bound,?_,?_,?_,?_,?_⟩
  · rw [List.append_assoc]
    exact (looking.grown.trans grown).lower looking.new bound
  · exact (index v looking.here.2).trans looking.root
  · rw [low]
    rcases Nat.lt_or_ge bound (t.lowOf v) with less | least
    · obtain ⟨y,inside,same,path⟩ := lowest less
      have deep := looking.deep inside (by rwa [← index y inside,same])
      exact ⟨y,deep,by rw [Search.indexOf_lower,same,Nat.min_eq_right (Nat.le_of_lt less)],path⟩
    · obtain ⟨y,inside,same,path⟩ := looking.lowest
      have standing : y ∈ t.stack := by
        rw [looking.stack]
        exact List.mem_append_right _ inside
      exact ⟨y,inside,by rw [Search.indexOf_lower,index y standing,same,Nat.min_eq_left least],path⟩
  · intro x inside y below step
    have standing := (looking.under below).2.1
    rw [low,Search.indexOf_lower]
    rcases List.mem_append.mp inside with new | old
    · exact (Nat.min_le_right _ _).trans (covers x new y standing step)
    · rw [index y standing]
      exact (Nat.min_le_left _ _).trans (looking.bound x old y below step)
  · intro x inside
    rw [low,Search.indexOf_lower]
    rcases List.mem_cons.mp inside with rfl | old
    · exact ⟨found,fun below => (Nat.min_le_right _ _).trans (covered below)⟩
    · obtain ⟨known,least⟩ := looking.seen x old
      refine ⟨grown.known x known,fun below => ?_⟩
      rw [index x (looking.under below).2.1]
      exact (Nat.min_le_left _ _).trans (least below)

theorem searched {more : List Key} (step : edge v w) (unknown : w ∉ t.known)
    (settled : Settled nodes edge (v :: gray) w t u more) :
    Looking nodes edge gray v s (u.lower v (u.lowOf w)) (more ++ pushed) (w :: seen) := by
  refine looking.lower settled.sound settled.grown ?_ settled.bound settled.found ?_
  · intro less
    rcases settled.lowest with above | ⟨y,inside,same,path⟩
    · have low := looking.low_le
      have counted := looking.grown.counter
      omega
    · exact ⟨y,inside,same,.head step path⟩
  · intro below
    exact absurd (looking.grown.known w (looking.under below).1) unknown

theorem standing (step : edge v w) (inside : w ∈ t.stack) :
    Looking nodes edge gray v s (t.lower v (t.indexOf w)) pushed (w :: seen) := by
  have unchanged : Grown t t [] := ⟨rfl,fun _ => id,fun _ _ => rfl,fun _ _ => rfl,Nat.le_refl _,by simp⟩
  refine looking.lower looking.sound unchanged ?_ (by simp) ((looking.sound.found w).mpr (.inl inside)) ?_
  · exact fun _ => ⟨w,inside,rfl,.single step⟩
  · exact fun _ => Nat.le_refl _

theorem finished (known : w ∈ t.known) (complete : w ∉ t.stack) :
    Looking nodes edge gray v s t pushed (w :: seen) := by
  refine ⟨looking.before,looking.new,looking.sound,looking.grown,looking.root,looking.lowest,looking.bound,?_⟩
  intro x inside
  rcases List.mem_cons.mp inside with rfl | old
  · exact ⟨known,fun below => absurd (looking.under below).2.1 complete⟩
  · exact looking.seen x old

section Leave
variable (covered : ∀ y, edge v y → y ∈ seen)
include covered

theorem successors {y : Key} (step : edge v y) : y ∈ t.stack ∨ y ∈ t.comps.flatten :=
  (looking.sound.found y).mp (looking.seen y (covered y step)).1

theorem inward (root : t.lowOf v = t.indexOf v) {x y : Key} (inside : x ∈ v :: pushed) (below : y ∈ s.stack) :
    ¬ edge x y := by
  intro step
  have number := (looking.under below).2.2
  have least : t.lowOf v ≤ t.indexOf y := by
    rcases List.mem_cons.mp inside with rfl | above
    · exact (looking.seen y (covered y step)).2 below
    · exact looking.bound x above y below step
  have same := looking.root
  omega

theorem close (texts : ∀ x ∈ nodes, x.isStr = true) (root : t.lowOf v = t.indexOf v) :
    ∃ u, t.close v = .ok u ∧ Settled nodes edge gray v s u [] := by
  have separate := (List.nodup_append.mp looking.sound.search.separate).1
  rw [looking.stack] at separate
  have above : ∀ x ∈ pushed, decide (x ≠ v) = true := by
    intro x inside
    exact decide_eq_true ((List.nodup_append.mp separate).2.2 x inside v List.mem_cons_self)
  have taken : t.stack.takeWhile (· ≠ v) = pushed := by
    rw [looking.stack,List.takeWhile_append_of_pos above]
    simp
  have dropped : (t.stack.dropWhile (· ≠ v)).drop 1 = s.stack := by
    rw [looking.stack,List.dropWhile_append_of_pos above]
    simp
  have listed : ∀ x ∈ pushed ++ [v], x ∈ t.stack := by
    intro x inside
    rw [looking.stack,List.mem_append,List.mem_cons]
    rcases List.mem_append.mp inside with above | root
    · exact .inl above
    · exact .inr (.inl (List.mem_singleton.mp root))
  have names : ∀ x ∈ pushed ++ [v], x.isStr = true := fun x inside =>
    texts x (looking.sound.named x ((looking.sound.found x).mpr (.inl (listed x inside))))
  obtain ⟨comp,sorted,moved,ordered⟩ := sortedSet_names names
  have single : (pushed ++ [v]).Nodup := by
    refine separate.sublist ?_
    exact List.Sublist.append_left (by simp) pushed
  rw [single.dedup] at moved
  refine ⟨{ t with stack := s.stack, comps := t.comps ++ [comp] },?_,?_⟩
  · rw [Search.close,taken,sorted,ok_bind,dropped]
    rfl
  have search := looking.sound.search
  rw [looking.stack] at search
  have held : ∀ g ∈ gray, g ∈ s.stack := looking.before.search.held
  have closed := search.close held (fun y step => looking.stack ▸ looking.successors covered step)
    (fun x inside y below => looking.inward covered root inside below)
    (moved.trans (@List.perm_append_comm _ _ [v]))
  refine ⟨⟨looking.sound.numbers,looking.sound.named,?_,?_,closed⟩,?_,looking.here.1,?_,by simp⟩
  · intro x
    refine (looking.sound.found x).trans ?_
    simp only [looking.stack,List.flatten_append,List.flatten_singleton,List.mem_append,moved.mem_iff,List.mem_cons,
      List.not_mem_nil,or_false]
    tauto
  · intro other inside
    rcases List.mem_append.mp inside with old | new
    · exact looking.sound.sorted other old
    · obtain rfl := List.mem_singleton.mp new
      exact ordered
  · exact ⟨rfl,looking.grown.known,looking.grown.index,looking.grown.low,looking.grown.counter,by simp⟩
  · left
    exact (root.trans looking.root).ge

theorem leave (lower : t.lowOf v ≠ t.indexOf v) : Settled nodes edge gray v s t (pushed ++ [v]) := by
  obtain ⟨y,inside,same,path⟩ := looking.lowest
  have below : y ∈ s.stack := by
    refine (List.mem_cons.mp inside).resolve_left ?_
    rintro rfl
    exact lower same.symm
  have less : t.indexOf y < t.indexOf v := by
    rw [looking.root]
    exact (looking.under below).2.2
  refine ⟨⟨looking.sound.numbers,looking.sound.named,looking.sound.found,looking.sound.sorted,?_⟩,looking.grown,
    looking.here.1,.inr ⟨y,below,same,path⟩,?_⟩
  · exact looking.sound.search.retire (fun _ step => looking.successors covered step)
      ⟨y,(looking.under below).2.1,less,path⟩
  · intro x inside z under step
    rcases List.mem_append.mp inside with above | root
    · exact looking.bound x above z under step
    · obtain rfl := List.mem_singleton.mp root
      exact (looking.seen z (covered z step)).2 under

end Leave

end Looking

end Steps

section Run
variable (near : Key → Except Exc (List Key))

def visit (depth : Nat) (v : Key) (s : Search) (w : Key) : Except Exc Search := do
  if w ∉ s.index.map (·.1) then
    let s ← connect near depth w s
    return s.lower v (s.lowOf w)
  else if w ∈ s.stack then return s.lower v (s.indexOf w)
  else return s

theorem visit_eq (depth : Nat) (v : Key) (s : Search) (w : Key) : visit near depth v s w =
    if w ∉ s.known then (do
      let s ← connect near depth w s
      return s.lower v (s.lowOf w))
    else if w ∈ s.stack then .ok (s.lower v (s.indexOf w))
    else .ok s := rfl

theorem connect_succ (depth : Nat) (v : Key) (s : Search) : connect near (depth+1) v s = (do
    let s ← (← near v).foldlM (visit near depth v) (s.enter v)
    if s.lowOf v = s.indexOf v then s.close v else return s) := rfl

def tooDeep : Exc := .other "RecursionError" "maximum recursion depth exceeded"

structure Lists (nodes : List Key) (edge : Key → Key → Prop) : Prop where
  rows : ∀ v ∈ nodes, ∃ row, near v = .ok row ∧ ∀ w, w ∈ row ↔ edge v w
  targets : ∀ v w, edge v w → w ∈ nodes
  texts : ∀ v ∈ nodes, v.isStr = true

def unfound (nodes : List Key) (s : Search) : Nat := nodes.countP (· ∉ s.known)

variable {near} {nodes : List Key} {edge : Key → Key → Prop}

theorem unfound_mono {s t : Search} (known : ∀ x ∈ s.known, x ∈ t.known) : unfound nodes t ≤ unfound nodes s := by
  apply List.countP_mono_left
  intro x _ absent
  simp only [decide_eq_true_eq] at absent ⊢
  exact fun inside => absent (known x inside)

theorem unfound_enter {s : Search} {v : Key} (node : v ∈ nodes) (new : v ∉ s.known) :
    unfound nodes (s.enter v) < unfound nodes s := by
  obtain ⟨front,back,rfl⟩ := List.append_of_mem node
  have wider : ∀ x ∈ s.known, x ∈ (s.enter v).known := fun x inside => List.mem_cons_of_mem v inside
  have first : unfound front (s.enter v) ≤ unfound front s := unfound_mono wider
  have last : unfound back (s.enter v) ≤ unfound back s := unfound_mono wider
  simp only [unfound,List.countP_append,List.countP_cons,new,Search.known_enter,List.mem_cons,true_or] at first last ⊢
  simp only [not_true_eq_false,not_false_eq_true,decide_true,decide_false,if_true,Bool.false_eq_true,if_false]
  omega

def Connects (nodes : List Key) (edge : Key → Key → Prop) (depth : Nat) (gray : List Key) (v : Key) (s : Search)
    (result : Except Exc Search) : Prop :=
  (depth < unfound nodes s ∧ result = .error tooDeep) ∨
    ∃ t pushed, result = .ok t ∧ Settled nodes edge gray v s t pushed

theorem visits {depth : Nat} (lists : Lists near nodes edge)
    (deeper : ∀ gray v s, Sound nodes edge gray s → v ∈ nodes → v ∉ s.known → (∀ g ∈ gray, Reaches edge g v) →
      Connects nodes edge depth gray v s (connect near depth v s))
    {gray : List Key} {v : Key} {s : Search} (row : List Key) : ∀ {t : Search} {pushed seen : List Key},
    (∀ w ∈ row, edge v w) → Looking nodes edge gray v s t pushed seen →
    (depth < unfound nodes (s.enter v) ∧ row.foldlM (visit near depth v) t = .error tooDeep) ∨
    ∃ u more, row.foldlM (visit near depth v) t = .ok u ∧
      Looking nodes edge gray v s u more (row.reverse ++ seen) := by
  induction row with
  | nil => exact fun _ looking => .inr ⟨_,_,rfl,looking⟩
  | cons w row ih =>
    intro t pushed seen steps looking
    have step := steps w (by simp)
    have further : ∀ x ∈ row, edge v x := fun x inside => steps x (by simp [inside])
    have order : (w :: row).reverse ++ seen = row.reverse ++ (w :: seen) := by simp
    rw [List.foldlM_cons,order]
    by_cases known : w ∈ t.known
    · by_cases standing : w ∈ t.stack
      · have next : visit near depth v t w = .ok (t.lower v (t.indexOf w)) := by
          rw [visit_eq,if_neg (not_not.mpr known),if_pos standing]
        rw [next]
        exact ih further (looking.standing step standing)
      · have next : visit near depth v t w = .ok t := by
          rw [visit_eq,if_neg (not_not.mpr known),if_neg standing]
        rw [next]
        exact ih further (looking.finished known standing)
    · have reached : ∀ g ∈ v :: gray, Reaches edge g w := by
        intro g member
        rcases List.mem_cons.mp member with rfl | old
        · exact .single step
        · have below := looking.under (looking.before.search.held g old)
          have lower : t.indexOf g ≤ t.indexOf v := by
            rw [looking.root]
            exact Nat.le_of_lt below.2.2
          exact (looking.sound.search.forth g member v looking.here.2 lower).tail step
      have next : visit near depth v t w = (do
          let u ← connect near depth w t
          return u.lower v (u.lowOf w)) := if_pos known
      rw [next]
      rcases deeper (v :: gray) w t looking.sound (lists.targets v w step) known reached with
        ⟨shallow,raised⟩ | ⟨u,more,ran,settled⟩
      · have fewer : unfound nodes t ≤ unfound nodes (s.enter v) := by
          apply unfound_mono
          intro x inside
          rcases List.mem_cons.mp inside with rfl | old
          · exact looking.here.1
          · exact looking.grown.known x old
        exact .inl ⟨by omega,by rw [raised]; rfl⟩
      · rw [ran]
        exact ih further (looking.searched step known settled)

theorem connect_connects (lists : Lists near nodes edge) (depth : Nat) : ∀ gray v s, Sound nodes edge gray s →
    v ∈ nodes → v ∉ s.known → (∀ g ∈ gray, Reaches edge g v) →
    Connects nodes edge depth gray v s (connect near depth v s) := by
  induction depth with
  | zero =>
    intro gray v s _ node new _
    exact .inl ⟨Nat.zero_lt_of_lt (unfound_enter node new),rfl⟩
  | succ depth ih =>
    intro gray v s sound node new reached
    obtain ⟨row,listed,members⟩ := lists.rows v node
    have fewer := unfound_enter node new
    rw [connect_succ,listed,ok_bind]
    rcases visits lists ih row (fun w inside => (members w).mp inside) (looking_enter sound new node reached) with
      ⟨shallow,raised⟩ | ⟨u,more,ran,looking⟩
    · exact .inl ⟨by omega,by rw [raised]; rfl⟩
    · have covered : ∀ y, edge v y → y ∈ row.reverse ++ [] := fun y step => by simpa using (members y).mpr step
      rw [ran,ok_bind]
      by_cases root : u.lowOf v = u.indexOf v
      · obtain ⟨t,closed,settled⟩ := looking.close covered lists.texts root
        exact .inr ⟨t,[],by rw [if_pos root,closed],settled⟩
      · exact .inr ⟨u,_,by rw [if_neg root]; rfl,looking.leave covered root⟩

def root (near : Key → Except Exc (List Key)) (depth : Nat) (s : Search) (v : Key) : Except Exc Search :=
  if v ∉ s.known then connect near depth v s else .ok s

theorem componentsFrom_eq (depth : Nat) (order : List Key) : componentsFrom depth near order = (do
    let s ← order.foldlM (root near depth) Search.start
    return s.comps.insertionSort fun c d => componentLe c d) := rfl

theorem roots (lists : Lists near nodes edge) (depth : Nat) (order : List Key) : ∀ {s : Search},
    (∀ v ∈ order, v ∈ nodes) → Sound nodes edge [] s →
    (depth < unfound nodes s ∧ order.foldlM (root near depth) s = .error tooDeep) ∨
    ∃ t, order.foldlM (root near depth) s = .ok t ∧ Sound nodes edge [] t ∧ (∀ x ∈ s.known, x ∈ t.known) ∧
      ∀ v ∈ order, v ∈ t.known := by
  induction order with
  | nil => exact fun _ sound => .inr ⟨_,rfl,sound,fun _ => id,by simp⟩
  | cons v order ih =>
    intro s inside sound
    have further : ∀ x ∈ order, x ∈ nodes := fun x member => inside x (by simp [member])
    have step : (depth < unfound nodes s ∧ root near depth s v = .error tooDeep) ∨
        ∃ t, root near depth s v = .ok t ∧ Sound nodes edge [] t ∧ (∀ x ∈ s.known, x ∈ t.known) ∧ v ∈ t.known := by
      by_cases known : v ∈ s.known
      · exact .inr ⟨s,if_neg (not_not.mpr known),sound,fun _ => id,known⟩
      · rw [root,if_pos known]
        rcases connect_connects lists depth [] v s sound (inside v (by simp)) known (by simp) with
          raised | ⟨t,pushed,ran,settled⟩
        · exact .inl raised
        · exact .inr ⟨t,ran,settled.sound,settled.grown.known,settled.found⟩
    rw [List.foldlM_cons]
    rcases step with ⟨shallow,raised⟩ | ⟨t,ran,sound',wider,found⟩
    · exact .inl ⟨shallow,by rw [raised]; rfl⟩
    · rw [ran]
      rcases ih further sound' with ⟨shallow,raised⟩ | ⟨u,ran',sound'',wider',found'⟩
      · exact .inl ⟨Nat.lt_of_lt_of_le shallow (unfound_mono wider),raised⟩
      · refine .inr ⟨u,ran',sound'',fun x member => wider' x (wider x member),?_⟩
        intro x member
        rcases List.mem_cons.mp member with rfl | later
        · exact wider' x found
        · exact found' x later

end Run

section Order

theorem cons_le_names (a b : String) (names others : List String) :
    a :: names ≤ b :: others ↔ a < b ∨ a = b ∧ names ≤ others := by
  rw [← not_lt,List.cons_lt_cons_iff,not_or,not_and,not_lt,not_lt,le_iff_lt_or_eq]
  constructor
  · rintro ⟨below | rfl,rest⟩
    · exact .inl below
    · exact .inr ⟨rfl,rest rfl⟩
  · rintro (below | ⟨rfl,rest⟩)
    · exact ⟨.inl below,fun same => absurd (same ▸ below) (lt_irrefl _)⟩
    · exact ⟨.inr rfl,fun _ => rest⟩

theorem namesLe_iff : ∀ {names others : List Key}, (∀ v ∈ names, v.isStr = true) → (∀ w ∈ others, w.isStr = true) →
    (namesLe names others = true ↔ names.map nameOf ≤ others.map nameOf) := by
  intro names
  induction names with
  | nil =>
    intro others _ _
    have first : [] ≤ others.map nameOf := not_lt.mp (List.not_lt_nil _)
    simp [namesLe,first]
  | cons v names ih =>
    intro others texts texts'
    cases others with
    | nil =>
      simp [namesLe]
    | cons w others =>
      rw [namesLe,List.map_cons,List.map_cons,cons_le_names]
      have here := texts v (by simp)
      have there := texts' w (by simp)
      by_cases same : v = w
      · rw [if_pos same,ih (fun x inside => texts x (by simp [inside])) fun x inside => texts' x (by simp [inside])]
        simp [same]
      · have apart : nameOf v ≠ nameOf w := fun equal => same (nameOf_inj here there equal)
        rw [if_neg same,le_names here there]
        simp [apart,le_iff_lt_or_eq]

def Precedes (c d : List Key) : Prop := d.length < c.length ∨ c.length = d.length ∧ c.map nameOf ≤ d.map nameOf

instance : DecidableRel Precedes := fun c d =>
  inferInstanceAs (Decidable (d.length < c.length ∨ c.length = d.length ∧ c.map nameOf ≤ d.map nameOf))

theorem componentLe_iff {c d : List Key} (texts : ∀ v ∈ c, v.isStr = true) (texts' : ∀ w ∈ d, w.isStr = true) :
    componentLe c d = true ↔ Precedes c d := by
  simp [componentLe,Precedes,namesLe_iff texts texts']

instance : Std.Total Precedes := ⟨by
  intro c d
  unfold Precedes
  rcases Nat.lt_trichotomy c.length d.length with less | same | more
  · exact .inr (.inl less)
  · rcases le_total (c.map nameOf) (d.map nameOf) with below | above
    · exact .inl (.inr ⟨same,below⟩)
    · exact .inr (.inr ⟨same.symm,above⟩)
  · exact .inl (.inl more)⟩

instance : IsTrans (List Key) Precedes := ⟨by
  intro c d e first second
  unfold Precedes at *
  rcases first with less | ⟨same,below⟩
  · rcases second with less' | ⟨same',_⟩
    · exact .inl (by omega)
    · exact .inl (by omega)
  · rcases second with less' | ⟨same',below'⟩
    · exact .inl (by omega)
    · exact .inr ⟨same.trans same',le_trans below below'⟩⟩

end Order

/-- The components of a graph: its nodes, parted, sorted, and in order. -/
structure Decomposes (graph : Graph) (comps : List (List Key)) : Prop where
  partition : comps.flatten.Perm graph.nodes.dedup
  nonempty : ∀ comp ∈ comps, comp ≠ []
  share : ∀ v ∈ graph.nodes, ∀ w, (∃ comp ∈ comps, v ∈ comp ∧ w ∈ comp) ↔
    Reaches (fun v w => w ∈ graph.near v) v w ∧ Reaches (fun v w => w ∈ graph.near v) w v
  sorted : ∀ comp ∈ comps, comp.Pairwise fun v w => nameOf v < nameOf w
  ordered : comps.Pairwise Precedes

theorem Sound.decomposes {graph : Graph} {order : List Key} {t : Search}
    (sound : Sound order (fun v w => w ∈ graph.near v) [] t) (member : ∀ v, v ∈ order ↔ v ∈ graph.nodes)
    (texts : ∀ v ∈ graph.nodes, v.isStr = true) (all : ∀ v ∈ order, v ∈ t.known) :
    Decomposes graph (t.comps.insertionSort fun c d => componentLe c d) := by
  have listed : ∀ v, v ∈ t.comps.flatten ↔ v ∈ graph.nodes := by
    intro v
    have found := sound.found v
    rw [sound.search.ended] at found
    simp only [List.not_mem_nil,false_or] at found
    exact ⟨fun inside => (member v).mp (sound.named v (found.mpr inside)),
      fun node => found.mp (all v ((member v).mpr node))⟩
  have names : ∀ comp ∈ t.comps, ∀ v ∈ comp, v.isStr = true := fun comp inside v within =>
    texts v ((listed v).mp (List.mem_flatten.mpr ⟨comp,inside,within⟩))
  have sorted : (t.comps.insertionSort fun c d => componentLe c d) = t.comps.insertionSort Precedes :=
    insertionSort_agree fun c inside d inside' => componentLe_iff (names c inside) (names d inside')
  have moved := List.perm_insertionSort Precedes t.comps
  rw [sorted]
  refine ⟨?_,?_,?_,?_,List.pairwise_insertionSort _ _⟩
  · have single := (List.nodup_append.mp sound.search.separate).2.1
    refine moved.flatten.trans ((List.perm_ext_iff_of_nodup single graph.nodes.nodup_dedup).mpr fun v => ?_)
    rw [listed,List.mem_dedup]
  · exact fun comp inside => (sound.search.components comp (moved.mem_iff.mp inside)).nonempty
  · intro v node w
    obtain ⟨comp,inside,within⟩ := List.mem_flatten.mp ((listed v).mpr node)
    constructor
    · rintro ⟨other,inside',here,there⟩
      exact ((sound.search.components other (moved.mem_iff.mp inside')).connected v here w).mp there
    · intro connected
      exact ⟨comp,moved.mem_iff.mpr inside,within,((sound.search.components comp inside).connected v within w).mpr
        connected⟩
  · exact fun comp inside => sound.sorted comp (moved.mem_iff.mp inside)

theorem sccs_components (graph : Graph) (texts : ∀ v ∈ graph.nodes, v.isStr = true)
    (targets : ∀ v w, w ∈ graph.near v → w ∈ graph.nodes) (limit : Nat) :
    (limit < graph.nodes.dedup.length ∧ sccs limit graph = .error tooDeep) ∨
    ∃ comps, sccs limit graph = .ok comps ∧ Decomposes graph comps := by
  obtain ⟨order,listed,moved,_⟩ := sortedSet_names texts
  have member : ∀ v, v ∈ order ↔ v ∈ graph.nodes := fun v => moved.mem_iff.trans List.mem_dedup
  have lists : Lists (fun v => sortedSet (graph.near v)) order fun v w => w ∈ graph.near v := by
    refine ⟨?_,fun v w step => (member w).mpr (targets v w step),fun v inside => texts v ((member v).mp inside)⟩
    intro v _
    obtain ⟨row,sorted,moved,_⟩ := sortedSet_names fun w step => texts w (targets v w step)
    exact ⟨row,sorted,fun w => moved.mem_iff.trans List.mem_dedup⟩
  have start : Sound order (fun v w => w ∈ graph.near v) [] Search.start := by
    refine ⟨by simp [Search.known,Search.start],by simp [Search.known,Search.start],
      by simp [Search.known,Search.start],by simp [Search.start],.start _⟩
  rw [sccs,listed,ok_bind,componentsFrom_eq]
  rcases roots lists limit order (fun _ => id) start with ⟨shallow,raised⟩ | ⟨t,ran,sound,_,found⟩
  · refine .inl ⟨?_,by rw [raised]; rfl⟩
    rw [← moved.length_eq]
    exact Nat.lt_of_lt_of_le shallow List.countP_le_length
  · refine .inr ⟨t.comps.insertionSort fun c d => componentLe c d,by rw [ran]; rfl,?_⟩
    exact sound.decomposes member texts found

def pairAndOne : Graph :=
  [(.str "b",[(.str "a",1)]),(.str "a",[(.str "b",2),(.str "c",1)]),(.str "c",[])]

theorem pairAndOne_components : ∃ comps, sccs 1000 pairAndOne = .ok comps ∧ Decomposes pairAndOne comps := by
  refine (sccs_components pairAndOne ?_ ?_ 1000).resolve_left fun shallow => absurd shallow.1 (by decide)
  · simp [pairAndOne,Graph.nodes,Key.isStr]
  · intro v w step
    have listed : ∀ entry ∈ pairAndOne, ∀ x ∈ entry.2.map (·.1), x ∈ pairAndOne.nodes := by decide
    unfold Graph.near Graph.row at step
    cases found : pairAndOne.find? fun entry => entry.1 == v with
    | none => simp [found] at step
    | some entry =>
      rw [found] at step
      exact listed entry (List.mem_of_find?_eq_some found) w step

example : sccs 1000 pairAndOne = .ok [[.str "a",.str "b"],[.str "c"]] := by decide +kernel

end Orrery.Vrp
