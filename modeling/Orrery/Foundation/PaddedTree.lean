import Mathlib.Data.List.Perm.Subperm
import Orrery.Foundation.HashTreeBinding

/-! Trees built level by level, where a level of odd length is filled up with a copy of
its last node. The root is natural in the way nodes are joined, so hashing the leaves
and hashing the tree over them is the same; the root then determines the tree, and the
tree determines the leaves only together with their number. -/
namespace Orrery.Foundation.PaddedTree
open HashTree (Hashes Input Apart)

variable {α β δ : Type}

def pairs (node : δ → δ → δ) : List δ → List δ
  | [] => []
  | [x] => [node x x]
  | x :: y :: rest => node x y :: pairs node rest

theorem pairs_length (node : δ → δ → δ) (level : List δ) : (pairs node level).length = (level.length+1)/2 := by
  fun_induction pairs node level with
  | case1 => simp
  | case2 x => simp
  | case3 x y rest ih =>
    simp only [List.length_cons,ih]
    omega

def root (node : δ → δ → δ) (level : List δ) : Option δ :=
  match level with
  | [] => none
  | [x] => some x
  | x :: y :: rest => root node (pairs node (x :: y :: rest))
termination_by level.length
decreasing_by
  rw [pairs_length]
  simp only [List.length_cons]
  omega

@[simp] theorem root_nil (node : δ → δ → δ) : root node [] = none := by
  rw [root]

@[simp] theorem root_single (node : δ → δ → δ) (x : δ) : root node [x] = some x := by
  rw [root]

theorem root_next (node : δ → δ → δ) (level : List δ) (big : 2 ≤ level.length) :
    root node level = root node (pairs node level) := by
  obtain ⟨x,more,rfl⟩ := List.exists_cons_of_length_pos (Nat.lt_of_lt_of_le Nat.zero_lt_two big)
  obtain ⟨y,rest,rfl⟩ := List.exists_cons_of_length_pos (Nat.lt_of_succ_lt_succ big)
  rw [root]

theorem byLevels {P : List δ → Prop} (node : δ → δ → δ) (empty : P []) (single : ∀ x, P [x])
    (next : ∀ level, 2 ≤ level.length → P (pairs node level) → P level) (level : List δ) : P level := by
  fun_induction root node level with
  | case1 => exact empty
  | case2 x => exact single x
  | case3 x y rest ih =>
    apply next _ _ ih
    simp

theorem root_isSome (node : δ → δ → δ) (level : List δ) : (root node level).isSome = !level.isEmpty := by
  induction level using byLevels node with
  | empty => simp
  | single x => simp
  | next level big ih =>
    have above : 0 < (pairs node level).length := by
      rw [pairs_length]
      omega
    have filled : (pairs node level).isEmpty = level.isEmpty := by
      rw [Bool.eq_iff_iff,List.isEmpty_iff_length_eq_zero,List.isEmpty_iff_length_eq_zero]
      omega
    rw [root_next node level big,ih,filled]

section Natural
variable {f : α → β} {join : α → α → α} {node : β → β → β} (hom : ∀ a b, f (join a b) = node (f a) (f b))
include hom

theorem pairs_map (level : List α) : pairs node (level.map f) = (pairs join level).map f := by
  fun_induction pairs join level with
  | case1 => rfl
  | case2 x => simp [pairs,hom]
  | case3 x y rest ih => simp [pairs,hom,ih]

theorem root_map (level : List α) : root node (level.map f) = (root join level).map f := by
  induction level using byLevels join with
  | empty => simp
  | single x => simp
  | next level big ih => rw [root_next node _ (by simpa using big),pairs_map hom,ih,root_next join level big]

end Natural

inductive Tree (α : Type)
  | leaf (data : α)
  | node (left right : Tree α)

namespace Tree

def digest (h : Hashes α δ) : Tree α → δ
  | leaf data => h.leaf data
  | node left right => h.node (digest h left) (digest h right)

def inputs (h : Hashes α δ) : Tree α → List (Input α δ)
  | leaf data => [.leaf data]
  | node left right => .node (digest h left) (digest h right) :: (inputs h left ++ inputs h right)

def leaves : Tree α → List α
  | leaf data => [data]
  | node left right => leaves left ++ leaves right

def top (h : Hashes α δ) : Tree α → Input α δ
  | leaf data => .leaf data
  | node left right => .node (digest h left) (digest h right)

theorem top_mem (h : Hashes α δ) (t : Tree α) : t.top h ∈ t.inputs h := by
  cases t <;> simp [top,inputs]

theorem digest_top (h : Hashes α δ) (t : Tree α) : h.digest (t.top h) = t.digest h := by
  cases t <;> rfl

theorem digest_inj (h : Hashes α δ) (first : Tree α) : ∀ second, Apart h (first.inputs h) (second.inputs h) →
    first.digest h = second.digest h → first = second := by
  induction first with
  | leaf data =>
    intro second apart same
    rw [← digest_top,← digest_top] at same
    have equal := apart _ (top_mem h _) _ (top_mem h _) same
    cases second with
    | leaf other =>
      cases equal
      rfl
    | node left right => cases equal
  | node left right leftIh rightIh =>
    intro second apart same
    rw [← digest_top,← digest_top] at same
    have equal := apart _ (top_mem h _) _ (top_mem h _) same
    cases second with
    | leaf other => cases equal
    | node left' right' =>
      obtain ⟨sameLeft,sameRight⟩ := Input.node.inj equal
      have leftApart : Apart h (left.inputs h) (left'.inputs h) :=
        apart.mono (fun x inside => by simp [inputs,inside]) (fun x inside => by simp [inputs,inside])
      have rightApart : Apart h (right.inputs h) (right'.inputs h) :=
        apart.mono (fun x inside => by simp [inputs,inside]) (fun x inside => by simp [inputs,inside])
      rw [leftIh left' leftApart sameLeft,rightIh right' rightApart sameRight]

theorem mem_inputs (h : Hashes α δ) (t : Tree α) : ∀ x ∈ t.inputs h,
    (∃ data ∈ t.leaves, x = .leaf data) ∨ ∃ left right : Tree α, x = .node (left.digest h) (right.digest h) := by
  induction t with
  | leaf data =>
    intro x inside
    exact .inl ⟨data,List.mem_singleton.mpr rfl,List.mem_singleton.mp inside⟩
  | node left right leftIh rightIh =>
    intro x inside
    rcases List.mem_cons.mp inside with rfl | below
    · exact .inr ⟨left,right,rfl⟩
    · rcases List.mem_append.mp below with among | among
      · exact (leftIh x among).imp_left fun ⟨data,deep,same⟩ => ⟨data,List.mem_append_left _ deep,same⟩
      · exact (rightIh x among).imp_left fun ⟨data,deep,same⟩ => ⟨data,List.mem_append_right _ deep,same⟩

def Even : Nat → Tree α → Prop
  | 0, leaf _ => True
  | depth+1, node left right => Even depth left ∧ Even depth right
  | _, _ => False

theorem Even.length {depth : Nat} {t : Tree α} (even : Even depth t) : t.leaves.length = 2^depth := by
  induction t generalizing depth with
  | leaf data =>
    cases depth with
    | zero => rfl
    | succ depth => cases even
  | node left right leftIh rightIh =>
    cases depth with
    | zero => cases even
    | succ depth =>
      rw [leaves,List.length_append,leftIh even.1,rightIh even.2]
      omega

theorem Even.leaves_inj {depth : Nat} {first : Tree α} (even : Even depth first) : ∀ {second : Tree α},
    Even depth second → first.leaves = second.leaves → first = second := by
  induction first generalizing depth with
  | leaf data =>
    intro second even' same
    cases depth with
    | zero =>
      cases second with
      | leaf other => rw [(List.cons.inj same).1]
      | node left right => cases even'
    | succ depth => cases even
  | node left right leftIh rightIh =>
    intro second even' same
    cases depth with
    | zero => cases even
    | succ depth =>
      cases second with
      | leaf other => cases even'
      | node left' right' =>
        obtain ⟨sameLeft,sameRight⟩ := List.append_inj same (even.1.length.trans even'.1.length.symm)
        rw [leftIh even.1 even'.1 sameLeft,rightIh even.2 even'.2 sameRight]

end Tree

theorem pairs_even {depth : Nat} (level : List (Tree α)) (even : ∀ t ∈ level, t.Even depth) :
    ∀ t ∈ pairs Tree.node level, t.Even (depth+1) := by
  fun_induction pairs Tree.node level with
  | case1 => simp
  | case2 x =>
    intro t inside
    obtain rfl := List.mem_singleton.mp inside
    exact ⟨even x (by simp),even x (by simp)⟩
  | case3 x y rest ih =>
    intro t inside
    rcases List.mem_cons.mp inside with rfl | further
    · exact ⟨even x (by simp),even y (by simp)⟩
    · exact ih (fun t among => even t (by simp [among])) t further

theorem root_even (level : List (Tree α)) : ∀ depth, (∀ t ∈ level, t.Even depth) →
    ∀ top, root Tree.node level = some top → ∃ height, top.Even height := by
  induction level using byLevels Tree.node with
  | empty =>
    intro depth _ top reached
    rw [root_nil] at reached
    cases reached
  | single x =>
    intro depth even top reached
    rw [root_single] at reached
    obtain rfl := Option.some.inj reached
    exact ⟨depth,even x (by simp)⟩
  | next level big ih =>
    intro depth even top reached
    rw [root_next _ _ big] at reached
    exact ih (depth+1) (pairs_even level even) top reached

def tree (leaves : List α) : Option (Tree α) := root Tree.node (leaves.map Tree.leaf)

def padded (leaves : List α) : List α := ((tree leaves).map Tree.leaves).getD []

def hashed (h : Hashes α δ) (leaves : List α) : List (Input α δ) := ((tree leaves).map (Tree.inputs h)).getD []

theorem root_digest (h : Hashes α δ) (leaves : List α) :
    root h.node (leaves.map h.leaf) = (tree leaves).map (Tree.digest h) := by
  have natural : root h.node ((leaves.map Tree.leaf).map (Tree.digest h)) =
      (root Tree.node (leaves.map Tree.leaf)).map (Tree.digest h) := root_map (fun _ _ => rfl) _
  rw [List.map_map] at natural
  exact natural

theorem tree_eq_of_root (h : Hashes α δ) (first second : List α) (apart : Apart h (hashed h first) (hashed h second))
    (same : root h.node (first.map h.leaf) = root h.node (second.map h.leaf)) : tree first = tree second := by
  rw [root_digest,root_digest] at same
  unfold hashed at apart
  cases left : tree first with
  | none =>
    cases right : tree second with
    | none => rfl
    | some t =>
      rw [left,right] at same
      cases same
  | some s =>
    cases right : tree second with
    | none =>
      rw [left,right] at same
      cases same
    | some t =>
      rw [left,right] at same apart
      rw [Tree.digest_inj h s t apart (Option.some.inj same)]

theorem pairs_inj {node : δ → δ → δ} (keeps : ∀ a b c d, node a b = node c d → a = c ∧ b = d) (first : List δ) :
    ∀ second, first.length = second.length → pairs node first = pairs node second → first = second := by
  fun_induction pairs node first with
  | case1 =>
    intro second length _
    exact (List.length_eq_zero_iff.mp length.symm).symm
  | case2 x =>
    intro second length same
    obtain ⟨y,rfl⟩ := List.length_eq_one_iff.mp length.symm
    rw [pairs] at same
    obtain ⟨rfl,_⟩ := keeps _ _ _ _ (List.cons.inj same).1
    rfl
  | case3 x y rest ih =>
    intro second length same
    cases second with
    | nil => simp at length
    | cons z more =>
      cases more with
      | nil => simp at length
      | cons w more =>
        rw [pairs] at same
        obtain ⟨top,below⟩ := List.cons.inj same
        obtain ⟨rfl,rfl⟩ := keeps _ _ _ _ top
        rw [ih more (by simpa using length) below]

theorem root_inj {node : δ → δ → δ} (keeps : ∀ a b c d, node a b = node c d → a = c ∧ b = d) (first : List δ) :
    ∀ second, first.length = second.length → root node first = root node second → first = second := by
  induction first using byLevels node with
  | empty =>
    intro second length _
    exact (List.length_eq_zero_iff.mp length.symm).symm
  | single x =>
    intro second length same
    obtain ⟨y,rfl⟩ := List.length_eq_one_iff.mp length.symm
    rw [root_single,root_single] at same
    rw [Option.some.inj same]
  | next level big ih =>
    intro second length same
    rw [root_next node level big,root_next node second (length ▸ big)] at same
    apply pairs_inj keeps level second length
    apply ih _ _ same
    rw [pairs_length,pairs_length,length]

theorem tree_inj {first second : List α} (length : first.length = second.length) (same : tree first = tree second) :
    first = second := by
  have keeps : ∀ a b c d : Tree α, Tree.node a b = Tree.node c d → a = c ∧ b = d := fun _ _ _ _ equal =>
    Tree.node.inj equal
  have leaves := root_inj keeps (first.map Tree.leaf) (second.map Tree.leaf) (by simpa using length) same
  exact (List.map_inj_right fun _ _ equal => Tree.leaf.inj equal).mp leaves

theorem root_forall {P : δ → Prop} {node : δ → δ → δ} (joined : ∀ a b, P a → P b → P (node a b)) (level : List δ) :
    (∀ x ∈ level, P x) → ∀ top, root node level = some top → P top := by
  have above : ∀ level : List δ, (∀ x ∈ level, P x) → ∀ x ∈ pairs node level, P x := by
    intro level all
    fun_induction pairs node level with
    | case1 => exact all
    | case2 x => simpa using joined x x (all x (by simp)) (all x (by simp))
    | case3 x y rest ih =>
      intro z inside
      rcases List.mem_cons.mp inside with rfl | further
      · exact joined x y (all x (by simp)) (all y (by simp))
      · exact ih (fun w among => all w (by simp [among])) z further
  induction level using byLevels node with
  | empty => simp
  | single x =>
    intro all top reached
    rw [root_single] at reached
    exact Option.some.inj reached ▸ all x (by simp)
  | next level big ih =>
    intro all top reached
    rw [root_next node level big] at reached
    exact ih (above level all) top reached

theorem mem_leaves {leaves : List α} {t : Tree α} (built : tree leaves = some t) :
    ∀ data ∈ t.leaves, data ∈ leaves := by
  refine root_forall (P := fun t : Tree α => ∀ data ∈ t.leaves, data ∈ leaves) ?_ (leaves.map Tree.leaf) ?_ t built
  · intro left right inLeft inRight data inside
    exact (List.mem_append.mp inside).elim (inLeft data) (inRight data)
  · intro x inside data leaf
    obtain ⟨data',member,rfl⟩ := List.mem_map.mp inside
    rw [List.mem_singleton.mp leaf]
    exact member

theorem pairs_begin (level : List (Tree α)) :
    level.flatMap Tree.leaves <+: (pairs Tree.node level).flatMap Tree.leaves := by
  fun_induction pairs Tree.node level with
  | case1 => simp
  | case2 x => simp [Tree.leaves]
  | case3 x y rest ih =>
    obtain ⟨copies,same⟩ := ih
    exact ⟨copies,by simp [Tree.leaves,← same]⟩

theorem root_begins (level : List (Tree α)) : ∀ top, root Tree.node level = some top →
    level.flatMap Tree.leaves <+: top.leaves := by
  induction level using byLevels Tree.node with
  | empty => simp
  | single x => simp
  | next level big ih =>
    intro top reached
    rw [root_next _ _ big] at reached
    exact (pairs_begin level).trans (ih top reached)

theorem leaves_begin {leaves : List α} {t : Tree α} (built : tree leaves = some t) : leaves <+: t.leaves := by
  have before := root_begins (leaves.map Tree.leaf) t built
  rw [List.flatMap_map] at before
  simpa [Tree.leaves,List.flatMap_singleton'] using before

theorem tree_inj_of_nodup {first second : List α} (single : first.Nodup) (single' : second.Nodup)
    (same : tree first = tree second) : first = second := by
  have shorter : ∀ {first second : List α}, second.Nodup → tree first = tree second →
      second.length ≤ first.length := by
    intro first second distinct same
    cases built : tree second with
    | none =>
      have empty : second = [] := by
        have filled := root_isSome Tree.node (second.map Tree.leaf)
        rw [show root Tree.node (second.map Tree.leaf) = none from built] at filled
        simpa using filled
      simp [empty]
    | some t =>
      have among : second ⊆ first := fun data inside =>
        mem_leaves (same.trans built) data ((leaves_begin built).subset inside)
      exact (distinct.subperm among).length_le
  exact tree_inj (Nat.le_antisymm (shorter single same.symm) (shorter single' same)) same

theorem mem_hashed (h : Hashes α δ) {leaves : List α} {x : Input α δ} (inside : x ∈ hashed h leaves) :
    (∃ data ∈ leaves, x = .leaf data) ∨ ∃ left right : Tree α, x = .node (left.digest h) (right.digest h) := by
  unfold hashed at inside
  cases built : tree leaves with
  | none =>
    rw [built] at inside
    cases inside
  | some t =>
    rw [built] at inside
    exact (Tree.mem_inputs h t x inside).imp_left fun ⟨data,leaf,same⟩ => ⟨data,mem_leaves built data leaf,same⟩

theorem tree_even {leaves : List α} {t : Tree α} (built : tree leaves = some t) : ∃ depth, t.Even depth := by
  apply root_even (leaves.map Tree.leaf) 0 _ t built
  intro x inside
  obtain ⟨data,_,rfl⟩ := List.mem_map.mp inside
  exact trivial

theorem padded_eq_iff (first second : List α) : padded first = padded second ↔ tree first = tree second := by
  constructor
  · intro same
    have filled : ∀ {t : Tree α} {depth : Nat}, t.Even depth → t.leaves ≠ [] := by
      intro t depth even empty
      have length := even.length
      rw [empty] at length
      exact (Nat.two_pow_pos depth).ne length
    unfold padded at same
    cases left : tree first with
    | none =>
      cases right : tree second with
      | none => rfl
      | some t =>
        rw [left,right] at same
        obtain ⟨depth,even⟩ := tree_even right
        exact absurd same.symm (filled even)
    | some s =>
      obtain ⟨depth,even⟩ := tree_even left
      cases right : tree second with
      | none =>
        rw [left,right] at same
        exact absurd same (filled even)
      | some t =>
        obtain ⟨depth',even'⟩ := tree_even right
        rw [left,right] at same
        have heights : 2^depth = 2^depth' := by
          rw [← even.length,← even'.length]
          exact congrArg List.length same
        obtain rfl := Nat.pow_right_injective (Nat.le_refl 2) heights
        rw [even.leaves_inj even' same]
  · intro same
    rw [padded,padded,same]

theorem pairs_repeat (node : δ → δ → δ) (level : List δ) {last : δ} (odd : level.length % 2 = 1)
    (ends : level.getLast? = some last) : pairs node (level ++ [last]) = pairs node level := by
  fun_induction pairs node level with
  | case1 => simp at odd
  | case2 x =>
    obtain rfl := Option.some.inj ends
    rfl
  | case3 x y rest ih =>
    cases rest with
    | nil => simp at odd
    | cons z rest =>
      rw [List.cons_append,List.cons_append,pairs,ih (by simp only [List.length_cons] at odd ⊢; omega)
        (by simpa using ends)]

theorem tree_repeat {leaves : List α} {last : α} (odd : leaves.length % 2 = 1) (several : 2 ≤ leaves.length)
    (ends : leaves.getLast? = some last) : tree (leaves ++ [last]) = tree leaves := by
  have above := pairs_repeat Tree.node (leaves.map Tree.leaf) (by simpa using odd) (by rw [List.getLast?_map,ends]; rfl)
  rw [tree,tree,List.map_append,root_next _ _ (by simp; omega),
    root_next _ (leaves.map Tree.leaf) (by simpa using several)]
  exact congrArg (root Tree.node) above

theorem root_eq_iff (h : Hashes α δ) (first second : List α) (apart : Apart h (hashed h first) (hashed h second)) :
    root h.node (first.map h.leaf) = root h.node (second.map h.leaf) ↔ padded first = padded second := by
  rw [padded_eq_iff]
  constructor
  · exact tree_eq_of_root h first second apart
  · intro same
    rw [root_digest,root_digest,same]

end Orrery.Foundation.PaddedTree
