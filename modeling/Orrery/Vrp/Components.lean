import Mathlib.Algebra.GroupWithZero.Nat
import Orrery.Foundation.JsonAlike
import Orrery.Foundation.Sweeps

/-! The graph of co-signed receipts (conformance/vrp), its strongly connected components
and the rings that are cut off from the largest. Every loop runs over sorted names or
counts, so all of it depends on which edges there are and not on the order they were
met in. -/
namespace Orrery.Vrp
open Foundation Json

abbrev Graph := List (Key × List (Key × Nat))

def Graph.nodes (graph : Graph) : List Key := graph.map (·.1)

def Graph.row (graph : Graph) (v : Key) : List (Key × Nat) :=
  ((graph.find? fun entry => entry.1 == v).map (·.2)).getD []

def Graph.near (graph : Graph) (v : Key) : List Key := (graph.row v).map (·.1)

def Graph.setdefault (graph : Graph) (v : Key) : Graph :=
  if v ∈ graph.nodes then graph else graph ++ [(v,[])]

def countOne (row : List (Key × Nat)) (w : Key) : List (Key × Nat) :=
  if w ∈ row.map (·.1) then row.map fun entry => if entry.1 = w then (entry.1,entry.2+1) else entry
  else row ++ [(w,1)]

def Graph.update (graph : Graph) (a : Key) (f : List (Key × Nat) → List (Key × Nat)) : Graph :=
  graph.map fun entry => (entry.1,if entry.1 = a then f entry.2 else entry.2)

def Graph.addEdge (graph : Graph) (a b : Key) : Graph :=
  ((graph.setdefault a).setdefault b).update a fun row => countOne row b

/-- The dictionaries and lists of the search for components; the top of the stack is first,
and `on_stack` is what it holds. -/
structure Search where
  index : List (Key × Nat)
  low : List (Key × Nat)
  stack : List Key
  comps : List (List Key)
  counter : Nat

def Search.start : Search := ⟨[],[],[],[],0⟩

def Search.indexOf (s : Search) (v : Key) : Nat := (s.index.lookup v).getD 0

def Search.lowOf (s : Search) (v : Key) : Nat := (s.low.lookup v).getD 0

def Search.enter (s : Search) (v : Key) : Search where
  index := (v,s.counter) :: s.index
  low := (v,s.counter) :: s.low
  stack := v :: s.stack
  comps := s.comps
  counter := s.counter+1

def Search.lower (s : Search) (v : Key) (bound : Nat) : Search := { s with low := (v,min (s.lowOf v) bound) :: s.low }

def Search.close (s : Search) (v : Key) : Except Exc Search := do
  let comp ← sortedSet (s.stack.takeWhile (· ≠ v) ++ [v])
  return { s with stack := (s.stack.dropWhile (· ≠ v)).drop 1, comps := s.comps ++ [comp] }

def connect (near : Key → Except Exc (List Key)) : Nat → Key → Search → Except Exc Search
  | 0, _, _ => .error (.other "RecursionError" "maximum recursion depth exceeded")
  | depth+1, v, s => do
    let visit : Search → Key → Except Exc Search := fun s w => do
      if w ∉ s.index.map (·.1) then
        let s ← connect near depth w s
        return s.lower v (s.lowOf w)
      else if w ∈ s.stack then return s.lower v (s.indexOf w)
      else return s
    let s ← (← near v).foldlM visit (s.enter v)
    if s.lowOf v = s.indexOf v then s.close v else return s

def namesLe : List Key → List Key → Bool
  | [], _ => true
  | _ :: _, [] => false
  | a :: rest, b :: more => if a = b then namesLe rest more else Key.le a b

def componentLe (c d : List Key) : Bool := d.length < c.length || (c.length == d.length && namesLe c d)

def componentsFrom (depth : Nat) (near : Key → Except Exc (List Key)) (nodes : List Key) :
    Except Exc (List (List Key)) := do
  let s ← nodes.foldlM (fun s v => if v ∉ s.index.map (·.1) then connect near depth v s else return s) Search.start
  return s.comps.insertionSort fun c d => componentLe c d

def sccs (limit : Nat) (graph : Graph) : Except Exc (List (List Key)) := do
  componentsFrom limit (fun v => sortedSet (graph.near v)) (← sortedSet graph.nodes)

def internalDensity (graph : Graph) (members : List Key) : ℚ :=
  if members.length < 2 then 0
  else
    ((members.map fun a => (graph.near a).countP fun b => b ∈ members ∧ b ≠ a).sum : ℕ)/
      (members.length*(members.length-1) : ℕ)

def crossEdges (graph : Graph) (comp other : List Key) : Nat :=
  (comp.map fun a => (graph.near a).countP (· ∈ other)).sum + (other.map fun a => (graph.near a).countP (· ∈ comp)).sum

def mutualPair (graph : Graph) : List Key → Bool
  | [a,b] => b ∈ graph.near a ∧ a ∈ graph.near b
  | _ => false

def isolated (graph : Graph) (anchor comp : List Key) : Bool :=
  if 0 < crossEdges graph comp anchor then false
  else if 3 ≤ comp.length ∧ 4/5 ≤ internalDensity graph comp then true
  else mutualPair graph comp

def severedDids (limit : Nat) (graph : Graph) : Except Exc (List Key) := do
  match ← sccs limit graph with
  | [] => return []
  | anchor :: comps => return (comps.filter (isolated graph anchor)).flatten

section Sorting

theorem sort_congr {α : Type} [LinearOrder α] {f : α → Key} (injective : f.Injective)
    (order : ∀ a b, a ≤ b ↔ Key.le (f a) (f b) = true) {keys others : List Key} (permuted : keys.Perm others)
    (all : ∀ k ∈ keys, ∃ a, f a = k) :
    keys.insertionSort (fun a b => Key.le a b) = others.insertionSort (fun a b => Key.le a b) := by
  have named : ∀ {keys : List Key}, (∀ k ∈ keys, ∃ a, f a = k) → ∃ values : List α, values.map f = keys := by
    intro keys all
    induction keys with
    | nil => exact ⟨[],rfl⟩
    | cons k keys ih =>
      obtain ⟨a,rfl⟩ := all k (by simp)
      obtain ⟨values,rfl⟩ := ih fun k inside => all k (by simp [inside])
      exact ⟨a :: values,rfl⟩
  obtain ⟨values,rfl⟩ := named all
  obtain ⟨values',rfl⟩ := named fun k inside => all k (permuted.mem_iff.mpr inside)
  have moved : values.Perm values' := (List.map_perm_map_iff injective).mp permuted
  have sorted : values.insertionSort (· ≤ ·) = values'.insertionSort (· ≤ ·) :=
    ((values.perm_insertionSort _).trans (moved.trans (values'.perm_insertionSort _).symm)).eq_of_sortedLE
      values.sortedLE_insertionSort values'.sortedLE_insertionSort
  rw [← List.map_insertionSort (· ≤ ·) _ f values fun a _ b _ => order a b,
    ← List.map_insertionSort (· ≤ ·) _ f values' fun a _ b _ => order a b,sorted]

theorem sortedSet_congr {keys others : List Key} (same : ∀ k, k ∈ keys ↔ k ∈ others) :
    sortedSet keys = sortedSet others := by
  have permuted : keys.dedup.Perm others.dedup := by
    rw [List.perm_ext_iff_of_nodup keys.nodup_dedup others.nodup_dedup]
    intro k
    rw [List.mem_dedup,List.mem_dedup,same k]
  have strings : keys.dedup.all Key.isStr = others.dedup.all Key.isStr := permuted.all_eq
  have numbers : keys.dedup.all Key.isNum = others.dedup.all Key.isNum := permuted.all_eq
  unfold sortedSet
  simp only [← permuted.length_eq,← strings,← numbers]
  split
  next plain =>
    congr 1
    rw [Bool.or_eq_true,Bool.or_eq_true,decide_eq_true_eq,List.all_eq_true,List.all_eq_true] at plain
    rcases plain with (few | texts) | figures
    · have single : keys.dedup = others.dedup := by
        rcases Nat.le_one_iff_eq_zero_or_eq_one.mp few with none | one
        · rw [List.length_eq_zero_iff.mp none] at permuted ⊢
          exact (List.nil_perm.mp permuted).symm
        · obtain ⟨k,here⟩ := List.length_eq_one_iff.mp one
          rw [here] at permuted ⊢
          exact List.singleton_perm.mp permuted
      rw [single]
    · apply sort_congr (f := Key.str) (fun a b => Key.str.inj) (fun a b => by simp [Key.le]) permuted
      intro k inside
      have text := texts k inside
      cases k with
      | str s => exact ⟨s,rfl⟩
      | _ => cases text
    · apply sort_congr (f := Key.num) (fun a b => Key.num.inj) (fun a b => by simp [Key.le]) permuted
      intro k inside
      have figure := figures k inside
      cases k with
      | num q => exact ⟨q,rfl⟩
      | _ => cases figure
  next => rfl

end Sorting

namespace Graph

theorem row_cons (entry : Key × List (Key × Nat)) (graph : Graph) (v : Key) :
    Graph.row (entry :: graph) v = if entry.1 = v then entry.2 else Graph.row graph v := by
  by_cases here : entry.1 = v
  · simp [row,here]
  · have apart : (entry.1 == v) = false := by simpa using here
    rw [row,List.find?_cons,apart,if_neg here]
    rfl

theorem mem_nodes_setdefault (graph : Graph) (v w : Key) : w ∈ (graph.setdefault v).nodes ↔ w = v ∨
    w ∈ graph.nodes := by
  unfold setdefault
  split
  next present =>
    constructor
    · exact .inr
    · rintro (rfl | inside)
      · exact present
      · exact inside
  next => simp [nodes,or_comm]

theorem row_setdefault (graph : Graph) (v w : Key) : (graph.setdefault v).row w = graph.row w := by
  unfold setdefault
  split
  next => rfl
  next absent =>
    induction graph with
    | nil =>
      rw [List.nil_append,row_cons]
      split <;> rfl
    | cons entry graph ih =>
      rw [List.cons_append,row_cons,row_cons,ih fun inside => absent (by simp [nodes] at inside ⊢; exact .inr inside)]

theorem nodes_update (graph : Graph) (a : Key) (f : List (Key × Nat) → List (Key × Nat)) :
    (graph.update a f).nodes = graph.nodes := by
  simp [nodes,update]

theorem row_update_other (graph : Graph) {a v : Key} (apart : v ≠ a) (f : List (Key × Nat) → List (Key × Nat)) :
    (graph.update a f).row v = graph.row v := by
  induction graph with
  | nil => rfl
  | cons entry graph ih =>
    rw [update,List.map_cons,row_cons,row_cons]
    by_cases here : entry.1 = v
    · rw [if_pos here,if_pos here,if_neg (here ▸ apart)]
    · rw [if_neg here,if_neg here]
      exact ih

theorem row_update_self (graph : Graph) {a : Key} (f : List (Key × Nat) → List (Key × Nat))
    (present : a ∈ graph.nodes) :
    (graph.update a f).row a = f (graph.row a) := by
  induction graph with
  | nil => simp [nodes] at present
  | cons entry graph ih =>
    rw [update,List.map_cons,row_cons,row_cons]
    by_cases here : entry.1 = a
    · rw [if_pos here,if_pos here,if_pos here]
    · rw [if_neg here,if_neg here]
      apply ih
      simpa [nodes,Ne.symm here] using present

theorem countOne_names (row : List (Key × Nat)) (w : Key) :
    (countOne row w).map (·.1) = if w ∈ row.map (·.1) then row.map (·.1) else row.map (·.1) ++ [w] := by
  unfold countOne
  split
  next =>
    rw [List.map_map]
    apply List.map_congr_left
    intro entry _
    rw [Function.comp_apply]
    split <;> rfl
  next => simp

theorem near_addEdge (graph : Graph) (a b v : Key) : (graph.addEdge a b).near v =
    if v = a then (if b ∈ graph.near a then graph.near a else graph.near a ++ [b]) else graph.near v := by
  have present : a ∈ ((graph.setdefault a).setdefault b).nodes := by
    rw [mem_nodes_setdefault,mem_nodes_setdefault]
    exact .inr (.inl rfl)
  rw [near,addEdge]
  by_cases here : v = a
  · subst here
    rw [row_update_self _ _ present,row_setdefault,row_setdefault,countOne_names,if_pos rfl]
    rfl
  · rw [row_update_other _ here,row_setdefault,row_setdefault,if_neg here]
    rfl

theorem mem_near_addEdge (graph : Graph) (a b v w : Key) :
    w ∈ (graph.addEdge a b).near v ↔ w ∈ graph.near v ∨ v = a ∧ w = b := by
  rw [near_addEdge]
  split
  next here =>
    subst here
    split
    next present =>
      constructor
      · exact .inl
      · rintro (inside | ⟨_,rfl⟩)
        · exact inside
        · exact present
    next => simp
  next apart => simp [apart]

theorem nodup_near_addEdge {graph : Graph} (distinct : ∀ v, (graph.near v).Nodup) (a b v : Key) :
    ((graph.addEdge a b).near v).Nodup := by
  rw [near_addEdge]
  split
  · split
    · exact distinct a
    next absent =>
      refine List.nodup_append.mpr ⟨distinct a,List.nodup_singleton b,?_⟩
      rintro w inside _ single rfl
      rw [List.mem_singleton] at single
      exact absent (single ▸ inside)
  · exact distinct v

theorem mem_nodes_addEdge (graph : Graph) (a b v : Key) :
    v ∈ (graph.addEdge a b).nodes ↔ v = a ∨ v = b ∨ v ∈ graph.nodes := by
  rw [addEdge,nodes_update,mem_nodes_setdefault,mem_nodes_setdefault]
  exact or_left_comm

def ofEdges (graph : Graph) (found : List (Option (Key × Key))) : Graph :=
  found.foldl (fun graph found => found.elim graph fun e => graph.addEdge e.1 e.2) graph

theorem ofEdges_cons (graph : Graph) (e : Option (Key × Key)) (found : List (Option (Key × Key))) :
    ofEdges graph (e :: found) = ofEdges (e.elim graph fun e => graph.addEdge e.1 e.2) found := rfl

theorem mem_near_ofEdges (found : List (Option (Key × Key))) : ∀ (graph : Graph) (v w : Key),
    w ∈ (ofEdges graph found).near v ↔ w ∈ graph.near v ∨ some (v,w) ∈ found := by
  induction found with
  | nil => simp [ofEdges]
  | cons e found ih =>
    intro graph v w
    rw [ofEdges_cons,ih]
    cases e with
    | none => simp
    | some e => simp [mem_near_addEdge,Prod.ext_iff,or_assoc]

theorem mem_nodes_ofEdges (found : List (Option (Key × Key))) : ∀ (graph : Graph) (v : Key),
    v ∈ (ofEdges graph found).nodes ↔ v ∈ graph.nodes ∨ ∃ e, some e ∈ found ∧ (v = e.1 ∨ v = e.2) := by
  induction found with
  | nil => simp [ofEdges]
  | cons e found ih =>
    intro graph v
    rw [ofEdges_cons,ih]
    cases e with
    | none => simp
    | some e =>
      simp only [Option.elim_some,mem_nodes_addEdge,List.mem_cons,Option.some.injEq,or_and_right,exists_or,
        exists_eq_left]
      grind

theorem nodup_near_ofEdges (found : List (Option (Key × Key))) : ∀ graph : Graph, (∀ v, (graph.near v).Nodup) →
    ∀ v, ((ofEdges graph found).near v).Nodup := by
  induction found with
  | nil => exact fun _ distinct => distinct
  | cons e found ih =>
    intro graph distinct
    cases e with
    | none => exact ih graph distinct
    | some e => exact ih (graph.addEdge e.1 e.2) (nodup_near_addEdge distinct e.1 e.2)

structure Same (graph other : Graph) : Prop where
  nodes : ∀ v, v ∈ graph.nodes ↔ v ∈ other.nodes
  near : ∀ v, (graph.near v).Perm (other.near v)

theorem same_ofEdges {found found' : List (Option (Key × Key))} (permuted : found.Perm found') :
    Same (ofEdges [] found) (ofEdges [] found') where
  nodes v := by
    rw [mem_nodes_ofEdges,mem_nodes_ofEdges]
    simp only [permuted.mem_iff]
  near v := by
    have distinct : ∀ v, (Graph.near [] v).Nodup := fun v => List.nodup_nil
    rw [List.perm_ext_iff_of_nodup (nodup_near_ofEdges found [] distinct v) (nodup_near_ofEdges found' [] distinct v)]
    intro w
    rw [mem_near_ofEdges,mem_near_ofEdges,permuted.mem_iff]

end Graph

namespace Graph.Same
variable {graph other : Graph} (same : Graph.Same graph other)
include same

theorem sccs (limit : Nat) : sccs limit graph = sccs limit other := by
  have rows : (fun v => sortedSet (graph.near v)) = fun v => sortedSet (other.near v) := by
    funext v
    exact sortedSet_congr fun w => (same.near v).mem_iff
  rw [Vrp.sccs,Vrp.sccs,sortedSet_congr same.nodes,rows]

theorem countP_near (p : Key → Bool) (members : List Key) :
    (members.map fun a => (graph.near a).countP p) = members.map fun a => (other.near a).countP p := by
  apply List.map_congr_left
  intro a _
  exact (same.near a).countP_eq p

theorem crossEdges (comp others : List Key) : crossEdges graph comp others = crossEdges other comp others := by
  rw [Vrp.crossEdges,Vrp.crossEdges,same.countP_near,same.countP_near]

theorem internalDensity (members : List Key) : internalDensity graph members = internalDensity other members := by
  have counts : (members.map fun a => (graph.near a).countP fun b => b ∈ members ∧ b ≠ a) =
      members.map fun a => (other.near a).countP fun b => b ∈ members ∧ b ≠ a := by
    apply List.map_congr_left
    intro a _
    exact (same.near a).countP_eq _
  rw [Vrp.internalDensity,Vrp.internalDensity,counts]

theorem mutualPair (comp : List Key) : mutualPair graph comp = mutualPair other comp := by
  rw [Vrp.mutualPair.eq_def,Vrp.mutualPair.eq_def]
  split
  next a b => rw [decide_eq_decide,(same.near a).mem_iff,(same.near b).mem_iff]
  next => rfl

theorem isolated (anchor comp : List Key) : isolated graph anchor comp = isolated other anchor comp := by
  rw [Vrp.isolated,Vrp.isolated,same.crossEdges,same.internalDensity,same.mutualPair]

theorem severedDids (limit : Nat) : severedDids limit graph = severedDids limit other := by
  rw [Vrp.severedDids,Vrp.severedDids,same.sccs]
  cases Vrp.sccs limit other with
  | error e => rfl
  | ok comps =>
    cases comps with
    | nil => rfl
    | cons anchor comps =>
      have cut : Vrp.isolated graph anchor = Vrp.isolated other anchor := by
        funext comp
        exact same.isolated anchor comp
      exact congrArg (fun p => Except.ok (comps.filter p).flatten) cut

end Graph.Same

end Orrery.Vrp
