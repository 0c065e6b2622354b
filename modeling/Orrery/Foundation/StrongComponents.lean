import Mathlib.Data.List.Nodup
import Mathlib.Data.List.Perm.Basic
import Mathlib.Logic.Relation

/-! Strongly connected components by a depth-first search that keeps a stack. What is
found stands on the stack until its component is complete; `gray` are the nodes whose
search is under way, and `rank` is the order they were found in. -/
namespace Orrery.Foundation.StrongComponents

variable {α : Type} (edge : α → α → Prop)

abbrev Reaches : α → α → Prop := Relation.ReflTransGen edge

def Connected (v w : α) : Prop := Reaches edge v w ∧ Reaches edge w v

structure Component (comp : List α) : Prop where
  nonempty : comp ≠ []
  connected : ∀ v ∈ comp, ∀ w, w ∈ comp ↔ Connected edge v w

structure Search (gray : List α) (rank : α → Nat) (stack : List α) (done : List (List α)) : Prop where
  ordered : stack.Pairwise fun a b => rank b < rank a
  separate : (stack ++ done.flatten).Nodup
  held : ∀ g ∈ gray, g ∈ stack
  explored : ∀ x ∈ stack, x ∉ gray → ∀ y, edge x y → y ∈ stack ∨ y ∈ done.flatten
  closed : ∀ x ∈ done.flatten, ∀ y, edge x y → y ∈ done.flatten
  back : ∀ x ∈ stack, ∃ g ∈ gray, rank g ≤ rank x ∧ Reaches edge x g
  forth : ∀ g ∈ gray, ∀ x ∈ stack, rank g ≤ rank x → Reaches edge g x
  components : ∀ comp ∈ done, Component edge comp

variable {edge}

theorem closed_reaches {closed : α → Prop} (step : ∀ x, closed x → ∀ y, edge x y → closed y) {x y : α}
    (inside : closed x) (path : Reaches edge x y) : closed y := by
  induction path with
  | refl => exact inside
  | tail _ last ih => exact step _ ih _ last

namespace Search
variable {gray stack : List α} {rank : α → Nat} {done : List (List α)} {v : α}

theorem start (rank : α → Nat) : Search edge [] rank [] [] := by
  constructor <;> simp

theorem congr {rank' : α → Nat} (search : Search edge gray rank stack done)
    (same : ∀ x ∈ stack, rank' x = rank x) : Search edge gray rank' stack done where
  ordered := search.ordered.imp_of_mem fun inside inside' below => by rwa [same _ inside,same _ inside']
  separate := search.separate
  held := search.held
  explored := search.explored
  closed := search.closed
  back x inside := by
    obtain ⟨g,member,below,path⟩ := search.back x inside
    exact ⟨g,member,by rwa [same g (search.held g member),same x inside],path⟩
  forth g member x inside below := by
    rw [same g (search.held g member),same x inside] at below
    exact search.forth g member x inside below
  components := search.components

theorem enter (search : Search edge gray rank stack done) (unseen : v ∉ stack) (unfinished : v ∉ done.flatten)
    (above : ∀ x ∈ stack, rank x < rank v) (found : ∀ g ∈ gray, Reaches edge g v) :
    Search edge (v :: gray) rank (v :: stack) done where
  ordered := List.pairwise_cons.mpr ⟨above,search.ordered⟩
  separate := by
    rw [List.cons_append,List.nodup_cons,List.mem_append,not_or]
    exact ⟨⟨unseen,unfinished⟩,search.separate⟩
  held g member := by
    rcases List.mem_cons.mp member with rfl | old
    · exact List.mem_cons_self
    · exact List.mem_cons_of_mem v (search.held g old)
  explored x inside apart y step := by
    rw [List.mem_cons,not_or] at apart
    have old := (List.mem_cons.mp inside).resolve_left apart.1
    exact (search.explored x old apart.2 y step).imp (List.mem_cons_of_mem v) id
  closed := search.closed
  back x inside := by
    rcases List.mem_cons.mp inside with rfl | old
    · exact ⟨x,List.mem_cons_self,Nat.le_refl _,.refl⟩
    · obtain ⟨g,member,below,path⟩ := search.back x old
      exact ⟨g,List.mem_cons_of_mem v member,below,path⟩
  forth g member x inside below := by
    rcases List.mem_cons.mp member with rfl | old
    · rcases List.mem_cons.mp inside with rfl | under
      · exact .refl
      · exact absurd (above x under) (Nat.not_lt.mpr below)
    · rcases List.mem_cons.mp inside with rfl | under
      · exact found g old
      · exact search.forth g old x under below
  components := search.components

theorem retire (search : Search edge (v :: gray) rank stack done)
    (seen : ∀ y, edge v y → y ∈ stack ∨ y ∈ done.flatten)
    (lower : ∃ y ∈ stack, rank y < rank v ∧ Reaches edge v y) : Search edge gray rank stack done where
  ordered := search.ordered
  separate := search.separate
  held g member := search.held g (List.mem_cons_of_mem v member)
  explored x inside apart y step := by
    by_cases here : x = v
    · exact seen y (here ▸ step)
    · exact search.explored x inside (by simp [here,apart]) y step
  closed := search.closed
  back x inside := by
    obtain ⟨g,member,below,path⟩ := search.back x inside
    rcases List.mem_cons.mp member with rfl | old
    · obtain ⟨y,under,less,onward⟩ := lower
      obtain ⟨g',member',below',path'⟩ := search.back y under
      rcases List.mem_cons.mp member' with rfl | old'
      · omega
      · exact ⟨g',old',by omega,path.trans (onward.trans path')⟩
    · exact ⟨g,old,below,path⟩
  forth g member := search.forth g (List.mem_cons_of_mem v member)
  components := search.components

section Close
variable {top rest : List α} (search : Search edge (v :: gray) rank (top ++ v :: rest) done)
  (below : ∀ g ∈ gray, g ∈ rest) (seen : ∀ y, edge v y → y ∈ top ++ v :: rest ∨ y ∈ done.flatten)
  (inward : ∀ x ∈ v :: top, ∀ y ∈ rest, ¬ edge x y)
include search

theorem top_ranks {x : α} (inside : x ∈ v :: top) : rank v ≤ rank x := by
  obtain ⟨_,_,across⟩ := List.pairwise_append.mp search.ordered
  rcases List.mem_cons.mp inside with rfl | above
  · exact Nat.le_refl _
  · exact Nat.le_of_lt (across x above v List.mem_cons_self)

theorem rest_ranks {y : α} (inside : y ∈ rest) : rank y < rank v := by
  obtain ⟨_,ordered,_⟩ := List.pairwise_append.mp search.ordered
  exact (List.pairwise_cons.mp ordered).1 y inside

include below

theorem top_connected {x : α} (inside : x ∈ v :: top) : Connected edge v x := by
  have listed : x ∈ top ++ v :: rest := by
    rw [List.mem_append,List.mem_cons]
    rcases List.mem_cons.mp inside with here | above
    · exact .inr (.inl here)
    · exact .inl above
  refine ⟨search.forth v List.mem_cons_self x listed (top_ranks search inside),?_⟩
  obtain ⟨g,member,_,path⟩ := search.back x listed
  rcases List.mem_cons.mp member with rfl | old
  · exact path
  · have lower := Nat.le_of_lt (rest_ranks search (below g old))
    exact path.trans (search.forth g member v (by simp) lower)

include seen inward

theorem top_closed {x y : α} (inside : x ∈ v :: top ∨ x ∈ done.flatten) (step : edge x y) :
    y ∈ v :: top ∨ y ∈ done.flatten := by
  rcases inside with here | finished
  · have found : y ∈ top ++ v :: rest ∨ y ∈ done.flatten := by
      by_cases root : x = v
      · exact seen y (root ▸ step)
      · have above := (List.mem_cons.mp here).resolve_left root
        have apart : x ∉ v :: gray := by
          intro member
          have under := below x ((List.mem_cons.mp member).resolve_left root)
          have lower := rest_ranks search under
          have upper := top_ranks search here
          omega
        exact search.explored x (List.mem_append_left _ above) apart y step
    rcases found with standing | finished
    · rw [List.mem_append,List.mem_cons] at standing
      rcases standing with above | root | under
      · exact .inl (List.mem_cons_of_mem v above)
      · exact .inl (root ▸ List.mem_cons_self)
      · exact absurd step (inward x here y under)
    · exact .inr finished
  · exact .inr (search.closed x finished y step)

theorem close {comp : List α} (members : comp.Perm (v :: top)) : Search edge gray rank rest (done ++ [comp]) := by
  have listed : ∀ x, x ∈ (done ++ [comp]).flatten ↔ x ∈ v :: top ∨ x ∈ done.flatten := by
    intro x
    rw [List.flatten_append,List.mem_append,List.flatten_singleton,members.mem_iff,or_comm]
  have moved : (top ++ v :: rest ++ done.flatten).Perm (rest ++ (done ++ [comp]).flatten) := by
    rw [List.flatten_append,List.flatten_singleton]
    have parts : (top ++ v :: rest).Perm (rest ++ comp) :=
      List.perm_middle.trans ((@List.perm_append_comm _ (v :: top) _).trans (members.symm.append_left rest))
    refine (parts.append_right _).trans ?_
    rw [List.append_assoc]
    exact List.perm_append_comm.append_left rest
  have separate := moved.nodup_iff.mp search.separate
  have under : ∀ x ∈ rest, x ∈ top ++ v :: rest := fun x inside => by simp [inside]
  refine ⟨?_,separate,below,?_,?_,?_,?_,?_⟩
  · exact (List.pairwise_cons.mp (List.pairwise_append.mp search.ordered).2.1).2
  · intro x inside apart y step
    have root : x ≠ v := by
      rintro rfl
      exact absurd (rest_ranks search inside) (Nat.lt_irrefl _)
    rw [listed]
    rcases search.explored x (under x inside) (by simp [root,apart]) y step with standing | finished
    · rw [List.mem_append,List.mem_cons] at standing
      rcases standing with above | here | lower
      · exact .inr (.inl (List.mem_cons_of_mem v above))
      · exact .inr (.inl (here ▸ List.mem_cons_self))
      · exact .inl lower
    · exact .inr (.inr finished)
  · intro x inside y step
    rw [listed] at inside ⊢
    exact top_closed search below seen inward inside step
  · intro x inside
    obtain ⟨g,member,lower,path⟩ := search.back x (under x inside)
    rcases List.mem_cons.mp member with rfl | old
    · have less := rest_ranks search inside
      omega
    · exact ⟨g,old,lower,path⟩
  · exact fun g member x inside => search.forth g (List.mem_cons_of_mem v member) x (under x inside)
  · intro other inside
    rcases List.mem_append.mp inside with old | new
    · exact search.components other old
    · obtain rfl := List.mem_singleton.mp new
      refine ⟨fun none => by simp [none] at members,?_⟩
      intro x member w
      rw [members.mem_iff] at member ⊢
      have here := top_connected search below member
      constructor
      · intro member'
        have there := top_connected search below member'
        exact ⟨here.2.trans there.1,there.2.trans here.1⟩
      · rintro ⟨onward,back⟩
        let inner (z : α) : Prop := z ∈ v :: top ∨ z ∈ done.flatten
        have step : ∀ z, inner z → ∀ y, edge z y → inner y :=
          fun z inside y => top_closed search below seen inward inside
        have within : inner w := closed_reaches step (.inl member) onward
        refine within.resolve_right fun finished => ?_
        have closed := closed_reaches search.closed finished (back.trans here.2)
        exact (List.nodup_append.mp search.separate).2.2 v (by simp) v closed rfl

end Close

theorem ended (search : Search edge [] rank stack done) : stack = [] := by
  refine List.eq_nil_iff_forall_not_mem.mpr ?_
  intro x inside
  obtain ⟨g,member,_⟩ := search.back x inside
  cases member

end Search

end Orrery.Foundation.StrongComponents
