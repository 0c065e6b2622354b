import Mathlib.Data.List.Sort
import Mathlib.Data.List.Nodup

/-! Pages of a table in the order of a key: each is asked for after the greatest key that was
read, and may be shorter than what was asked for. -/
namespace Orrery.Foundation.Keyset
variable {ρ κ : Type} [LinearOrder κ] (key : ρ → κ)

def inOrder (rows : List ρ) : List ρ := rows.mergeSort fun a b => key a ≤ key b

def page (rows : List ρ) (last : κ) (size : ℕ) : List ρ := (inOrder key (rows.filter fun r => last < key r)).take size

section Orders
variable {key} {rows front rest : List ρ} {last : κ}

theorem inOrder_perm (rows : List ρ) : (inOrder key rows).Perm rows := List.mergeSort_perm ..

theorem inOrder_sorted (rows : List ρ) : (inOrder key rows).Pairwise fun a b => key a ≤ key b := by
  have sorted := @List.pairwise_mergeSort ρ (fun a b => decide (key a ≤ key b))
    (fun a b c first second => decide_eq_true ((of_decide_eq_true first).trans (of_decide_eq_true second)))
    (fun a b => by simpa using le_total (key a) (key b)) rows
  exact sorted.imp fun ordered => of_decide_eq_true ordered

theorem inOrder_strict (distinct : (rows.map key).Nodup) : (inOrder key rows).Pairwise fun a b => key a < key b := by
  have apart : ((inOrder key rows).map key).Nodup := ((inOrder_perm rows).map key).nodup_iff.mpr distinct
  have different := List.pairwise_map.mp (List.nodup_iff_pairwise_ne.mp apart)
  exact (inOrder_sorted rows).imp₂ (fun _ _ ordered other => lt_of_le_of_ne ordered other) different

theorem inOrder_filter (distinct : (rows.map key).Nodup) (p : ρ → Bool) :
    inOrder key (rows.filter p) = (inOrder key rows).filter p := by
  have perm : (inOrder key (rows.filter p)).Perm ((inOrder key rows).filter p) :=
    (inOrder_perm _).trans ((inOrder_perm rows).filter p).symm
  have part : ((rows.filter p).map key).Nodup := distinct.sublist (List.filter_sublist.map key)
  refine perm.eq_of_pairwise ?_ (inOrder_strict part) ((inOrder_strict distinct).filter p)
  exact fun a b _ _ first second => absurd first (not_lt_of_gt second)

theorem page_rest (distinct : (rows.map key).Nodup) (split : inOrder key rows = front ++ rest)
    (read : ∀ r ∈ front, key r ≤ last) (ahead : ∀ r ∈ rest, last < key r) (size : ℕ) :
    page key rows last size = rest.take size := by
  have none_left : front.filter (fun r => decide (last < key r)) = [] := by
    rw [List.filter_eq_nil_iff]
    intro r inside later
    exact absurd (of_decide_eq_true later) (not_lt_of_ge (read r inside))
  have all_left : rest.filter (fun r => decide (last < key r)) = rest :=
    List.filter_eq_self.mpr fun r inside => decide_eq_true (ahead r inside)
  rw [page,inOrder_filter distinct,split,List.filter_append,none_left,all_left,List.nil_append]

theorem le_foldl_max (keys : List κ) : ∀ last : κ, last ≤ keys.foldl max last ∧ ∀ k ∈ keys, k ≤ keys.foldl max last := by
  induction keys with
  | nil => exact fun last => ⟨le_rfl,nofun⟩
  | cons k keys ih =>
    intro last
    obtain ⟨above,all⟩ := ih (max last k)
    exact ⟨(le_max_left last k).trans above,List.forall_mem_cons.mpr ⟨(le_max_right last k).trans above,all⟩⟩

theorem foldl_max_lt {keys : List κ} {bound : κ} : ∀ {last : κ}, last < bound → (∀ k ∈ keys, k < bound) →
    keys.foldl max last < bound := by
  induction keys with
  | nil => exact fun below _ => below
  | cons k keys ih =>
    intro last below all
    obtain ⟨first,others⟩ := List.forall_mem_cons.mp all
    exact ih (max_lt below first) others

theorem page_between (distinct : (rows.map key).Nodup) (split : inOrder key rows = front ++ rest)
    (read : ∀ r ∈ front, key r ≤ last) (ahead : ∀ r ∈ rest, last < key r) (size : ℕ) :
    (∀ r ∈ front ++ rest.take size, key r ≤ ((rest.take size).map key).foldl max last) ∧
      ∀ r ∈ rest.drop size, ((rest.take size).map key).foldl max last < key r := by
  obtain ⟨above,all⟩ := le_foldl_max ((rest.take size).map key) last
  constructor
  · intro r inside
    obtain earlier | shown := List.mem_append.mp inside
    · exact (read r earlier).trans above
    · exact all _ (List.mem_map_of_mem shown)
  · intro r later
    apply foldl_max_lt (ahead r (List.mem_of_mem_drop later))
    intro k inside
    obtain ⟨shown,member,rfl⟩ := List.mem_map.mp inside
    have strict := inOrder_strict distinct
    rw [split,← List.take_append_drop size rest] at strict
    exact (List.pairwise_append.mp (List.pairwise_append.mp strict).2.1).2.2 shown member r later

end Orders

end Orrery.Foundation.Keyset
