import Orrery.Foundation.Tables

/-! Tables whose rows have a number of their own beside the key that they are known by. -/
namespace Orrery.Foundation

structure NumberedTable (ρ ι κ : Type) (number : ρ → ι) (key : ρ → κ) extends Table ρ κ key where
  numbered : (rows.map number).Nodup

namespace NumberedTable
variable {ρ ι κ : Type} {number : ρ → ι} {key : ρ → κ}

def empty : NumberedTable ρ ι κ number key := ⟨Table.empty,List.nodup_nil⟩

variable [DecidableEq ι] [DecidableEq κ]

/-- The row of this number is changed in place, and stays the row that it is. -/
def patch (table : NumberedTable ρ ι κ number key) (i : ι) (change : ρ → ρ)
    (keeps : ∀ r, key (change r) = key r) (same : ∀ r, number (change r) = number r) :
      NumberedTable ρ ι κ number key where
  toTable := table.toTable.update (fun r => number r = i) change keeps
  numbered := by
    have numbers : (table.toTable.update (fun r => number r = i) change keeps).rows.map number =
        table.rows.map number := by
      rw [Table.rows_update,List.map_map]
      apply List.map_congr_left
      intro r _
      rw [Function.comp_apply]
      split
      next => exact same r
      next => rfl
    rw [numbers]
    exact table.numbered

def insert (table : NumberedTable ρ ι κ number key) (r : ρ) : NumberedTable ρ ι κ number key :=
  if taken : number r ∈ table.rows.map number then table
  else
    ⟨table.toTable.insert r,by
      rw [Table.insert]
      split
      next => exact table.numbered
      next =>
        rw [List.map_append,List.map_singleton,← List.concat_eq_append]
        exact table.numbered.concat taken⟩

section Rows
variable {table : NumberedTable ρ ι κ number key} {k : κ} {r : ρ}

theorem row_patch {change : ρ → ρ} {keeps : ∀ r, key (change r) = key r} {same : ∀ r, number (change r) = number r}
    (found : table.row k = some r) (other : κ) :
    (table.patch (number r) change keeps same).row other = if other = k then some (change r) else table.row other := by
  change (table.toTable.update _ change keeps).row other = _
  rw [Table.row_update]
  split
  next here =>
    rw [here,found]
    simp
  next apart =>
    cases there : table.row other with
    | none => rfl
    | some r' =>
      have different : number r' ≠ number r := by
        intro collide
        have one := List.inj_on_of_nodup_map table.numbered (Table.row_some.mp there).1
          (Table.row_some.mp found).1 collide
        rw [← Table.row_key there,← Table.row_key found,one] at apart
        exact apart rfl
      simp [different]

theorem row_insert (fresh : number r ∉ table.rows.map number) (k : κ) :
    (table.insert r).row k = (table.row k).or (if key r = k then some r else none) := by
  rw [insert,dif_neg fresh]
  exact Table.row_insert r k

theorem rows_insert (table : NumberedTable ρ ι κ number key) (r : ρ) :
    (table.insert r).rows = table.rows ∨ (table.insert r).rows = table.rows ++ [r] := by
  rw [insert]
  split
  next => exact .inl rfl
  next =>
    change (table.toTable.insert r).rows = _ ∨ _
    unfold Table.insert
    split
    next => exact .inl rfl
    next => exact .inr rfl

theorem rows_insert_free (fresh : number r ∉ table.rows.map number) (free : key r ∉ table.rows.map key) :
    (table.insert r).rows = table.rows ++ [r] := by
  rw [insert,dif_neg fresh]
  change (table.toTable.insert r).rows = _
  unfold Table.insert
  rw [dif_neg free]

end Rows

end NumberedTable

end Orrery.Foundation
