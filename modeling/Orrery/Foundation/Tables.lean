import Mathlib.Data.List.Nodup
import Mathlib.Data.Option.Basic

/-! Tables of rows with a key that no two of the rows share. -/
namespace Orrery.Foundation

structure Table (ρ κ : Type) (key : ρ → κ) where
  rows : List ρ
  distinct : (rows.map key).Nodup

namespace Table
variable {ρ κ : Type} {key : ρ → κ}

def empty : Table ρ κ key := ⟨[],List.nodup_nil⟩

def select (table : Table ρ κ key) (asked : ρ → Bool) : List ρ := table.rows.filter asked

def update (table : Table ρ κ key) (asked : ρ → Bool) (change : ρ → ρ) (keeps : ∀ r, key (change r) = key r) :
    Table ρ κ key where
  rows := table.rows.map fun r => if asked r then change r else r
  distinct := by
    have same : ∀ r, key (if asked r then change r else r) = key r := by
      intro r
      split
      next => exact keeps r
      next => rfl
    have keys : (table.rows.map fun r => if asked r then change r else r).map key = table.rows.map key := by
      rw [List.map_map]
      exact List.map_congr_left fun r _ => same r
    rw [keys]
    exact table.distinct

theorem rows_update {table : Table ρ κ key} {asked : ρ → Bool} {change : ρ → ρ} {keeps : ∀ r, key (change r) = key r} :
    (table.update asked change keeps).rows = table.rows.map fun r => if asked r then change r else r := rfl

variable [DecidableEq κ]

def remove (table : Table ρ κ key) (k : κ) : Table ρ κ key where
  rows := table.rows.filter fun r => key r ≠ k
  distinct := table.distinct.sublist (List.filter_sublist.map key)

def row (table : Table ρ κ key) (k : κ) : Option ρ := table.rows.find? fun r => key r = k

def insert (table : Table ρ κ key) (r : ρ) : Table ρ κ key :=
  if taken : key r ∈ table.rows.map key then table
  else
    ⟨table.rows ++ [r],by
      rw [List.map_append,List.map_singleton,← List.concat_eq_append]
      exact table.distinct.concat taken⟩

def put (table : Table ρ κ key) (r : ρ) : Table ρ κ key :=
  if taken : key r ∈ table.rows.map key then
    ⟨table.rows.map fun other => if key other = key r then r else other,by
      have keys : (table.rows.map fun other => if key other = key r then r else other).map key =
          table.rows.map key := by
        rw [List.map_map]
        apply List.map_congr_left
        intro other _
        rw [Function.comp_apply]
        split
        next same => exact same.symm
        next => rfl
      rw [keys]
      exact table.distinct⟩
  else
    ⟨table.rows ++ [r],by
      rw [List.map_append,List.map_singleton,← List.concat_eq_append]
      exact table.distinct.concat taken⟩

section Rows
variable {table : Table ρ κ key} {k : κ} {r : ρ}

theorem rows_remove : (table.remove k).rows = table.rows.filter fun r => key r ≠ k := rfl

theorem row_some : table.row k = some r ↔ r ∈ table.rows ∧ key r = k := by
  constructor
  · intro found
    exact ⟨List.mem_of_find?_eq_some found,by simpa using List.find?_some found⟩
  · rintro ⟨member,rfl⟩
    cases found : table.row (key r) with
    | none => exact absurd (List.find?_eq_none.mp found r member) (by simp)
    | some other =>
      have same : key other = key r := by simpa using List.find?_some found
      rw [List.inj_on_of_nodup_map table.distinct (List.mem_of_find?_eq_some found) member same]

theorem row_key (found : table.row k = some r) : key r = k := (row_some.mp found).2

theorem mem_select {asked : ρ → Bool} : r ∈ table.select asked ↔ table.row (key r) = some r ∧ asked r = true := by
  rw [select,List.mem_filter,row_some,and_iff_left rfl]

theorem select_key (k : κ) : (table.select fun r => key r = k) = (table.row k).toList := by
  have found : (table.select fun r => key r = k).head? = table.row k := by
    rw [select,row,List.head?_filter]
  have single : (table.select fun r => key r = k).length ≤ 1 := by
    have counted := List.nodup_iff_count_le_one.mp table.distinct k
    rw [List.count,List.countP_map] at counted
    rw [select,← List.countP_eq_length_filter]
    exact counted
  cases selected : table.select fun r => key r = k with
  | nil =>
    rw [selected] at found
    rw [← found]
    rfl
  | cons first rest =>
    rw [selected] at found single
    have rest : rest = [] := List.length_eq_zero_iff.mp (by simpa using single)
    rw [← found,rest]
    rfl

@[simp] theorem row_empty (k : κ) : (empty : Table ρ κ key).row k = none := rfl

theorem row_update {asked : ρ → Bool} {change : ρ → ρ} {keeps : ∀ r, key (change r) = key r} (k : κ) :
    (table.update asked change keeps).row k = (table.row k).map fun r => if asked r then change r else r := by
  rw [row,update,List.find?_map,row]
  congr 2
  funext r
  rw [Function.comp_apply]
  split
  next => rw [keeps]
  next => rfl

theorem row_remove (gone k : κ) : (table.remove gone).row k = if k = gone then none else table.row k := by
  rw [row,remove,List.find?_filter]
  split
  next same =>
    rw [List.find?_eq_none]
    intro r _ both
    simp [same] at both
  next apart =>
    rw [row]
    congr 1
    funext r
    by_cases own : key r = k
    · simp [own,apart]
    · simp [own]

theorem row_insert (r : ρ) (k : κ) :
    (table.insert r).row k = (table.row k).or (if key r = k then some r else none) := by
  rw [insert]
  split
  next taken =>
    obtain ⟨other,member,same⟩ := List.mem_map.mp taken
    by_cases here : key r = k
    · rw [row_some.mpr ⟨member,same.trans here⟩]
      rfl
    · rw [if_neg here,Option.or_none]
  next =>
    rw [row,List.find?_append,← row]
    by_cases here : key r = k
    · rw [if_pos here]
      simp [here]
    · rw [if_neg here]
      simp [here]

theorem row_put (r : ρ) (k : κ) : (table.put r).row k = if k = key r then some r else table.row k := by
  unfold put
  split
  next taken =>
    change (table.rows.map fun other => if key other = key r then r else other).find? (fun other => key other = k) = _
    rw [List.find?_map]
    have asked : (fun other => decide (key other = k)) ∘ (fun other => if key other = key r then r else other) =
        fun other => decide (key other = k) := by
      funext other
      rw [Function.comp_apply]
      split
      next same => rw [same]
      next => rfl
    rw [asked,← row]
    split
    next here =>
      obtain ⟨other,member,same⟩ := List.mem_map.mp taken
      rw [here,row_some.mpr ⟨member,same⟩]
      simp [same]
    next apart =>
      cases found : table.row k with
      | none => rfl
      | some other =>
        have different : key other ≠ key r := by
          rw [row_key found]
          exact apart
        simp [different]
  next free =>
    change (table.rows ++ [r]).find? (fun other => key other = k) = _
    rw [List.find?_append,← row]
    split
    next here =>
      have missing : table.row k = none := by
        rw [row,List.find?_eq_none]
        intro other member same
        exact free (List.mem_map.mpr ⟨other,member,(of_decide_eq_true same).trans here⟩)
      rw [missing]
      simp [here]
    next apart => simp [Ne.symm apart]

end Rows

end Table

end Orrery.Foundation
