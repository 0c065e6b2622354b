import Orrery.Foundation.JsonText

/-! What the chapter's data layer (server/pg_store.py) makes of the values it stores and
reads, and the upsert it builds, with what Postgres does on a conflict. -/
namespace Orrery.Chapter
open Foundation Json

inductive DbAnswer
  | answered
  | noAnswer
  | raised (kind : String)
deriving DecidableEq

def rowText (parseFloat : List Char → ℚ) (s : String) : Json :=
  match s.toList with
  | '\x7b' :: _ | '[' :: _ => (loads parseFloat s.toList).getD (.str s)
  | _ => .str s

def rowColumn (parseFloat : List Char → ℚ) : Option String → Json
  | none => .null
  | some s => rowText parseFloat s

theorem rowText_plain {parseFloat : List Char → ℚ} {s : String} {c : Char} {rest : List Char}
    (starts : s.toList = c :: rest) (brace : c ≠ '\x7b') (bracket : c ≠ '[') : rowText parseFloat s = .str s := by
  unfold rowText
  rw [starts]
  split
  next same => exact absurd (List.cons.inj same).1 brace
  next same => exact absurd (List.cons.inj same).1 bracket
  next => rfl

theorem rowText_str {parseFloat : List Char → ℚ} {s t : String} (read : rowText parseFloat s = .str t) : s = t := by
  unfold rowText at read
  split at read
  next rest starts =>
    cases loaded : loads parseFloat s.toList with
    | none => simpa [loaded] using read
    | some found =>
      obtain rfl : found = .str t := by simpa [loaded] using read
      rw [starts] at loaded
      exact absurd (loads_str (by decide) loaded) (by decide)
  next rest starts =>
    cases loaded : loads parseFloat s.toList with
    | none => simpa [loaded] using read
    | some found =>
      obtain rfl : found = .str t := by simpa [loaded] using read
      rw [starts] at loaded
      exact absurd (loads_str (by decide) loaded) (by decide)
  next => exact Json.str.inj read

abbrev TableRow := String → Option Json

inductive Assignment
  | excluded
  | merged
deriving DecidableEq

inductive ConflictAction
  | none
  | doNothing
  | doUpdate (setlist : List (String × Assignment))

structure Upsert where
  table : String
  values : Dict
  conflict : List String
  action : ConflictAction

def buildUpsert (table : String) (row : Dict) (pkCols mergeJsonb : List String) : Upsert :=
  let updatable := (row.map Prod.fst).filter fun c => decide (c ∉ pkCols)
  { table := table
    values := row
    conflict := pkCols
    action :=
      if pkCols.isEmpty then .none
      else if updatable.isEmpty then .doNothing
      else .doUpdate (updatable.map fun c => (c,if c ∈ mergeJsonb then .merged else .excluded)) }

def literalFor (coltype : Option String) : Json → Option Json
  | .null => none
  | .int i => if coltype = some "real" then some (.float i) else some (.int i)
  | value => some value

def jsonbConcat : Json → Json → Json
  | .obj a, .obj b => .obj (b.foldl (fun d field => setItem d field.1 field.2) a)
  | .arr a, .arr b => .arr (a ++ b)
  | .arr a, b => .arr (a ++ [b])
  | a, .arr b => .arr (a :: b)
  | a, b => .arr [a,b]

def jsonbField : Option Json → String → Option Json
  | some (.obj fields), key => get fields key
  | _, _ => none

def Upsert.excluded (colTypes : List (String × String)) (statement : Upsert) (column : String) : Option Json :=
  (get statement.values column).bind (literalFor (colTypes.lookup column))

def Upsert.onConflict (colTypes : List (String × String)) (statement : Upsert) (stored : TableRow) : TableRow :=
  match statement.action with
  | .doUpdate setlist => fun column =>
    match setlist.lookup column with
    | some .excluded => statement.excluded colTypes column
    | some .merged => (stored column).bind fun old => (statement.excluded colTypes column).map (jsonbConcat old)
    | none => stored column
  | _ => stored

def Upsert.carriedOut (colTypes : List (String × String)) (defaults : TableRow) (statement : Upsert) :
    Option TableRow → TableRow
  | none => fun column =>
    if (get statement.values column).isSome then statement.excluded colTypes column else defaults column
  | some stored => statement.onConflict colTypes stored

section Conflict
variable {colTypes : List (String × String)} {table : String} {row : Dict} {pkCols mergeJsonb : List String}
  {stored : TableRow} {column : String}

theorem lookup_map {β : Type} (names : List String) (f : String → β) (name : String) :
    (names.map fun c => (c,f c)).lookup name = if name ∈ names then some (f name) else none := by
  induction names with
  | nil => rfl
  | cons first rest ih =>
    rw [List.map_cons,List.lookup_cons,ih]
    by_cases same : name = first
    · rw [same,beq_self_eq_true,if_pos (List.mem_cons_self ..)]
    · rw [beq_false_of_ne same]
      simp [same]

theorem onConflict_column (keyed : pkCols ≠ []) :
    (buildUpsert table row pkCols mergeJsonb).onConflict colTypes stored column =
      if column ∈ row.map Prod.fst ∧ column ∉ pkCols then
        if column ∈ mergeJsonb then (stored column).bind fun old =>
          ((get row column).bind (literalFor (colTypes.lookup column))).map (jsonbConcat old)
        else (get row column).bind (literalFor (colTypes.lookup column))
      else stored column := by
  have some_key : pkCols.isEmpty = false := by simpa using keyed
  unfold Upsert.onConflict buildUpsert
  dsimp only
  rw [some_key,if_neg (by decide)]
  by_cases empty : ((row.map Prod.fst).filter fun c => decide (c ∉ pkCols)).isEmpty = true
  · rw [if_pos empty]
    have absent : ¬ (column ∈ row.map Prod.fst ∧ column ∉ pkCols) := by
      rintro ⟨inside,other⟩
      rw [List.isEmpty_iff,List.filter_eq_nil_iff] at empty
      exact empty column inside (by simpa using other)
    rw [if_neg absent]
  · rw [if_neg empty]
    dsimp only
    rw [lookup_map]
    by_cases inside : column ∈ row.map Prod.fst ∧ column ∉ pkCols
    · rw [if_pos inside,if_pos (List.mem_filter.mpr ⟨inside.1,by simpa using inside.2⟩)]
      split
      next same =>
        rw [if_neg (by simpa using same)]
        rfl
      next same =>
        rw [if_pos (by simpa using same)]
        rfl
      next none => simp at none
    · rw [if_neg inside,if_neg]
      simpa using inside

theorem get_absent {d : Dict} {key : String} (absent : key ∉ d.map Prod.fst) : get d key = none := by
  induction d with
  | nil => rfl
  | cons field rest ih =>
    rw [List.map_cons,List.mem_cons,not_or] at absent
    have other : ¬ (field.1 == key) = true := by simpa using Ne.symm absent.1
    rw [get_cons,if_neg other,ih absent.2]

theorem jsonbField_concat {old : Json} {fields : Dict} {key : String} (unowned : get fields key = none) :
    jsonbField (some (jsonbConcat old (.obj fields))) key = jsonbField (some old) key := by
  cases old with
  | obj a =>
    change get (fields.foldl (fun d field => setItem d field.1 field.2) a) key = get a key
    induction fields generalizing a with
    | nil => rfl
    | cons field rest ih =>
      rw [get_cons] at unowned
      split at unowned
      · cases unowned
      next other =>
        rw [List.foldl_cons,ih unowned]
        apply get_setItem_other
        intro same
        exact other (by rw [same,beq_self_eq_true])
  | null => rfl
  | bool b => rfl
  | int i => rfl
  | float q => rfl
  | str s => rfl
  | arr items => rfl

end Conflict

end Orrery.Chapter
