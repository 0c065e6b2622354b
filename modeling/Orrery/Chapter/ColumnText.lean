import Orrery.Foundation.JsonNumbers
import Orrery.Chapter.PgStore
import Orrery.Chapter.SqlRequests

/-! What is read back of a column (server/pg_store.py, `_lit_for` and `_rows`): the writer
goes by the type of the column, the reader by the first character of the text. -/
namespace Orrery.Chapter
open Foundation Json
open Foundation.Sql

/-- What Postgres gives back for the text of a jsonb constant, `none` where it refuses it:
the document is kept, and its text starts with what it is. -/
structure Jsonb (decimal : List Char → ℚ) where
  stored : List Char → Option (List Char)
  starts : ∀ text out, stored text = some out → out.head?.any isWhite = false
  kept : ∀ text out d, stored text = some out → loads decimal text = some d →
    ∃ e, loads decimal out = some e ∧ Json.Kept d e

inductive Column
  | text
  | jsonb

def textType : ColType := ⟨⟨.plain 't' "ext".toList rfl (List.all_eq_true.mp (by decide)),[]⟩,[],false⟩

def Column.coltype : Column → ColType
  | .text => textType
  | .jsonb => jsonbType

section Reading
variable (py : PyText) {decimal : List Char → ℚ} (round : ℚ → ℚ) (pg : Jsonb decimal)

def Column.holds : Column → List Char → Option (List Char)
  | .text, value => some value
  | .jsonb, value => pg.stored value

/-- A value is written into a column, and this is what `_rows` makes of the column: `float`
rounds the decimal that it is given. -/
def Returns (c : Column) (v w : Json) : Prop :=
  ∃ text tokens value held, litFor py v (some c.coltype.name) = .ok text ∧ Lexes text tokens ∧
    constants tokens = [value] ∧ c.holds pg value = some held ∧ w = rowText (round ∘ decimal) (String.ofList held)

/-- A text for a text column, or a list or dictionary for a jsonb column. -/
inductive Value (py : PyText) (decimal : List Char → ℚ) (round : ℚ → ℚ)
  | text (s : String)
  | container (v : Json) (container : v.isContainer = true) (proper : Proper (round ∘ decimal) py.floatRepr v)

variable {round}

def Value.Returned : Value py decimal round → Prop
  | .text s => ∀ w, Returns py round pg .text (.str s) w → w = .str s
  | .container v _ _ => ∀ w, Returns py round pg .jsonb v w →
    Alike (document decimal py.floatRepr v) (document decimal py.floatRepr w)

def Value.LooksLikeJson : Value py decimal round → Prop
  | .text s => (s.toList.head? = some '[' ∨ s.toList.head? = some '\x7b') ∧
    (loads (round ∘ decimal) s.toList).isSome = true
  | .container _ _ _ => False

variable {py}

theorem textType_name : textType.name = "text" := by decide

theorem jsonbType_name : jsonbType.name = "jsonb" := by decide

theorem litFor_text (s : String) : litFor py (.str s) (some Column.text.coltype.name) = .ok (quoteText s.toList) := by
  have plain : ¬ "[]".toList <:+ "text".toList := by decide
  have name : Column.text.coltype.name = "text" := textType_name
  rw [name]
  simp only [litFor,if_neg plain]
  rfl

theorem litFor_jsonb {v : Json} (container : v.isContainer = true) :
    litFor py v (some Column.jsonb.coltype.name) = .ok (Lit.cast (jsonText py v) jsonbType).sql := by
  have plain : ¬ "[]".toList <:+ "jsonb".toList := by decide
  have other : baseType "jsonb" ≠ "vector".toList := by decide
  have name : Column.jsonb.coltype.name = "jsonb" := jsonbType_name
  have chars : jsonbType.text = "jsonb".toList := by decide
  rw [name,Lit.sql,chars]
  cases v with
  | arr items =>
    simp only [litFor,if_neg plain,if_neg other]
    rfl
  | obj fields =>
    simp only [litFor,if_neg plain]
    rfl
  | _ => cases container

theorem written_unique {l : Lit} {value other : List Char} {tokens : List Token} (has : l.value? = some value)
    (read : Lexes l.sql tokens) (only : constants tokens = [other]) : other = value := by
  have own : Lexes l.sql l.tokens := by
    have spelled := spells_lit l [] [] (.inl rfl) .nil
    simpa using spelled
  obtain rfl := read.unique own
  rw [l.values,has] at only
  exact (List.cons.inj only).1.symm

theorem rowText_iff (parse : List Char → ℚ) (s : String) : rowText parse s = .str s ↔
    ¬ ((s.toList.head? = some '[' ∨ s.toList.head? = some '\x7b') ∧ (loads parse s.toList).isSome = true) := by
  constructor
  · rintro same ⟨first,read⟩
    obtain ⟨v,read⟩ := Option.isSome_iff_exists.mp read
    have decoded : rowText parse s = v := by
      unfold rowText
      rw [read]
      split
      · rfl
      · rfl
      next other other' =>
        cases chars : s.toList with
        | nil => simp [chars] at first
        | cons c rest =>
          rw [chars] at first
          obtain rfl | rfl : c = '[' ∨ c = '\x7b' := by simpa using first
          · exact absurd chars (other' rest)
          · exact absurd chars (other rest)
    rw [decoded] at same
    subst same
    cases chars : s.toList with
    | nil => simp [chars] at first
    | cons c rest =>
      rw [chars] at first read
      obtain rfl | rfl : c = '[' ∨ c = '\x7b' := by simpa using first
      · exact absurd (loads_str (by decide) read) (by decide)
      · exact absurd (loads_str (by decide) read) (by decide)
  · intro otherwise
    cases chars : s.toList with
    | nil =>
      unfold rowText
      rw [chars]
    | cons c rest =>
      by_cases bracket : c = '[' ∨ c = '\x7b'
      · have refused : loads parse s.toList = none := by
          by_contra some
          refine otherwise ⟨?_,Option.isSome_iff_ne_none.mpr some⟩
          rw [chars]
          simpa using bracket
        unfold rowText
        rw [refused]
        split <;> rfl
      · rw [not_or] at bracket
        exact rowText_plain chars bracket.2 bracket.1

theorem returns_text (s : String) (w : Json) :
    Returns py round pg .text (.str s) w ↔ w = rowText (round ∘ decimal) s := by
  constructor
  · rintro ⟨text,tokens,value,held,written,read,only,holds,rfl⟩
    rw [litFor_text] at written
    obtain rfl := Except.ok.inj written
    obtain rfl := written_unique (l := .string s.toList) rfl read only
    obtain rfl := Option.some.inj holds
    rw [String.ofList_toList]
  · rintro rfl
    have read := spells_lit (.string s.toList) [] [] (.inl rfl) .nil
    rw [List.append_nil,List.append_nil] at read
    refine ⟨_,_,s.toList,s.toList,litFor_text s,read,rfl,rfl,?_⟩
    rw [String.ofList_toList]

theorem returns_jsonb {v w : Json} (container : v.isContainer = true) (returned : Returns py round pg .jsonb v w) :
    ∃ out, pg.stored (jsonText py v) = some out ∧ w = rowText (round ∘ decimal) (String.ofList out) := by
  obtain ⟨text,tokens,value,held,written,read,only,holds,rfl⟩ := returned
  rw [litFor_jsonb container] at written
  obtain rfl := Except.ok.inj written
  obtain rfl := written_unique (l := .cast (jsonText py v) jsonbType) rfl read only
  exact ⟨held,holds,rfl⟩

theorem jsonb_returned {v w : Json} (container : v.isContainer = true)
    (proper : Proper (round ∘ decimal) py.floatRepr v) (returned : Returns py round pg .jsonb v w) :
    Alike (document decimal py.floatRepr v) (document decimal py.floatRepr w) := by
  obtain ⟨out,stored,rfl⟩ := returns_jsonb pg container returned
  have exact_ := loads_document decimal Layout.plain_readable rfl proper
  obtain ⟨e,read,kept⟩ := pg.kept _ _ _ stored exact_
  have rounded : loads (round ∘ decimal) out = some (mapFloats round e) := by rw [loads_map,read]; rfl
  have shape : e.isContainer = true := by
    cases v with
    | arr values => cases kept; rfl
    | obj fields => cases kept; rfl
    | _ => cases container
  have decoded : rowText (round ∘ decimal) (String.ofList out) = mapFloats round e := by
    cases out with
    | nil => cases read
    | cons c rest =>
      have black : isWhite c = false := by simpa using pg.starts _ _ stored
      have first := loads_container read shape black
      unfold rowText
      rw [String.toList_ofList,rounded]
      obtain rfl | rfl := first <;> rfl
  rw [decoded]
  exact kept.document proper

/-- What is written is what is read, except for a text that looks like JSON. -/
theorem column_round_trip_iff (x : Value py decimal round) : x.Returned py pg ↔ ¬ x.LooksLikeJson py := by
  cases x with
  | text s =>
    rw [Value.LooksLikeJson,← rowText_iff]
    constructor
    · exact fun returned => returned _ ((returns_text pg s _).mpr rfl)
    · intro same w read
      rw [(returns_text pg s w).mp read,same]
  | container v container proper =>
    constructor
    · exact fun _ => id
    · exact fun _ w read => jsonb_returned pg container proper read

end Reading

section Examples

def wholeDecimal (text : List Char) : ℚ :=
  let size : ℚ := Nat.ofDigitChars 10 ((minus text).2.takeWhile Char.isDigit) 0
  if (minus text).1.isEmpty then size else -size

def sameText : Jsonb wholeDecimal where
  stored text := if (loads wholeDecimal text).isSome && !(text.head?.any isWhite) then some text else none
  starts text out stored := by
    split at stored
    next fits =>
      obtain rfl := Option.some.inj stored
      simpa using (Bool.and_eq_true_iff.mp fits).2
    next => cases stored
  kept text out d stored read := by
    split at stored
    next =>
      obtain rfl := Option.some.inj stored
      exact ⟨d,read,.refl d⟩
    next => cases stored

/-- The text `[]` comes back as a list. -/
theorem brackets_decoded : ¬ (Value.text "[]" : Value asciiText wholeDecimal id).Returned asciiText sameText := by
  intro returned
  have read := returned (rowText (id ∘ wholeDecimal) "[]") ((returns_text sameText "[]" _).mpr rfl)
  cases read

end Examples

end Orrery.Chapter
