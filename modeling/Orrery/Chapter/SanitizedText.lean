import Mathlib.Data.List.DropRight
import Orrery.Chapter.Registration
import Orrery.Foundation.Insertions

/-! `sanitize_text` of server/chapter_agent.py at every length: which texts come out without
a marker, and stay as they are when they are sanitized again. -/
namespace Orrery.Chapter
open Foundation

def sliceTo (count : Int) (text : List Char) : List Char :=
  if 0 ≤ count then text.take count.toNat else text.take (text.length+count).toNat

def truncated (text : String) (maxLength : Int) : List Char :=
  (sliceTo maxLength text.toList).filter (· ≠ '\x00')

def removeMarkers (markers : List (List Char)) (text : List Char) : List Char :=
  markers.foldl (fun text marker => removeMarker marker 0 text) text

def markerTexts : List (List Char) := promptMarkers.map String.toList

def sanitizeTextTo (text : String) (maxLength : Int) : String :=
  if text = "" then "" else String.ofList (strip (removeMarkers markerTexts (truncated text maxLength)))

section Removal
variable {m u s : List Char} {ms : List (List Char)} {v : List Char}

theorem removeMarker_skip (m : List Char) (skip : ℕ) (text : List Char) :
    removeMarker m skip text = removeMarker m 0 (text.drop skip) := by
  induction skip generalizing text with
  | zero => rfl
  | succ skip ih =>
    cases text with
    | nil => rfl
    | cons c text => exact ih text

theorem removeMarker_here (some_ : m ≠ []) (s : List Char) : removeMarker m 0 (m ++ s) = removeMarker m 0 s := by
  obtain ⟨c,m',rfl⟩ := List.exists_cons_of_ne_nil some_
  have begins : (c :: m').isPrefixOf (c :: (m' ++ s)) = true :=
    List.isPrefixOf_iff_prefix.mpr (List.prefix_append (c :: m') s)
  rw [List.cons_append,removeMarker,if_pos begins,removeMarker_skip,List.length_cons,Nat.add_sub_cancel,List.drop_left]

theorem removeMarker_keep {c : Char} (apart : ¬m <+: c :: s) : removeMarker m 0 (c :: s) = c :: removeMarker m 0 s := by
  rw [removeMarker,if_neg (by rwa [List.isPrefixOf_iff_prefix])]

theorem inserted_removeMarker (some_ : m ≠ []) (s : List Char) : Inserted m (removeMarker m 0 s) s := by
  induction h : s.length using Nat.strong_induction_on generalizing s with
  | _ n ih =>
    subst h
    cases s with
    | nil => exact .nil
    | cons c s =>
      by_cases begins : m <+: c :: s
      · obtain ⟨rest,whole⟩ := begins
        have shorter : rest.length < (c :: s).length := by
          have positive := List.length_pos_of_ne_nil some_
          rw [← whole,List.length_append]
          omega
        rw [← whole,removeMarker_here some_]
        exact (ih _ shorter rest rfl).insert
      · rw [removeMarker_keep begins]
        exact (ih _ (by simp) s rfl).keep c

theorem removeMarker_inserted (inserted : Inserted m u s) (some_ : m ≠ []) (tail : OverlapFree m.tail m)
    (free : ¬m <:+: u) : removeMarker m 0 s = u := by
  induction inserted with
  | nil => rfl
  | @keep c u s inserted ih =>
    have begins : ¬m <+: c :: s := by
      intro begins
      obtain ⟨d,m',rfl⟩ := List.exists_cons_of_ne_nil some_
      obtain ⟨rfl,rest⟩ := List.cons_prefix_cons.mp begins
      exact free (List.cons_prefix_cons.mpr ⟨rfl,inserted.isPrefix tail rest⟩).isInfix
    rw [removeMarker_keep begins,ih fun inside => free (inside.trans (List.suffix_cons c u).isInfix)]
  | insert inserted ih => rw [removeMarker_here some_,ih free]

theorem woven_removeMarkers (filled : ∀ m ∈ ms, m ≠ []) (s : List Char) : Woven ms (removeMarkers ms s) s := by
  induction ms generalizing s with
  | nil => rfl
  | cons m ms ih =>
    exact ⟨removeMarker m 0 s,ih (fun p inside => filled p (.tail _ inside)) _,
      inserted_removeMarker (filled m (.head _)) s⟩

theorem removeMarkers_woven (unlinked : Unlinked ms) (woven : Woven ms v s) (free : ∀ m ∈ ms, ¬m <:+: v) :
    removeMarkers ms s = v := by
  induction ms generalizing s with
  | nil => exact woven.symm
  | cons m ms ih =>
    obtain ⟨u,woven,inserted⟩ := woven
    have whole : ¬m <:+: u := fun inside =>
      free m (.head _) (woven.isInfix (List.pairwise_cons.mp unlinked.apart).1 inside)
    have here := removeMarker_inserted inserted (unlinked.filled m (.head _)) (unlinked.tails m (.head _)) whole
    rw [removeMarkers,List.foldl_cons,here]
    exact ih unlinked.tail woven fun p inside => free p (.tail _ inside)

theorem removeMarkers_free (unlinked : Unlinked ms) (free : ∀ m ∈ ms, ¬m <:+: s) : removeMarkers ms s = s := by
  have itself : ∀ markers, Woven markers s s := by
    intro markers
    induction markers with
    | nil => rfl
    | cons m markers ih => exact ⟨s,ih,.refl m s⟩
  exact removeMarkers_woven unlinked (itself ms) free

end Removal

section Stripping
variable {text marker : List Char}

theorem strip_isInfix (text : List Char) : strip text <:+: text :=
  (List.rdropWhile_prefix isSpace _).isInfix.trans (List.dropWhile_suffix isSpace).isInfix

theorem infix_dropWhile (solid : ∀ c ∈ marker, isSpace c = false) (inside : marker <:+: text) :
    marker <:+: text.dropWhile isSpace := by
  induction text with
  | nil => exact inside
  | cons c text ih =>
    by_cases space : isSpace c = true
    · rw [List.dropWhile_cons_of_pos space]
      obtain begins | inside := List.infix_cons_iff.mp inside
      · cases marker with
        | nil => exact List.nil_infix
        | cons d marker =>
          obtain ⟨rfl,_⟩ := List.cons_prefix_cons.mp begins
          exact absurd space (by simp [solid d (.head _)])
      · exact ih inside
    · rwa [List.dropWhile_cons_of_neg space]

theorem infix_strip (solid : ∀ c ∈ marker, isSpace c = false) (inside : marker <:+: text) : marker <:+: strip text := by
  rw [strip,← List.reverse_infix,List.reverse_reverse]
  apply infix_dropWhile (by simpa using solid)
  rw [List.reverse_infix]
  exact infix_dropWhile solid inside

theorem strip_strip (text : List Char) : strip (strip text) = strip text := by
  change ((strip text).dropWhile isSpace).rdropWhile isSpace = strip text
  have begins : strip text <+: text.dropWhile isSpace := List.rdropWhile_prefix isSpace _
  have first : (strip text).dropWhile isSpace = strip text := by
    cases whole : strip text with
    | nil => rfl
    | cons c rest =>
      obtain ⟨more,split⟩ := whole ▸ begins
      have kept := List.head?_dropWhile_not isSpace text
      rw [← split] at kept
      exact List.dropWhile_cons_of_neg (by simpa using kept)
  rw [first]
  exact List.rdropWhile_idempotent isSpace _

theorem strip_nil_iff : strip text = [] ↔ ∀ c ∈ text, isSpace c = true := by
  constructor
  · intro blank c inside
    by_contra solid
    have kept : [c] <:+: strip text := infix_strip (by simpa using solid) (List.singleton_infix_iff _ _ |>.mpr inside)
    rw [blank] at kept
    simp at kept
  · intro spaces
    rw [strip,List.dropWhile_eq_nil_iff.mpr spaces]
    rfl

end Stripping

def MarkerFree (text : List Char) : Prop := ∀ marker ∈ markerTexts, ¬marker <:+: text

structure Sanitized (text : String) (maxLength : Int) : Prop where
  noNull : '\x00' ∉ (sanitizeTextTo text maxLength).toList
  noMarker : MarkerFree (sanitizeTextTo text maxLength).toList
  stable : sanitizeTextTo (sanitizeTextTo text maxLength) maxLength = sanitizeTextTo text maxLength

/-- The text is one without markers into which markers were put, the last of the list first:
none stands inside itself or an earlier one. A length that counts from the end leaves only
whitespace beside them. -/
def InOrder (text : String) (maxLength : Int) : Prop :=
  ∃ bare, MarkerFree bare ∧ Woven markerTexts bare (truncated text maxLength) ∧
    (0 ≤ maxLength ∨ ∀ c ∈ bare, isSpace c = true)

section Markers
variable {text : String} {maxLength : Int}

theorem unlinked_markers : Unlinked markerTexts where
  filled := by decide
  apart := by decide +kernel
  tails := by decide +kernel

theorem markers_solid : ∀ marker ∈ markerTexts, ∀ c ∈ marker, isSpace c = false := by
  have solid : markerTexts.all (fun marker => marker.all fun c => !isSpace c) = true := by decide +kernel
  simpa using solid

theorem sanitizeTextTo_toList (text : String) (maxLength : Int) :
    (sanitizeTextTo text maxLength).toList = strip (removeMarkers markerTexts (truncated text maxLength)) := by
  unfold sanitizeTextTo
  split
  next empty =>
    have nothing : truncated text maxLength = [] := by simp [empty,truncated,sliceTo]
    rw [nothing]
    rfl
  next => exact String.toList_ofList

theorem removed_sublist (text : String) (maxLength : Int) :
    (removeMarkers markerTexts (truncated text maxLength)).Sublist (truncated text maxLength) :=
  (woven_removeMarkers unlinked_markers.filled _).sublist

theorem sanitized_sublist (text : String) (maxLength : Int) :
    (sanitizeTextTo text maxLength).toList.Sublist (truncated text maxLength) := by
  rw [sanitizeTextTo_toList]
  exact (strip_isInfix _).sublist.trans (removed_sublist text maxLength)

theorem sanitized_noNull (text : String) (maxLength : Int) : '\x00' ∉ (sanitizeTextTo text maxLength).toList := by
  intro inside
  simpa [truncated] using (sanitized_sublist text maxLength).subset inside

theorem sanitized_markerFree : MarkerFree (sanitizeTextTo text maxLength).toList ↔
    MarkerFree (removeMarkers markerTexts (truncated text maxLength)) := by
  rw [sanitizeTextTo_toList]
  constructor
  · intro free marker known inside
    exact free marker known (infix_strip (markers_solid marker known) inside)
  · intro free marker known inside
    exact free marker known (inside.trans (strip_isInfix _))

theorem truncated_length (nonneg : 0 ≤ maxLength) : (truncated text maxLength).length ≤ maxLength.toNat := by
  rw [truncated,sliceTo,if_pos nonneg]
  exact (List.length_filter_le _ _).trans (List.length_take_le _ _)

theorem sanitized_shorter (negative : maxLength < 0) (stable : sanitizeTextTo text maxLength = text) : text = "" := by
  have le := (sanitized_sublist text maxLength).length_le
  rw [stable,truncated,sliceTo,if_neg (not_le.mpr negative)] at le
  have short := le.trans ((List.length_filter_le _ _).trans (List.length_take_le _ _))
  have none_ : text.toList.length = 0 := by omega
  exact String.toList_eq_nil_iff.mp (List.length_eq_zero_iff.mp none_)

theorem sanitized_again (nonneg : 0 ≤ maxLength) (free : MarkerFree (sanitizeTextTo text maxLength).toList) :
    sanitizeTextTo (sanitizeTextTo text maxLength) maxLength = sanitizeTextTo text maxLength := by
  have short : (sanitizeTextTo text maxLength).toList.length ≤ maxLength.toNat :=
    (sanitized_sublist text maxLength).length_le.trans (truncated_length nonneg)
  have whole : truncated (sanitizeTextTo text maxLength) maxLength = (sanitizeTextTo text maxLength).toList := by
    rw [truncated,sliceTo,if_pos nonneg,List.take_of_length_le short,List.filter_eq_self]
    intro c inside
    have other : c ≠ '\x00' := fun null => sanitized_noNull text maxLength (null ▸ inside)
    simpa using other
  apply String.toList_inj.mp
  rw [sanitizeTextTo_toList,whole,removeMarkers_free unlinked_markers free,sanitizeTextTo_toList,strip_strip]

/-- The result has no marker and stays as it is exactly for the texts whose markers are
nested in the order of the list at most. -/
theorem sanitized_iff (text : String) (maxLength : Int) : Sanitized text maxLength ↔ InOrder text maxLength := by
  constructor
  · rintro ⟨_,noMarker,stable⟩
    refine ⟨_,sanitized_markerFree.mp noMarker,woven_removeMarkers unlinked_markers.filled _,?_⟩
    obtain nonneg | negative := le_or_gt 0 maxLength
    · exact .inl nonneg
    · right
      have nothing := congrArg String.toList (sanitized_shorter negative stable)
      rw [sanitizeTextTo_toList] at nothing
      exact strip_nil_iff.mp nothing
  · rintro ⟨bare,free,woven,blank⟩
    have removed := removeMarkers_woven unlinked_markers woven free
    have noMarker : MarkerFree (sanitizeTextTo text maxLength).toList := by
      rw [sanitized_markerFree,removed]
      exact free
    refine ⟨sanitized_noNull text maxLength,noMarker,?_⟩
    obtain nonneg | spaces := blank
    · exact sanitized_again nonneg noMarker
    · have nothing : sanitizeTextTo text maxLength = "" := by
        apply String.toList_eq_nil_iff.mp
        rw [sanitizeTextTo_toList,removed]
        exact strip_nil_iff.mpr spaces
      rw [nothing]
      rfl

/-- A marker around another comes out whole. -/
theorem nested_marker : sanitizeTextTo "<|sys<|user|>tem|>" 2000 = "<|system|>" ∧
    ¬Sanitized "<|sys<|user|>tem|>" 2000 := by
  have result : sanitizeTextTo "<|sys<|user|>tem|>" 2000 = "<|system|>" := by decide +kernel
  refine ⟨result,?_⟩
  intro sanitized
  have free := sanitized.noMarker
  rw [result] at free
  exact free "<|system|>".toList (by decide +kernel) List.infix_rfl

end Markers

theorem sanitizeTextTo_nat (text : String) (maxLength : ℕ) : sanitizeTextTo text maxLength = sanitizeText text maxLength := by
  apply String.toList_inj.mp
  rw [sanitizeTextTo_toList,sanitizeText,String.toList_ofList,truncated,sliceTo,if_pos (by omega),Int.toNat_natCast,
    removeMarkers,markerTexts,List.foldl_map]

end Orrery.Chapter
