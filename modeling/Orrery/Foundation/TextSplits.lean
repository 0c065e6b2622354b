import Mathlib.Data.List.DropRight
import Mathlib.Data.List.Infix

/-! Cutting texts: the end of a text that is trimmed, the place where a separator first
stands, and what a suffix of a text knows of the characters before it. -/
namespace Orrery.Foundation.TextSplits

variable {α : Type}

section Trim
variable {p : α → Bool}

theorem rdropWhile_append_cons (front : List α) {c : α} (kept : p c = false) (text : List α) :
    (front ++ c :: text).rdropWhile p = front ++ c :: text.rdropWhile p := by
  induction text using List.reverseRecOn with
  | nil => rw [List.rdropWhile_concat_neg p front c (by simp [kept]),List.rdropWhile_nil]
  | append_singleton text last ih =>
    rw [← List.cons_append,← List.append_assoc,List.rdropWhile_concat,List.rdropWhile_concat,ih]
    split <;> simp

theorem rdropWhile_append_all (text : List α) {tail : List α} (all : ∀ c ∈ tail, p c = true) :
    (text ++ tail).rdropWhile p = text.rdropWhile p := by
  rw [List.rdropWhile,List.reverse_append,
    List.dropWhile_append_of_pos fun c inside => all c (List.mem_reverse.mp inside)]
  rfl

theorem dropWhile_dropWhile {q : α → Bool} {text : List α} (stops : ∀ c, (text.dropWhile p).head? = some c → q c = false) :
    (text.dropWhile q).dropWhile p = text.dropWhile p := by
  induction text with
  | nil => rfl
  | cons c text ih =>
    by_cases second : q c = true
    · by_cases first : p c = true
      · rw [List.dropWhile_cons_of_pos first] at stops ⊢
        rw [List.dropWhile_cons_of_pos second,ih stops]
      · have kept := stops c (by rw [List.dropWhile_cons_of_neg first]; rfl)
        rw [kept] at second
        cases second
    · rw [List.dropWhile_cons_of_neg second]

theorem takeWhile_append_exists (text tail : List α) :
    ∃ more, (text ++ tail).takeWhile p = text.takeWhile p ++ more ∧ more ⊆ tail := by
  rw [List.takeWhile_append]
  split
  next whole =>
    refine ⟨tail.takeWhile p,?_,(List.takeWhile_sublist p).subset⟩
    rw [(List.takeWhile_sublist p).eq_of_length whole]
  · exact ⟨[],by simp,by simp⟩

end Trim

theorem append_cons_inj {sep : α} {front front' back back' : List α} (absent : sep ∉ front) (absent' : sep ∉ front')
    (same : front ++ sep :: back = front' ++ sep :: back') : front = front' ∧ back = back' := by
  induction front generalizing front' with
  | nil =>
    cases front' with
    | nil => exact ⟨rfl,(List.cons.inj same).2⟩
    | cons c front' =>
      obtain ⟨rfl,_⟩ := List.cons.inj same
      exact absurd List.mem_cons_self absent'
  | cons c front ih =>
    cases front' with
    | nil =>
      obtain ⟨rfl,_⟩ := List.cons.inj same
      exact absurd List.mem_cons_self absent
    | cons d front' =>
      obtain ⟨rfl,rest⟩ := List.cons.inj same
      obtain ⟨rfl,backs⟩ := ih (fun inside => absent (List.mem_cons_of_mem c inside))
        (fun inside => absent' (List.mem_cons_of_mem c inside)) rest
      exact ⟨rfl,backs⟩

theorem append_cons_inj_last {sep : α} {front front' back back' : List α} (absent : sep ∉ back) (absent' : sep ∉ back')
    (same : front ++ sep :: back = front' ++ sep :: back') : front = front' ∧ back = back' := by
  have turned : back.reverse ++ sep :: front.reverse = back'.reverse ++ sep :: front'.reverse := by
    simpa using congrArg List.reverse same
  obtain ⟨backs,fronts⟩ := append_cons_inj (mt List.mem_reverse.mp absent) (mt List.mem_reverse.mp absent') turned
  exact ⟨List.reverse_injective fronts,List.reverse_injective backs⟩

theorem append_last {front back text tail : List α} {c : α} (absent : c ∉ tail)
    (same : text ++ tail = front ++ c :: back) : ∃ rest, text = front ++ c :: rest ∧ rest ++ tail = back := by
  have whole : text ++ tail = (front ++ [c]) ++ back := by simpa using same
  rcases List.append_eq_append_iff.mp whole with ⟨rest,begins,rfl⟩ | ⟨rest,rfl,rfl⟩
  · rcases List.eq_nil_or_concat rest with rfl | ⟨rest,d,rfl⟩
    · exact ⟨[],by simpa using begins.symm,by simp⟩
    · have last := congrArg List.getLast? begins
      simp only [List.getLast?_append,List.concat_eq_append,List.getLast?_singleton,Option.some_or,
        Option.some.injEq] at last
      subst last
      simp at absent
  · exact ⟨rest,by simp,rfl⟩

theorem suffix_behind {sep : α} {last front back : List α} (absent : sep ∉ last) (suffix : last <:+ front ++ sep :: back) :
    last <:+ back := by
  rcases List.suffix_or_suffix_of_suffix suffix (List.suffix_append front (sep :: back)) with short | long
  · rcases List.suffix_cons_iff.mp short with whole | behind
    · exact absurd (whole ▸ List.mem_cons_self) absent
    · exact behind
  · exact absurd (long.subset List.mem_cons_self) absent

section Partition
variable [BEq α]

def partition (sep : List α) : List α → Option (List α × List α)
  | [] => none
  | c :: text =>
    if sep.isPrefixOf (c :: text) then some ([],(c :: text).drop sep.length)
    else (partition sep text).map fun (before,after) => (c :: before,after)

variable [LawfulBEq α]

theorem partition_first {c : α} {front : List α} (absent : c ∉ front) (sep back : List α) :
    partition (c :: sep) (front ++ (c :: sep) ++ back) = some (front,back) := by
  induction front with
  | nil => simp [partition]
  | cons d front ih =>
    simp only [List.mem_cons,not_or] at absent
    rw [List.cons_append,List.cons_append,partition,ih absent.2]
    simp [absent.1]

theorem partition_absent {c : α} {text : List α} (absent : c ∉ text) (sep : List α) :
    partition (c :: sep) text = none := by
  induction text with
  | nil => rfl
  | cons d text ih =>
    simp only [List.mem_cons,not_or] at absent
    rw [partition,ih absent.2]
    simp [absent.1]

theorem partition_cases (c : α) (text : List α) :
    (c ∉ text ∧ partition [c] text = none) ∨
      ∃ front back, text = front ++ c :: back ∧ c ∉ front ∧ partition [c] text = some (front,back) := by
  by_cases inside : c ∈ text
  · obtain ⟨front,back,rfl,absent⟩ := List.eq_append_cons_of_mem inside
    exact .inr ⟨front,back,rfl,absent,by simpa using partition_first absent [] back⟩
  · exact .inl ⟨inside,partition_absent inside []⟩

end Partition

end Orrery.Foundation.TextSplits
