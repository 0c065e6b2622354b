import Mathlib.Data.List.Infix
import Orrery.Foundation.JsonLines
import Orrery.Grants.Store

/-! The scopes that server/bounded_grants.py accepts, and when its own reading of a scope is
the one of the database, which is a LIKE pattern. -/
namespace Orrery.Grants
open Foundation

inductive ScopeRefusal
  | required
  | everything
  | invalid (scope : String)
deriving DecidableEq

def scopeRe (text : List Char) : Bool :=
  !(text.takeWhile (· ≠ '*')).isEmpty && decide (text.dropWhile (· ≠ '*') ∈ [[],['*'],['*','\n']])

def validateScope : Json → Except ScopeRefusal String
  | .str scope =>
    let scope := String.ofList (JsonLines.strip scope.toList)
    if scope = "" then .error .required
    else if scope = "*" then .error .everything
    else if scopeRe scope.toList then .ok scope
    else .error (.invalid scope)
  | _ => .error .required

def matchesScope (scope actionKey : String) : Bool :=
  if scope.toList.getLast? = some '*' then scope.toList.dropLast.isPrefixOf actionKey.toList else scope = actionKey

def literal (c : Char) : Bool := c ≠ '%' && c ≠ '_' && c ≠ '\\'

def shortest : List Char → List Char
  | [] => []
  | '%' :: rest => shortest rest
  | '_' :: rest => 'x' :: shortest rest
  | ['\\'] => ['%']
  | '\\' :: c :: rest => c :: shortest rest
  | c :: rest => c :: shortest rest

/-- The database and its mirror agree on every key, and a prefix covers what starts with it. -/
structure Mirrored (scope : String) : Prop where
  agree : ∀ actionKey, covers scope actionKey = matchesScope scope actionKey
  starts : ∀ text, scope.toList = text ++ ['*'] → ∀ actionKey, covers scope actionKey = true ↔ text <+: actionKey.toList

section Patterns
variable {c t : Char} {pattern text : List Char}

theorem like_nil : like [] text = text.isEmpty := rfl

theorem like_any : like ('%' :: pattern) text = text.tails.any (like pattern) := rfl

theorem like_one : like ('_' :: pattern) (t :: text) = like pattern text := rfl

theorem like_escaped : like ('\\' :: c :: pattern) (t :: text) = (decide (t = c) && like pattern text) := rfl

theorem like_literal_nil (plain : literal c = true) : like (c :: pattern) [] = false := by
  simp only [literal,Bool.and_eq_true,decide_eq_true_eq] at plain
  rw [like.eq_def]
  split <;> simp_all

theorem like_literal_cons (plain : literal c = true) :
    like (c :: pattern) (t :: text) = (decide (t = c) && like pattern text) := by
  simp only [literal,Bool.and_eq_true,decide_eq_true_eq] at plain
  rw [like.eq_def]
  split <;> simp_all

theorem like_rest : like ['%'] text = true := by
  rw [like_any,List.any_eq_true]
  exact ⟨[],(List.mem_tails ..).mpr List.nil_suffix,rfl⟩

theorem like_plain (plain : ∀ c ∈ pattern, literal c = true) :
    like (pattern ++ ['%']) text = pattern.isPrefixOf text := by
  induction pattern generalizing text with
  | nil =>
    rw [List.nil_append,like_rest]
    rfl
  | cons c pattern ih =>
    obtain ⟨first,rest⟩ := List.forall_mem_cons.mp plain
    cases text with
    | nil =>
      rw [List.cons_append,like_literal_nil first]
      rfl
    | cons t text =>
      rw [List.cons_append,like_literal_cons first,ih rest,List.isPrefixOf_cons_cons,Bool.beq_eq_decide_eq,
        decide_eq_decide.mpr eq_comm]

end Patterns

section Shortest
variable {c : Char} {rest text : List Char}

theorem other_literal (percent : c = '%' → False) (one : c = '_' → False) (last : c = '\\' → rest = [] → False)
    (escape : ∀ d more, c = '\\' → rest = d :: more → False) : literal c = true := by
  have slash : c ≠ '\\' := by
    intro same
    cases rest with
    | nil => exact last same rfl
    | cons d more => exact escape d more same rfl
  simpa [literal,slash] using And.intro percent one

theorem like_shortest (text : List Char) : like (text ++ ['%']) (shortest text) = true := by
  fun_induction shortest text with
  | case1 => exact like_rest
  | case2 rest ih =>
    rw [List.cons_append,like_any,List.any_eq_true]
    exact ⟨shortest rest,(List.mem_tails ..).mpr List.suffix_rfl,ih⟩
  | case3 rest ih => exact ih
  | case4 => rfl
  | case5 c rest ih =>
    rw [List.cons_append,List.cons_append,like_escaped,ih]
    simp
  | case6 c rest percent one escape_end escape ih =>
    rw [List.cons_append,like_literal_cons,ih]
    · simp
    · exact other_literal percent one escape_end escape

theorem length_shortest (text : List Char) : (shortest text).length ≤ text.length := by
  fun_induction shortest text <;> grind

theorem plain_of_shortest (text : List Char) (same : shortest text = text) : ∀ c ∈ text, literal c = true := by
  fun_induction shortest text with
  | case1 => exact nofun
  | case2 rest ih =>
    have bound := length_shortest rest
    rw [same,List.length_cons] at bound
    omega
  | case3 rest ih =>
    have first := (List.cons.inj same).1
    exact absurd first (by decide)
  | case4 => exact absurd same (by decide)
  | case5 c rest ih =>
    have bound := length_shortest rest
    rw [(List.cons.inj same).2,List.length_cons] at bound
    omega
  | case6 c rest percent one escape_end escape ih =>
    exact List.forall_mem_cons.mpr ⟨other_literal percent one escape_end escape,ih (List.cons.inj same).2⟩

end Shortest

section Scopes
variable {text : List Char}

theorem strip_last {c : Char} (last : (JsonLines.strip text).getLast? = some c) : JsonLines.isSpace c = false := by
  rw [JsonLines.strip,List.getLast?_reverse] at last
  exact by simpa [last] using List.head?_dropWhile_not JsonLines.isSpace (text.dropWhile JsonLines.isSpace).reverse

theorem accepted_shape {raw : Json} {scope : String} (accepted : validateScope raw = .ok scope) :
    ∃ text, text ≠ [] ∧ '*' ∉ text ∧ (scope.toList = text ∨ scope.toList = text ++ ['*']) := by
  unfold validateScope at accepted
  split at accepted
  next given =>
    dsimp only at accepted
    split at accepted
    next => cases accepted
    split at accepted
    next => cases accepted
    split at accepted
    next fits =>
      obtain rfl := Except.ok.inj accepted
      rw [String.toList_ofList] at fits ⊢
      obtain ⟨filled,ending⟩ := Bool.and_eq_true_iff.mp fits
      have whole := List.takeWhile_append_dropWhile (p := (· ≠ '*')) (l := JsonLines.strip given.toList)
      refine ⟨(JsonLines.strip given.toList).takeWhile (· ≠ '*'),by simpa using filled,?_,?_⟩
      · intro star
        have := List.mem_takeWhile_imp star
        simp at this
      · have ending := of_decide_eq_true ending
        simp only [List.mem_cons,List.not_mem_nil,or_false] at ending
        obtain none_left | star | broken := ending
        · rw [none_left,List.append_nil] at whole
          exact .inl whole.symm
        · rw [star] at whole
          exact .inr whole.symm
        · rw [broken] at whole
          have space : JsonLines.isSpace '\n' = false := by
            apply @strip_last given.toList
            rw [← whole,List.getLast?_append]
            rfl
          exact absurd space (by decide)
    next => cases accepted
  next => cases accepted

variable {scope actionKey : String}

theorem covers_literal (plain : '*' ∉ scope.toList) : covers scope actionKey = matchesScope scope actionKey := by
  have unstarred : scope.toList.getLast? ≠ some '*' := fun last => plain (List.mem_of_getLast? last)
  rw [covers,matchesScope,if_neg unstarred,decide_eq_false unstarred,Bool.false_and,Bool.false_or]

theorem covers_starred (starred : scope.toList = text ++ ['*']) :
    covers scope actionKey = (like (text ++ ['%']) actionKey.toList || decide (scope = actionKey)) ∧
      matchesScope scope actionKey = text.isPrefixOf actionKey.toList := by
  have last : scope.toList.getLast? = some '*' := by simp [starred]
  rw [covers,matchesScope,if_pos last,decide_eq_true last,Bool.true_and,starred,List.dropLast_concat]
  exact ⟨rfl,rfl⟩

theorem covers_plain (starred : scope.toList = text ++ ['*']) (plain : ∀ c ∈ text, literal c = true) :
    covers scope actionKey = text.isPrefixOf actionKey.toList := by
  rw [(covers_starred starred).1,like_plain plain]
  by_cases same : scope = actionKey
  · have begins : text.isPrefixOf actionKey.toList = true := by
      rw [← same,starred,List.isPrefixOf_iff_prefix]
      exact List.prefix_append text ['*']
    rw [begins,Bool.true_or]
  · rw [decide_eq_false same,Bool.or_false]

theorem plain_of_starts (starred : scope.toList = text ++ ['*'])
    (starts : ∀ actionKey, covers scope actionKey = true → text <+: actionKey.toList) : ∀ c ∈ text, literal c = true := by
  apply plain_of_shortest
  have begins := starts (String.ofList (shortest text)) (by
    rw [(covers_starred starred).1,String.toList_ofList,like_shortest,Bool.true_or])
  rw [String.toList_ofList] at begins
  exact (begins.eq_of_length_le (length_shortest text)).symm

end Scopes

/-- The database reads a scope as its mirror does exactly where the text before a star at
its end has no character that LIKE reads in its own way. -/
theorem mirrored_iff {raw : Json} {scope : String} (accepted : validateScope raw = .ok scope) :
    Mirrored scope ↔ ∀ text, scope.toList = text ++ ['*'] → ∀ c ∈ text, literal c = true := by
  obtain ⟨body,_,unstarred,shape⟩ := accepted_shape accepted
  constructor
  · intro mirrored text starred
    exact plain_of_starts starred fun actionKey covered => (mirrored.starts text starred actionKey).mp covered
  · intro plain
    obtain whole | starred := shape
    · refine ⟨fun actionKey => covers_literal (whole ▸ unstarred),fun text starred => ?_⟩
      rw [whole] at starred
      exact absurd (by simp [starred]) unstarred
    · refine ⟨fun actionKey => ?_,fun text starred' actionKey => ?_⟩
      · rw [covers_plain starred (plain body starred),(covers_starred starred).2]
      · rw [covers_plain starred' (plain text starred'),List.isPrefixOf_iff_prefix]

theorem segment_mirrored : Mirrored "mailto:segment-a:*" := by
  apply (@mirrored_iff (.str "mailto:segment-a:*") "mailto:segment-a:*" (by decide +kernel)).mpr
  intro text starred
  have same : text = "mailto:segment-a:".toList := List.append_cancel_right starred.symm
  subst same
  exact List.all_eq_true.mp (by decide +kernel)

/-- An underscore of the scope stands for any character. -/
theorem contact_widened : validateScope (.str "crm_contact:*") = .ok "crm_contact:*" ∧
    covers "crm_contact:*" "crm-contact:42" = true ∧ matchesScope "crm_contact:*" "crm-contact:42" = false := by
  decide +kernel

end Orrery.Grants
