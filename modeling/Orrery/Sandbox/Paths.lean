import Mathlib.Data.List.Forall2
import Orrery.Foundation.Fnmatch

/-! Path patterns of the sandbox's policy (community_member/sandbox/policy.py). A pattern
is matched segment by segment, and a segment of two stars takes any number of them. -/
namespace Orrery.Sandbox
open Foundation Fnmatch

structure CapabilityGrant where
  capability : String
  patterns : List String

structure Surroundings where
  expanduser : String → String
  cwd : String

structure PurePath where
  root : String
  parts : List String

def splitSep (path : String) : List String := (path.toList.splitOn '/').map String.ofList

def purePath (path : String) : PurePath where
  root :=
    if "///".toList.isPrefixOf path.toList then "/"
    else if "//".toList.isPrefixOf path.toList then "//"
    else if "/".toList.isPrefixOf path.toList then "/"
    else ""
  parts := (splitSep path).filter fun part => part ≠ "" ∧ part ≠ "."

def PurePath.text (path : PurePath) : String :=
  if path.root = "" ∧ path.parts = [] then "." else path.root ++ "/".intercalate path.parts

def resolve (around : Surroundings) (path : String) : PurePath :=
  let p := purePath (around.expanduser path)
  if p.root ≠ "" then p
  else { purePath around.cwd with parts := (purePath around.cwd).parts ++ p.parts }

def matchParts : List String → List String → Bool
  | [], path => path.isEmpty
  | p :: pat, path =>
    if p = "**" then (List.range (path.length+1)).any fun i => matchParts pat (path.drop i)
    else
      match path with
      | [] => false
      | segment :: path => if fnmatchcase segment p then matchParts pat path else false

def globMatch (around : Surroundings) (pattern path : String) : Bool :=
  matchParts (splitSep (resolve around pattern).text) (splitSep path)

def matchPath (around : Surroundings) (grant : CapabilityGrant) (path : String) : Bool :=
  if !"fs.".toList.isPrefixOf grant.capability.toList then false
  else grant.patterns.any fun pattern => globMatch around pattern (resolve around path).text

section Meaning

def Consumes (p : String) (piece : List String) : Prop :=
  p = "**" ∨ p ≠ "**" ∧ ∃ segment, piece = [segment] ∧ fnmatchcase segment p = true

def Splits (pat path : List String) : Prop := ∃ pieces : List (List String),
  pieces.flatten = path ∧ List.Forall₂ Consumes pat pieces

theorem splits_nil (path : List String) : Splits [] path ↔ path = [] := by
  constructor
  · rintro ⟨pieces,rfl,consumed⟩
    rw [List.forall₂_nil_left_iff.mp consumed]
    rfl
  · rintro rfl
    exact ⟨[],rfl,.nil⟩

theorem splits_cons (p : String) (pat path : List String) :
    Splits (p :: pat) path ↔ ∃ piece rest, piece ++ rest = path ∧ Consumes p piece ∧ Splits pat rest := by
  constructor
  · rintro ⟨pieces,rfl,consumed⟩
    obtain ⟨piece,more,first,others,rfl⟩ := List.forall₂_cons_left_iff.mp consumed
    exact ⟨piece,more.flatten,rfl,first,more,rfl,others⟩
  · rintro ⟨piece,rest,rfl,first,more,rfl,others⟩
    exact ⟨piece :: more,rfl,.cons first others⟩

theorem splits_stars (pat path : List String) :
    Splits ("**" :: pat) path ↔ ∃ i ≤ path.length, Splits pat (path.drop i) := by
  rw [splits_cons]
  constructor
  · rintro ⟨piece,rest,rfl,_,split⟩
    refine ⟨piece.length,by simp,?_⟩
    rw [List.drop_left]
    exact split
  · rintro ⟨i,_,split⟩
    exact ⟨path.take i,path.drop i,List.take_append_drop i path,.inl rfl,split⟩

theorem splits_segment {p : String} (single : p ≠ "**") (pat path : List String) : Splits (p :: pat) path ↔
    ∃ segment rest, path = segment :: rest ∧ fnmatchcase segment p = true ∧ Splits pat rest := by
  rw [splits_cons]
  constructor
  · rintro ⟨piece,rest,rfl,stars | ⟨_,segment,rfl,fits⟩,split⟩
    · exact absurd stars single
    · exact ⟨segment,rest,rfl,fits,split⟩
  · rintro ⟨segment,rest,rfl,fits,split⟩
    exact ⟨[segment],rest,rfl,.inr ⟨single,segment,rfl,fits⟩,split⟩

theorem matchParts_iff (pat : List String) : ∀ path, matchParts pat path = true ↔ Splits pat path := by
  induction pat with
  | nil =>
    intro path
    rw [splits_nil]
    cases path <;> simp [matchParts]
  | cons p pat ih =>
    intro path
    by_cases stars : p = "**"
    · subst stars
      rw [matchParts.eq_def]
      dsimp only
      rw [if_pos rfl,splits_stars,List.any_eq_true]
      simp only [List.mem_range,Nat.lt_succ_iff,ih]
    · rw [matchParts.eq_def]
      dsimp only
      rw [if_neg stars,splits_segment stars]
      cases path with
      | nil => simp
      | cons segment rest => simp [ih]

theorem splits_append (front : List String) : ∀ back path,
    Splits (front ++ back) path ↔ ∃ first second, first ++ second = path ∧ Splits front first ∧ Splits back second := by
  induction front with
  | nil => simp [splits_nil]
  | cons p front ih =>
    intro back path
    rw [List.cons_append,splits_cons]
    constructor
    · rintro ⟨piece,rest,rfl,consumed,split⟩
      obtain ⟨first,second,rfl,left,right⟩ := (ih back rest).mp split
      exact ⟨piece ++ first,second,List.append_assoc _ _ _,(splits_cons p front _).mpr ⟨piece,first,rfl,consumed,left⟩,
        right⟩
    · rintro ⟨first,second,rfl,left,right⟩
      obtain ⟨piece,rest,rfl,consumed,split⟩ := (splits_cons p front first).mp left
      exact ⟨piece,rest ++ second,(List.append_assoc _ _ _).symm,consumed,(ih back _).mpr ⟨rest,second,rfl,split,right⟩⟩

theorem splits_plain {root : List String} (plain : ∀ segment ∈ root, Plain segment) : ∀ path,
    Splits root path ↔ path = root := by
  induction root with
  | nil => exact splits_nil
  | cons segment root ih =>
    intro path
    have single : segment ≠ "**" := by
      rintro rfl
      exact (plain "**" (by simp) '*' (by decide)).1 rfl
    rw [splits_segment single]
    simp [fnmatchcase_plain (plain segment (by simp)),ih fun s inside => plain s (by simp [inside])]

theorem matchPath_iff (around : Surroundings) (grant : CapabilityGrant) (path : String) :
    matchPath around grant path = true ↔ "fs.".toList.isPrefixOf grant.capability.toList = true ∧
      ∃ pattern ∈ grant.patterns,
        Splits (splitSep (resolve around pattern).text) (splitSep (resolve around path).text) := by
  rw [matchPath]
  split
  next other => simp_all
  next family =>
    rw [List.any_eq_true]
    simp only [globMatch,matchParts_iff]
    simp_all

theorem splits_below (root path : List String) :
    Splits (root ++ ["**"]) path ↔ ∃ first, first <+: path ∧ Splits root first := by
  have last : ∀ rest, Splits ["**"] rest := fun rest => (splits_stars [] rest).mpr
    ⟨rest.length,Nat.le_refl _,by rw [List.drop_length,splits_nil]⟩
  simp only [splits_append,last,and_true]
  constructor
  · rintro ⟨first,rest,rfl,split⟩
    exact ⟨first,List.prefix_append first rest,split⟩
  · rintro ⟨first,⟨rest,rfl⟩,split⟩
    exact ⟨first,rest,rfl,split⟩

theorem matchParts_below {root : List String} (plain : ∀ segment ∈ root, Plain segment) (path : List String) :
    matchParts (root ++ ["**"]) path = true ↔ root <+: path := by
  simp [matchParts_iff,splits_below,splits_plain plain]

end Meaning

section Descendants

theorem intercalate_append {α : Type} (sep : α) (first second : List (List α)) (some : first ≠ [])
    (more : second ≠ []) : [sep].intercalate (first ++ second) =
      [sep].intercalate first ++ sep :: [sep].intercalate second := by
  induction first with
  | nil => exact absurd rfl some
  | cons piece first ih =>
    cases first with
    | nil =>
      rw [List.singleton_append,List.intercalate_cons_of_ne_nil more,List.intercalate_singleton]
      simp
    | cons next first =>
      have rest := ih (by simp)
      rw [List.cons_append] at rest
      rw [List.cons_append,List.cons_append,List.intercalate_cons_cons,rest,List.intercalate_cons_cons]
      simp

theorem splitSep_below (root rest : List Char) :
    splitSep (String.ofList (root ++ '/' :: rest)) = splitSep (String.ofList root) ++ splitSep (String.ofList rest) := by
  simp only [splitSep,String.toList_ofList,List.splitOn_append_cons_self,List.map_append]

theorem splitSep_prefix_iff (root path : String) : splitSep root <+: splitSep path ↔
    path = root ∨ ∃ rest, path.toList = root.toList ++ '/' :: rest := by
  constructor
  · rintro ⟨more,same⟩
    obtain ⟨front,back,split,first,_⟩ := List.map_eq_append_iff.mp same.symm
    have segments : front = root.toList.splitOn '/' :=
      List.map_injective_iff.mpr (fun _ _ => String.ofList_injective) first
    have whole : ['/'].intercalate (path.toList.splitOn '/') = path.toList := List.intercalate_splitOn '/'
    rw [split] at whole
    cases back with
    | nil =>
      rw [List.append_nil,segments,List.intercalate_splitOn] at whole
      exact .inl (String.toList_inj.mp whole.symm)
    | cons piece back =>
      rw [intercalate_append _ _ _ (segments ▸ List.splitOn_ne_nil _ _) (by simp),segments,
        List.intercalate_splitOn] at whole
      exact .inr ⟨_,whole.symm⟩
  · rintro (rfl | ⟨rest,below⟩)
    · exact List.prefix_refl _
    · have parts := splitSep_below root.toList rest
      rw [← below,String.ofList_toList,String.ofList_toList] at parts
      rw [parts]
      exact List.prefix_append _ _

theorem globMatch_descendants {around : Surroundings} {pattern root : String} (path : String)
    (resolved : (resolve around pattern).text.toList = root.toList ++ ['/','*','*'])
    (plain : ∀ segment ∈ splitSep root, Plain segment) :
    globMatch around pattern path = true ↔ path = root ∨ ∃ rest, path.toList = root.toList ++ '/' :: rest := by
  have parts := splitSep_below root.toList ['*','*']
  rw [← resolved,String.ofList_toList,String.ofList_toList] at parts
  have stars : splitSep (String.ofList ['*','*']) = ["**"] := by decide
  rw [globMatch,parts,stars,matchParts_below plain,splitSep_prefix_iff]

/-- A grant of directories, each given as `root/**`, admits the roots and what is below them, as
the text of the path has it: its `..` segments are not taken up. -/
theorem matchPath_descendants {around : Surroundings} {grant : CapabilityGrant} {root : String → String} (path : String)
    (files : "fs.".toList.isPrefixOf grant.capability.toList = true)
    (resolved : ∀ pattern ∈ grant.patterns,
      (resolve around pattern).text.toList = (root pattern).toList ++ ['/','*','*'])
    (plain : ∀ pattern ∈ grant.patterns, ∀ segment ∈ splitSep (root pattern), Plain segment) :
    matchPath around grant path = true ↔ ∃ pattern ∈ grant.patterns, (resolve around path).text = root pattern ∨
      ∃ rest, (resolve around path).text.toList = (root pattern).toList ++ '/' :: rest := by
  rw [matchPath,files]
  simp only [Bool.not_true,Bool.false_eq_true,if_false,List.any_eq_true]
  refine exists_congr fun pattern => and_congr_right fun inside => ?_
  exact globMatch_descendants _ (resolved pattern inside) (plain pattern inside)

theorem annHome_descendants : matchPath ⟨id,"/"⟩ ⟨"fs.read",["/home/ann/**"]⟩ "/home/anna" = false ∧
    matchPath ⟨id,"/"⟩ ⟨"fs.read",["/home/ann/**"]⟩ "/home/ann/../bob" = true := by
  have segments : splitSep "/home/ann" = ["","home","ann"] := by decide
  have below := fun path => @matchPath_descendants ⟨id,"/"⟩ ⟨"fs.read",["/home/ann/**"]⟩ (fun _ => "/home/ann")
    path (by decide) (by decide +kernel) (by simp [segments,Plain])
  constructor
  · rw [Bool.eq_false_iff]
    rintro found
    obtain ⟨_,_,admitted⟩ := (below _).mp found
    have text : (resolve ⟨id,"/"⟩ "/home/anna").text = "/home/anna" := by decide +kernel
    rw [text] at admitted
    obtain same | ⟨rest,same⟩ := admitted
    · exact absurd same (by decide)
    · simp at same
  · exact (below _).mpr ⟨_,.head _,.inr ⟨"../bob".toList,by decide +kernel⟩⟩

end Descendants

end Orrery.Sandbox
