import Mathlib.Data.List.Forall2
import Orrery.Dat.Chain
import Orrery.Foundation.Timestamps

/-! Grant windows as instants. The walk compares timestamps as texts; what follows is when
that decides as the instants do, however a timestamp is spelled. -/
namespace Orrery.Dat
open Foundation Json
open Timestamps (instant)

structure Window where
  notBefore : String
  notAfter : String

def SameInstant (first second : String) : Prop := ∃ t, instant first = some t ∧ instant second = some t

namespace Window

def TextOpen (w : Window) (now : String) : Prop := w.notBefore ≤ now ∧ now ≤ w.notAfter

def Timed (w : Window) : Prop := (instant w.notBefore).isSome = true ∧ (instant w.notAfter).isSome = true

def Respelled (w w' : Window) : Prop := SameInstant w.notBefore w'.notBefore ∧ SameInstant w.notAfter w'.notAfter

end Window

def Bounded (dat : Dict) (w : Window) : Prop :=
  get dat "not_before" = some (.str w.notBefore) ∧ get dat "not_after" = some (.str w.notAfter)

def restamp (dat : Dict) (w : Window) (signature : String) : Dict :=
  setItem (setItem (setItem dat "not_before" (.str w.notBefore)) "not_after" (.str w.notAfter)) "signature"
    (.str signature)

section Stamps
variable {dat dat' : Dict} {w w' : Window} {now : String}

theorem restamp_bounded (dat : Dict) (w : Window) (signature : String) : Bounded (restamp dat w signature) w := by
  constructor
  · rw [restamp,get_setItem_other _ _ _ _ (by decide),get_setItem_other _ _ _ _ (by decide),get_setItem_self]
  · rw [restamp,get_setItem_other _ _ _ _ (by decide),get_setItem_self]

theorem restamp_other {key : String} (first : key ≠ "not_before") (last : key ≠ "not_after") (other : key ≠ "signature")
    (dat : Dict) (w : Window) (signature : String) : get (restamp dat w signature) key = get dat key := by
  rw [restamp,get_setItem_other _ _ _ _ other,get_setItem_other _ _ _ _ last,get_setItem_other _ _ _ _ first]

theorem Bounded.unique (first : Bounded dat w) (second : Bounded dat w') : w = w' := by
  obtain ⟨before,after⟩ := first
  obtain ⟨before',after'⟩ := second
  rw [before] at before'
  rw [after] at after'
  cases w
  cases w'
  simp_all

theorem within_iff (bounded : Bounded dat w) : Within dat now ↔ w.TextOpen now := by
  constructor
  · rintro ⟨notBefore,notAfter,before,after,inside⟩
    obtain rfl := bounded.unique (show Bounded dat ⟨notBefore,notAfter⟩ from ⟨before,after⟩)
    exact inside
  · exact fun inside => ⟨w.notBefore,w.notAfter,bounded.1,bounded.2,inside⟩

theorem SameInstant.refl {text : String} (timed : (instant text).isSome = true) : SameInstant text text := by
  obtain ⟨t,read⟩ := Option.isSome_iff_exists.mp timed
  exact ⟨t,read,read⟩

theorem Window.Timed.refl (timed : w.Timed) : w.Respelled w := ⟨.refl timed.1,.refl timed.2⟩

end Stamps

section Canonical
open Timestamps

end Canonical

section Respelling
variable (host : Host)

def Respells (dat dat' : Dict) : Prop := dat' = dat ∨ ∃ w w' signature, Bounded dat w ∧ w.Respelled w' ∧
  dat' = restamp dat w' signature ∧ (Signed host dat' ↔ Signed host dat)

structure Kin (dat dat' : Dict) : Prop where
  others : ∀ key, key ≠ "not_before" → key ≠ "not_after" → key ≠ "signature" → get dat' key = get dat key
  signed : Signed host dat' ↔ Signed host dat

variable {host} {dat dat' : Dict}

theorem Respells.kin (respelled : Respells host dat dat') : Kin host dat dat' := by
  rcases respelled with rfl | ⟨w,w',signature,_,_,rfl,signed⟩
  · exact ⟨fun _ _ _ _ => rfl,Iff.rfl⟩
  · exact ⟨fun _ first last other => restamp_other first last other dat w' signature,signed⟩

theorem Kin.symm (kin : Kin host dat dat') : Kin host dat' dat :=
  ⟨fun key first last other => (kin.others key first last other).symm,kin.signed.symm⟩

theorem Respells.window {w : Window} (respelled : Respells host dat dat') (bounded : Bounded dat w) (timed : w.Timed) :
    ∃ w', Bounded dat' w' ∧ w.Respelled w' := by
  rcases respelled with rfl | ⟨v,w',signature,before,same,rfl,_⟩
  · exact ⟨w,bounded,timed.refl⟩
  · obtain rfl := bounded.unique before
    exact ⟨w',restamp_bounded dat w' signature,same⟩

theorem Kin.categories (kin : Kin host dat dat') : categories dat' = categories dat := by
  rw [Dat.categories,Dat.categories,kin.others "scope" (by decide) (by decide) (by decide)]

theorem Kin.attenuates {parent parent' : Dict} (kin : Kin host dat dat') (kin' : Kin host parent parent')
    (narrower : Attenuates dat parent) : Attenuates dat' parent' := by
  rw [Attenuates,kin.categories,kin'.categories]
  exact narrower

theorem Kin.grantedTo {parent parent' : Dict} (kin : Kin host dat dat') (kin' : Kin host parent parent')
    (granted : GrantedTo dat parent) : GrantedTo dat' parent' := by
  rw [GrantedTo,kin.others "grantor_did" (by decide) (by decide) (by decide),
    kin'.others "grantee_did" (by decide) (by decide) (by decide)]
  exact granted

theorem Kin.isRoot (kin : Kin host dat dat') (root : IsRoot dat) : IsRoot dat' := by
  rw [IsRoot,kin.others "granted_by" (by decide) (by decide) (by decide)]
  exact root

end Respelling

section Walks
variable {R : Dict → Dict → Prop} {pool pool' : Pool}

theorem find_cons (entry : String × Dict) (pool : Pool) (id : String) :
    find (entry :: pool) id = if entry.1 = id then some entry.2 else find pool id := by
  by_cases here : entry.1 = id <;> simp [find,here]

theorem find_related (related : List.Forall₂ (fun entry entry' => entry'.1 = entry.1 ∧ R entry.2 entry'.2) pool pool')
    {id : String} {dat : Dict} (found : find pool id = some dat) : ∃ dat', find pool' id = some dat' ∧ R dat dat' := by
  induction related with
  | nil => cases found
  | @cons entry entry' pool pool' same _ ih =>
    rw [find_cons] at found ⊢
    rw [same.1]
    split at found
    next here =>
      cases found
      exact ⟨entry'.2,if_pos here,same.2⟩
    next other =>
      obtain ⟨dat',located,kept⟩ := ih found
      exact ⟨dat',(if_neg other).trans located,kept⟩

theorem related_ids {chain chain' : List (String × Dict)}
    (related : List.Forall₂ (fun hop hop' => hop'.1 = hop.1 ∧ R hop.2 hop'.2) chain chain') :
    chain'.map Prod.fst = chain.map Prod.fst := by
  induction related with
  | nil => rfl
  | cons same _ ih => simp [same.1,ih]

theorem exists_related {α β : Type} {S : α → β → Prop} {first : List α} {second : List β}
    (related : List.Forall₂ S first second) {b : β} (inside : b ∈ second) : ∃ a ∈ first, S a b := by
  induction related with
  | nil => cases inside
  | @cons a _ _ _ here _ ih =>
    rcases List.mem_cons.mp inside with rfl | later
    · exact ⟨a,by simp,here⟩
    · obtain ⟨x,member,same⟩ := ih later
      exact ⟨x,by simp [member],same⟩

variable {host : Host} (kin : ∀ dat dat', R dat dat' → Kin host dat dat')
include kin

theorem grantedBy_related (related : List.Forall₂ (fun entry entry' => entry'.1 = entry.1 ∧ R entry.2 entry'.2) pool pool')
    {id : String} {chain : List (String × Dict)} (path : GrantedBy pool id chain) :
    ∃ chain', GrantedBy pool' id chain' ∧
      List.Forall₂ (fun hop hop' => hop'.1 = hop.1 ∧ R hop.2 hop'.2) chain chain' := by
  induction path with
  | root found last =>
    obtain ⟨dat',located,same⟩ := find_related related found
    exact ⟨_,.root located ((kin _ _ same).isRoot last),.cons ⟨rfl,same⟩ .nil⟩
  | step found named above ih =>
    obtain ⟨dat',located,same⟩ := find_related related found
    obtain ⟨rest,path,others⟩ := ih
    refine ⟨_,.step located ?_ path,.cons ⟨rfl,same⟩ others⟩
    rw [(kin _ _ same).others "granted_by" (by decide) (by decide) (by decide)]
    exact named

omit kin in
theorem isChain_related {S : (String × Dict) → (String × Dict) → Prop} {T : (String × Dict) → (String × Dict) → Prop}
    {chain chain' : List (String × Dict)} (related : List.Forall₂ T chain chain')
    (step : ∀ {a b a' b'}, T a a' → T b b' → S a b → S a' b') (linked : chain.IsChain S) : chain'.IsChain S := by
  induction related with
  | nil => exact .nil
  | cons first rest ih =>
    cases rest with
    | nil => exact .singleton _
    | cons second rest =>
      obtain ⟨link,linked⟩ := List.isChain_cons_cons.mp linked
      exact List.isChain_cons_cons.mpr ⟨step first second link,ih linked⟩

end Walks

section Verdicts
variable (host : Host) (pool : Pool) (category : Option String) (revocations : List String)

structure Cleared (grantId : String) (chain : List (String × Dict)) : Prop where
  path : GrantedBy pool grantId chain
  short : chain.length ≤ maxChainDepth
  distinct : (chain.map Prod.fst).Nodup
  live : ∀ hop ∈ chain, hop.1 ∉ revocations
  signed : ∀ hop ∈ chain, Signed host hop.2
  linked : chain.IsChain fun child parent => GrantedTo child.2 parent.2
  narrowing : chain.IsChain fun child parent => Attenuates child.2 parent.2
  covered : ∀ c, category = some c → ∀ leaf ∈ chain.head?, Covers leaf.2 c

def WindowsOf (chain : List (String × Dict)) (windows : List Window) : Prop :=
  List.Forall₂ (fun hop w => Bounded hop.2 w) chain windows

variable {host pool category revocations} {pool' : Pool} {grantId now : String} {chain : List (String × Dict)}
  {windows : List Window}

theorem accepts_cleared : Accepts host grantId pool now category revocations ↔
    ∃ chain, Cleared host pool category revocations grantId chain ∧ ∀ hop ∈ chain, Within hop.2 now := by
  rw [accepts_iff]
  constructor
  · rintro ⟨chain,valid,covered⟩
    exact ⟨chain,⟨valid.path,valid.short,valid.distinct,valid.live,valid.signed,valid.linked,valid.narrowing,covered⟩,
      valid.within⟩
  · rintro ⟨chain,cleared,within⟩
    exact ⟨chain,⟨cleared.path,cleared.short,cleared.distinct,cleared.live,cleared.signed,within,cleared.linked,
      cleared.narrowing⟩,cleared.covered⟩

theorem WindowsOf.within (bounded : WindowsOf chain windows) :
    (∀ hop ∈ chain, Within hop.2 now) ↔ ∀ w ∈ windows, w.TextOpen now := by
  induction bounded with
  | nil => simp
  | cons first _ ih => simp only [List.forall_mem_cons,within_iff first,ih]

theorem Cleared.accepts (cleared : Cleared host pool category revocations grantId chain)
    (bounded : WindowsOf chain windows) :
    Accepts host grantId pool now category revocations ↔ ∀ w ∈ windows, w.TextOpen now := by
  rw [accepts_cleared,← bounded.within]
  constructor
  · rintro ⟨other,passed,within⟩
    rw [cleared.path.unique passed.path]
    exact within
  · exact fun within => ⟨chain,cleared,within⟩

theorem Cleared.related {R : Dict → Dict → Prop} (kin : ∀ dat dat', R dat dat' → Kin host dat dat')
    (related : List.Forall₂ (fun entry entry' => entry'.1 = entry.1 ∧ R entry.2 entry'.2) pool pool')
    (cleared : Cleared host pool category revocations grantId chain) :
    ∃ chain', Cleared host pool' category revocations grantId chain' ∧
      List.Forall₂ (fun hop hop' => hop'.1 = hop.1 ∧ R hop.2 hop'.2) chain chain' := by
  obtain ⟨chain',path,hops⟩ := grantedBy_related kin related cleared.path
  refine ⟨chain',⟨path,?_,?_,?_,?_,?_,?_,?_⟩,hops⟩
  · rw [← hops.length_eq]
    exact cleared.short
  · rw [related_ids hops]
    exact cleared.distinct
  · intro hop' inside
    obtain ⟨hop,member,same,_⟩ := exists_related hops inside
    rw [same]
    exact cleared.live hop member
  · intro hop' inside
    obtain ⟨hop,member,_,same⟩ := exists_related hops inside
    exact (kin _ _ same).signed.mpr (cleared.signed hop member)
  · exact isChain_related hops (fun a b => (kin _ _ a.2).grantedTo (kin _ _ b.2)) cleared.linked
  · exact isChain_related hops (fun a b => (kin _ _ a.2).attenuates (kin _ _ b.2)) cleared.narrowing
  · intro c named leaf' first
    cases hops with
    | nil => cases first
    | cons same _ =>
      cases first
      rw [Covers,(kin _ _ same.2).categories]
      exact cleared.covered c named _ rfl

theorem GrantedBy.map {f : (String × Dict) → (String × Dict)} (ids : ∀ entry, (f entry).1 = entry.1)
    (parents : ∀ entry, get (f entry).2 "granted_by" = get entry.2 "granted_by") (path : GrantedBy pool grantId chain) :
    GrantedBy (pool.map f) grantId (chain.map f) := by
  have found_map : ∀ {pool : Pool} {id dat}, find pool id = some dat → find (pool.map f) id = some (f (id,dat)).2 := by
    intro pool id dat found
    induction pool with
    | nil => cases found
    | cons entry pool ih =>
      rw [find_cons] at found
      rw [List.map_cons,find_cons,ids]
      split at found
      next here =>
        cases found
        rw [if_pos here,← here]
      next other => rw [if_neg other,ih found]
  have entry : ∀ id dat, f (id,dat) = (id,(f (id,dat)).2) := fun id dat => Prod.ext (ids _) rfl
  induction path with
  | @root id dat found last =>
    rw [List.map_cons,entry]
    refine .root (found_map found) ?_
    rw [IsRoot,parents]
    exact last
  | @step id dat parentId rest found named above ih =>
    rw [List.map_cons,entry]
    refine .step (found_map found) ?_ ih
    rw [parents]
    exact named

section Timed
variable (timed : ∀ chain, GrantedBy pool grantId chain → ∀ hop ∈ chain, ∃ w, Bounded hop.2 w ∧ w.Timed)
include timed

end Timed

end Verdicts

section Samples

theorem signed_iff (host : Host) (dat : Dict) : Signed host dat ↔ checkSignature host dat = .ok true := by
  unfold Signed verifyDatSignature
  split <;> simp_all [DatResult.verifies]

end Samples

end Orrery.Dat
