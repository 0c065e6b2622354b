import Orrery.Dat.Authority
import Mathlib.Data.List.Chain

/-! The auditor's walk (authority_audit.walk_authority): it resolves the whole chain,
says what is wrong with every hop, asks the verifier, and reports a dispute when
the two do not agree. -/
namespace Orrery.Dat
open Foundation Json

structure Hop where
  grantId : String
  grantorDid : String
  granteeDid : String
  notBefore : String
  notAfter : String
  categories : List Key
  signatureOk : Bool
  withinWindow : Bool
  revoked : Bool
  continuousWithChild : Option Bool
  withinParentScope : Option Bool
  problem : String

inductive Verdict
  | intact | severed | unresolvable | disputed
deriving DecidableEq

structure Walk where
  verdict : Verdict
  hops : List Hop
  rootGrantId : Option String
  severedAt : Option String
  reason : String

def auditCategories (dat : Dict) : Except Exc (List Key) :=
  let scope := (get dat "scope").getD .null
  match if scope.truthy then scope else .obj [] with
  | .obj fields => toSet ((get fields "action_categories").getD (.arr []))
  | other => .error (.attributeError s!"'{other.typeName}' object has no attribute 'get'")

def Host.field (host : Host) (dat : Dict) (key : String) : String := host.str ((get dat key).getD (.str ""))

def intrinsic (host : Host) (revocations : List String) (now : String) (dat : Dict) : Except Exc Hop := do
  let sorted ← sortedSet (← auditCategories dat)
  let notBefore := host.field dat "not_before"
  let notAfter := host.field dat "not_after"
  return {
    grantId := host.field dat "grant_id"
    grantorDid := host.field dat "grantor_did"
    granteeDid := host.field dat "grantee_did"
    notBefore := notBefore
    notAfter := notAfter
    categories := sorted
    signatureOk := (verifyDatSignature host dat).ok
    withinWindow := notBefore != "" && notAfter != "" && decide (notBefore ≤ now) && decide (now ≤ notAfter)
    revoked := decide (host.field dat "grant_id" ∈ revocations)
    continuousWithChild := none
    withinParentScope := none
    problem := "" }

def problemOf (now : String) (hop : Hop) : String :=
  if hop.revoked then "revoked"
  else if !hop.signatureOk then "signature does not verify under the grantor's key"
  else if !hop.withinWindow then
    if hop.notAfter ≠ "" ∧ hop.notAfter < now then s!"expired at {hop.notAfter}"
    else if hop.notBefore ≠ "" then s!"not valid until {hop.notBefore}"
    else "no validity window"
  else if hop.continuousWithChild = some false then "the grant below names a grantor this grant never granted to"
  else if hop.withinParentScope = some false then "widens the scope its parent granted"
  else ""

/-- The first loop: resolve the chain until there is no parent, or no way to go on. -/
@[grind =]
def resolveLoop (host : Host) (pool : Pool) :
    Nat → Json → List Key → List Dict → Except Exc (List Dict × Option String)
  | _, .null, _, resolved => .ok (resolved,none)
  | 0, _, _, resolved => .ok (resolved,some s!"chain exceeds depth {maxChainDepth}")
  | left+1, current, seen, resolved => do
    let key ← hashKey current
    if key ∈ seen then return (resolved,some s!"cycle in the chain at {host.str current}")
    else match ← findKey pool current with
    | none => return (resolved,some s!"grant {host.str current} is named by the chain and was not supplied")
    | some (_,dat) =>
      resolveLoop host pool left ((get dat "granted_by").getD .null) (key :: seen) (resolved ++ [dat])

def auditAttenuates (child parent : Dict) : Except Exc Bool := do
  if Key.str "*" ∈ (← auditCategories parent) then return true
  else do
    let named ← auditCategories child
    let given ← auditCategories parent
    return decide (∀ key ∈ named, key ∈ given)

def withinParent (dat : Dict) (above : List Dict) : Except Exc (Option Bool) :=
  match above with
  | [] => .ok none
  | parent :: _ => do return some (← auditAttenuates dat parent)

def relate (now : String) : Option Dict → List Dict → List Hop → Except Exc (List Hop)
  | child, dat :: above, hop :: hops => do
    let scope ← withinParent dat above
    let related := { hop with
      continuousWithChild := child.map fun below => eqStr (get below "grantor_did") hop.granteeDid
      withinParentScope := scope }
    return { related with problem := problemOf now related } :: (← relate now (some dat) above hops)
  | _, _, _ => .ok []

def walkAuthority (host : Host) (leafGrantId : String) (pool : Pool) (revocations : List String)
    (now : Option String) (category : Option String) : Except Exc Walk := do
  let instant := host.instant now
  let (resolved,unresolvable) ← resolveLoop host pool maxChainDepth (.str leafGrantId) [] []
  let hops ← relate instant none resolved (← resolved.mapM (intrinsic host revocations instant))
  let severed := hops.find? (fun hop => hop.problem != "")
  match unresolvable with
  | some reason => return ⟨.unresolvable,hops,none,severed.map (·.grantId),reason⟩
  | none => do
    let result ← verifyDatChain host leafGrantId pool instant category revocations
    let rootGrantId := hops.getLast?.map (·.grantId)
    let named := host.str ((rootGrantId.map .str).getD .null)
    let divergence := "; this is a divergence between the auditor and the gate, not a conclusion about the chain"
    match result.ok, severed with
    | true, none =>
      return ⟨.intact,hops,rootGrantId,none,s!"{hops.length} hop(s) to root {named}, none revoked"⟩
    | false, some hop =>
      return ⟨.severed,hops,rootGrantId,some hop.grantId,s!"{hop.grantId}: {hop.problem}"⟩
    | true, some hop =>
      let found := s!"the audit found {hop.grantId} {hop.problem} and the verifier accepted the chain"
      return ⟨.disputed,hops,rootGrantId,some hop.grantId,found ++ divergence⟩
    | false, none =>
      let refusal := s!"{result.stage.text}: {result.detail}"
      return ⟨.disputed,hops,rootGrantId,none,
        s!"every hop audits clean and the verifier refused the chain ({refusal})" ++ divergence⟩

structure WellFormed (dat : Dict) : Prop where
  grantor : ∃ did, get dat "grantor_did" = some (.str did)
  grantee : ∃ did, get dat "grantee_did" = some (.str did)
  notBefore : ∃ time, get dat "not_before" = some (.str time) ∧ time ≠ ""
  notAfter : ∃ time, get dat "not_after" = some (.str time) ∧ time ≠ ""
  scope : ∃ fields, get dat "scope" = some (.obj fields)

theorem auditCategories_eq (dat : Dict) (formed : WellFormed dat) : auditCategories dat = categories dat := by
  obtain ⟨fields,scope⟩ := formed.scope
  cases fields with
  | nil => simp [auditCategories,categories,scope,truthy]
  | cons => simp [auditCategories,categories,scope,truthy]

theorem auditAttenuates_eq (child parent : Dict) (below : WellFormed child) (above : WellFormed parent) :
    auditAttenuates child parent = attenuates child parent := by
  unfold auditAttenuates attenuates
  rw [auditCategories_eq child below,auditCategories_eq parent above]
  cases categories parent with
  | error e => rfl
  | ok given =>
    by_cases star : Key.str "*" ∈ given
    · simp [bind,Except.bind,star]
    · cases categories child <;> simp [bind,Except.bind,star]

theorem GrantedBy.located {pool : Pool} {id : String} {chain : List (String × Dict)} (path : GrantedBy pool id chain) :
    ∀ hop ∈ chain, find pool hop.1 = some hop.2 := by
  induction path with
  | root found _ => simpa using found
  | step found _ _ ih => simpa using ⟨found,by simpa using ih⟩

theorem resolveLoop_path (host : Host) (pool : Pool) {id : String} {chain : List (String × Dict)}
    (path : GrantedBy pool id chain) : ∀ left seen before, chain.length ≤ left → (chain.map Prod.fst).Nodup →
      (∀ hop ∈ chain, Key.str hop.1 ∉ seen) →
      resolveLoop host pool left (.str id) seen before = .ok (before ++ chain.map Prod.snd,none) := by
  induction path with
  | @root id dat found last =>
    intro left seen before short _ fresh
    obtain ⟨left,rfl⟩ : ∃ l, left = l+1 := ⟨left-1,by simp at short; omega⟩
    have new := fresh (id,dat) (by simp)
    have ends : (get dat "granted_by").getD .null = .null := by rcases last with last | last <;> rw [last] <;> rfl
    simp [resolveLoop,hashKey,findKey,found,new,ends,bind,Except.bind]
  | @step id dat parentId rest found named above ih =>
    intro left seen before short distinct fresh
    obtain ⟨left,rfl⟩ : ∃ l, left = l+1 := ⟨left-1,by simp at short; omega⟩
    have new := fresh (id,dat) (by simp)
    have distinct := List.nodup_cons.mp distinct
    have next := ih left (Key.str id :: seen) (before ++ [dat]) (by simpa using short) distinct.2 (by
      intro hop inside again
      rcases List.mem_cons.mp again with same | again
      · exact distinct.1 (List.mem_map.mpr ⟨hop,inside,Key.str.inj same⟩)
      · exact fresh hop (by simp [inside]) again)
    simp [resolveLoop,hashKey,findKey,found,new,named,next,bind,Except.bind]

def Hashable (value : Json) : Prop := ∃ key, hashKey value = .ok key

theorem resolveLoop_nontext (host : Host) (pool : Pool) (current : Json) (nonText : ∀ s, current ≠ .str s)
    (nonNull : current ≠ .null) (left : Nat) (seen : List Key) (before : List Dict) :
    ((∃ reason, resolveLoop host pool left current seen before = .ok (before,some reason)) ∧
      (0 < left → Hashable current)) ∨
    ((∃ e, resolveLoop host pool left current seen before = .error e) ∧ 0 < left ∧ ¬ Hashable current) := by
  cases left with
  | zero =>
    exact Or.inl ⟨⟨_,resolveLoop.eq_2 host pool current seen before nonNull⟩,by simp⟩
  | succ left =>
    have step := resolveLoop.eq_3 host pool current seen before left nonNull
    cases hashed : hashKey current with
    | error e =>
      refine Or.inr ⟨⟨e,?_⟩,by simp,by simp [Hashable,hashed]⟩
      simp [step,hashed,bind,Except.bind]
    | ok key =>
      have absent : findKey pool current = .ok none := by cases current <;> simp_all [findKey,hashKey]
      refine Or.inl ⟨?_,fun _ => ⟨key,hashed⟩⟩
      by_cases repeated : key ∈ seen
      · exact ⟨_,by simp only [step,hashed,repeated,bind,Except.bind,if_true]; rfl⟩
      · exact ⟨_,by simp only [step,hashed,absent,repeated,bind,Except.bind,if_false]; rfl⟩

theorem resolveLoop_stops (host : Host) (pool : Pool) (left : Nat) (id : String) (seen : List Key)
    (before : List Dict) (stops : Key.str id ∈ seen ∨ find pool id = none) :
    ∃ reason, resolveLoop host pool (left+1) (.str id) seen before = .ok (before,some reason) := by
  by_cases repeated : Key.str id ∈ seen
  · exact ⟨_,by simp only [resolveLoop,hashKey,repeated,bind,Except.bind,if_true]; rfl⟩
  · have missing := stops.resolve_left repeated
    exact ⟨_,by simp only [resolveLoop,hashKey,findKey,repeated,missing,bind,Except.bind,if_false]; rfl⟩

theorem resolveLoop_goes (host : Host) (pool : Pool) (left : Nat) (id : String) (seen : List Key)
    (before : List Dict) (dat : Dict) (fresh : Key.str id ∉ seen) (found : find pool id = some dat) :
    resolveLoop host pool (left+1) (.str id) seen before =
      resolveLoop host pool left ((get dat "granted_by").getD .null) (Key.str id :: seen) (before ++ [dat]) := by
  simp [resolveLoop,hashKey,findKey,fresh,found,bind,Except.bind]

theorem grantedBy_cases (dat : Dict) : (IsRoot dat ∧ (get dat "granted_by").getD .null = .null) ∨
    (∃ parentId, get dat "granted_by" = some (.str parentId)) ∨
    ∃ parent, get dat "granted_by" = some parent ∧ (∀ s, parent ≠ .str s) ∧ parent ≠ .null := by
  cases granted : get dat "granted_by" with
  | none => exact Or.inl ⟨Or.inl granted,rfl⟩
  | some parent =>
    cases parent with
    | null => exact Or.inl ⟨Or.inr granted,rfl⟩
    | str parentId => exact Or.inr (Or.inl ⟨parentId,rfl⟩)
    | _ => exact Or.inr (Or.inr ⟨_,rfl,by simp,by simp⟩)

theorem resolveLoop_resolved (host : Host) (pool : Pool) (left : Nat) : ∀ id seen before resolved,
    resolveLoop host pool left (.str id) seen before = .ok (resolved,none) →
    ∃ chain, GrantedBy pool id chain ∧ chain.length ≤ left ∧ (chain.map Prod.fst).Nodup ∧
      (∀ hop ∈ chain, Key.str hop.1 ∉ seen) ∧ resolved = before ++ chain.map Prod.snd := by
  induction left with
  | zero => intro id seen before resolved ok; simp [resolveLoop] at ok
  | succ left ih =>
    intro id seen before resolved ok
    by_cases stops : Key.str id ∈ seen ∨ find pool id = none
    · obtain ⟨reason,stopped⟩ := resolveLoop_stops host pool left id seen before stops
      rw [stopped] at ok
      cases ok
    · obtain ⟨fresh,present⟩ := not_or.mp stops
      obtain ⟨dat,found⟩ := Option.ne_none_iff_exists'.mp present
      rw [resolveLoop_goes host pool left id seen before dat fresh found] at ok
      rcases grantedBy_cases dat with ⟨last,ends⟩ | ⟨parentId,granted⟩ | ⟨parent,granted,nonText,nonNull⟩
      · rw [ends] at ok
        simp only [resolveLoop,Except.ok.injEq,Prod.mk.injEq,and_true] at ok
        exact ⟨[(id,dat)],.root found last,by simp,by simp,by simpa using fresh,by simp [← ok]⟩
      · rw [granted] at ok
        obtain ⟨chain,path,short,distinct,others,rfl⟩ := ih _ _ _ _ ok
        refine ⟨(id,dat) :: chain,.step found granted path,by simpa using short,?_,?_,by simp⟩
        · refine List.nodup_cons.mpr ⟨?_,distinct⟩
          intro member
          obtain ⟨hop,inside,same⟩ := List.mem_map.mp member
          exact others hop inside (by simp [same])
        · intro hop inside again
          rcases List.mem_cons.mp inside with rfl | inside
          · exact fresh again
          · exact others hop inside (by simp [again])
      · rw [granted,Option.getD_some] at ok
        rcases resolveLoop_nontext host pool parent nonText nonNull left (Key.str id :: seen) (before ++ [dat])
          with ⟨⟨reason,stopped⟩,_⟩ | ⟨⟨e,raised⟩,_⟩
        · rw [stopped] at ok; cases ok
        · rw [raised] at ok; cases ok

theorem problemOf_clean (now : String) (hop : Hop) : problemOf now hop = "" ↔
    hop.revoked = false ∧ hop.signatureOk = true ∧ hop.withinWindow = true ∧
      hop.continuousWithChild ≠ some false ∧ hop.withinParentScope ≠ some false := by
  unfold problemOf
  split
  next revoked => simp [revoked]
  next live =>
    split
    next unsigned => simp at unsigned; simp [unsigned]
    next signed =>
      split
      next outside =>
        simp only [Bool.not_eq_eq_eq_not,Bool.not_true] at outside
        split
        · simp [outside,toString]
        · split <;> simp [outside,toString]
      next within =>
        split
        next broken => simp [broken]
        next linked =>
          split
          next wider => simp [wider]
          next narrower => simp_all

def Readable (dat : Dict) : Prop :=
  ∃ named sorted, auditCategories dat = .ok named ∧ sortedSet named = .ok sorted

theorem Readable.categories {dat : Dict} (readable : Readable dat) (formed : WellFormed dat) :
    ∃ named, categories dat = .ok named := by
  obtain ⟨named,_,read,_⟩ := readable
  rw [auditCategories_eq dat formed] at read
  exact ⟨named,read⟩

theorem attenuates_total (child parent : Dict) (below : ∃ named, categories child = .ok named)
    (above : ∃ given, categories parent = .ok given) : ∃ narrower, attenuates child parent = .ok narrower := by
  obtain ⟨named,readChild⟩ := below
  obtain ⟨given,readParent⟩ := above
  by_cases star : Key.str "*" ∈ given
  · exact ⟨true,by simp [attenuates,readParent,star,bind,Except.bind,pure,Except.pure]⟩
  · exact ⟨_,by simp only [attenuates,readParent,readChild,star,bind,Except.bind,if_false]; rfl⟩

section Walks
variable (host : Host) (pool : Pool) (revocations : List String) (now : String)

theorem intrinsic_ok (dat : Dict) (hop : Hop) (ok : intrinsic host revocations now dat = .ok hop) :
    Readable dat ∧ hop.granteeDid = host.field dat "grantee_did" ∧
      (hop.revoked = false ↔ host.field dat "grant_id" ∉ revocations) ∧
      (hop.signatureOk = true ↔ Signed host dat) ∧
      (WellFormed dat → (hop.withinWindow = true ↔ Within dat now)) := by
  obtain ⟨named,read,rest⟩ := bind_success _ _ _ ok
  obtain ⟨sorted,ordered,rest⟩ := bind_success _ _ _ rest
  cases rest
  refine ⟨⟨named,sorted,read,ordered⟩,rfl,by simp,Iff.rfl,?_⟩
  intro formed
  obtain ⟨notBefore,first,someBefore⟩ := formed.notBefore
  obtain ⟨notAfter,last,someAfter⟩ := formed.notAfter
  simp [Host.field,Host.str,Within,first,last,someBefore,someAfter]

theorem intrinsic_readable (dat : Dict) (readable : Readable dat) :
    ∃ hop, intrinsic host revocations now dat = .ok hop := by
  obtain ⟨named,sorted,read,ordered⟩ := readable
  exact ⟨_,by simp only [intrinsic,read,ordered,bind,Except.bind]; rfl⟩

structure Clean (child : Option Dict) (dats : List Dict) : Prop where
  live : ∀ dat ∈ dats, host.field dat "grant_id" ∉ revocations
  signed : ∀ dat ∈ dats, Signed host dat
  within : ∀ dat ∈ dats, Within dat now
  linked : dats.IsChain GrantedTo
  narrowing : dats.IsChain Attenuates
  continues : ∀ below ∈ child, ∀ dat ∈ dats.head?, GrantedTo below dat

theorem grantedTo_iff (below dat : Dict) (formed : WellFormed dat) :
    eqStr (get below "grantor_did") (host.field dat "grantee_did") = true ↔ GrantedTo below dat := by
  obtain ⟨did,grantee⟩ := formed.grantee
  rw [eqStr_iff]
  simp only [GrantedTo,Host.field,Host.str,grantee,Option.getD_some]
  constructor
  · intro grantor
    exact ⟨did,grantor,rfl⟩
  · intro premise
    obtain ⟨_,grantor,same⟩ := premise
    cases same
    exact grantor

theorem withinParent_some (dat : Dict) (above : List Dict) (formed : ∀ d ∈ dat :: above, WellFormed d)
    (readable : ∀ d ∈ dat :: above, Readable d) :
    ∃ scope, withinParent dat above = .ok scope ∧
      (scope ≠ some false ↔ ∀ parent ∈ above.head?, Attenuates dat parent) := by
  cases above with
  | nil => exact ⟨none,rfl,by simp⟩
  | cons parent above =>
    have same := auditAttenuates_eq dat parent (formed _ (by simp)) (formed _ (by simp))
    obtain ⟨narrower,computed⟩ := attenuates_total dat parent
      ((readable dat (by simp)).categories (formed dat (by simp)))
      ((readable parent (by simp)).categories (formed parent (by simp)))
    refine ⟨some narrower,by simp [withinParent,same,computed,bind,Except.bind,pure,Except.pure],?_⟩
    have meaning := attenuates_true dat parent
    rw [computed] at meaning
    cases narrower <;> simpa using meaning

theorem clean_cons (child : Option Dict) (dat : Dict) (above : List Dict) :
    Clean host revocations now child (dat :: above) ↔
      host.field dat "grant_id" ∉ revocations ∧ Signed host dat ∧ Within dat now ∧
        (∀ below ∈ child, GrantedTo below dat) ∧ (∀ parent ∈ above.head?, Attenuates dat parent) ∧
        Clean host revocations now (some dat) above := by
  constructor
  · intro premise
    obtain ⟨live,signed,within,linked,narrowing,continues⟩ := premise
    obtain ⟨links,linked⟩ := List.isChain_cons.mp linked
    obtain ⟨narrows,narrowing⟩ := List.isChain_cons.mp narrowing
    refine ⟨live _ (by simp),signed _ (by simp),within _ (by simp),fun below member => continues below member dat rfl,
      narrows,⟨fun d inside => live d (by simp [inside]),fun d inside => signed d (by simp [inside]),
        fun d inside => within d (by simp [inside]),linked,narrowing,?_⟩⟩
    intro below member
    cases member
    exact links
  · intro premise
    obtain ⟨live,signed,within,continues,narrows,rest⟩ := premise
    refine ⟨?_,?_,?_,List.isChain_cons.mpr ⟨fun next member => rest.continues dat rfl next member,rest.linked⟩,
      List.isChain_cons.mpr ⟨narrows,rest.narrowing⟩,?_⟩
    · simpa using ⟨live,rest.live⟩
    · simpa using ⟨signed,rest.signed⟩
    · simpa using ⟨within,rest.within⟩
    · intro below member next first
      cases first
      exact continues below member

theorem relate_clean (dats : List Dict) : ∀ child hops,
    List.Forall₂ (fun dat hop => intrinsic host revocations now dat = .ok hop) dats hops →
    (∀ dat ∈ dats, WellFormed dat) → (∀ dat ∈ dats, Readable dat) →
    ∃ related, relate now child dats hops = .ok related ∧
      (related.find? (fun hop => hop.problem != "") = none ↔ Clean host revocations now child dats) := by
  induction dats with
  | nil =>
    intro child hops made _ _
    cases made
    refine ⟨[],rfl,?_⟩
    have clean : Clean host revocations now child [] := ⟨by simp,by simp,by simp,by simp,by simp,by simp⟩
    simp [clean]
  | cons dat above ih =>
    intro child hops made formed readable
    cases made with
    | @cons _ hop _ hops first rest =>
      obtain ⟨_,grantee,revoked,signature,window⟩ := intrinsic_ok host revocations now dat hop first
      have window := window (formed dat (by simp))
      obtain ⟨scope,checked,narrows⟩ := withinParent_some dat above formed readable
      obtain ⟨related,computed,clean⟩ := ih (some dat) hops rest (fun d inside => formed d (by simp [inside]))
        (fun d inside => readable d (by simp [inside]))
      refine ⟨_,by simp only [relate,checked,computed,bind,Except.bind]; rfl,?_⟩
      have continues : (child.map fun below => eqStr (get below "grantor_did") hop.granteeDid) ≠ some false ↔
          ∀ below ∈ child, GrantedTo below dat := by
        cases child with
        | none => simp
        | some below => simp [grantee,← grantedTo_iff host below dat (formed dat (by simp))]
      rw [clean_cons,← clean,← revoked,← signature,← window,← continues,← narrows,List.find?_cons]
      have here := problemOf_clean now { hop with
        continuousWithChild := child.map fun below => eqStr (get below "grantor_did") hop.granteeDid
        withinParentScope := scope }
      split
      next problem =>
        have dirty := mt here.mpr (by simpa using problem)
        constructor
        · intro none; cases none
        · intro premise
          obtain ⟨live,signed,within,linked,narrower,_⟩ := premise
          exact absurd ⟨live,signed,within,linked,narrower⟩ dirty
      next fine =>
        obtain ⟨live,signed,within,linked,narrower⟩ := here.mp (by simpa using fine)
        exact ⟨fun rest => ⟨live,signed,within,linked,narrower,rest⟩,fun all => all.2.2.2.2.2⟩

end Walks

/-- The DATs met by following `granted_by` upwards, until a key comes up again or
none of the `left` hops remain; `rest` is what remains after this one. -/
inductive Reaches (pool : Pool) : Nat → List Key → String → Nat → Dict → Prop
  | here {left seen id dat} (fresh : Key.str id ∉ seen) (found : find pool id = some dat) :
      Reaches pool (left+1) seen id left dat
  | up {left seen id dat parentId rest other} (fresh : Key.str id ∉ seen) (found : find pool id = some dat)
      (named : get dat "granted_by" = some (.str parentId))
      (above : Reaches pool left (Key.str id :: seen) parentId rest other) :
      Reaches pool (left+1) seen id rest other

/-- Nothing on the way up makes the auditor raise: the categories it lists can be
sorted, and the parents it looks up are hashable. -/
def Auditable (pool : Pool) (leafGrantId : String) : Prop :=
  ∀ rest dat, Reaches pool maxChainDepth [] leafGrantId rest dat →
    Readable dat ∧ (0 < rest → ∀ parent, get dat "granted_by" = some parent → Hashable parent)

theorem Reaches.found {pool : Pool} {left : Nat} {seen : List Key} {id : String} {rest : Nat} {dat : Dict}
    (reached : Reaches pool left seen id rest dat) : ∃ key, find pool key = some dat := by
  induction reached with
  | here _ found => exact ⟨_,found⟩
  | up _ _ _ _ ih => exact ih

theorem Reaches.goes {pool : Pool} {left : Nat} {seen : List Key} {id : String} {rest : Nat} {other : Dict}
    (reached : Reaches pool (left+1) seen id rest other) : ¬ (Key.str id ∈ seen ∨ find pool id = none) := by
  intro premise
  rcases premise with again | missing
  · cases reached with
    | here fresh _ => exact fresh again
    | up fresh _ => exact fresh again
  · cases reached with
    | here _ found => rw [missing] at found; cases found
    | up _ found => rw [missing] at found; cases found

theorem Reaches.next {pool : Pool} {left : Nat} {seen : List Key} {id : String} {dat : Dict}
    (found : find pool id = some dat) {rest : Nat} {other : Dict}
    (reached : Reaches pool (left+1) seen id rest other) : (rest = left ∧ other = dat) ∨
      ∃ parentId, get dat "granted_by" = some (.str parentId) ∧
        Reaches pool left (Key.str id :: seen) parentId rest other := by
  cases reached with
  | here _ same =>
    cases found.symm.trans same
    exact Or.inl ⟨rfl,rfl⟩
  | up _ same named above =>
    cases found.symm.trans same
    exact Or.inr ⟨_,named,above⟩

theorem resolveLoop_members (host : Host) (pool : Pool) (left : Nat) : ∀ id seen before resolved reason,
    resolveLoop host pool left (.str id) seen before = .ok (resolved,reason) →
    ∀ dat, dat ∈ resolved ↔ dat ∈ before ∨ ∃ rest, Reaches pool left seen id rest dat := by
  induction left with
  | zero =>
    intro id seen before resolved reason ok dat
    cases ok
    refine ⟨Or.inl,?_⟩
    intro premise
    rcases premise with member | ⟨rest,reached⟩
    · exact member
    · cases reached
  | succ left ih =>
    intro id seen before resolved reason ok other
    by_cases stops : Key.str id ∈ seen ∨ find pool id = none
    · obtain ⟨_,stopped⟩ := resolveLoop_stops host pool left id seen before stops
      rw [stopped] at ok
      cases ok
      refine ⟨Or.inl,?_⟩
      intro premise
      rcases premise with member | ⟨rest,reached⟩
      · exact member
      · exact absurd stops reached.goes
    · obtain ⟨fresh,present⟩ := not_or.mp stops
      obtain ⟨dat,found⟩ := Option.ne_none_iff_exists'.mp present
      have single : resolved = before ++ [dat] → (∀ parentId, get dat "granted_by" ≠ some (.str parentId)) →
          (other ∈ resolved ↔ other ∈ before ∨ ∃ rest, Reaches pool (left+1) seen id rest other) := by
        intro same last
        subst same
        rw [List.mem_append,List.mem_singleton]
        refine or_congr_right ⟨?_,?_⟩
        · intro same
          subst same
          exact ⟨left,.here fresh found⟩
        · intro premise
          obtain ⟨rest,reached⟩ := premise
          rcases reached.next found with ⟨_,same⟩ | ⟨parentId,named,_⟩
          · exact same
          · exact absurd named (last parentId)
      rw [resolveLoop_goes host pool left id seen before dat fresh found] at ok
      rcases grantedBy_cases dat with ⟨last,ends⟩ | ⟨parentId,granted⟩ | ⟨parent,granted,nonText,nonNull⟩
      · rw [ends,resolveLoop] at ok
        cases ok
        exact single rfl (by intro parentId named; rcases last with last | last <;> rw [last] at named <;> cases named)
      · rw [granted] at ok
        rw [ih _ _ _ _ _ ok other,List.mem_append,List.mem_singleton,or_assoc]
        refine or_congr_right ⟨?_,?_⟩
        · intro premise
          rcases premise with rfl | ⟨rest,above⟩
          · exact ⟨left,.here fresh found⟩
          · exact ⟨rest,.up fresh found granted above⟩
        · intro premise
          obtain ⟨rest,reached⟩ := premise
          rcases reached.next found with ⟨_,same⟩ | ⟨_,named,above⟩
          · exact Or.inl same
          · cases granted.symm.trans named
            exact Or.inr ⟨rest,above⟩
      · rw [granted,Option.getD_some] at ok
        rcases resolveLoop_nontext host pool parent nonText nonNull left (Key.str id :: seen) (before ++ [dat])
          with ⟨⟨reason,stopped⟩,_⟩ | ⟨⟨e,raised⟩,_⟩
        · rw [stopped] at ok
          cases ok
          exact single rfl (by intro parentId named; cases granted.symm.trans named; exact nonText _ rfl)
        · rw [raised] at ok
          cases ok

theorem resolveLoop_total (host : Host) (pool : Pool) (left : Nat) : ∀ id seen before,
    (∃ resolved reason, resolveLoop host pool left (.str id) seen before = .ok (resolved,reason)) ↔
    ∀ rest dat, Reaches pool left seen id rest dat → 0 < rest →
      ∀ parent, get dat "granted_by" = some parent → Hashable parent := by
  induction left with
  | zero =>
    intro id seen before
    refine ⟨?_,fun _ => ⟨before,_,rfl⟩⟩
    intro _ rest dat reached
    cases reached
  | succ left ih =>
    intro id seen before
    by_cases stops : Key.str id ∈ seen ∨ find pool id = none
    · obtain ⟨_,stopped⟩ := resolveLoop_stops host pool left id seen before stops
      exact ⟨fun _ rest dat reached => absurd stops reached.goes,fun _ => ⟨_,_,stopped⟩⟩
    · obtain ⟨fresh,present⟩ := not_or.mp stops
      obtain ⟨dat,found⟩ := Option.ne_none_iff_exists'.mp present
      rw [resolveLoop_goes host pool left id seen before dat fresh found]
      rcases grantedBy_cases dat with ⟨last,ends⟩ | ⟨parentId,granted⟩ | ⟨parent,granted,nonText,nonNull⟩
      · rw [ends,resolveLoop]
        refine ⟨?_,fun _ => ⟨_,_,rfl⟩⟩
        intro _ rest other reached _ parent named
        rcases reached.next found with ⟨_,rfl⟩ | ⟨parentId,text,_⟩
        · rw [named] at ends
          cases ends
          exact ⟨_,rfl⟩
        · rw [text] at ends
          cases ends
      · rw [granted,Option.getD_some,ih]
        constructor
        · intro hashable rest other reached some parent named
          rcases reached.next found with ⟨_,rfl⟩ | ⟨_,text,above⟩
          · cases granted.symm.trans named
            exact ⟨_,rfl⟩
          · cases granted.symm.trans text
            exact hashable rest other above some parent named
        · intro hashable rest other above
          exact hashable rest other (.up fresh found granted above)
      · rw [granted,Option.getD_some]
        rcases resolveLoop_nontext host pool parent nonText nonNull left (Key.str id :: seen) (before ++ [dat])
          with ⟨⟨reason,stopped⟩,hashable⟩ | ⟨⟨e,raised⟩,some,unhashable⟩
        · refine ⟨?_,fun _ => ⟨_,_,stopped⟩⟩
          intro _ rest other reached some parent' named
          rcases reached.next found with ⟨rfl,rfl⟩ | ⟨_,text,_⟩
          · cases granted.symm.trans named
            exact hashable some
          · cases granted.symm.trans text
            exact absurd rfl (nonText _)
        · rw [raised]
          refine ⟨?_,fun hashable => absurd (hashable left dat (.here fresh found) some parent granted) unhashable⟩
          intro premise
          obtain ⟨_,_,ok⟩ := premise
          cases ok

section Verifier
variable (host : Host) (pool : Pool) (now : String) (category : Option String) (revocations : List String)

theorem toParent_total (dat parent : Dict) (parentId : String) (named : get dat "granted_by" = some (.str parentId))
    (found : find pool parentId = some parent) (below : ∃ named, categories dat = .ok named)
    (above : ∃ given, categories parent = .ok given) : ∃ next, toParent host pool dat = .ok next := by
  obtain ⟨narrower,computed⟩ := attenuates_total dat parent below above
  cases narrower <;> simp [toParent,named,findKey,found,computed,bind,Except.bind,pure,Except.pure]

theorem turn_total (depth : Nat) (id : String) (childGrantor : Option String) (seen : List String) (dat : Dict)
    (found : find pool id = some dat) (formed : WellFormed dat) (read : ∃ named, categories dat = .ok named)
    (goes : ∃ next, toParent host pool dat = .ok next) :
    ∃ next, turn host pool now category revocations depth id childGrantor seen = .ok next := by
  obtain ⟨notBefore,first,_⟩ := formed.notBefore
  obtain ⟨notAfter,last,_⟩ := formed.notAfter
  obtain ⟨grantee,held⟩ := formed.grantee
  obtain ⟨named,read⟩ := read
  obtain ⟨next,goes⟩ := goes
  have window : ∃ within, inWindow dat now = .ok within := by
    by_cases early : notBefore ≤ now
    · exact ⟨_,by simp only [inWindow,item,first,last,le,early,bind,Except.bind,decide_true,if_true]; rfl⟩
    · exact ⟨false,by simp [inWindow,item,first,le,early,bind,Except.bind,pure,Except.pure]⟩
  have linked : ∃ linked, continuous childGrantor dat = .ok linked := by
    cases childGrantor with
    | none => exact ⟨true,rfl⟩
    | some grantor => exact ⟨_,by simp only [continuous,item,held,bind,Except.bind]; rfl⟩
  have covered : ∃ covered, leafCovers category depth dat = .ok covered := by
    unfold leafCovers
    split
    · exact ⟨_,by simp only [covers,read,bind,Except.bind]; rfl⟩
    · exact ⟨true,rfl⟩
  obtain ⟨within,window⟩ := window
  obtain ⟨joined,linked⟩ := linked
  obtain ⟨inside,covered⟩ := covered
  unfold turn
  split
  · exact ⟨_,rfl⟩
  · simp only [found]
    split
    · exact ⟨_,rfl⟩
    · split
      · exact ⟨_,rfl⟩
      · cases within <;> cases joined <;> cases inside <;>
          simp [window,linked,covered,goes,bind,Except.bind,pure,Except.pure]

theorem chainLoop_total {id : String} {chain : List (String × Dict)} (path : GrantedBy pool id chain) :
    (∀ hop ∈ chain, WellFormed hop.2) → (∀ hop ∈ chain, ∃ named, categories hop.2 = .ok named) →
    ∀ left depth childGrantor seen, ∃ result,
      chainLoop host pool now category revocations left depth id childGrantor seen = .ok result := by
  induction path with
  | @root id dat found last =>
    intro formed read left depth childGrantor seen
    cases left with
    | zero => exact ⟨_,rfl⟩
    | succ left =>
      obtain ⟨next,turned⟩ := turn_total host pool now category revocations depth id childGrantor seen dat found
        (formed (id,dat) (by simp)) (read (id,dat) (by simp)) ⟨_,(toParent_root host pool dat).mpr last⟩
      cases next with
      | stop result => exact ⟨result,by simp [chainLoop,turned,bind,Except.bind,pure,Except.pure]⟩
      | root => exact ⟨_,by simp only [chainLoop,turned,bind,Except.bind]; rfl⟩
      | up parentId grantor =>
        obtain ⟨_,hop,goes⟩ := (turn_passes _ _ _ _ _ _ _ _ _ _ (by simp)).mp turned
        cases found.symm.trans hop.found
        rw [(toParent_root host pool dat).mpr last] at goes
        cases goes
  | @step id dat parentId rest found named above ih =>
    intro formed read left depth childGrantor seen
    obtain ⟨parent,tail,rfl,located⟩ := above.head
    cases left with
    | zero => exact ⟨_,rfl⟩
    | succ left =>
      obtain ⟨next,turned⟩ := turn_total host pool now category revocations depth id childGrantor seen dat found
        (formed (id,dat) (by simp)) (read (id,dat) (by simp))
        (toParent_total host pool dat parent parentId named located (read (id,dat) (by simp))
          (read (parentId,parent) (by simp)))
      cases next with
      | stop result => exact ⟨result,by simp [chainLoop,turned,bind,Except.bind,pure,Except.pure]⟩
      | root => exact ⟨_,by simp only [chainLoop,turned,bind,Except.bind]; rfl⟩
      | up next grantor =>
        obtain ⟨_,hop,goes⟩ := (turn_passes _ _ _ _ _ _ _ _ _ _ (by simp)).mp turned
        cases found.symm.trans hop.found
        obtain ⟨_,same,_⟩ := (toParent_up _ _ _ _ _).mp goes
        cases named.symm.trans same
        obtain ⟨result,ok⟩ := ih (fun hop inside => formed hop (by simp [inside]))
          (fun hop inside => read hop (by simp [inside])) left (depth+1) grantor (id :: seen)
        exact ⟨result,by simp [chainLoop,turned,ok,bind,Except.bind]⟩

end Verifier

theorem mapM_made {α β ε : Type} (f : α → Except ε β) (items : List α) (made : ∀ a ∈ items, ∃ b, f a = .ok b) :
    ∃ results, items.mapM f = .ok results ∧ List.Forall₂ (fun a b => f a = .ok b) items results := by
  induction items with
  | nil => exact ⟨[],rfl,.nil⟩
  | cons a rest ih =>
    obtain ⟨b,first⟩ := made a (by simp)
    obtain ⟨results,others,all⟩ := ih fun x inside => made x (by simp [inside])
    exact ⟨b :: results,by simp [List.mapM_cons,first,others,bind,Except.bind,pure,Except.pure],.cons first all⟩

theorem mapM_each {α β ε : Type} (f : α → Except ε β) (items : List α) : ∀ results,
    items.mapM f = .ok results → ∀ a ∈ items, ∃ b, f a = .ok b := by
  induction items with
  | nil => simp
  | cons a rest ih =>
    intro results ok x inside
    rw [List.mapM_cons] at ok
    obtain ⟨b,first,ok⟩ := bind_success _ _ _ ok
    obtain ⟨others,made,_⟩ := bind_success _ _ _ ok
    rcases List.mem_cons.mp inside with rfl | inside
    · exact ⟨b,first⟩
    · exact ih others made x inside

theorem clean_iff_valid (host : Host) (pool : Pool) (revocations : List String) (now id : String)
    (keyed : ∀ key dat, find pool key = some dat → get dat "grant_id" = some (.str key))
    {chain : List (String × Dict)} (path : GrantedBy pool id chain) (short : chain.length ≤ maxChainDepth)
    (distinct : (chain.map Prod.fst).Nodup) :
    Clean host revocations now none (chain.map Prod.snd) ↔ ValidChain host pool now revocations id chain := by
  have own : ∀ hop ∈ chain, host.field hop.2 "grant_id" = hop.1 := by
    intro hop inside
    have filed := keyed hop.1 hop.2 (path.located hop inside)
    simp [Host.field,Host.str,filed]
  constructor
  · intro premise
    obtain ⟨live,signed,within,linked,narrowing,_⟩ := premise
    refine ⟨path,short,distinct,?_,?_,?_,?_,?_⟩
    · intro hop inside
      rw [← own hop inside]
      exact live _ (List.mem_map_of_mem inside)
    · exact fun hop inside => signed _ (List.mem_map_of_mem inside)
    · exact fun hop inside => within _ (List.mem_map_of_mem inside)
    · exact (List.isChain_map _).mp linked
    · exact (List.isChain_map _).mp narrowing
  · intro valid
    refine ⟨?_,?_,?_,(List.isChain_map _).mpr valid.linked,(List.isChain_map _).mpr valid.narrowing,by simp⟩
    · intro dat member
      obtain ⟨hop,inside,rfl⟩ := List.mem_map.mp member
      rw [own hop inside]
      exact valid.live hop inside
    · intro dat member
      obtain ⟨hop,inside,rfl⟩ := List.mem_map.mp member
      exact valid.signed hop inside
    · intro dat member
      obtain ⟨hop,inside,rfl⟩ := List.mem_map.mp member
      exact valid.within hop inside

/-- The auditor's answer is the verifier's: never a dispute, intact exactly on
acceptance, and otherwise severed or unresolvable. -/
def Agrees (host : Host) (leafGrantId : String) (pool : Pool) (revocations : List String) (now : Option String)
    (category : Option String) : Prop :=
  ∃ walk, walkAuthority host leafGrantId pool revocations now category = .ok walk ∧
    walk.verdict ≠ .disputed ∧
    (walk.verdict = .intact ↔ Accepts host leafGrantId pool (host.instant now) category revocations) ∧
    (¬ Accepts host leafGrantId pool (host.instant now) category revocations →
      walk.verdict = .severed ∨ walk.verdict = .unresolvable)

/-- The chain is valid in itself, and its leaf does not cover the category asked for. -/
def OutOfScope (host : Host) (leafGrantId : String) (pool : Pool) (revocations : List String) (now : String)
    (category : Option String) : Prop :=
  ∃ c chain, category = some c ∧ ValidChain host pool now revocations leafGrantId chain ∧
    ∀ leaf ∈ chain.head?, ¬ Covers leaf.2 c

section Agreement
variable (host : Host) (pool : Pool) (revocations : List String) (leafGrantId : String) (now : Option String)
  (category : Option String)

theorem walkAuthority_auditable (walk : Walk)
    (ok : walkAuthority host leafGrantId pool revocations now category = .ok walk) : Auditable pool leafGrantId := by
  obtain ⟨⟨resolved,reason⟩,resolves,rest⟩ := bind_success _ _ _ ok
  obtain ⟨hops,made,_⟩ := bind_success _ _ _ rest
  have members := resolveLoop_members host pool maxChainDepth _ _ _ _ _ resolves
  have hashable := (resolveLoop_total host pool maxChainDepth leafGrantId [] []).mp ⟨_,_,resolves⟩
  intro rest dat reached
  refine ⟨?_,hashable rest dat reached⟩
  obtain ⟨hop,single⟩ := mapM_each _ _ _ made dat ((members dat).mpr (Or.inr ⟨rest,reached⟩))
  exact (intrinsic_ok host revocations _ dat hop single).1

theorem audit_hops (formed : ∀ key dat, find pool key = some dat → WellFormed dat)
    (auditable : Auditable pool leafGrantId) : ∃ resolved reason hops related,
      resolveLoop host pool maxChainDepth (.str leafGrantId) [] [] = .ok (resolved,reason) ∧
      resolved.mapM (intrinsic host revocations (host.instant now)) = .ok hops ∧
      relate (host.instant now) none resolved hops = .ok related ∧
      (related.find? (fun hop => hop.problem != "") = none ↔
        Clean host revocations (host.instant now) none resolved) ∧
      ∀ dat ∈ resolved, WellFormed dat ∧ Readable dat := by
  obtain ⟨resolved,reason,resolves⟩ := (resolveLoop_total host pool maxChainDepth leafGrantId [] []).mpr
    fun rest dat reached => (auditable rest dat reached).2
  have sound : ∀ dat ∈ resolved, WellFormed dat ∧ Readable dat := by
    intro dat member
    rcases (resolveLoop_members host pool maxChainDepth _ _ _ _ _ resolves dat).mp member with old | ⟨rest,reached⟩
    · cases old
    · obtain ⟨key,found⟩ := reached.found
      exact ⟨formed key dat found,(auditable rest dat reached).1⟩
  obtain ⟨hops,made,each⟩ := mapM_made (intrinsic host revocations (host.instant now)) resolved
    fun dat member => intrinsic_readable host revocations _ dat (sound dat member).2
  obtain ⟨related,computed,clean⟩ := relate_clean host revocations (host.instant now) resolved none hops each
    (fun dat member => (sound dat member).1) (fun dat member => (sound dat member).2)
  exact ⟨resolved,reason,hops,related,resolves,made,computed,clean,sound⟩

theorem walkAuthority_concludes (resolved : List Dict) (hops related : List Hop) (result : DatResult)
    (resolves : resolveLoop host pool maxChainDepth (.str leafGrantId) [] [] = .ok (resolved,none))
    (made : resolved.mapM (intrinsic host revocations (host.instant now)) = .ok hops)
    (computed : relate (host.instant now) none resolved hops = .ok related)
    (verified : verifyDatChain host leafGrantId pool (host.instant now) category revocations = .ok result) :
    ∃ walk, walkAuthority host leafGrantId pool revocations now category = .ok walk ∧
      (walk.verdict = .intact ↔ result.ok = true ∧ related.find? (fun hop => hop.problem != "") = none) ∧
      (walk.verdict = .severed ↔ result.ok = false ∧ related.find? (fun hop => hop.problem != "") ≠ none) ∧
      (walk.verdict = .disputed ↔ (result.ok = true ↔ related.find? (fun hop => hop.problem != "") ≠ none)) := by
  simp only [walkAuthority,resolves,made,computed,verified,bind,Except.bind]
  cases result.ok <;> cases related.find? (fun hop => hop.problem != "") <;>
    exact ⟨_,rfl,by simp,by simp,by simp⟩

theorem agrees_unresolved (resolved : List Dict) (hops related : List Hop) (reason : String)
    (resolves : resolveLoop host pool maxChainDepth (.str leafGrantId) [] [] = .ok (resolved,some reason))
    (made : resolved.mapM (intrinsic host revocations (host.instant now)) = .ok hops)
    (computed : relate (host.instant now) none resolved hops = .ok related) :
    (∀ chain, ¬ ValidChain host pool (host.instant now) revocations leafGrantId chain) ∧
      Agrees host leafGrantId pool revocations now category := by
  have broken : ∀ chain, ¬ ValidChain host pool (host.instant now) revocations leafGrantId chain := by
    intro chain valid
    rw [resolveLoop_path host pool valid.path _ _ _ valid.short valid.distinct (by simp)] at resolves
    cases resolves
  have refused : ¬ Accepts host leafGrantId pool (host.instant now) category revocations := by
    rw [accepts_iff]
    intro premise
    obtain ⟨chain,valid,_⟩ := premise
    exact broken chain valid
  obtain ⟨walk,ok,verdict⟩ : ∃ walk, walkAuthority host leafGrantId pool revocations now category = .ok walk ∧
      walk.verdict = .unresolvable := by
    simp only [walkAuthority,resolves,made,computed,bind,Except.bind]
    exact ⟨_,rfl,rfl⟩
  exact ⟨broken,walk,ok,by simp [verdict],by simp [verdict,refused],fun _ => Or.inr verdict⟩

theorem agrees_of_auditable (keyed : ∀ key dat, find pool key = some dat → get dat "grant_id" = some (.str key))
    (formed : ∀ key dat, find pool key = some dat → WellFormed dat) (auditable : Auditable pool leafGrantId) :
    Agrees host leafGrantId pool revocations now category ↔
      ¬ OutOfScope host leafGrantId pool revocations (host.instant now) category := by
  obtain ⟨resolved,reason,hops,related,resolves,made,computed,clean,sound⟩ :=
    audit_hops host pool revocations leafGrantId now formed auditable
  cases reason with
  | some reason =>
    obtain ⟨broken,agrees⟩ := agrees_unresolved host pool revocations leafGrantId now category resolved hops related
      reason resolves made computed
    exact ⟨fun _ ⟨_,chain,_,valid,_⟩ => broken chain valid,fun _ => agrees⟩
  | none =>
    obtain ⟨chain,path,short,distinct,_,rfl⟩ := resolveLoop_resolved host pool _ _ _ _ _ resolves
    rw [List.nil_append] at *
    rw [clean_iff_valid host pool revocations (host.instant now) leafGrantId keyed path short distinct] at clean
    have every : ∀ hop ∈ chain, WellFormed hop.2 ∧ Readable hop.2 :=
      fun hop inside => sound hop.2 (List.mem_map_of_mem inside)
    obtain ⟨result,verified⟩ := chainLoop_total host pool (host.instant now) category revocations path
      (fun hop inside => (every hop inside).1)
      (fun hop inside => (every hop inside).2.categories (every hop inside).1) maxChainDepth 0 none []
    have verified : verifyDatChain host leafGrantId pool (host.instant now) category revocations = .ok result :=
      verified
    obtain ⟨walk,ok,intact,severed,disputed⟩ := walkAuthority_concludes host pool revocations leafGrantId now category
      _ hops related result resolves made computed verified
    have accepts : Accepts host leafGrantId pool (host.instant now) category revocations ↔ result.ok = true := by
      constructor
      · intro premise
        obtain ⟨other,same,accepted⟩ := premise
        rw [verified] at same
        cases same
        exact accepted
      · exact fun accepted => ⟨result,verified,accepted⟩
    -- acceptance needs a valid chain, and the auditor found one exactly when no hop has a problem
    have valid : result.ok = true ↔ related.find? (fun hop => hop.problem != "") = none ∧
        ∀ c, category = some c → ∀ leaf ∈ chain.head?, Covers leaf.2 c := by
      rw [← accepts,accepts_iff,clean]
      constructor
      · intro premise
        obtain ⟨other,valid,covered⟩ := premise
        cases path.unique valid.path
        exact ⟨valid,covered⟩
      · exact fun both => ⟨chain,both⟩
    obtain ⟨leaf,rest,first,_⟩ := path.head
    constructor
    · intro premise premise2
      obtain ⟨other,same,agreed,_,_⟩ := premise
      obtain ⟨c,chain',rfl,valid',uncovered⟩ := premise2
      cases path.unique valid'.path
      rw [ok] at same
      cases same
      refine agreed (disputed.mpr ?_)
      have audited := clean.mpr valid'
      simp only [audited,ne_eq,not_true_eq_false,iff_false]
      intro accepted
      refine uncovered (leafGrantId,leaf) (by simp [first]) ((valid.mp accepted).2 c rfl _ (by simp [first]))
    · intro inside
      have equal : result.ok = true ↔ related.find? (fun hop => hop.problem != "") = none := by
        refine valid.trans ⟨And.left,fun audited => ⟨audited,?_⟩⟩
        intro c same hop member
        subst same
        by_contra uncovered
        refine inside ⟨c,chain,rfl,clean.mp audited,?_⟩
        intro other same
        cases Option.mem_unique member same
        exact uncovered
      refine ⟨walk,ok,?_,?_,?_⟩
      · rw [ne_eq,disputed,equal]
        exact iff_not_self
      · rw [intact,accepts]
        exact and_iff_left_of_imp equal.mp
      · intro refused
        rw [accepts] at refused
        exact Or.inl (severed.mpr ⟨by simpa using refused,fun audited => refused (equal.mpr audited)⟩)

/-- On a pool of well-formed grants filed under their own grant_id the auditor and
the verifier agree exactly when nothing on the way up makes the auditor raise, and
the category is not the only thing wrong with the chain. -/
theorem walkAuthority_agrees
    (keyed : ∀ key dat, find pool key = some dat → get dat "grant_id" = some (.str key))
    (formed : ∀ key dat, find pool key = some dat → WellFormed dat) :
    Agrees host leafGrantId pool revocations now category ↔
      Auditable pool leafGrantId ∧ ¬ OutOfScope host leafGrantId pool revocations (host.instant now) category := by
  constructor
  · intro agrees
    obtain ⟨walk,ok,_⟩ := id agrees
    have auditable := walkAuthority_auditable host pool revocations leafGrantId now category walk ok
    exact ⟨auditable,(agrees_of_auditable host pool revocations leafGrantId now category keyed formed auditable).mp
      agrees⟩
  · intro premise
    obtain ⟨auditable,inside⟩ := premise
    exact (agrees_of_auditable host pool revocations leafGrantId now category keyed formed auditable).mpr inside

end Agreement

def singlePool : Pool := [("r",sampleDat "o" "r" "did:key:zo" "did:key:zc" ["a"] none)]

theorem singlePool_find (key : String) (dat : Dict) (found : find singlePool key = some dat) :
    key = "r" ∧ dat = sampleDat "o" "r" "did:key:zo" "did:key:zc" ["a"] none := by
  simp only [find,singlePool,List.find?_cons,List.find?_nil] at found
  split at found
  next same =>
    cases found
    exact ⟨(beq_iff_eq.mp same).symm,rfl⟩
  next => cases found

theorem singlePool_keyed (key : String) (dat : Dict) (found : find singlePool key = some dat) :
    get dat "grant_id" = some (.str key) := by
  obtain ⟨rfl,rfl⟩ := singlePool_find key dat found
  rfl

theorem singlePool_formed (key : String) (dat : Dict) (found : find singlePool key = some dat) : WellFormed dat := by
  obtain ⟨rfl,rfl⟩ := singlePool_find key dat found
  exact ⟨⟨_,rfl⟩,⟨_,rfl⟩,⟨_,rfl,by decide⟩,⟨_,rfl,by decide⟩,⟨_,rfl⟩⟩

theorem singlePool_auditable : Auditable singlePool "r" := by
  intro rest dat reached
  obtain ⟨key,found⟩ := reached.found
  obtain ⟨rfl,rfl⟩ := singlePool_find key dat found
  refine ⟨⟨_,_,rfl,rfl⟩,?_⟩
  intro _ parent named
  cases named

theorem walkAuthority_agrees_single : Agrees sampleHost "r" singlePool [] (some "2026-06") (some "a") := by
  refine (walkAuthority_agrees sampleHost singlePool [] "r" (some "2026-06") (some "a") singlePool_keyed
    singlePool_formed).mpr ⟨singlePool_auditable,?_⟩
  intro premise
  obtain ⟨c,chain,same,valid,uncovered⟩ := premise
  cases same
  obtain ⟨leaf,rest,rfl,found⟩ := valid.path.head
  obtain ⟨_,rfl⟩ := singlePool_find _ _ found
  exact uncovered _ rfl ⟨_,rfl,Or.inl (by simp)⟩

/-- Asked for another tool, the auditor disputes a chain every hop of which is clean. -/
theorem walkAuthority_disputed :
    (∀ key dat, find singlePool key = some dat → get dat "grant_id" = some (.str key)) ∧
    (∀ key dat, find singlePool key = some dat → WellFormed dat) ∧
    (∃ walk, walkAuthority sampleHost "r" singlePool [] (some "2026-06") (some "b") = .ok walk ∧
      walk.verdict = .disputed) ∧
    ¬ Agrees sampleHost "r" singlePool [] (some "2026-06") (some "b") := by
  have disputed : ∃ walk, walkAuthority sampleHost "r" singlePool [] (some "2026-06") (some "b") = .ok walk ∧
      walk.verdict = .disputed := ⟨_,rfl,by decide +kernel⟩
  refine ⟨singlePool_keyed,singlePool_formed,disputed,?_⟩
  intro premise
  obtain ⟨walk,ok,agreed,_⟩ := premise
  obtain ⟨other,same,verdict⟩ := disputed
  rw [ok] at same
  cases same
  exact agreed verdict

end Orrery.Dat
