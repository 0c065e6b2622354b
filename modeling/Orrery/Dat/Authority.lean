import Orrery.Dat.Chain

/-! The authority check in front of an outbound call (delegated_call.check_authority)
and the pool lookup it goes through (dat.verify_counterparty_dat). The presented
document is put into the pool only if nothing is filed there under its grant_id,
and revocation is tested on the key a DAT is filed under. -/
namespace Orrery.Dat
open Foundation Json

def setdefault (pool : Pool) (id : String) (dat : Dict) : Pool :=
  if (find pool id).isSome then pool else pool ++ [(id,dat)]

def Host.instant (host : Host) (now : Option String) : String :=
  match now with
  | some text => if text = "" then host.nowIso else text
  | none => host.nowIso

def verifyCounterpartyDat (host : Host) (grantId : String) (dat : Dict) (now : Option String)
    (category : Option String) (pool : Pool) (revocations : List String) : Except Exc DatResult :=
  verifyDatChain host grantId (setdefault pool grantId dat) (host.instant now) category revocations

def actionName (tool : String) : String := "a2a.tasks/send#" ++ tool

inductive AuthorityStage
  | noGrant | grantee | grantor | expired | notYetValid
  | verifier (stage : Stage)
deriving DecidableEq

structure AuthorityVerdict where
  ok : Bool
  stage : AuthorityStage
  detail : String
  grantId : Option String

def refuse (stage : AuthorityStage) (grantId detail : String) : AuthorityVerdict := ⟨false,stage,detail,some grantId⟩

def windowVerdict (host : Host) (dat : Dict) (grantId now : String) : AuthorityVerdict :=
  let notAfter := host.str ((get dat "not_after").getD (.str ""))
  let notBefore := host.str ((get dat "not_before").getD (.str ""))
  if notAfter ≠ "" ∧ notAfter < now then
    refuse .expired grantId s!"grant {grantId} expired at {notAfter} (now {now})"
  else refuse .notYetValid grantId s!"grant {grantId} is not valid until {notBefore} (now {now})"

def namedCategories (dat : Dict) : Except Exc Json :=
  let scope := (get dat "scope").getD .null
  match if scope.truthy then scope else .obj [] with
  | .obj fields => .ok ((get fields "action_categories").getD .null)
  | other => .error (.attributeError s!"'{other.typeName}' object has no attribute 'get'")

def scopeVerdict (host : Host) (dat : Dict) (grantId tool : String) : Except Exc AuthorityVerdict := do
  let named ← namedCategories dat
  return refuse (.verifier .scope) grantId
    s!"grant {grantId} names {host.repr named}, not {host.repr (.str (actionName tool))}"

theorem windowVerdict_refuses (host : Host) (dat : Dict) (grantId now : String) :
    (windowVerdict host dat grantId now).ok = false := by
  simp only [windowVerdict]
  split <;> rfl

theorem scopeVerdict_refuses (host : Host) (dat : Dict) (grantId tool : String) (verdict : AuthorityVerdict)
    (ok : scopeVerdict host dat grantId tool = .ok verdict) : verdict.ok = false := by
  obtain ⟨named,_,rest⟩ := bind_success _ _ _ ok
  cases rest
  rfl

def checkAuthority (host : Host) (dat : Json) (selfDid tool : String) (now : Option String)
    (revocations : List String) (pool : Pool) : Except Exc AuthorityVerdict :=
  match dat with
  | .obj fields =>
    match get fields "grant_id" with
    | some (.str grantId) =>
      if ¬ eqStr (get fields "grantee_did") selfDid then
        let named := host.repr ((get fields "grantee_did").getD .null)
        .ok (refuse .grantee grantId s!"grant {grantId} names grantee {named}, this agent is {selfDid}")
      else if eqStr (get fields "grantor_did") selfDid then
        .ok (refuse .grantor grantId s!"grant {grantId} is self-granted: grantor is this agent's own key")
      else do
        let instant := host.instant now
        let result ← verifyCounterpartyDat host grantId fields (some instant) (some (actionName tool)) pool revocations
        if result.ok then
          return ⟨true,.verifier .accepted,s!"grant {grantId} authorises {actionName tool}",some grantId⟩
        else if result.stage = .window then return windowVerdict host fields grantId instant
        else if result.stage = .scope then scopeVerdict host fields grantId tool
        else return refuse (.verifier result.stage) grantId s!"grant {grantId}: {result.detail}"
    | _ => .ok ⟨false,.noGrant,"no grant was presented (not a DAT: no grant_id)",none⟩
  | _ => .ok ⟨false,.noGrant,"no grant was presented (not a DAT: no grant_id)",none⟩

def Authorises (host : Host) (dat : Json) (selfDid tool : String) (now : Option String)
    (revocations : List String) (pool : Pool) : Prop :=
  ∃ verdict, checkAuthority host dat selfDid tool now revocations pool = .ok verdict ∧ verdict.ok = true

/-- What a document says for itself: its own signature, window and categories. -/
structure OwnChecks (host : Host) (dat : Dict) (instant tool : String) : Prop where
  signed : Signed host dat
  within : Within dat instant
  covers : Covers dat (actionName tool)

theorem find_setdefault (pool : Pool) (id : String) (dat : Dict) :
    find (setdefault pool id dat) id = some ((find pool id).getD dat) := by
  unfold setdefault
  cases present : find pool id with
  | some other => simpa using present
  | none =>
    have absent : pool.find? (fun entry => entry.1 == id) = none := by simpa [find] using present
    simp [find,List.find?_append,absent]

theorem setdefault_present (pool : Pool) (id : String) (dat other : Dict) (present : find pool id = some other) :
    setdefault pool id dat = pool := by
  simp [setdefault,present]

theorem authorises_iff (host : Host) (dat : Json) (selfDid tool : String) (now : Option String)
    (revocations : List String) (pool : Pool) :
    Authorises host dat selfDid tool now revocations pool ↔
      ∃ fields grantId, dat = .obj fields ∧ get fields "grant_id" = some (.str grantId) ∧
        get fields "grantee_did" = some (.str selfDid) ∧ get fields "grantor_did" ≠ some (.str selfDid) ∧
        Accepts host grantId (setdefault pool grantId fields) (host.instant (some (host.instant now)))
          (some (actionName tool)) revocations := by
  constructor
  · intro premise
    obtain ⟨verdict,checked,ok⟩ := premise
    unfold checkAuthority at checked
    split at checked
    next fields =>
      split at checked
      next grantId present =>
        split at checked
        next other => cases checked; cases ok
        next grantee =>
          split at checked
          next own => cases checked; cases ok
          next grantor =>
            obtain ⟨result,verified,rest⟩ := bind_success _ _ _ checked
            have accepted : result.ok = true := by
              by_contra refused
              simp only [refused,if_false] at rest
              split at rest
              next => cases rest; simp [windowVerdict_refuses] at ok
              next =>
                split at rest
                next => simp [scopeVerdict_refuses _ _ _ _ _ rest] at ok
                next => cases rest; cases ok
            exact ⟨fields,grantId,rfl,present,(eqStr_iff _ _).mp (by simpa using grantee),
              fun same => grantor ((eqStr_iff _ _).mpr same),result,verified,accepted⟩
      next => cases checked; cases ok
    next => cases checked; cases ok
  · intro premise
    obtain ⟨fields,grantId,rfl,present,grantee,grantor,result,verified,accepted⟩ := premise
    have other : eqStr (get fields "grantor_did") selfDid = false := by
      rw [Bool.eq_false_iff]
      exact fun same => grantor ((eqStr_iff _ _).mp same)
    have counterparty : verifyCounterpartyDat host grantId fields (some (host.instant now)) (some (actionName tool))
        pool revocations = .ok result := verified
    refine ⟨⟨true,.verifier .accepted,s!"grant {grantId} authorises {actionName tool}",some grantId⟩,?_,rfl⟩
    simp [checkAuthority,present,(eqStr_iff _ _).mpr grantee,other,counterparty,accepted,bind,Except.bind,pure,
      Except.pure]

theorem accepts_leaf (host : Host) (grantId instant tool : String) (pool : Pool) (revocations : List String)
    (accepted : Accepts host grantId pool instant (some (actionName tool)) revocations) :
    ∃ leaf, find pool grantId = some leaf ∧ OwnChecks host leaf instant tool := by
  obtain ⟨chain,valid,covered⟩ := (accepts_iff _ _ _ _ _ _).mp accepted
  obtain ⟨leaf,rest,rfl,found⟩ := valid.path.head
  have here : (grantId,leaf) ∈ (grantId,leaf) :: rest := by simp
  exact ⟨leaf,found,valid.signed _ here,valid.within _ here,covered _ rfl _ rfl⟩

/-- The pool files another document under the presented grant_id, that one is
accepted in its place, and the presented one fails a check of its own. -/
def Substituted (host : Host) (dat : Json) (selfDid tool : String) (now : Option String)
    (revocations : List String) (pool : Pool) : Prop :=
  ∃ fields grantId other, dat = .obj fields ∧ get fields "grant_id" = some (.str grantId) ∧
    find pool grantId = some other ∧ other ≠ fields ∧
    get fields "grantee_did" = some (.str selfDid) ∧ get fields "grantor_did" ≠ some (.str selfDid) ∧
    Accepts host grantId pool (host.instant (some (host.instant now))) (some (actionName tool)) revocations ∧
    ¬ OwnChecks host fields (host.instant (some (host.instant now))) tool

/-- An authorised document passes its own signature, window and scope checks, unless
the pool held a substitute under its grant_id. -/
theorem checkAuthority_presented (host : Host) (dat : Json) (selfDid tool : String) (now : Option String)
    (revocations : List String) (pool : Pool) :
    (Authorises host dat selfDid tool now revocations pool →
      ∃ fields, dat = .obj fields ∧ OwnChecks host fields (host.instant (some (host.instant now))) tool) ↔
    ¬ Substituted host dat selfDid tool now revocations pool := by
  constructor
  · intro sound premise
    obtain ⟨fields,grantId,other,rfl,present,filed,_,grantee,grantor,accepted,fails⟩ := premise
    have authorised : Authorises host (.obj fields) selfDid tool now revocations pool :=
      (authorises_iff _ _ _ _ _ _ _).mpr ⟨fields,grantId,rfl,present,grantee,grantor,by
        rwa [setdefault_present pool grantId fields other filed]⟩
    obtain ⟨_,same,own⟩ := sound authorised
    cases same
    exact fails own
  · intro genuine authorised
    obtain ⟨fields,grantId,rfl,present,grantee,grantor,accepted⟩ := (authorises_iff _ _ _ _ _ _ _).mp authorised
    refine ⟨fields,rfl,?_⟩
    obtain ⟨leaf,found,own⟩ := accepts_leaf _ _ _ _ _ _ accepted
    rw [find_setdefault] at found
    cases filed : find pool grantId with
    | none =>
      rw [filed] at found
      cases found
      exact own
    | some other =>
      by_contra fails
      rw [filed] at found
      cases found
      refine genuine ⟨fields,grantId,other,rfl,present,filed,?_,grantee,grantor,?_,fails⟩
      · intro same
        subst same
        exact fails own
      · rwa [setdefault_present pool grantId fields other filed] at accepted

def forgedLeaf : Dict := sampleDat "x" "root" "did:key:zo" "did:key:zc" ["*"] none

theorem checkAuthority_forged :
    Authorises sampleHost (.obj forgedLeaf) "did:key:zc" "save_note" (some "2026-06") [] samplePool ∧
      ¬ ∃ fields, Json.obj forgedLeaf = .obj fields ∧
        OwnChecks sampleHost fields (sampleHost.instant (some (sampleHost.instant (some "2026-06")))) "save_note" := by
  refine ⟨?_,?_⟩
  · rw [authorises_iff]
    refine ⟨forgedLeaf,"root",rfl,rfl,rfl,?_,.verifies,by decide +kernel,rfl⟩
    intro same
    exact absurd (Json.str.inj (Option.some.inj same)) (by decide)
  · intro premise
    obtain ⟨fields,same,own⟩ := premise
    cases same
    have unsigned : (verifyDatSignature sampleHost forgedLeaf).ok = false := by decide +kernel
    exact Bool.noConfusion (unsigned.symm.trans own.signed)

/-- Some DAT of the valid chain is filed under a key other than its own grant_id, and
that grant_id has been revoked. -/
def Misfiled (host : Host) (grantId : String) (pool : Pool) (now : String) (category : Option String)
    (revocations : List String) : Prop :=
  ∃ chain, ValidChain host pool now revocations grantId chain ∧
    (∀ c, category = some c → ∀ leaf ∈ chain.head?, Covers leaf.2 c) ∧
    ∃ hop ∈ chain, ∃ id, get hop.2 "grant_id" = some (.str id) ∧ id ≠ hop.1 ∧ id ∈ revocations

/-- An accepted chain carries no revoked grant_id, unless one of its DATs is misfiled. -/
theorem revocation_binds (host : Host) (grantId : String) (pool : Pool) (now : String) (category : Option String)
    (revocations : List String) :
    (Accepts host grantId pool now category revocations →
      ∀ chain, GrantedBy pool grantId chain → ∀ hop ∈ chain, ∀ id, get hop.2 "grant_id" = some (.str id) →
        id ∉ revocations) ↔
    ¬ Misfiled host grantId pool now category revocations := by
  constructor
  · intro sound premise
    obtain ⟨chain,valid,covered,hop,inside,id,own,_,revoked⟩ := premise
    have accepted := (accepts_iff host pool now category revocations grantId).mpr ⟨chain,valid,covered⟩
    exact sound accepted chain valid.path hop inside id own revoked
  · intro filed accepted chain path hop inside id own revoked
    obtain ⟨_,valid,covered⟩ := (accepts_iff host pool now category revocations grantId).mp accepted
    cases path.unique valid.path
    refine filed ⟨chain,valid,covered,hop,inside,id,own,?_,revoked⟩
    intro same
    subst same
    exact valid.live hop inside revoked

def misfiledPool : Pool := [("alias",sampleDat "o" "root" "did:key:zo" "did:key:zc" ["*"] none)]

theorem revocation_misfiled :
    Accepts sampleHost "alias" misfiledPool "2026-06" none ["root"] ∧
      ∃ chain, GrantedBy misfiledPool "alias" chain ∧
        ∃ hop ∈ chain, get hop.2 "grant_id" = some (.str "root") ∧ "root" ∈ ["root"] :=
  ⟨⟨.verifies,by decide +kernel,rfl⟩,_,.root rfl (Or.inl rfl),_,List.mem_singleton_self _,rfl,List.mem_singleton_self _⟩

end Orrery.Dat
