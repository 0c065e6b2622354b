import Orrery.Foundation.Json

/-! Delegated Authority Tokens and the walk from a grant to its root, as written in
conformance/dat and copied to server/dat.py and community_member/_dat. A DAT is
the dictionary the JSON decoder returns, so a malformed one can make the walk
raise. Base58, Ed25519 and the JCS encoder are parameters. -/
namespace Orrery.Dat
open Foundation Json

abbrev Bytes := List UInt8

/-- The functions the package takes from other libraries, and the host's clock. -/
structure Host where
  b58decode : String → Except Exc Bytes
  fromPublicBytes : Bytes → Except Exc Bytes
  b64decode : Json → Except Exc Bytes
  canonicalize : Json → Except Exc Bytes
  verify : Bytes → Bytes → Bytes → Bool
  repr : Json → String
  nowIso : String

def Host.str (host : Host) : Json → String
  | .str s => s
  | other => host.repr other

abbrev Pool := List (String × Dict)

def find (pool : Pool) (id : String) : Option Dict := (pool.find? (fun entry => entry.1 == id)).map (·.2)

def maxChainDepth : Nat := 5

def didPrefix : Bytes := [0xed,0x01]

def pubkeyFromDid (host : Host) : Json → Except Exc Bytes
  | .str did => do
    let raw ← host.b58decode (String.ofList (did.toList.drop "did:key:z".length))
    if didPrefix.isPrefixOf raw then host.fromPublicBytes (raw.drop didPrefix.length)
    else .error (.valueError "not an Ed25519 did:key")
  | .arr _ => .error (.attributeError "'list' object has no attribute 'rstrip'")
  | other => .error (.typeError s!"'{other.typeName}' object is not subscriptable")

inductive Stage
  | signature | window | scope | delegation | revoked | depth | accepted
deriving DecidableEq

def Stage.text : Stage → String
  | .signature => "signature"
  | .window => "window"
  | .scope => "scope"
  | .delegation => "delegation"
  | .revoked => "revoked"
  | .depth => "depth"
  | .accepted => "accepted"

structure DatResult where
  ok : Bool
  stage : Stage
  detail : String
deriving DecidableEq

def DatResult.verifies : DatResult := ⟨true,.accepted,"DAT verifies"⟩

def checkSignature (host : Host) (dat : Dict) : Except Exc Bool := do
  let pubkey ← pubkeyFromDid host (← item dat "grantor_did")
  let body := dat.filter (fun field => field.1 != "signature")
  let signature ← host.b64decode (← item dat "signature")
  let message ← host.canonicalize (.obj body)
  return host.verify pubkey signature message

def verifyDatSignature (host : Host) (dat : Dict) : DatResult :=
  match checkSignature host dat with
  | .ok true => .verifies
  | .ok false => ⟨false,.signature,"DAT signature does not verify"⟩
  | .error e => ⟨false,.signature,"unresolvable grantor/signature: " ++ e.text⟩

def categories (dat : Dict) : Except Exc (List Key) :=
  match (get dat "scope").getD (.obj []) with
  | .obj scope => toSet ((get scope "action_categories").getD (.arr []))
  | other => .error (.attributeError s!"'{other.typeName}' object has no attribute 'get'")

def inWindow (dat : Dict) (now : String) : Except Exc Bool := do
  if ← le (← item dat "not_before") (.str now) then le (.str now) (← item dat "not_after")
  else return false

def grantorOf (dat : Dict) : Option String :=
  match get dat "grantor_did" with
  | some (.str did) => some did
  | _ => none

def continuous (childGrantor : Option String) (dat : Dict) : Except Exc Bool :=
  match childGrantor with
  | none => .ok true
  | some grantor => do
    let grantee ← item dat "grantee_did"
    return eqStr (some grantee) grantor

def covers (dat : Dict) (category : String) : Except Exc Bool := do
  let named ← categories dat
  return decide (Key.str category ∈ named ∨ Key.str "*" ∈ named)

def leafCovers (category : Option String) (depth : Nat) (dat : Dict) : Except Exc Bool :=
  match category, depth with
  | some c, 0 => covers dat c
  | _, _ => .ok true

def attenuates (child parent : Dict) : Except Exc Bool := do
  let given ← categories parent
  if Key.str "*" ∈ given then return true
  else do
    let named ← categories child
    return decide (∀ key ∈ named, key ∈ given)

def findKey (pool : Pool) : Json → Except Exc (Option (String × Dict))
  | .str id => .ok ((find pool id).map fun dat => (id,dat))
  | .arr _ => .error (.typeError "unhashable type: 'list'")
  | .obj _ => .error (.typeError "unhashable type: 'dict'")
  | _ => .ok none

/-- What one turn of the loop leaves behind: a verdict, or the parent to go to. -/
inductive Turn
  | stop (result : DatResult)
  | root
  | up (parentId : String) (grantor : Option String)

def toParent (host : Host) (pool : Pool) (dat : Dict) : Except Exc Turn :=
  match get dat "granted_by" with
  | none | some .null => .ok .root
  | some parentId => do
    match ← findKey pool parentId with
    | none => return .stop ⟨false,.delegation,s!"parent {host.str parentId} not found"⟩
    | some (id,parent) =>
      if ← attenuates dat parent then return .up id (grantorOf dat)
      else return .stop ⟨false,.scope,"sub-delegation widens scope beyond parent"⟩

def turn (host : Host) (pool : Pool) (now : String) (category : Option String) (revocations : List String)
    (depth : Nat) (currentId : String) (childGrantor : Option String) (seen : List String) : Except Exc Turn :=
  if currentId ∈ seen then .ok (.stop ⟨false,.delegation,"cycle in DAT chain"⟩)
  else match find pool currentId with
  | none => .ok (.stop ⟨false,.delegation,s!"DAT {currentId} not found"⟩)
  | some dat =>
    if currentId ∈ revocations then .ok (.stop ⟨false,.revoked,s!"DAT {currentId} is revoked"⟩)
    else if (verifyDatSignature host dat).ok = false then .ok (.stop (verifyDatSignature host dat))
    else do
      if !(← inWindow dat now) then return .stop ⟨false,.window,s!"{currentId} outside validity window"⟩
      else if !(← continuous childGrantor dat) then
        return .stop ⟨false,.delegation,"grantor is not the parent's grantee"⟩
      else if !(← leafCovers category depth dat) then
        return .stop ⟨false,.scope,s!"category {host.repr (.str (category.getD default))} outside grant scope"⟩
      else toParent host pool dat

def chainLoop (host : Host) (pool : Pool) (now : String) (category : Option String) (revocations : List String) :
    Nat → Nat → String → Option String → List String → Except Exc DatResult
  | 0, _, _, _, _ => .ok ⟨false,.depth,s!"chain exceeds depth {maxChainDepth}"⟩
  | left+1, depth, currentId, childGrantor, seen => do
    match ← turn host pool now category revocations depth currentId childGrantor seen with
    | .stop result => return result
    | .root => return .verifies
    | .up parentId grantor =>
      chainLoop host pool now category revocations left (depth+1) parentId grantor (currentId :: seen)

def verifyDatChain (host : Host) (grantId : String) (pool : Pool) (now : String) (category : Option String)
    (revocations : List String) : Except Exc DatResult :=
  chainLoop host pool now category revocations maxChainDepth 0 grantId none []

def Accepts (host : Host) (grantId : String) (pool : Pool) (now : String) (category : Option String)
    (revocations : List String) : Prop :=
  ∃ result, verifyDatChain host grantId pool now category revocations = .ok result ∧ result.ok = true

def Signed (host : Host) (dat : Dict) : Prop := (verifyDatSignature host dat).ok = true

def Within (dat : Dict) (now : String) : Prop :=
  ∃ notBefore notAfter, get dat "not_before" = some (.str notBefore) ∧
    get dat "not_after" = some (.str notAfter) ∧ notBefore ≤ now ∧ now ≤ notAfter

def Covers (dat : Dict) (category : String) : Prop :=
  ∃ named, categories dat = .ok named ∧ (Key.str category ∈ named ∨ Key.str "*" ∈ named)

def Attenuates (child parent : Dict) : Prop :=
  ∃ given, categories parent = .ok given ∧
    (Key.str "*" ∈ given ∨ ∃ named, categories child = .ok named ∧ ∀ key ∈ named, key ∈ given)

def GrantedTo (child parent : Dict) : Prop :=
  ∃ did, get child "grantor_did" = some (.str did) ∧ get parent "grantee_did" = some (.str did)

def IsRoot (dat : Dict) : Prop := get dat "granted_by" = none ∨ get dat "granted_by" = some .null

inductive GrantedBy (pool : Pool) : String → List (String × Dict) → Prop
  | root {id dat} (found : find pool id = some dat) (last : IsRoot dat) : GrantedBy pool id [(id,dat)]
  | step {id dat parentId rest} (found : find pool id = some dat)
      (named : get dat "granted_by" = some (.str parentId)) (above : GrantedBy pool parentId rest) :
      GrantedBy pool id ((id,dat) :: rest)

private theorem item_ok (dat : Dict) (key : String) (value : Json) :
    item dat key = .ok value ↔ get dat key = some value := by
  unfold item
  cases get dat key <;> simp

theorem inWindow_true (dat : Dict) (now : String) : inWindow dat now = .ok true ↔ Within dat now := by
  constructor
  · intro ok
    obtain ⟨first,hf,rest⟩ := bind_success _ _ _ ok
    obtain ⟨before,hb,rest⟩ := bind_success _ _ _ rest
    cases before with
    | false => cases rest
    | true =>
      obtain ⟨last,hl,after⟩ := bind_success _ _ _ rest
      obtain ⟨notBefore,_,rfl,equal,early⟩ := (le_true _ _).mp hb
      obtain ⟨_,notAfter,same,rfl,late⟩ := (le_true _ _).mp after
      cases equal
      cases same
      exact ⟨notBefore,notAfter,(item_ok _ _ _).mp hf,(item_ok _ _ _).mp hl,early,late⟩
  · intro premise
    obtain ⟨notBefore,notAfter,first,last,early,late⟩ := premise
    simp [inWindow,(item_ok _ _ _).mpr first,(item_ok _ _ _).mpr last,le,early,late,bind,Except.bind]

theorem covers_true (dat : Dict) (category : String) : covers dat category = .ok true ↔ Covers dat category := by
  unfold covers Covers
  cases categories dat <;> simp [bind,Except.bind,pure,Except.pure]

theorem attenuates_true (child parent : Dict) : attenuates child parent = .ok true ↔ Attenuates child parent := by
  unfold attenuates Attenuates
  cases categories parent with
  | error e => simp [bind,Except.bind]
  | ok given =>
    by_cases star : Key.str "*" ∈ given
    · simp [bind,Except.bind,pure,Except.pure,star]
    · cases categories child <;> simp [bind,Except.bind,pure,Except.pure,star]

theorem continuous_true (grantor : String) (dat : Dict) :
    continuous (some grantor) dat = .ok true ↔ get dat "grantee_did" = some (.str grantor) := by
  unfold continuous item
  cases get dat "grantee_did" with
  | none => simp [bind,Except.bind]
  | some grantee => simp [bind,Except.bind,pure,Except.pure,eqStr_iff]

theorem signed_grantor (host : Host) (dat : Dict) (signed : Signed host dat) :
    ∃ did, get dat "grantor_did" = some (.str did) ∧ grantorOf dat = some did := by
  have checked : checkSignature host dat = .ok true := by
    unfold Signed verifyDatSignature at signed
    split at signed
    next ok => exact ok
    next => cases signed
    next => cases signed
  obtain ⟨named,present,rest⟩ := bind_success _ _ _ checked
  obtain ⟨pubkey,decoded,_⟩ := bind_success _ _ _ rest
  cases named with
  | str did =>
    have found := (item_ok _ _ _).mp present
    exact ⟨did,found,by simp [grantorOf,found]⟩
  | _ => cases decoded

structure HopOk (host : Host) (pool : Pool) (now : String) (category : Option String) (revocations : List String)
    (depth : Nat) (id : String) (childGrantor : Option String) (seen : List String) (dat : Dict) : Prop where
  fresh : id ∉ seen
  found : find pool id = some dat
  live : id ∉ revocations
  signed : Signed host dat
  within : Within dat now
  continuous : continuous childGrantor dat = .ok true
  covered : leafCovers category depth dat = .ok true

section Turns
variable (host : Host) (pool : Pool) (now : String) (category : Option String) (revocations : List String)

theorem turn_passes (depth : Nat) (id : String) (childGrantor : Option String) (seen : List String) (next : Turn)
    (goes : ∀ result, next ≠ .stop result) :
    turn host pool now category revocations depth id childGrantor seen = .ok next ↔
      ∃ dat, HopOk host pool now category revocations depth id childGrantor seen dat ∧
        toParent host pool dat = .ok next := by
  constructor
  · intro ok
    unfold turn at ok
    split at ok
    next repeated => cases ok; exact absurd rfl (goes _)
    next fresh =>
      split at ok
      next missing => cases ok; exact absurd rfl (goes _)
      next dat found =>
        split at ok
        next revoked => cases ok; exact absurd rfl (goes _)
        next live =>
          split at ok
          next unsigned => cases ok; exact absurd rfl (goes _)
          next signed =>
            obtain ⟨within,hw,ok⟩ := bind_success _ _ _ ok
            cases within with
            | false => cases ok; exact absurd rfl (goes _)
            | true =>
              obtain ⟨linked,hl,ok⟩ := bind_success _ _ _ ok
              cases linked with
              | false => cases ok; exact absurd rfl (goes _)
              | true =>
                obtain ⟨covered,hc,ok⟩ := bind_success _ _ _ ok
                cases covered with
                | false => cases ok; exact absurd rfl (goes _)
                | true =>
                  exact ⟨dat,⟨fresh,found,live,by simpa [Signed] using signed,(inWindow_true _ _).mp hw,hl,hc⟩,ok⟩
  · intro premise
    obtain ⟨dat,hop,up⟩ := premise
    have signed : (verifyDatSignature host dat).ok = true := hop.signed
    simp [turn,hop.fresh,hop.found,hop.live,signed,(inWindow_true _ _).mpr hop.within,hop.continuous,hop.covered,
      bind,Except.bind,up]

theorem toParent_root (dat : Dict) : toParent host pool dat = .ok .root ↔ IsRoot dat := by
  unfold toParent IsRoot
  cases get dat "granted_by" with
  | none => simp
  | some parentId =>
    cases parentId with
    | null => simp
    | _ =>
      simp only [reduceCtorEq,Option.some.injEq,or_self,iff_false]
      intro ok
      obtain ⟨entry,_,ok⟩ := bind_success _ _ _ ok
      cases entry with
      | none => cases ok
      | some entry =>
        obtain ⟨narrower,_,ok⟩ := bind_success _ _ _ ok
        cases narrower <;> cases ok

theorem toParent_up (dat : Dict) (parentId : String) (grantor : Option String) :
    toParent host pool dat = .ok (.up parentId grantor) ↔
      ∃ parent, get dat "granted_by" = some (.str parentId) ∧ find pool parentId = some parent ∧
        Attenuates dat parent ∧ grantor = grantorOf dat := by
  constructor
  · intro ok
    unfold toParent at ok
    split at ok
    next => cases ok
    next => cases ok
    next named _ present =>
      obtain ⟨entry,located,ok⟩ := bind_success _ _ _ ok
      cases entry with
      | none => cases ok
      | some entry =>
        obtain ⟨id,parent⟩ := entry
        obtain ⟨narrower,checked,ok⟩ := bind_success _ _ _ ok
        cases narrower with
        | false => cases ok
        | true =>
          cases ok
          cases named with
          | str text =>
            simp only [findKey,Except.ok.injEq,Option.map_eq_some_iff,Prod.mk.injEq] at located
            obtain ⟨_,found,rfl,rfl⟩ := located
            exact ⟨_,present,found,(attenuates_true _ _).mp checked,rfl⟩
          | _ => cases located
  · intro premise
    obtain ⟨parent,named,found,narrower,rfl⟩ := premise
    simp [toParent,named,findKey,found,bind,Except.bind,pure,Except.pure,(attenuates_true _ _).mpr narrower]

theorem toParent_stop (dat : Dict) (result : DatResult) (ok : toParent host pool dat = .ok (.stop result)) :
    result.ok = false := by
  unfold toParent at ok
  split at ok
  next => cases ok
  next => cases ok
  next =>
    obtain ⟨entry,_,rest⟩ := bind_success _ _ _ ok
    cases entry with
    | none => cases rest; rfl
    | some entry =>
      obtain ⟨narrower,_,rest⟩ := bind_success _ _ _ rest
      cases narrower <;> cases rest
      rfl

theorem turn_stop (depth : Nat) (id : String) (childGrantor : Option String) (seen : List String)
    (result : DatResult)
    (ok : turn host pool now category revocations depth id childGrantor seen = .ok (.stop result)) :
    result.ok = false := by
  unfold turn at ok
  split at ok
  next => cases ok; rfl
  next =>
    split at ok
    next => cases ok; rfl
    next dat _ =>
      split at ok
      next => cases ok; rfl
      next =>
        split at ok
        next unsigned => cases ok; exact unsigned
        next =>
          obtain ⟨within,_,rest⟩ := bind_success _ _ _ ok
          cases within with
          | false => cases rest; rfl
          | true =>
            obtain ⟨linked,_,rest⟩ := bind_success _ _ _ rest
            cases linked with
            | false => cases rest; rfl
            | true =>
              obtain ⟨covered,_,rest⟩ := bind_success _ _ _ rest
              cases covered with
              | false => cases rest; rfl
              | true => exact toParent_stop host pool dat result rest

inductive Ascent : Nat → String → Option String → List String → List (String × Dict) → Prop
  | root {depth id childGrantor seen dat}
      (hop : HopOk host pool now category revocations depth id childGrantor seen dat) (last : IsRoot dat) :
      Ascent depth id childGrantor seen [(id,dat)]
  | up {depth id childGrantor seen dat parentId parent rest}
      (hop : HopOk host pool now category revocations depth id childGrantor seen dat)
      (named : get dat "granted_by" = some (.str parentId)) (found : find pool parentId = some parent)
      (narrower : Attenuates dat parent)
      (above : Ascent (depth+1) parentId (grantorOf dat) (id :: seen) rest) :
      Ascent depth id childGrantor seen ((id,dat) :: rest)

theorem chainLoop_ascent (left : Nat) : ∀ depth id childGrantor seen,
    (∃ result, chainLoop host pool now category revocations left depth id childGrantor seen = .ok result ∧
      result.ok = true) ↔
    ∃ chain, chain.length ≤ left ∧ Ascent host pool now category revocations depth id childGrantor seen chain := by
  induction left with
  | zero =>
    intro depth id childGrantor seen
    constructor
    · intro premise
      obtain ⟨result,ok,accepted⟩ := premise
      cases ok
      cases accepted
    · intro premise
      obtain ⟨chain,short,walk⟩ := premise
      cases walk <;> simp at short
  | succ left ih =>
    intro depth id childGrantor seen
    constructor
    · intro premise
      obtain ⟨result,ok,accepted⟩ := premise
      obtain ⟨next,turned,ok⟩ := bind_success _ _ _ ok
      cases next with
      | stop verdict =>
        cases ok
        exact absurd accepted (by simp [turn_stop _ _ _ _ _ _ _ _ _ _ turned])
      | root =>
        obtain ⟨dat,hop,up⟩ := (turn_passes _ _ _ _ _ _ _ _ _ _ (by simp)).mp turned
        exact ⟨[(id,dat)],by simp,.root hop ((toParent_root _ _ _).mp up)⟩
      | up parentId grantor =>
        obtain ⟨dat,hop,up⟩ := (turn_passes _ _ _ _ _ _ _ _ _ _ (by simp)).mp turned
        obtain ⟨parent,named,found,narrower,rfl⟩ := (toParent_up _ _ _ _ _).mp up
        obtain ⟨rest,short,above⟩ := (ih _ _ _ _).mp ⟨result,ok,accepted⟩
        exact ⟨(id,dat) :: rest,by simpa using short,.up hop named found narrower above⟩
    · intro premise
      obtain ⟨chain,short,walk⟩ := premise
      cases walk with
      | root hop last =>
        have turned := (turn_passes _ _ _ _ _ _ _ _ _ .root (by simp)).mpr ⟨_,hop,(toParent_root _ _ _).mpr last⟩
        exact ⟨.verifies,by simp [chainLoop,turned,bind,Except.bind,pure,Except.pure],rfl⟩
      | up hop named found narrower above =>
        have turned := (turn_passes _ _ _ _ _ _ _ _ _ (.up _ _) (by simp)).mpr
          ⟨_,hop,(toParent_up _ _ _ _ _).mpr ⟨_,named,found,narrower,rfl⟩⟩
        obtain ⟨result,ok,accepted⟩ := (ih _ _ _ _).mpr ⟨_,by simpa using short,above⟩
        exact ⟨result,by simp [chainLoop,turned,bind,Except.bind,ok],accepted⟩

/-- What acceptance says of a chain read off the pool, without the loop's bookkeeping. -/
structure ValidChain (grantId : String) (chain : List (String × Dict)) : Prop where
  path : GrantedBy pool grantId chain
  short : chain.length ≤ maxChainDepth
  distinct : (chain.map Prod.fst).Nodup
  live : ∀ hop ∈ chain, hop.1 ∉ revocations
  signed : ∀ hop ∈ chain, Signed host hop.2
  within : ∀ hop ∈ chain, Within hop.2 now
  linked : chain.IsChain fun child parent => GrantedTo child.2 parent.2
  narrowing : chain.IsChain fun child parent => Attenuates child.2 parent.2

theorem GrantedBy.head {pool : Pool} {id : String} {chain : List (String × Dict)} (path : GrantedBy pool id chain) :
    ∃ dat rest, chain = (id,dat) :: rest ∧ find pool id = some dat := by
  cases path with
  | root found _ => exact ⟨_,_,rfl,found⟩
  | step found _ _ => exact ⟨_,_,rfl,found⟩

theorem GrantedBy.unique {pool : Pool} {id : String} {first second : List (String × Dict)}
    (one : GrantedBy pool id first) (two : GrantedBy pool id second) : first = second := by
  induction one generalizing second with
  | root found last =>
    cases two with
    | root same _ => rw [found] at same; cases same; rfl
    | step same named _ =>
      rw [found] at same
      cases same
      rcases last with last | last <;> rw [last] at named <;> cases named
  | step found named above ih =>
    cases two with
    | root same last =>
      rw [found] at same
      cases same
      rcases last with last | last <;> rw [last] at named <;> cases named
    | step same other above' =>
      rw [found] at same
      cases same
      rw [named] at other
      cases other
      rw [ih above']

theorem Ascent.spec {depth : Nat} {id : String} {childGrantor : Option String} {seen : List String}
    {chain : List (String × Dict)}
    (walk : Ascent host pool now category revocations depth id childGrantor seen chain) :
    GrantedBy pool id chain ∧ (chain.map Prod.fst).Nodup ∧ (∀ hop ∈ chain, hop.1 ∉ seen) ∧
      (∀ hop ∈ chain, hop.1 ∉ revocations) ∧ (∀ hop ∈ chain, Signed host hop.2) ∧
      (∀ hop ∈ chain, Within hop.2 now) ∧ (chain.IsChain fun child parent => GrantedTo child.2 parent.2) ∧
      (chain.IsChain fun child parent => Attenuates child.2 parent.2) ∧
      (∀ hop ∈ chain.head?, continuous childGrantor hop.2 = .ok true ∧
        leafCovers category depth hop.2 = .ok true) := by
  induction walk with
  | root hop last =>
    exact ⟨.root hop.found last,by simp,by simpa using hop.fresh,by simpa using hop.live,by simpa using hop.signed,
      by simpa using hop.within,by simp,by simp,by simpa using ⟨hop.continuous,hop.covered⟩⟩
  | @up depth id childGrantor seen dat parentId parent rest hop named found narrower above ih =>
    obtain ⟨path,distinct,fresh,live,signed,within,linked,narrowing,first⟩ := ih
    obtain ⟨parent',tail,rfl,located⟩ := path.head
    rw [found] at located
    cases located
    obtain ⟨did,grantor,extracted⟩ := signed_grantor host dat hop.signed
    have grantee : get parent "grantee_did" = some (.str did) := by
      have met := (first _ rfl).1
      rw [extracted] at met
      exact (continuous_true _ _).mp met
    refine ⟨.step hop.found named path,?_,?_,?_,?_,?_,?_,?_,?_⟩
    · refine List.nodup_cons.mpr ⟨?_,distinct⟩
      intro member
      obtain ⟨other,inside,equal⟩ := List.mem_map.mp member
      exact fresh other inside (by simp [equal])
    · intro other inside
      rcases List.mem_cons.mp inside with rfl | inside
      · exact hop.fresh
      · exact fun again => fresh other inside (by simp [again])
    · simpa using ⟨hop.live,by simpa using live⟩
    · simpa using ⟨hop.signed,by simpa using signed⟩
    · simpa using ⟨hop.within,by simpa using within⟩
    · exact List.isChain_cons_cons.mpr ⟨⟨did,grantor,grantee⟩,linked⟩
    · exact List.isChain_cons_cons.mpr ⟨narrower,narrowing⟩
    · simpa using ⟨hop.continuous,hop.covered⟩

theorem ascent_of_path {id : String} {chain : List (String × Dict)} (path : GrantedBy pool id chain) :
    ∀ depth childGrantor seen, (chain.map Prod.fst).Nodup → (∀ hop ∈ chain, hop.1 ∉ seen) →
      (∀ hop ∈ chain, hop.1 ∉ revocations) → (∀ hop ∈ chain, Signed host hop.2) →
      (∀ hop ∈ chain, Within hop.2 now) → (chain.IsChain fun child parent => GrantedTo child.2 parent.2) →
      (chain.IsChain fun child parent => Attenuates child.2 parent.2) →
      (∀ hop ∈ chain.head?, continuous childGrantor hop.2 = .ok true ∧
        leafCovers category depth hop.2 = .ok true) →
      Ascent host pool now category revocations depth id childGrantor seen chain := by
  induction path with
  | @root id dat found last =>
    intro depth childGrantor seen _ fresh live signed within _ _ first
    have here : (id,dat) ∈ [(id,dat)] := by simp
    exact .root ⟨fresh _ here,found,live _ here,signed _ here,within _ here,(first _ rfl).1,(first _ rfl).2⟩ last
  | @step id dat parentId rest found named above ih =>
    intro depth childGrantor seen distinct fresh live signed within linked narrowing first
    obtain ⟨parent,tail,rfl,located⟩ := above.head
    obtain ⟨granted,linked⟩ := List.isChain_cons_cons.mp linked
    obtain ⟨narrower,narrowing⟩ := List.isChain_cons_cons.mp narrowing
    have distinct := List.nodup_cons.mp distinct
    have here : (id,dat) ∈ (id,dat) :: (parentId,parent) :: tail := by simp
    refine .up ⟨fresh _ here,found,live _ here,signed _ here,within _ here,(first _ rfl).1,(first _ rfl).2⟩
      named located narrower ?_
    refine ih (depth+1) (grantorOf dat) (id :: seen) distinct.2 ?_ (fun hop inside => live hop (by simp [inside]))
      (fun hop inside => signed hop (by simp [inside])) (fun hop inside => within hop (by simp [inside]))
      linked narrowing ?_
    · intro hop inside again
      rcases List.mem_cons.mp again with same | again
      · exact distinct.1 (List.mem_map.mpr ⟨hop,inside,same⟩)
      · exact fresh hop (by simp [inside]) again
    · intro hop present
      cases present
      obtain ⟨did,grantor,grantee⟩ := granted
      have extracted : grantorOf dat = some did := by simp [grantorOf,grantor]
      rw [extracted]
      exact ⟨(continuous_true _ _).mpr grantee,by cases category <;> rfl⟩

theorem accepts_iff (grantId : String) :
    Accepts host grantId pool now category revocations ↔
      ∃ chain, ValidChain host pool now revocations grantId chain ∧
        ∀ c, category = some c → ∀ leaf ∈ chain.head?, Covers leaf.2 c := by
  refine (chainLoop_ascent host pool now category revocations maxChainDepth 0 grantId none []).trans ?_
  constructor
  · intro premise
    obtain ⟨chain,short,walk⟩ := premise
    obtain ⟨path,distinct,_,live,signed,within,linked,narrowing,first⟩ := walk.spec
    refine ⟨chain,⟨path,short,distinct,live,signed,within,linked,narrowing⟩,?_⟩
    intro c same leaf present
    subst same
    exact (covers_true _ _).mp (first leaf present).2
  · intro premise
    obtain ⟨chain,valid,covered⟩ := premise
    refine ⟨chain,valid.short,ascent_of_path host pool now category revocations valid.path 0 none [] valid.distinct
      (by simp) valid.live valid.signed valid.within valid.linked valid.narrowing ?_⟩
    intro leaf present
    refine ⟨rfl,?_⟩
    cases category with
    | none => rfl
    | some c => exact (covers_true _ _).mpr (covered c rfl leaf present)

end Turns

theorem Attenuates.covers {child parent : Dict} {category : String} (narrower : Attenuates child parent)
    (covered : Covers child category) : Covers parent category := by
  obtain ⟨given,read,star | ⟨named,below,inside⟩⟩ := narrower
  · exact ⟨given,read,Or.inr star⟩
  · obtain ⟨named',same,member⟩ := covered
    rw [below] at same
    cases same
    exact ⟨given,read,member.imp (inside _) (inside _)⟩

theorem chain_covers {category : String} {chain : List (String × Dict)}
    (narrowing : chain.IsChain fun child parent => Attenuates child.2 parent.2)
    (covered : ∀ leaf ∈ chain.head?, Covers leaf.2 category) : ∀ hop ∈ chain, Covers hop.2 category := by
  induction chain with
  | nil => simp
  | cons leaf rest ih =>
    have first := covered leaf rfl
    intro hop inside
    rcases List.mem_cons.mp inside with rfl | inside
    · exact first
    · cases rest with
      | nil => simp at inside
      | cons parent above =>
        obtain ⟨narrower,narrowing⟩ := List.isChain_cons_cons.mp narrowing
        refine ih narrowing ?_ hop inside
        intro next present
        cases present
        exact narrower.covers first

/-- Acceptance is exactly the existence of a valid chain from the grant to a root
whose leaf covers the category, and then the whole chain covers it. -/
theorem verifyDatChain_exact (host : Host) (pool : Pool) (now : String) (revocations : List String)
    (category grantId : String) :
    (Accepts host grantId pool now (some category) revocations ↔
      ∃ chain, ValidChain host pool now revocations grantId chain ∧
        ∀ leaf ∈ chain.head?, Covers leaf.2 category) ∧
    (Accepts host grantId pool now (some category) revocations →
      ∀ chain, GrantedBy pool grantId chain → ∀ hop ∈ chain, Covers hop.2 category) := by
  have exact := accepts_iff host pool now (some category) revocations grantId
  refine ⟨exact.trans (by simp),?_⟩
  intro accepted chain path
  obtain ⟨valid,checked,covered⟩ := exact.mp accepted
  rw [path.unique checked.path]
  exact chain_covers checked.narrowing (covered category rfl)

def sampleHost : Host where
  b58decode text := .ok (0xed :: 0x01 :: text.toList.map fun c => UInt8.ofNat c.toNat)
  fromPublicBytes raw := .ok raw
  b64decode
    | .str text => .ok (text.toList.map fun c => UInt8.ofNat c.toNat)
    | _ => .error (.typeError "argument should be a bytes-like object or ASCII string")
  canonicalize _ := .ok []
  verify key signature _ := decide (signature = key)
  repr _ := "?"
  nowIso := "2026"

def sampleDat (signer grantId grantor grantee : String) (named : List String) (grantedBy : Option String) : Dict :=
  [("grant_id",.str grantId),("grantor_did",.str grantor),("grantee_did",.str grantee),
    ("not_before",.str "2026"),("not_after",.str "2027"),
    ("scope",.obj [("action_categories",.arr (named.map .str))])] ++
  (grantedBy.toList.map fun parent => ("granted_by",.str parent)) ++ [("signature",.str signer)]

def samplePool : Pool :=
  [("root",sampleDat "o" "root" "did:key:zo" "did:key:zc" ["*"] none),
    ("leaf",sampleDat "c" "leaf" "did:key:zc" "did:key:za" ["a2a.tasks/send#save_note"] (some "root"))]

theorem sample_accepted :
    Accepts sampleHost "leaf" samplePool "2026-06" (some "a2a.tasks/send#save_note") [] :=
  ⟨.verifies,by decide +kernel,rfl⟩

theorem verifyDatChain_exact_sample :
    ∀ chain, GrantedBy samplePool "leaf" chain → ∀ hop ∈ chain, Covers hop.2 "a2a.tasks/send#save_note" :=
  (verifyDatChain_exact sampleHost samplePool "2026-06" [] "a2a.tasks/send#save_note" "leaf").2
    sample_accepted

end Orrery.Dat
