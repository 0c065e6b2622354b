import Mathlib.Data.List.Infix
import Mathlib.Data.Rat.Floor
import Orrery.Dat.Chain
import Orrery.Federation.Signing

/-! The constraints of a DAT (conformance/dat, copied to community_member/_dat): what
`evaluate_constraints` accepts under the constraints of a grant, and when everything it
accepts under those of a leaf it accepts under those above. -/
namespace Orrery.Dat
open Foundation Json Federation

structure ConstraintResult where
  ok : Bool
  stage : String
  detail : String
deriving DecidableEq

def ConstraintResult.satisfied : ConstraintResult := ⟨true,"accepted","constraints satisfied"⟩

structure Evaluator extends Host where
  parseInt : String → Option Int

structure Counterparty where
  did : Json
  label : Json
  evidence : Json

def noAttribute (value : Json) (name : String) : Exc :=
  .attributeError s!"'{value.typeName}' object has no attribute '{name}'"

def getOf (value : Json) (key : String) (fallback : Json) : Except Exc Json :=
  match value with
  | .obj d => .ok ((get d key).getD fallback)
  | other => .error (noAttribute other "get")

def number (value : Json) : Option ℚ :=
  match hashKey value with
  | .ok (.num q) => some q
  | _ => none

def isNone : Json → Bool
  | .null => true
  | _ => false

def isIn (part value : Json) : Except Exc Bool :=
  match value with
  | .arr items => .ok (items.any fun item => pyEq part item)
  | .str text =>
    match part with
    | .str s => .ok (decide (s.toList <:+: text.toList))
    | other => .error (.typeError s!"'in <string>' requires string as left operand, not {other.typeName}")
  | .obj fields => do
    let key ← hashKey part
    return fields.any fun field => key == .str field.1
  | other => .error (.typeError s!"argument of type '{other.typeName}' is not iterable")

section Model
variable (host : Evaluator)

def inRefs (part : String) (refs : Json) : Except Exc Bool := do
  let refs ← iterate refs
  return refs.any fun ref => decide (part.toList <:+: (host.str ref).toList)

def counterpartyMatches (party : Counterparty) : Json → Except Exc Bool
  | .str entry =>
    if entry = "*" then .ok true
    else if "did:".toList.isPrefixOf entry.toList then .ok (pyEq (.str entry) party.did)
    else if "label:".toList.isPrefixOf entry.toList then
      .ok (pyEq (.str (String.ofList (entry.toList.drop "label:".length))) party.label)
    else if "domain:".toList.isPrefixOf entry.toList then do
      let part := String.ofList (entry.toList.drop "domain:".length)
      let refs ← getOf party.evidence "external_refs" (.arr [])
      if ← isIn (.str part) party.label then return true
      else inRefs host part refs
    else .ok (pyEq (.str entry) party.did)
  | entry => .error (noAttribute entry "startswith")

def anyMatches (party : Counterparty) : List Json → Except Exc Bool
  | [] => .ok false
  | entry :: rest => do
    if ← counterpartyMatches host party entry then return true
    else anyMatches party rest

def onAllowlist (allow : Json) (party : Counterparty) : Except Exc Bool := do
  anyMatches host party (← iterate allow)

def toInt (value : Json) : Except Exc Int :=
  match value with
  | .int i => .ok i
  | .bool b => .ok (if b then 1 else 0)
  | .float q => .ok (q.num.tdiv q.den)
  | .str s =>
    match host.parseInt s with
    | some i => .ok i
    | none => .error (.valueError s!"invalid literal for int() with base 10: {s}")
  | other => .error (.typeError s!"int() argument must be a string, a bytes-like object or a real number, not '{other.typeName}'")

def exceeds (n : Int) (cap : Json) : Except Exc Bool :=
  match cap with
  | .null => .ok false
  | cap =>
    match number cap with
    | some limit => .ok (decide ((n : ℚ) > limit))
    | none => .error (.typeError s!"'>' not supported between instances of 'int' and '{cap.typeName}'")

def field (d : Dict) (key : String) : Json := (get d key).getD .null

def checkCents (constraints : Dict) (cents : Int) (currency : Json) (spent : Int) :
    Except Exc (Option ConstraintResult) :=
  let wanted := field constraints "amount_currency"
  if !isNone wanted && !pyEq currency wanted then
    .ok (some ⟨false,"currency",s!"currency {host.str currency} != allowed {host.str wanted}"⟩)
  else do
    let perAction := field constraints "amount_cents_per_action_max"
    if ← exceeds cents perAction then
      return some ⟨false,"amount_action",s!"{cents}c exceeds per-action cap {host.str perAction}c"⟩
    else
      let perPeriod := field constraints "amount_cents_per_period_max"
      if ← exceeds (spent+cents) perPeriod then
        return some ⟨false,"amount_period",s!"period spend {spent+cents}c exceeds cap {host.str perPeriod}c"⟩
      else return none

def checkAmount (constraints : Dict) (amount : Json) (spent : Int) : Except Exc (Option ConstraintResult) :=
  match amount with
  | .null => .ok none
  | amount => do
    let cents ← toInt host (← getOf amount "cents" (.int 0))
    let currency ← getOf amount "currency" .null
    checkCents host constraints |cents| currency spent

def clipped (value : Json) : Except Exc String :=
  match value with
  | .str s => .ok (String.ofList (s.toList.take 24))
  | .arr items => .ok (host.str (.arr (items.take 24)))
  | other => .error (.typeError s!"'{other.typeName}' object is not subscriptable")

def checkCounterparty (allow : Json) (party : Counterparty) : Except Exc (Option ConstraintResult) :=
  match allow with
  | .null => .ok none
  | allow =>
    if party.did.truthy then do
      if ← onAllowlist host allow party then return none
      else
        let did ← clipped host party.did
        return some ⟨false,"counterparty",s!"counterparty {did}… not on allowlist"⟩
    else .ok none

def checkJurisdiction (juris jurisdiction : Json) : Except Exc (Option ConstraintResult) :=
  match juris with
  | .null => .ok none
  | juris => do
    match ← getOf jurisdiction "action_locus" .null with
    | .null => return none
    | locus =>
      if ← isIn locus juris then return none
      else return some ⟨false,"jurisdiction",s!"action_locus {host.str locus} not in {host.str juris}"⟩

def counterpartyOf (action receipt : Dict) : Counterparty :=
  ⟨(get action "counterparty_did").getD (.str ""),(get action "counterparty_label").getD (.str ""),
    (get receipt "evidence").getD (.obj [])⟩

def orElse (first next : Except Exc (Option ConstraintResult)) : Except Exc (Option ConstraintResult) := do
  match ← first with
  | some failure => return some failure
  | none => next

def evaluateConstraints (constraints receipt : Dict) (spent : Int) : Except Exc ConstraintResult := do
  match ← item receipt "action" with
  | .obj action =>
    let failure ← orElse (checkAmount host constraints (field action "amount") spent)
      (orElse (checkCounterparty host (field constraints "counterparty_allowlist") (counterpartyOf action receipt))
        (checkJurisdiction host (field constraints "jurisdictions") ((get receipt "jurisdiction").getD (.obj []))))
    return failure.getD .satisfied
  | other => throw (noAttribute other "get")

end Model

section Acceptance
variable {host : Evaluator} {constraints receipt : Dict} {amount allow juris jurisdiction : Json} {spent : Int}
  {party : Counterparty} {failure : ConstraintResult}

def WithinCap (cap : Json) (n : Int) : Prop := exceeds n cap = .ok false

def Admits (host : Evaluator) (constraints : Json) (receipt : Dict) (spent : Int) : Prop :=
  ∃ fields result, constraints = .obj fields ∧ evaluateConstraints host fields receipt spent = .ok result ∧
    result.ok = true

end Acceptance

def CapTightens (cap above : Json) : Prop :=
  above = .null ∨ ∃ p q, number cap = some p ∧ number above = some q ∧ ⌊p⌋ ≤ ⌊q⌋

section Caps
variable {cap above : Json} {n : Int}

theorem number_null : number .null = none := rfl

theorem withinCap_iff : WithinCap cap n ↔ cap = .null ∨ ∃ p, number cap = some p ∧ n ≤ ⌊p⌋ := by
  unfold WithinCap
  by_cases absent : cap = .null
  · rw [absent]
    exact iff_of_true rfl (Or.inl rfl)
  · unfold exceeds
    rw [or_iff_right absent]
    split
    next => exact absurd rfl absent
    next =>
      split
      next limit numeric =>
        rw [numeric]
        simp [Int.le_floor]
      next unnumeric =>
        rw [unnumeric]
        exact iff_of_false nofun (by simp)

theorem CapTightens.within (tightens : CapTightens cap above) (inside : WithinCap cap n) : WithinCap above n := by
  rw [withinCap_iff] at inside ⊢
  rcases tightens with absent | ⟨p,q,numeric,numeric',lower⟩
  · exact Or.inl absent
  · right
    rcases inside with absent | ⟨p',found,below⟩
    · rw [absent,number_null] at numeric
      cases numeric
    · rw [numeric] at found
      cases found
      exact ⟨q,numeric',below.trans lower⟩

end Caps

section Tightening
variable {host : Evaluator} {constraints above : Dict}

def nobody : Counterparty := ⟨.str "",.str "",.obj []⟩

end Tightening

def constraintsOf (dat : Dict) : Json :=
  match get dat "scope" with
  | some (.obj scope) => (get scope "constraints").getD (.obj [])
  | _ => .obj []

end Orrery.Dat
