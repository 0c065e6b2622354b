import Orrery.Foundation.PaddedTree
import Orrery.Vrp.Documents

/-! The Receipts Ledger (conformance/vrp): receipts with their behavioral root and scores,
as `build_ledger` assembles it and `verify_ledger` recomputes it. The root is that of
the padded tree over the receipts' encodings in the order of their times and ids. -/
namespace Orrery.Vrp
open Foundation Json

section Order

def numeric : Json → Option ℚ
  | .bool b => some (if b then 1 else 0)
  | value => value.numeral

mutual
def lt : Json → Json → Except Exc Bool
  | .str a, .str b => .ok (decide (a < b))
  | .arr a, .arr b => ltItems a b
  | a, b =>
    match numeric a, numeric b with
    | some p, some q => .ok (decide (p < q))
    | _, _ => .error (.typeError s!"'<' not supported between instances of '{a.typeName}' and '{b.typeName}'")
def ltItems : List Json → List Json → Except Exc Bool
  | [], [] => .ok false
  | [], _ :: _ => .ok true
  | _ :: _, [] => .ok false
  | a :: rest, b :: more => if pyEq a b then ltItems rest more else lt a b
end

def sortKey (receipt : Dict) : List Json :=
  [(get receipt "issued_at").getD (.str ""),(get receipt "receipt_id").getD (.str "")]

end Order

section Root

def orderedReceipts (receipts : List Dict) : Except Exc (List Dict) := sortBy ltItems sortKey receipts

def leafEncodings (host : Host) (receipts : List Dict) : Except Exc (List Bytes) := do
  (← orderedReceipts receipts).mapM fun receipt => host.canonicalize (.obj receipt)

def orderedLeafHashes (host : Host) (receipts : List Dict) : Except Exc (List Bytes) := do
  return (← leafEncodings host receipts).map host.sha256

def joinPairs (host : Host) : List Bytes → List Bytes
  | left :: right :: rest => host.sha256 (left ++ right) :: joinPairs host rest
  | _ => []

def nextLevel (host : Host) (level : List Bytes) : List Bytes :=
  if level.length % 2 = 1 then joinPairs host (level ++ level.getLast?.toList) else joinPairs host level

theorem nextLevel_eq (host : Host) (level : List Bytes) :
    nextLevel host level = PaddedTree.pairs (fun left right => host.sha256 (left ++ right)) level := by
  fun_induction PaddedTree.pairs (fun left right => host.sha256 (left ++ right)) level with
  | case1 => rfl
  | case2 x => simp [nextLevel,joinPairs]
  | case3 x y rest ih =>
    rw [← ih]
    have parity : (x :: y :: rest).length % 2 = rest.length % 2 := by
      simp only [List.length_cons]
      omega
    unfold nextLevel
    rw [parity]
    split
    next odd =>
      cases rest with
      | nil => simp at odd
      | cons z rest => rw [List.getLast?_cons_cons,List.getLast?_cons_cons,List.cons_append,List.cons_append,joinPairs]
    next => rfl

def climb (host : Host) (level : List Bytes) : List Bytes :=
  if 1 < level.length then climb host (nextLevel host level) else level
termination_by level.length
decreasing_by
  rw [nextLevel_eq,PaddedTree.pairs_length]
  omega

def behavioralMerkleRoot (host : Host) (receipts : List Dict) : Except Exc (Option String) := do
  return (climb host (← orderedLeafHashes host receipts)).head?.map fun top => "sha256:" ++ Hex.hex top

theorem climb_head (host : Host) (level : List Bytes) :
    (climb host level).head? = PaddedTree.root (fun left right => host.sha256 (left ++ right)) level := by
  fun_induction climb host level with
  | case1 level big ih => rw [ih,PaddedTree.root_next _ level big,nextLevel_eq]
  | case2 level small =>
    cases level with
    | nil => simp
    | cons top rest =>
      have alone : rest = [] := by simpa using small
      rw [alone]
      simp

end Root

section Ledger

def scoringMethod : String := "nanda-rep/0.1"

def scoringMethodV2 : String := "nanda-rep/0.2"

def score (host : Host) (isValid : Dict → Bool) (weights : Weights) (v2 : Bool) (receipts : List Dict) : Except Exc ℚ :=
  if v2 then reputationScoreV2 host isValid weights receipts else reputationScore isValid weights receipts

def rootJson : Option String → Json
  | some root => .str root
  | none => .null

def buildLedger (host : Host) (isValid : Dict → Bool) (weights : Weights) (subject asOf method : String)
    (receipts : List Dict) : Except Exc Dict := do
  let root ← behavioralMerkleRoot host receipts
  let rep ← score host isValid weights (method == scoringMethodV2) receipts
  let ledger := [("subject",.str subject),("scoring_method",.str method),("behavioral_merkle_root",rootJson root),
    ("reputation_score",.float rep),("validity_rate",.float (validityRate isValid receipts)),
    ("receipt_count",.int receipts.length),("as_of",.str asOf),("receipts",.arr (receipts.map .obj))]
  if method == scoringMethodV2 then
    return ledger ++ [("corroboration_rate",.float (← corroborationRate host isValid receipts))]
  else return ledger

inductive Stage
  | notRecomputable | countMismatch | rootMismatch | scoreMismatch | accepted
deriving DecidableEq

structure LedgerVerification where
  ok : Bool
  stage : Stage
  detail : String
deriving DecidableEq

def LedgerVerification.accepted : LedgerVerification := ⟨true,.accepted,"ledger recomputes to its published values"⟩

def lacksAction : Json → Except Exc Bool
  | .obj d => .ok (get d "action").isNone
  | .arr items => .ok !(items.any fun item => pyEq item (.str "action"))
  | .str s => .ok !(s.toList.tails.any fun rest => "action".toList.isPrefixOf rest)
  | other => .error (.typeError s!"argument of type '{other.typeName}' is not iterable")

def asReceipt : Json → Except Exc Dict
  | .obj receipt => .ok receipt
  | other => .error (Merkle.noAttribute other "get")

def toFloat (host : Host) : Json → Except Exc Number
  | .bool b => .ok (.finite (if b then 1 else 0))
  | .int i =>
    if 2^1024-2^970 ≤ i.natAbs then .error (.other "OverflowError" "int too large to convert to float")
    else .ok (.finite i)
  | .float q => .ok (.finite q)
  | .str s => host.parseNumber s
  | other => .error (.typeError s!"float() argument must be a string or a real number, not '{other.typeName}'")

def strays (tolerance recomputed : ℚ) : Number → Bool
  | .finite published => tolerance < |recomputed-published|
  | .infinite => true
  | .nan => false

def checkPublished (host : Host) (tolerance recomputed : ℚ) (ledger : Dict) (key : String) : Except Exc Bool := do
  return strays tolerance recomputed (← toFloat host ((get ledger key).getD (.int 0)))

def usesV2 (ledger : Dict) : Bool :=
  pyEq ((get ledger "scoring_method").getD (.str scoringMethod)) (.str scoringMethodV2)

def scoreMismatch (name : String) : LedgerVerification := ⟨false,.scoreMismatch,s!"recomputed {name} differs"⟩

variable (host : Host) (isValid : Dict → Bool) (weights : Weights) (tolerance : ℚ)

def verifyScores (ledger : Dict) (receipts : List Dict) : Except Exc LedgerVerification := do
  let recomputedScore ← score host isValid weights (usesV2 ledger) receipts
  if ← checkPublished host tolerance recomputedScore ledger "reputation_score" then return scoreMismatch "reputation_score"
  else if ← checkPublished host tolerance (validityRate isValid receipts) ledger "validity_rate" then
    return scoreMismatch "validity_rate"
  else if usesV2 ledger then
    let recomputedCorr ← corroborationRate host isValid receipts
    if ← checkPublished host tolerance recomputedCorr ledger "corroboration_rate" then
      return scoreMismatch "corroboration_rate"
    else return .accepted
  else return .accepted

def verifyInline (ledger : Dict) (items : List Json) : Except Exc LedgerVerification := do
  let declared := (get ledger "receipt_count").getD .null
  if !pyEq declared (.int items.length) then
    return ⟨false,.countMismatch,s!"count {host.str declared} != {items.length}"⟩
  else
    let receipts ← items.mapM asReceipt
    let recomputedRoot ← behavioralMerkleRoot host receipts
    if !pyEq (rootJson recomputedRoot) ((get ledger "behavioral_merkle_root").getD .null) then
      return ⟨false,.rootMismatch,"recomputed root differs from published"⟩
    else verifyScores host isValid weights tolerance ledger receipts

def verifyLedger (ledger : Dict) : Except Exc LedgerVerification := do
  match get ledger "receipts" with
  | some (.arr items) =>
    if ← items.anyM lacksAction then return ⟨false,.notRecomputable,"ledger receipts are not inline"⟩
    else verifyInline host isValid weights tolerance ledger items
  | _ => return ⟨false,.notRecomputable,"ledger receipts are not inline"⟩

section RoundTrip
variable {host isValid weights tolerance}

theorem pyEq_rootJson (root : Option String) : pyEq (rootJson root) (rootJson root) = true := by
  cases root <;> simp [rootJson,pyEq,hashKey]

theorem checkPublished_self {q : ℚ} {ledger : Dict} {key : String} (wide : 0 ≤ tolerance)
    (published : get ledger key = some (.float q)) : checkPublished host tolerance q ledger key = .ok false := by
  rw [checkPublished,published]
  have level : strays tolerance q (.finite q) = false := by
    rw [strays,sub_self,abs_zero,decide_eq_false_iff_not]
    exact not_lt.mpr wide
  exact congrArg Except.ok level

theorem mapM_asReceipt (receipts : List Dict) : (receipts.map Json.obj).mapM asReceipt = .ok receipts := by
  induction receipts with
  | nil => rfl
  | cons receipt receipts ih =>
    rw [List.map_cons,List.mapM_cons,ih]
    rfl

theorem anyM_lacksAction {receipts : List Dict} (inline : ∀ receipt ∈ receipts, (get receipt "action").isSome = true) :
    (receipts.map Json.obj).anyM lacksAction = .ok false := by
  induction receipts with
  | nil => rfl
  | cons receipt receipts ih =>
    have here : lacksAction (.obj receipt) = .ok false := by
      have present := inline receipt (by simp)
      rw [lacksAction,Option.isNone_eq_false_iff.mpr present]
    rw [List.map_cons,List.anyM_cons,here]
    exact ih fun other inside => inline other (by simp [inside])

structure Publishes (host : Host) (isValid : Dict → Bool) (weights : Weights) (receipts : List Dict) (ledger : Dict) :
    Prop where
  inline : get ledger "receipts" = some (.arr (receipts.map .obj))
  count : get ledger "receipt_count" = some (.int receipts.length)
  root : ∃ root, behavioralMerkleRoot host receipts = .ok root ∧ get ledger "behavioral_merkle_root" = some (rootJson root)
  score : ∃ rep, score host isValid weights (usesV2 ledger) receipts = .ok rep ∧
    get ledger "reputation_score" = some (.float rep)
  validity : get ledger "validity_rate" = some (.float (validityRate isValid receipts))
  corroboration : usesV2 ledger = true → ∃ rate, corroborationRate host isValid receipts = .ok rate ∧
    get ledger "corroboration_rate" = some (.float rate)

theorem Publishes.verifyScores {receipts : List Dict} {ledger : Dict} (publishes : Publishes host isValid weights receipts ledger)
    (wide : 0 ≤ tolerance) : verifyScores host isValid weights tolerance ledger receipts = .ok .accepted := by
  obtain ⟨rep,scored,reputation⟩ := publishes.score
  rw [Vrp.verifyScores,scored]
  simp only [ok_bind,checkPublished_self wide reputation,checkPublished_self wide publishes.validity,Bool.false_eq_true,
    if_false]
  split
  next v2 =>
    obtain ⟨rate,rated,corroborated⟩ := publishes.corroboration v2
    rw [rated]
    simp only [ok_bind,checkPublished_self wide corroborated,Bool.false_eq_true,if_false]
    rfl
  next => rfl

theorem Publishes.accepted {receipts : List Dict} {ledger : Dict} (publishes : Publishes host isValid weights receipts ledger)
    (wide : 0 ≤ tolerance) (actions : ∀ receipt ∈ receipts, (get receipt "action").isSome = true) :
    verifyLedger host isValid weights tolerance ledger = .ok .accepted := by
  obtain ⟨root,rooted,published⟩ := publishes.root
  have counted : pyEq (.int receipts.length) (.int (receipts.map Json.obj).length) = true := by simp [pyEq,hashKey]
  have recomputed : verifyInline host isValid weights tolerance ledger (receipts.map .obj) = .ok .accepted := by
    rw [verifyInline,publishes.count,Option.getD_some,counted,mapM_asReceipt]
    simp only [ok_bind,rooted,published,Option.getD_some,pyEq_rootJson,Bool.not_true,Bool.false_eq_true,if_false]
    exact publishes.verifyScores wide
  rw [verifyLedger,publishes.inline]
  simp only [anyM_lacksAction actions,ok_bind,Bool.false_eq_true,if_false]
  exact recomputed

theorem usesV2_named {ledger : Dict} {method : String} (named : get ledger "scoring_method" = some (.str method)) :
    usesV2 ledger = (method == scoringMethodV2) := by
  rw [usesV2,named,Option.getD_some,Bool.eq_iff_iff,pyEq_text]
  simp

theorem buildLedger_publishes {subject asOf method : String} {receipts : List Dict} {ledger : Dict}
    (built : buildLedger host isValid weights subject asOf method receipts = .ok ledger) :
    Publishes host isValid weights receipts ledger := by
  obtain ⟨root,rooted,built⟩ := bind_success _ _ _ built
  obtain ⟨rep,scored,built⟩ := bind_success _ _ _ built
  dsimp only at built
  split at built
  next second =>
    obtain ⟨rate,rated,built⟩ := bind_success _ _ _ built
    obtain rfl := (Except.ok.inj built).symm
    refine ⟨rfl,rfl,⟨root,rooted,rfl⟩,⟨rep,?_,rfl⟩,rfl,fun _ => ⟨rate,rated,rfl⟩⟩
    rw [usesV2_named rfl]
    exact scored
  next first =>
    obtain rfl := (Except.ok.inj built).symm
    refine ⟨rfl,rfl,⟨root,rooted,rfl⟩,⟨rep,?_,rfl⟩,rfl,fun second => ?_⟩
    · rw [usesV2_named rfl]
      exact scored
    · rw [usesV2_named rfl] at second
      exact absurd second first

end RoundTrip

end Ledger

/-! The chapter's side (server/vrp.py): the ledger of a principal from the Issuer Log, with
an attestation over its root and its date. -/
section Principal

structure Attester where
  skBytes : Bytes
  chapterDid : String
  sign : Bytes → Bytes → Bytes
  b64encode : Bytes → String

def attestationPayload (root : Json) (asOf : String) : Dict := [("behavioral_merkle_root",root),("as_of",.str asOf)]

def attestation (host : Host) (attester : Attester) (root : Json) (asOf : String) : Except Exc Dict := do
  let message ← host.canonicalize (.obj (attestationPayload root asOf))
  return [("attested_by",.str attester.chapterDid),("signature",.str (attester.b64encode (attester.sign attester.skBytes message)))]

def buildPrincipalLedger (host : Host) (isValid : Dict → Bool) (attester : Option Attester)
    (principalDid asOf method : String) (receipts : List Dict) : Except Exc Dict := do
  if method ∉ [scoringMethod,scoringMethodV2] then
    .error (.valueError
      s!"unsupported scoring_method: {host.repr (.str method)}; expected one of ('nanda-rep/0.1', 'nanda-rep/0.2')")
  else
    let ledger ← buildLedger host isValid defaultCategoryWeights principalDid asOf method receipts
    match attester, get ledger "behavioral_merkle_root" with
    | some attester, some (.str root) =>
      return setItem ledger "attestation" (.obj (← attestation host attester (.str root) asOf))
    | _, _ => return ledger

variable {host : Host} {isValid : Dict → Bool} {weights : Weights}

theorem Publishes.setItem {receipts : List Dict} {ledger : Dict} (publishes : Publishes host isValid weights receipts ledger)
    (value : Json) : Publishes host isValid weights receipts (setItem ledger "attestation" value) := by
  have other : ∀ key, key ≠ "attestation" → get (Json.setItem ledger "attestation" value) key = get ledger key :=
    fun key apart => get_setItem_other ledger "attestation" key value apart
  have v2 : usesV2 (Json.setItem ledger "attestation" value) = usesV2 ledger := by
    rw [usesV2,usesV2,other _ (by decide)]
  refine ⟨?_,?_,?_,?_,?_,?_⟩
  · rw [other _ (by decide)]
    exact publishes.inline
  · rw [other _ (by decide)]
    exact publishes.count
  · rw [other _ (by decide)]
    exact publishes.root
  · rw [other _ (by decide),v2]
    exact publishes.score
  · rw [other _ (by decide)]
    exact publishes.validity
  · rw [other _ (by decide),v2]
    exact publishes.corroboration

theorem buildPrincipalLedger_publishes {attester : Option Attester} {principalDid asOf method : String}
    {receipts : List Dict} {ledger : Dict}
    (built : buildPrincipalLedger host isValid attester principalDid asOf method receipts = .ok ledger) :
    Publishes host isValid defaultCategoryWeights receipts ledger ∧ ∀ chapter root, attester = some chapter →
      get ledger "behavioral_merkle_root" = some (.str root) →
        ∃ signed, attestation host chapter (.str root) asOf = .ok signed ∧ get ledger "attestation" = some (.obj signed) := by
  unfold buildPrincipalLedger at built
  split at built
  · cases built
  · obtain ⟨plain,made,built⟩ := bind_success _ _ _ built
    have publishes := buildLedger_publishes made
    split at built
    next chapter root published built =>
      obtain ⟨signed,attested,built⟩ := bind_success _ _ _ built
      obtain rfl := Except.ok.inj built
      refine ⟨publishes.setItem _,?_⟩
      rintro _ root' ⟨⟩ rooted
      rw [get_setItem_other _ _ _ _ (by decide),published] at rooted
      obtain rfl := Json.str.inj (Option.some.inj rooted)
      exact ⟨signed,attested,get_setItem_self ..⟩
    next built unrooted =>
      obtain rfl := Except.ok.inj built
      exact ⟨publishes,fun chapter root here rooted => absurd rooted (unrooted chapter root here)⟩

end Principal

end Orrery.Vrp
