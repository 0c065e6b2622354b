import Mathlib.Tactic.Linarith
import Orrery.Vrp.Ledger

/-! What a behavioral root commits a ledger to. Leaves and nodes are hashed without a
tag, and encodings longer than two digests keep them apart; filling up a level with a
copy of its last node does not: receipts repeated the way the padding repeats them
leave the root as it is. -/
namespace Orrery.Vrp
open Foundation Json

def inlineReceipts (ledger : Dict) : List Dict :=
  match get ledger "receipts" with
  | some (.arr items) => items.filterMap fun
    | .obj receipt => some receipt
    | _ => none
  | _ => []

def leaves (host : Host) (ledger : Dict) : List Bytes := (leafEncodings host (inlineReceipts ledger)).toOption.getD []

def hashes (host : Host) : HashTree.Hashes Bytes Bytes where
  empty := host.sha256 []
  leaf := host.sha256
  node left right := host.sha256 (left ++ right)

def preimage : HashTree.Input Bytes Bytes → Bytes
  | .empty => []
  | .leaf data => data
  | .node left right => left ++ right

theorem digest_preimage (host : Host) (x : HashTree.Input Bytes Bytes) :
    (hashes host).digest x = host.sha256 (preimage x) := by
  cases x <;> rfl

def rootHashed (host : Host) (ledger : Dict) : List Bytes :=
  (PaddedTree.hashed (hashes host) (leaves host ledger)).map preimage

section Hashing
variable {host : Host} {given : List Bytes} (free : Merkle.CollisionFree host.sha256 given)
include free

theorem digest_length (t : PaddedTree.Tree Bytes) : (t.digest (hashes host)).length = 32 := by
  cases t <;> exact free.size _

theorem hashed_apart {first second : List Bytes} (long : ∀ leaf ∈ first ++ second, 64 < leaf.length)
    (left : (PaddedTree.hashed (hashes host) first).map preimage ⊆ given)
    (right : (PaddedTree.hashed (hashes host) second).map preimage ⊆ given) :
    HashTree.Apart (hashes host) (PaddedTree.hashed (hashes host) first) (PaddedTree.hashed (hashes host) second) := by
  intro x inside y among same
  rw [digest_preimage,digest_preimage] at same
  have strings := free.injective _ (left (List.mem_map_of_mem inside)) _ (right (List.mem_map_of_mem among)) same
  have node : ∀ l r : PaddedTree.Tree Bytes, (l.digest (hashes host) ++ r.digest (hashes host)).length = 64 := by
    intro l r
    rw [List.length_append,digest_length free,digest_length free]
  rcases PaddedTree.mem_hashed _ inside with ⟨data,leaf,rfl⟩ | ⟨l,r,rfl⟩
  · rcases PaddedTree.mem_hashed _ among with ⟨data',_,rfl⟩ | ⟨l,r,rfl⟩
    · exact congrArg _ strings
    · have longer := long data (by simp [leaf])
      have length : data.length = 64 := (congrArg List.length strings).trans (node l r)
      omega
  · rcases PaddedTree.mem_hashed _ among with ⟨data,leaf,rfl⟩ | ⟨l',r',rfl⟩
    · have longer := long data (by simp [leaf])
      have length : data.length = 64 := (congrArg List.length strings).symm.trans (node l r)
      omega
    · obtain ⟨sameLeft,sameRight⟩ := List.append_inj strings ((digest_length free l).trans (digest_length free l').symm)
      rw [sameLeft,sameRight]

end Hashing

theorem hex_inj {first second : Bytes} (same : Hex.hex first = Hex.hex second) : first = second := by
  have back := Hex.fromHex_hex first
  rw [same,Hex.fromHex_hex] at back
  exact (Except.ok.inj back).symm

def rootText (top : Bytes) : String := "sha256:" ++ Hex.hex top

theorem rootText_inj {first second : Bytes} (same : rootText first = rootText second) : first = second := by
  apply hex_inj
  rw [rootText,rootText] at same
  exact String.append_right_inj _ |>.mp same

theorem behavioralMerkleRoot_eq {host : Host} {receipts : List Dict} {encodings : List Bytes}
    (encoded : leafEncodings host receipts = .ok encodings) :
    behavioralMerkleRoot host receipts =
      .ok ((PaddedTree.root (hashes host).node (encodings.map (hashes host).leaf)).map rootText) := by
  rw [behavioralMerkleRoot,orderedLeafHashes,encoded]
  exact congrArg (fun top : Option Bytes => Except.ok (top.map rootText)) (climb_head host (encodings.map host.sha256))

section Acceptance
variable {host : Host} {isValid : Dict → Bool} {weights : Weights} {tolerance : ℚ}

structure Recomputes (host : Host) (isValid : Dict → Bool) (weights : Weights) (tolerance : ℚ)
    (ledger : Dict) : Prop where
  count : pyEq ((get ledger "receipt_count").getD .null) (.int (inlineReceipts ledger).length) = true
  encoded : leafEncodings host (inlineReceipts ledger) = .ok (leaves host ledger)
  root : pyEq (rootJson ((PaddedTree.root (hashes host).node ((leaves host ledger).map (hashes host).leaf)).map
    rootText))
    ((get ledger "behavioral_merkle_root").getD .null) = true
  score : ∃ q published, score host isValid weights (usesV2 ledger) (inlineReceipts ledger) = .ok q ∧
    toFloat host ((get ledger "reputation_score").getD (.int 0)) = .ok published ∧ strays tolerance q published = false

theorem filterMap_receipts {items : List Json} : ∀ {receipts : List Dict}, items.mapM asReceipt = .ok receipts →
    items = receipts.map .obj := by
  induction items with
  | nil =>
    intro receipts run
    obtain rfl : [] = receipts := Except.ok.inj run
    rfl
  | cons item items ih =>
    intro receipts run
    rw [List.mapM_cons] at run
    obtain ⟨receipt,here,run⟩ := bind_success _ _ _ run
    obtain ⟨rest,further,run⟩ := bind_success _ _ _ run
    obtain rfl := Except.ok.inj run
    cases item with
    | obj d =>
      obtain rfl := Except.ok.inj here
      rw [ih further]
      rfl
    | _ => cases here

theorem inlineReceipts_eq {ledger : Dict} {receipts : List Dict}
    (held : get ledger "receipts" = some (.arr (receipts.map .obj))) : inlineReceipts ledger = receipts := by
  rw [inlineReceipts,held]
  simp [List.filterMap_map]

theorem verifyScores_accepted {ledger : Dict} {receipts : List Dict}
    (accepted : verifyScores host isValid weights tolerance ledger receipts = .ok .accepted) :
    ∃ q published, score host isValid weights (usesV2 ledger) receipts = .ok q ∧
      toFloat host ((get ledger "reputation_score").getD (.int 0)) = .ok published ∧ strays tolerance q published =
        false := by
  obtain ⟨q,scored,accepted⟩ := bind_success _ _ _ accepted
  obtain ⟨astray,checked,accepted⟩ := bind_success _ _ _ accepted
  obtain ⟨published,read,compared⟩ := bind_success _ _ _ checked
  cases astray with
  | true => cases accepted
  | false => exact ⟨q,published,scored,read,Except.ok.inj compared⟩

theorem recomputes_of_accepted {ledger : Dict}
    (accepted : verifyLedger host isValid weights tolerance ledger = .ok .accepted) :
    Recomputes host isValid weights tolerance ledger := by
  rw [verifyLedger.eq_def] at accepted
  split at accepted
  next items held =>
    obtain ⟨lacking,_,accepted⟩ := bind_success _ _ _ accepted
    cases lacking with
    | true => cases accepted
    | false =>
      replace accepted : verifyInline host isValid weights tolerance ledger items = .ok .accepted := accepted
      rw [verifyInline] at accepted
      split at accepted
      · cases accepted
      next counted =>
        obtain ⟨receipts,read,further⟩ := bind_success _ _ _ accepted
        obtain ⟨top,rooted,compared⟩ := bind_success _ _ _ further
        obtain rfl := filterMap_receipts read
        obtain rfl := inlineReceipts_eq held
        split at compared
        · cases compared
        next same =>
          obtain ⟨hashes,hashed,_⟩ := bind_success _ _ _ rooted
          obtain ⟨encodings,encoded,_⟩ := bind_success _ _ _ hashed
          have here : leaves host ledger = encodings := by
            rw [leaves,encoded]
            rfl
          refine ⟨by simpa using counted,by rw [here,encoded],?_,verifyScores_accepted compared⟩
          rw [behavioralMerkleRoot_eq encoded] at rooted
          rw [here,Except.ok.inj rooted]
          simpa using same
  next => cases accepted

theorem checked_close {q p p' : ℚ} (left : strays tolerance q (.finite p) = false)
    (right : strays tolerance q (.finite p') = false) : |p-p'| ≤ 2*tolerance := by
  have near : |q-p| ≤ tolerance := by simpa [strays] using left
  have near' : |q-p'| ≤ tolerance := by simpa [strays] using right
  rw [abs_sub_comm] at near
  have between := abs_sub_le p q p'
  linarith

theorem pyEq_count {value : Json} {n : Nat} : pyEq value (.int n) = true ↔ hashKey value = .ok (.num n) := by
  cases value <;> simp [pyEq,hashKey]

theorem pyEq_counts {v w : Json} {n : Nat} (left : pyEq v (.int n) = true) (right : pyEq w (.int n) = true) :
    pyEq v w = true := by
  rw [pyEq_count] at left right
  cases v <;> cases w <;> simp_all [pyEq,hashKey]

theorem count_unique {v w : Json} {n m : Nat} (left : pyEq v (.int n) = true) (right : pyEq w (.int m) = true)
    (same : pyEq v w = true) : n = m := by
  rw [pyEq_count] at left right
  cases v <;> cases w <;> simp_all [pyEq,hashKey]

theorem pyEq_rootJson_inj {top top' : Option String} {v : Json} (left : pyEq (rootJson top) v = true)
    (right : pyEq (rootJson top') v = true) : top = top' := by
  cases top <;> cases top' <;> cases v <;> simp_all [rootJson,pyEq,hashKey]

theorem encodings_related {given : Dict → Prop} (canonical : Canonical host given) {ordered ordered' : List Dict}
    {encodings : List Bytes} (first : Reads (fun receipt => host.canonicalize (.obj receipt)) ordered encodings)
    (second : Reads (fun receipt => host.canonicalize (.obj receipt)) ordered' encodings)
    (inside : ∀ d ∈ ordered, given d) (inside' : ∀ d ∈ ordered', given d) :
    List.Forall₂ AlikeFields ordered ordered' := by
  induction first generalizing ordered' with
  | nil =>
    cases second
    exact .nil
  | @cons d bytes ordered encodings here _ ih =>
    cases second with
    | @cons d' _ ordered' _ here' reads =>
      refine .cons (canonical.injective d d' bytes (inside d (by simp)) (inside' d' (by simp)) here here') ?_
      exact ih reads (fun c member => inside c (by simp [member])) fun c member => inside' c (by simp [member])

theorem leaves_matched {given : Dict → Prop} {receipts others : List Dict} {encodings : List Bytes}
    (canonical : Canonical host given) (inside : ∀ d ∈ receipts ++ others, given d)
    (first : leafEncodings host receipts = .ok encodings) (second : leafEncodings host others = .ok encodings) :
    Matched AlikeFields receipts others := by
  obtain ⟨ordered,sorted,first⟩ := bind_success _ _ _ first
  obtain ⟨ordered',sorted',second⟩ := bind_success _ _ _ second
  have moved := sortBy_perm sorted
  have moved' := sortBy_perm sorted'
  have related : List.Forall₂ AlikeFields ordered ordered' :=
    encodings_related canonical (mapM_reads first) (mapM_reads second)
      (fun d member => inside d (List.mem_append_left _ (moved.mem_iff.mp member)))
      (fun d member => inside d (List.mem_append_right _ (moved'.mem_iff.mp member)))
  have swapped : Relation.Comp (List.Forall₂ AlikeFields) List.Perm ordered others := ⟨ordered',related,moved'⟩
  rw [List.forall₂_comp_perm_eq_perm_comp_forall₂] at swapped
  obtain ⟨arranged,permuted,related⟩ := swapped
  exact ⟨arranged,moved.symm.trans permuted,related⟩

/-- The two ledgers hold the same receipts, and with them the same count and score. -/
structure SameStanding (host : Host) (isValid : Dict → Bool) (weights : Weights) (tolerance : ℚ) (first second : Dict) :
    Prop where
  receipts : Matched AlikeFields (inlineReceipts first) (inlineReceipts second)
  count : pyEq ((get first "receipt_count").getD .null) ((get second "receipt_count").getD .null) = true
  score : ∃ q, score host isValid weights (usesV2 first) (inlineReceipts first) = .ok q ∧
    score host isValid weights (usesV2 second) (inlineReceipts second) = .ok q
  published : ∀ p p', toFloat host ((get first "reputation_score").getD (.int 0)) = .ok (.finite p) →
    toFloat host ((get second "reputation_score").getD (.int 0)) = .ok (.finite p') → |p-p'| ≤ 2*tolerance

/-- The longer list of leaves is the other with its end repeated as the padding repeats it. -/
def Repeats (first second : List Bytes) : Prop :=
  PaddedTree.padded first = PaddedTree.padded second ∧ first.length ≠ second.length

/-- Two ledgers under one root hold the same receipts unless one repeats the other's. -/
theorem behavioralRoot_commits_iff (first second : Dict)
    (accepted : verifyLedger host isValid weights tolerance first = .ok .accepted)
    (accepted' : verifyLedger host isValid weights tolerance second = .ok .accepted)
    (method : usesV2 first = usesV2 second)
    (sameRoot : (get first "behavioral_merkle_root").getD .null = (get second "behavioral_merkle_root").getD .null)
    (free : Merkle.CollisionFree host.sha256 (rootHashed host first ++ rootHashed host second))
    (long : ∀ leaf ∈ leaves host first ++ leaves host second, 64 < leaf.length)
    (reads : ReadsDocuments host isValid (inlineReceipts first ++ inlineReceipts second)) :
    SameStanding host isValid weights tolerance first second ↔ ¬ Repeats (leaves host first) (leaves host second) := by
  have here := recomputes_of_accepted accepted
  have there := recomputes_of_accepted accepted'
  have length : ∀ {ledger : Dict}, Recomputes host isValid weights tolerance ledger →
      (leaves host ledger).length = (inlineReceipts ledger).length := by
    intro ledger recomputes
    obtain ⟨ordered,sorted,encoded⟩ := bind_success _ _ _ recomputes.encoded
    rw [← (sortBy_perm sorted).length_eq]
    exact (mapM_reads encoded).length_eq.symm
  constructor
  · rintro same ⟨_,apart⟩
    rw [length here,length there] at apart
    exact apart (count_unique here.count there.count same.count)
  · intro unrepeated
    have padded : PaddedTree.padded (leaves host first) = PaddedTree.padded (leaves host second) := by
      have apart := hashed_apart free long (List.subset_append_left _ _) (List.subset_append_right _ _)
      rw [← PaddedTree.root_eq_iff _ _ _ apart]
      have right := there.root
      rw [← sameRoot] at right
      have texts := pyEq_rootJson_inj here.root right
      exact Option.map_injective (fun _ _ => rootText_inj) texts
    have equal : leaves host first = leaves host second := by
      apply PaddedTree.tree_inj _ ((PaddedTree.padded_eq_iff _ _).mp padded)
      by_contra apart
      exact unrepeated ⟨padded,apart⟩
    have matched := leaves_matched reads.canonical (fun _ => .receipt) here.encoded (equal ▸ there.encoded)
    obtain ⟨q,p,scored,published,close⟩ := here.score
    obtain ⟨q',p',scored',published',close'⟩ := there.score
    have scores : q = q' := by
      rw [← method] at scored'
      unfold score at scored scored'
      split at scored
      next v2 =>
        rw [if_pos v2] at scored'
        exact reputationScoreV2_matched reads matched scored scored'
      next v1 =>
        rw [if_neg v1] at scored'
        exact reputationScore_matched reads matched scored scored'
    refine ⟨matched,pyEq_counts here.count ?_,⟨q,scored,scores ▸ scored'⟩,?_⟩
    · rw [matched.length]
      exact there.count
    · intro r r' finite finite'
      obtain rfl := Except.ok.inj (published.symm.trans finite)
      obtain rfl := Except.ok.inj (published'.symm.trans finite')
      exact checked_close close (scores ▸ close')

end Acceptance

section Sample

def sampleDigest (x : Bytes) : Bytes :=
  (List.range 32).map fun i => UInt8.ofNat (x.foldl (fun h b => (257*h+b.toNat+1) % 2^256) 0/256^i)

def sampleHost : Host where
  canonicalize value := .ok (Merkle.sampleText value)
  sha256 := sampleDigest
  b58decode _ := .error (.valueError "Invalid character")
  fromPublicBytes raw := .ok raw
  b64decode _ := .error (.other "Error" "Incorrect padding")
  verify _ _ _ := false
  repr _ := "?"
  parseNumber _ := .error (.valueError "could not convert string to float")
  recursionLimit := 1000

def purchase (receiptId : String) : Dict :=
  [("action",.obj [("category",.str "purchase")]),("issued_at",.str "2026-06-01T00:00:00Z"),
    ("receipt_id",.str receiptId)]

def purchaseLeaf (receiptId : String) : Bytes := Merkle.sampleText (.obj (purchase receiptId))

def joinLeaves (left right : Bytes) : Bytes := (hashes sampleHost).node left right

def purchasesTop : Bytes :=
  joinLeaves (joinLeaves (sampleDigest (purchaseLeaf "a")) (sampleDigest (purchaseLeaf "b")))
    (joinLeaves (sampleDigest (purchaseLeaf "c")) (sampleDigest (purchaseLeaf "c")))

def purchases (receiptIds : List String) : Dict :=
  [("subject",.str "did:key:z6MkAnn"),("scoring_method",.str scoringMethod),
    ("behavioral_merkle_root",.str (rootText purchasesTop)),("reputation_score",.float (5*receiptIds.length)),
    ("validity_rate",.float 1),("receipt_count",.int receiptIds.length),("as_of",.str "2026-06-02T00:00:00Z"),
    ("receipts",.arr (receiptIds.map fun receiptId => .obj (purchase receiptId)))]

def anyReceipt (_ : Dict) : Bool := true

def purchasesAccepted (receiptIds : List String) : Prop :=
  verifyLedger sampleHost anyReceipt defaultCategoryWeights (1/1000000000) (purchases receiptIds) = .ok .accepted

theorem purchases_receipts (receiptIds : List String) : inlineReceipts (purchases receiptIds) =
    receiptIds.map purchase :=
  inlineReceipts_eq (by rw [List.map_map]; rfl)

theorem purchases_score (receiptIds : List String) :
    get (purchases receiptIds) "reputation_score" = some (.float (5*receiptIds.length)) := rfl

theorem purchases_weigh (receiptIds : List String) :
    reputationScore anyReceipt defaultCategoryWeights (receiptIds.map purchase) = .ok (5*receiptIds.length) := by
  have weighed : ∀ (receiptIds : List String) (sum : ℚ),
      sweep (points anyReceipt defaultCategoryWeights) (· + ·) sum (receiptIds.map purchase) =
        .ok (sum+5*receiptIds.length) := by
    intro receiptIds
    induction receiptIds with
    | nil =>
      intro sum
      rw [List.length_nil,Nat.cast_zero,mul_zero,add_zero]
      rfl
    | cons receiptId receiptIds ih =>
      intro sum
      have here : points anyReceipt defaultCategoryWeights (purchase receiptId) = .ok 5 := rfl
      rw [List.map_cons,sweep_cons,here,ok_bind,ih,List.length_cons]
      congr 1
      push_cast
      ring
  rw [reputationScore,weighed,zero_add]

theorem purchases_accepted {receiptIds : List String} {encodings : List Bytes} (filled : receiptIds ≠ [])
    (encoded : leafEncodings sampleHost (receiptIds.map purchase) = .ok encodings)
    (rooted : PaddedTree.root (hashes sampleHost).node (encodings.map (hashes sampleHost).leaf) = some purchasesTop) :
    purchasesAccepted receiptIds := by
  have v2 : usesV2 (purchases receiptIds) = (scoringMethod == scoringMethodV2) := usesV2_named rfl
  rw [show (scoringMethod == scoringMethodV2) = false by decide] at v2
  have some : (receiptIds.map purchase).length ≠ 0 := by simpa using filled
  have validity : validityRate anyReceipt (receiptIds.map purchase) = 1 := by
    have all : (receiptIds.map purchase).countP anyReceipt = (receiptIds.map purchase).length :=
      List.countP_eq_length.mpr fun _ _ => rfl
    rw [validityRate,all,if_neg (by simpa using filled),div_self (by exact_mod_cast some)]
  have publishes : Publishes sampleHost anyReceipt defaultCategoryWeights (receiptIds.map purchase)
      (purchases receiptIds) := by
    refine ⟨?_,?_,?_,?_,?_,?_⟩
    · rw [List.map_map]
      rfl
    · rw [List.length_map]
      rfl
    · rw [behavioralMerkleRoot_eq encoded,rooted]
      exact ⟨_,rfl,rfl⟩
    · rw [v2,score,if_neg (by decide),purchases_weigh]
      exact ⟨_,rfl,rfl⟩
    · rw [validity]
      rfl
    · rw [v2]
      exact fun never => absurd never (by decide)
  apply publishes.accepted (by norm_num)
  intro receipt inside
  obtain ⟨receiptId,_,rfl⟩ := List.mem_map.mp inside
  rfl

theorem three_encoded : leafEncodings sampleHost (["a","b","c"].map purchase) =
    .ok [purchaseLeaf "a",purchaseLeaf "b",purchaseLeaf "c"] := by
  decide +kernel

theorem reversed_encoded : leafEncodings sampleHost (["c","b","a"].map purchase) =
    .ok [purchaseLeaf "a",purchaseLeaf "b",purchaseLeaf "c"] := by
  decide +kernel

theorem four_encoded : leafEncodings sampleHost (["a","b","c","c"].map purchase) =
    .ok [purchaseLeaf "a",purchaseLeaf "b",purchaseLeaf "c",purchaseLeaf "c"] := by
  decide +kernel

theorem tree_four {α : Type} (a b c d : α) :
    PaddedTree.tree [a,b,c,d] = some (.node (.node (.leaf a) (.leaf b)) (.node (.leaf c) (.leaf d))) := by
  simp [PaddedTree.tree,PaddedTree.root_next,PaddedTree.pairs]

theorem tree_three {α : Type} (a b c : α) : PaddedTree.tree [a,b,c] = PaddedTree.tree [a,b,c,c] :=
  (PaddedTree.tree_repeat (by simp) (by simp) rfl).symm

theorem purchases_leaves {receiptIds : List String} {encodings : List Bytes}
    (encoded : leafEncodings sampleHost (receiptIds.map purchase) = .ok encodings) :
    leaves sampleHost (purchases receiptIds) = encodings := by
  rw [leaves,purchases_receipts,encoded]
  rfl

def purchaseStrings : List Bytes :=
  [purchaseLeaf "a",purchaseLeaf "b",purchaseLeaf "c",
    sampleDigest (purchaseLeaf "a") ++ sampleDigest (purchaseLeaf "b"),
    sampleDigest (purchaseLeaf "c") ++ sampleDigest (purchaseLeaf "c"),
    joinLeaves (sampleDigest (purchaseLeaf "a")) (sampleDigest (purchaseLeaf "b")) ++
      joinLeaves (sampleDigest (purchaseLeaf "c")) (sampleDigest (purchaseLeaf "c"))]

theorem purchaseStrings_apart : (purchaseStrings.map sampleDigest).Nodup := by
  decide +kernel

theorem purchases_hashed {receiptIds : List String} {encodings : List Bytes}
    (encoded : leafEncodings sampleHost (receiptIds.map purchase) = .ok encodings)
    (tree : PaddedTree.tree encodings =
      PaddedTree.tree [purchaseLeaf "a",purchaseLeaf "b",purchaseLeaf "c",purchaseLeaf "c"]) :
    rootHashed sampleHost (purchases receiptIds) ⊆ purchaseStrings := by
  rw [rootHashed,purchases_leaves encoded,PaddedTree.hashed,tree,tree_four]
  simp [PaddedTree.Tree.inputs,PaddedTree.Tree.digest,preimage,purchaseStrings,hashes,joinLeaves,sampleHost]

theorem purchases_rooted {encodings : List Bytes} (tree : PaddedTree.tree encodings =
      PaddedTree.tree [purchaseLeaf "a",purchaseLeaf "b",purchaseLeaf "c",purchaseLeaf "c"]) :
    PaddedTree.root (hashes sampleHost).node (encodings.map (hashes sampleHost).leaf) = some purchasesTop := by
  rw [PaddedTree.root_digest,tree,tree_four]
  rfl

theorem purchases_free {first second : List Bytes} (left : first ⊆ purchaseStrings) (right : second ⊆ purchaseStrings) :
    Merkle.CollisionFree sampleHost.sha256 (first ++ second) where
  size x := by simp [sampleHost,sampleDigest]
  injective x inside y inside' same := by
    have within : first ++ second ⊆ purchaseStrings := List.append_subset.mpr ⟨left,right⟩
    exact List.inj_on_of_nodup_map purchaseStrings_apart (within inside) (within inside') same

theorem purchase_long : ∀ leaf ∈ [purchaseLeaf "a",purchaseLeaf "b",purchaseLeaf "c"], 64 < leaf.length := by
  decide +kernel

theorem purchaseLeaf_apart : [purchaseLeaf "a",purchaseLeaf "b",purchaseLeaf "c"].Nodup := by
  decide +kernel

theorem purchases_read {receiptIds : List String} (among : receiptIds ⊆ ["a","b","c"]) :
    ReadsDocuments sampleHost anyReceipt (receiptIds.map purchase) := by
  have named : ∀ {d : Dict}, Encoded (receiptIds.map purchase) d → ∃ receiptId ∈ ["a","b","c"], d =
      purchase receiptId := by
    intro d encoded
    cases encoded with
    | receipt inside =>
      obtain ⟨receiptId,member,rfl⟩ := List.mem_map.mp inside
      exact ⟨receiptId,among member,rfl⟩
    | payload inside =>
      obtain ⟨receiptId,member,rfl⟩ := List.mem_map.mp inside
      exact ⟨receiptId,among member,rfl⟩
  refine ⟨⟨?_,?_⟩,?_,?_⟩
  · intro a b bytes first second left right
    obtain ⟨receiptId,member,rfl⟩ := named first
    obtain ⟨other,member',rfl⟩ := named second
    have same : purchaseLeaf receiptId = purchaseLeaf other := Except.ok.inj (left.trans right.symm)
    have apart : (["a","b","c"].map purchaseLeaf).Nodup := purchaseLeaf_apart
    obtain rfl := List.inj_on_of_nodup_map apart member member' same
    exact (alike_obj_iff _ _).mp (.refl _)
  · intro a b first second fields
    obtain ⟨receiptId,_,rfl⟩ := named first
    obtain ⟨other,_,rfl⟩ := named second
    obtain ⟨v,found,alike⟩ : ∃ v, get (purchase other) "receipt_id" = some v ∧ Alike (.str receiptId) v :=
      fields.get_some rfl
    obtain rfl : v = .str other := (Option.some.inj found).symm
    obtain rfl := Json.str.inj alike.text
    rfl
  · intro value bytes key message _ decoded
    cases decoded
  · exact fun _ _ _ _ _ => rfl

/-- The last of three receipts, repeated: the ledger has one receipt and five points more,
and the root it had. -/
theorem repeatedReceipt_keeps_root :
    purchasesAccepted ["a","b","c"] ∧ purchasesAccepted ["a","b","c","c"] ∧
    usesV2 (purchases ["a","b","c"]) = usesV2 (purchases ["a","b","c","c"]) ∧
    (get (purchases ["a","b","c"]) "behavioral_merkle_root").getD .null =
      (get (purchases ["a","b","c","c"]) "behavioral_merkle_root").getD .null ∧
    Merkle.CollisionFree sampleHost.sha256
      (rootHashed sampleHost (purchases ["a","b","c"]) ++ rootHashed sampleHost (purchases ["a","b","c","c"])) ∧
    (∀ leaf ∈ leaves sampleHost (purchases ["a","b","c"]) ++ leaves sampleHost
      (purchases ["a","b","c","c"]), 64 < leaf.length) ∧
    ReadsDocuments sampleHost anyReceipt
      (inlineReceipts (purchases ["a","b","c"]) ++ inlineReceipts (purchases ["a","b","c","c"])) ∧
    ¬ SameStanding sampleHost anyReceipt defaultCategoryWeights (1/1000000000) (purchases ["a","b","c"])
      (purchases ["a","b","c","c"]) ∧
    get (purchases ["a","b","c"]) "reputation_score" = some (.float 15) ∧
    get (purchases ["a","b","c","c"]) "reputation_score" = some (.float 20) := by
  refine ⟨purchases_accepted (by simp) three_encoded (purchases_rooted (tree_three _ _ _)),
    purchases_accepted (by simp) four_encoded (purchases_rooted rfl),rfl,rfl,
    purchases_free (purchases_hashed three_encoded (tree_three _ _ _))
      (purchases_hashed four_encoded rfl),?_,?_,?_,?_,?_⟩
  · rw [purchases_leaves three_encoded,purchases_leaves four_encoded]
    have repeated : ∀ a b c : Bytes, [a,b,c,c] ⊆ [a,b,c] := fun a b c => by simp
    intro leaf inside
    exact purchase_long leaf ((List.mem_append.mp inside).elim id fun four => repeated _ _ _ four)
  · rw [purchases_receipts,purchases_receipts,← List.map_append]
    exact purchases_read (by decide)
  · intro same
    have lengths := same.receipts.length
    rw [purchases_receipts,purchases_receipts] at lengths
    simp at lengths
  · rw [purchases_score]
    norm_num
  · rw [purchases_score]
    norm_num

/-- The same receipts in another order keep the root, and with it their standing. -/
theorem reorderedReceipts_keep_standing :
    SameStanding sampleHost anyReceipt defaultCategoryWeights (1/1000000000) (purchases ["a","b","c"])
      (purchases ["c","b","a"]) := by
  have first := purchases_leaves three_encoded
  have second := purchases_leaves reversed_encoded
  apply (behavioralRoot_commits_iff (purchases ["a","b","c"]) (purchases ["c","b","a"])
    (purchases_accepted (by simp) three_encoded (purchases_rooted (tree_three _ _ _)))
    (purchases_accepted (by simp) reversed_encoded (purchases_rooted (tree_three _ _ _))) rfl rfl
    (purchases_free (purchases_hashed three_encoded (tree_three _ _ _))
      (purchases_hashed reversed_encoded (tree_three _ _ _)))
    ?_ ?_).mpr
  · rintro ⟨_,apart⟩
    rw [first,second] at apart
    exact apart rfl
  · rw [first,second]
    intro leaf inside
    exact purchase_long leaf ((List.mem_append.mp inside).elim id id)
  · rw [purchases_receipts,purchases_receipts,← List.map_append]
    exact purchases_read (by decide)

end Sample

section Served

/-- What the chapter serves for a principal recomputes: the published root, scores and
counts are accepted, and a chapter with a key has signed that root with the ledger's date. -/
theorem principalLedger_accepted {host : Host} {isValid : Dict → Bool} {tolerance : ℚ} {attester : Option Attester}
    {principalDid asOf method : String} {receipts : List Dict} {ledger : Dict}
    (built : buildPrincipalLedger host isValid attester principalDid asOf method receipts = .ok ledger)
    (wide : 0 ≤ tolerance) (actions : ∀ receipt ∈ receipts, (get receipt "action").isSome = true) :
    verifyLedger host isValid defaultCategoryWeights tolerance ledger = .ok .accepted ∧
    ∀ chapter root, attester = some chapter → get ledger "behavioral_merkle_root" = some (.str root) →
      ∃ signed, attestation host chapter (.str root) asOf = .ok signed ∧ get ledger "attestation" = some (.obj signed) := by
  obtain ⟨publishes,attested⟩ := buildPrincipalLedger_publishes built
  exact ⟨publishes.accepted wide actions,attested⟩

def plainHost : Host :=
  { sampleHost with
    canonicalize := fun _ => .ok [1]
    sha256 := fun _ => [2] }

def sampleAttester : Attester where
  skBytes := [7]
  chapterDid := "did:key:z6MkChapter"
  sign key message := key ++ message
  b64encode raw := Hex.hex raw

/-- One receipt, hashed to a fixed digest, is served with its score of five points. -/
theorem onePurchase_accepted : ∃ ledger, buildPrincipalLedger plainHost anyReceipt (some sampleAttester) "did:key:z6MkAnn"
    "2026-06-02T00:00:00Z" scoringMethod [purchase "a"] = .ok ledger ∧
      get ledger "reputation_score" = some (.float 5) ∧
      verifyLedger plainHost anyReceipt defaultCategoryWeights 0 ledger = .ok .accepted := by
  have rooted : behavioralMerkleRoot plainHost [purchase "a"] = .ok (some "sha256:02") := by
    have hashed : orderedLeafHashes plainHost [purchase "a"] = .ok [[2]] := rfl
    rw [behavioralMerkleRoot,hashed,ok_bind,climb,if_neg (by decide)]
    rfl
  have scored : score plainHost anyReceipt defaultCategoryWeights false [purchase "a"] = .ok 5 := by
    have weighed := purchases_weigh ["a"]
    rw [score,if_neg (by decide)]
    simpa using weighed
  obtain ⟨ledger,built,worth⟩ : ∃ ledger, buildPrincipalLedger plainHost anyReceipt (some sampleAttester)
      "did:key:z6MkAnn" "2026-06-02T00:00:00Z" scoringMethod [purchase "a"] = .ok ledger ∧
        get ledger "reputation_score" = some (.float 5) := by
    have first : (scoringMethod == scoringMethodV2) = false := by decide
    rw [buildPrincipalLedger,if_neg (by decide),buildLedger,rooted,first,ok_bind,scored]
    exact ⟨_,rfl,rfl⟩
  exact ⟨ledger,built,worth,(principalLedger_accepted built le_rfl (by decide)).1⟩

end Served

end Orrery.Vrp
