import Orrery.Dat.Chain
import Orrery.Foundation.Hex
import Orrery.Merkle.Soundness

/-! A receipt under a signed checkpoint: the chapter builds the checkpoint
(server/arp.py) and the member looks for its own receipt in it
(community_member/checkpoint.py). The index, the size and the nodes of an inclusion
proof are not signed, so the verifier may be led along any path. -/
namespace Orrery.Merkle
open Foundation Json

structure Services extends Dat.Host where
  sha256 : Bytes → Bytes
  fromPrivateBytes : Bytes → Except Exc Bytes
  sign : Bytes → Bytes → Bytes
  b64encode : Bytes → String
  parseInt : String → Option Int

def noAttribute (value : Json) (name : String) : Exc :=
  .attributeError s!"'{value.typeName}' object has no attribute '{name}'"

def receiptLeaf (s : Services) (receipt : Dict) : Except Exc Bytes := s.canonicalize (.obj receipt)

def checkpointLeaves (s : Services) (receipts : List Dict) : Except Exc (List Bytes) :=
  receipts.mapM fun receipt => s.canonicalize (.obj receipt)

def checkpointPayload (signerDid createdAt : String) (treeSize : Nat) (root : Bytes) (receiptIds : List Json) : Dict :=
  [("version",.str "aae-checkpoint/0.1"),("type",.str "checkpoint"),("signer_did",.str signerDid),
    ("created_at",.str createdAt),("tree_size",.int treeSize),
    ("merkle_root",.str ("sha256:" ++ Hex.hex root)),("receipt_ids",.arr receiptIds)]

def buildCheckpoint (s : Services) (receipts : List Dict) (skBytes : Bytes) (signerDid createdAt : String) :
    Except Exc Dict := do
  let root := merkleRoot s.sha256 (← checkpointLeaves s receipts)
  let receiptIds ← receipts.mapM fun receipt => item receipt "receipt_id"
  let payload := checkpointPayload signerDid createdAt receipts.length root receiptIds
  let sk ← s.fromPrivateBytes skBytes
  let message ← s.canonicalize (.obj payload)
  return [("payload",.obj payload),("signer_did",.str signerDid),
    ("signature",.str (s.b64encode (s.sign sk message)))]

def pubkeyFromDid (s : Services) : Json → Except Exc Bytes
  | .str did =>
    if "did:key:z".toList.isPrefixOf did.toList then do
      let decoded ← s.b58decode (String.ofList (did.toList.drop "did:key:z".length))
      if decoded.length ≠ 34 ∨ decoded.take 2 ≠ Dat.didPrefix then
        .error (.valueError "not a did:key Ed25519 record")
      else s.fromPublicBytes (decoded.drop 2)
    else .error (.valueError s!"unsupported DID method: {s.repr (.str did)}")
  | other => .error (noAttribute other "startswith")

def signerOf (checkpoint : Dict) : Except Exc Json :=
  let signer := (get checkpoint "signer_did").getD .null
  if signer.truthy then .ok signer
  else
    match (get checkpoint "payload").getD .null with
    | .obj payload => .ok ((get payload "signer_did").getD .null)
    | other => if other.truthy then .error (noAttribute other "get") else .ok .null

def checkSigned (s : Services) (signer signature payload : Json) : Except Exc Bool := do
  let key ← pubkeyFromDid s signer
  let signature ← s.b64decode signature
  let message ← s.canonicalize payload
  return s.verify key signature message

def verifyCheckpointSignature (s : Services) (checkpoint : Dict) : Except Exc Bool := do
  let signer ← signerOf checkpoint
  let signature := (get checkpoint "signature").getD .null
  match (get checkpoint "payload").getD .null with
  | .obj payload =>
    if !signer.truthy || !signature.truthy then return false
    else
      match checkSigned s signer signature (.obj payload) with
      | .ok verified => return verified
      | .error _ => return false
  | _ => return false

inductive MembershipStage
  | checkpointSignature | rootMismatch | notIncluded | accepted
deriving DecidableEq

def MembershipStage.text : MembershipStage → String
  | .checkpointSignature => "checkpoint_signature"
  | .rootMismatch => "root_mismatch"
  | .notIncluded => "not_included"
  | .accepted => "accepted"

structure MembershipResult where
  ok : Bool
  stage : MembershipStage
  detail : String
deriving DecidableEq

def MembershipResult.accepted : MembershipResult :=
  ⟨true,.accepted,"receipt is committed by the chapter's signed checkpoint"⟩

def rootBytes : Json → Except Exc Bytes
  | .str root =>
    if "sha256:".toList.isPrefixOf root.toList then
      Hex.fromHex (String.ofList (root.toList.drop "sha256:".length))
    else Hex.fromHex root
  | other => .error (noAttribute other "startswith")

def bytesFromHex : Json → Except Exc Bytes
  | .str text => Hex.fromHex text
  | other => .error (.typeError s!"fromhex() argument must be str, not {other.typeName}")

def elements : Json → Except Exc (List Json)
  | .arr items => .ok items
  | .str text => .ok (text.toList.map fun c => .str (String.singleton c))
  | .obj fields => .ok (fields.map fun field => .str field.1)
  | other => .error (.typeError s!"'{other.typeName}' object is not iterable")

def toInt (s : Services) : Json → Except Exc Int
  | .int i => .ok i
  | .bool b => .ok (if b then 1 else 0)
  | .float q => .ok (if 0 ≤ q then q.floor else q.ceil)
  | .str text =>
    match s.parseInt text with
    | some i => .ok i
    | none => .error (.valueError s!"invalid literal for int() with base 10: {s.repr (.str text)}")
  | other => .error (.typeError
      s!"int() argument must be a string, a bytes-like object or a real number, not '{other.typeName}'")

structure InclusionArguments where
  leaf : Bytes
  leafIndex : Int
  treeSize : Int
  proof : List Bytes

def inclusionArguments (s : Services) (receipt proof : Dict) : Except Exc InclusionArguments := do
  let leaf ← receiptLeaf s receipt
  let leafIndex ← toInt s (← item proof "leaf_index")
  let treeSize ← toInt s (← item proof "tree_size")
  let nodes ← (← elements ((get proof "proof").getD (.arr []))).mapM bytesFromHex
  return ⟨leaf,leafIndex,treeSize,nodes⟩

def signedRootOf (checkpoint : Dict) : Except Exc Json :=
  match (get checkpoint "payload").getD (.obj []) with
  | .obj payload => .ok ((get payload "merkle_root").getD .null)
  | other => .error (noAttribute other "get")

def verifyMembership (s : Services) (receipt checkpoint proof : Dict) : Except Exc MembershipResult := do
  if (← verifyCheckpointSignature s checkpoint) = false then
    return ⟨false,.checkpointSignature,"checkpoint signature does not verify"⟩
  else do
    let signedRoot ← signedRootOf checkpoint
    if !signedRoot.truthy || !pyEq ((get proof "merkle_root").getD .null) signedRoot then
      return ⟨false,.rootMismatch,"inclusion proof's root does not match the signed checkpoint root"⟩
    else do
      let a ← inclusionArguments s receipt proof
      let root ← rootBytes signedRoot
      if verifyInclusion s.sha256 a.leaf a.leafIndex a.treeSize a.proof root then return .accepted
      else return ⟨false,.notIncluded,"receipt is not committed under the signed root"⟩

def membershipHashed (s : Services) (receipt proof : Dict) : List Bytes :=
  match inclusionArguments s receipt proof with
  | .ok a => inclusionHashed s.sha256 a.leaf a.leafIndex a.treeSize a.proof
  | .error _ => []

def checkpointHashed (s : Services) (log : List Dict) : List Bytes :=
  match checkpointLeaves s log with
  | .ok leaves => merkleHashed s.sha256 leaves
  | .error _ => []

def Builds (s : Services) (log : List Dict) (payload : Dict) : Prop :=
  ∃ skBytes signerDid createdAt checkpoint, buildCheckpoint s log skBytes signerDid createdAt = .ok checkpoint ∧
    get checkpoint "payload" = some (.obj payload)

inductive Encoded (s : Services) (log : List Dict) (receipt checkpoint : Dict) : Dict → Prop
  | receipt : Encoded s log receipt checkpoint receipt
  | logged (other : Dict) (member : other ∈ log) : Encoded s log receipt checkpoint other
  | payload (payload : Dict) (named : get checkpoint "payload" = some (.obj payload)) :
    Encoded s log receipt checkpoint payload
  | built (payload : Dict) (built : Builds s log payload) : Encoded s log receipt checkpoint payload

/-- The JCS encoder tells these dictionaries apart, as far as Python does. -/
def JcsInjective (s : Services) (given : Dict → Prop) : Prop :=
  ∀ a b bytes, given a → given b → s.canonicalize (.obj a) = .ok bytes → s.canonicalize (.obj b) = .ok bytes →
    pyEq (.obj a) (.obj b) = true

def Unforgeable (s : Services) (log : List Dict) (checkpoint : Dict) : Prop :=
  ∀ signer key signature payload message, signerOf checkpoint = .ok signer → pubkeyFromDid s signer = .ok key →
    get checkpoint "payload" = some (.obj payload) → s.canonicalize (.obj payload) = .ok message →
    s.verify key signature message = true → ∃ built, Builds s log built ∧ s.canonicalize (.obj built) = .ok message

theorem Builds.root {s : Services} {log : List Dict} {payload : Dict} (builds : Builds s log payload) :
    ∃ leaves, checkpointLeaves s log = .ok leaves ∧
      ("merkle_root",.str ("sha256:" ++ Hex.hex (merkleRoot s.sha256 leaves))) ∈ payload := by
  obtain ⟨skBytes,signerDid,createdAt,checkpoint,made,named⟩ := builds
  obtain ⟨leaves,encoded,made⟩ := bind_success _ _ _ made
  obtain ⟨receiptIds,_,made⟩ := bind_success _ _ _ made
  obtain ⟨sk,_,made⟩ := bind_success _ _ _ made
  obtain ⟨message,_,made⟩ := bind_success _ _ _ made
  cases made
  obtain rfl : checkpointPayload signerDid createdAt log.length (merkleRoot s.sha256 leaves) receiptIds = payload := by
    simpa [Json.get] using named
  exact ⟨leaves,encoded,by simp [checkpointPayload]⟩

theorem rootBytes_hex (root : Bytes) : rootBytes (.str ("sha256:" ++ Hex.hex root)) = .ok root := by
  have scheme : ("sha256:" ++ Hex.hex root).toList = "sha256:".toList ++ (Hex.hex root).toList :=
    String.toList_append ..
  have marked : "sha256:".toList.isPrefixOf ("sha256:" ++ Hex.hex root).toList = true := by
    rw [scheme,List.isPrefixOf_iff_prefix]
    exact List.prefix_append _ _
  have digits : ("sha256:" ++ Hex.hex root).toList.drop "sha256:".length = (Hex.hex root).toList := by
    rw [scheme]
    rfl
  rw [rootBytes,if_pos marked,digits,String.ofList_toList,Hex.fromHex_hex]

theorem verifyCheckpointSignature_signed {s : Services} {checkpoint : Dict}
    (verified : verifyCheckpointSignature s checkpoint = .ok true) :
    ∃ signer key signature payload message, signerOf checkpoint = .ok signer ∧ pubkeyFromDid s signer = .ok key ∧
      get checkpoint "payload" = some (.obj payload) ∧ s.canonicalize (.obj payload) = .ok message ∧
      s.verify key signature message = true := by
  obtain ⟨signer,named,verified⟩ := bind_success _ _ _ verified
  split at verified
  next payload present =>
    have payload_eq : get checkpoint "payload" = some (.obj payload) := by
      cases found : get checkpoint "payload" with
      | none => rw [found] at present; cases present
      | some value => rw [found] at present; exact congrArg some present
    dsimp only at verified
    split at verified
    next => cases verified
    next =>
      split at verified
      next result checked =>
        cases verified
        obtain ⟨key,decoded,checked⟩ := bind_success _ _ _ checked
        obtain ⟨signature,_,checked⟩ := bind_success _ _ _ checked
        obtain ⟨message,encoded,checked⟩ := bind_success _ _ _ checked
        exact ⟨signer,key,signature,payload,message,named,decoded,payload_eq,encoded,Except.ok.inj checked⟩
      next => cases verified
  next => cases verified

theorem verifyMembership_accepted {s : Services} {receipt checkpoint proof : Dict} {result : MembershipResult}
    (verified : verifyMembership s receipt checkpoint proof = .ok result) (accepted : result.ok = true) :
    verifyCheckpointSignature s checkpoint = .ok true ∧ ∃ signedRoot a root, signedRootOf checkpoint = .ok signedRoot ∧
      inclusionArguments s receipt proof = .ok a ∧ rootBytes signedRoot = .ok root ∧
      verifyInclusion s.sha256 a.leaf a.leafIndex a.treeSize a.proof root = true := by
  obtain ⟨signature,signed,verified⟩ := bind_success _ _ _ verified
  split at verified
  next => cases verified; cases accepted
  next holds =>
    obtain ⟨signedRoot,named,verified⟩ := bind_success _ _ _ verified
    split at verified
    next => cases verified; cases accepted
    next =>
      obtain ⟨a,read,verified⟩ := bind_success _ _ _ verified
      obtain ⟨root,decoded,verified⟩ := bind_success _ _ _ verified
      split at verified
      next included =>
        have signed : verifyCheckpointSignature s checkpoint = .ok true := by simpa [holds] using signed
        exact ⟨signed,signedRoot,a,root,named,read,decoded,included⟩
      next => cases verified; cases accepted

theorem verifyInclusion_member (sha256 : Bytes → Bytes) (leaves : List Bytes) (leaf : Bytes) (leafIndex treeSize : Int)
    (proof : List Bytes)
    (free : CollisionFree sha256 (merkleHashed sha256 leaves ++ inclusionHashed sha256 leaf leafIndex treeSize proof))
    (accepted : verifyInclusion sha256 leaf leafIndex treeSize proof (merkleRoot sha256 leaves) = true) :
    leaf ∈ leaves := by
  unfold verifyInclusion at accepted
  split at accepted
  next => cases accepted
  next =>
    obtain ⟨climbed,hashed⟩ := replay_ascend sha256 proof ⟨leafIndex,treeSize-1,leafHash sha256 leaf⟩
    set steps := replaySteps sha256 ⟨leafIndex,treeSize-1,leafHash sha256 leaf⟩ proof
    simp only [Bool.and_eq_true,beq_iff_eq] at accepted
    have reached : HashTree.ascend (hashes sha256) ((hashes sha256).leaf leaf) steps =
        HashTree.root (hashes sha256) leaves := by
      rw [← merkleRoot_eq,← accepted.2,climbed]
      rfl
    have apart : HashTree.Apart (hashes sha256) (HashTree.inputs (hashes sha256) leaves)
        (.leaf leaf :: HashTree.ascentInputs (hashes sha256) ((hashes sha256).leaf leaf) steps) := by
      refine free.apart (inputs_whole free.size leaves) ?_ (List.subset_append_left _ _) ?_
      · intro y member
        rcases List.mem_cons.mp member with rfl | member
        · trivial
        · exact ascentInputs_half free.size _ _ (free.size _) y member
      · refine List.subset_append_of_subset_right _ ?_
        rw [inclusionHashed,hashed]
        exact List.Subset.refl _
    obtain ⟨j,found,_⟩ := HashTree.ascend_root (hashes sha256) _ leaves leaf steps rfl apart reached
    exact List.mem_of_getElem? found

theorem checkpointLeaves_mem {s : Services} {log : List Dict} {leaves : List Bytes} {leaf : Bytes}
    (encoded : checkpointLeaves s log = .ok leaves) (member : leaf ∈ leaves) :
    ∃ receipt ∈ log, s.canonicalize (.obj receipt) = .ok leaf := by
  induction log generalizing leaves with
  | nil =>
    cases encoded
    cases member
  | cons first log ih =>
    rw [checkpointLeaves,List.mapM_cons] at encoded
    obtain ⟨own,ofFirst,encoded⟩ := bind_success _ _ _ encoded
    obtain ⟨others,ofRest,encoded⟩ := bind_success _ _ _ encoded
    cases encoded
    rcases List.mem_cons.mp member with rfl | member
    · exact ⟨first,List.mem_cons_self ..,ofFirst⟩
    · obtain ⟨receipt,inLog,leafOf⟩ := ih ofRest member
      exact ⟨receipt,List.mem_cons_of_mem _ inLog,leafOf⟩

theorem verifyMembership_committed {s : Services} {log : List Dict} {receipt checkpoint proof : Dict}
    (jcs : JcsInjective s (Encoded s log receipt checkpoint)) (unforgeable : Unforgeable s log checkpoint)
    {result : MembershipResult} (verified : verifyMembership s receipt checkpoint proof = .ok result)
    (accepted : result.ok = true) : ∃ payload built leaves a, get checkpoint "payload" = some (.obj payload) ∧
      Builds s log built ∧ pyEq (.obj built) (.obj payload) = true ∧ checkpointLeaves s log = .ok leaves ∧
      inclusionArguments s receipt proof = .ok a ∧ s.canonicalize (.obj receipt) = .ok a.leaf ∧
      verifyInclusion s.sha256 a.leaf a.leafIndex a.treeSize a.proof (merkleRoot s.sha256 leaves) = true := by
  obtain ⟨signed,signedRoot,a,root,named,read,decoded,included⟩ := verifyMembership_accepted verified accepted
  obtain ⟨signer,key,signature,payload,message,bySigner,byKey,carried,encoded,holds⟩ :=
    verifyCheckpointSignature_signed signed
  obtain ⟨built,builds,same⟩ := unforgeable signer key signature payload message bySigner byKey carried encoded holds
  obtain ⟨leaves,logged,field⟩ := builds.root
  have equal := jcs built payload message (.built built builds) (.payload payload carried) same encoded
  -- the signed payload carries the root of the log
  have carries : get payload "merkle_root" = some (.str ("sha256:" ++ Hex.hex (merkleRoot s.sha256 leaves))) :=
    pyEq_get_str equal field
  have rooted : root = merkleRoot s.sha256 leaves := by
    rw [signedRootOf,carried] at named
    simp only [Option.getD_some,carries,Except.ok.injEq] at named
    rw [← named,rootBytes_hex,Except.ok.injEq] at decoded
    exact decoded.symm
  have leafOf : s.canonicalize (.obj receipt) = .ok a.leaf := by
    obtain ⟨leaf,leafOf,rest⟩ := bind_success _ _ _ read
    obtain ⟨index,_,rest⟩ := bind_success _ _ _ rest
    obtain ⟨leafIndex,_,rest⟩ := bind_success _ _ _ rest
    obtain ⟨size,_,rest⟩ := bind_success _ _ _ rest
    obtain ⟨treeSize,_,rest⟩ := bind_success _ _ _ rest
    obtain ⟨items,_,rest⟩ := bind_success _ _ _ rest
    obtain ⟨nodes,_,rest⟩ := bind_success _ _ _ rest
    cases rest
    exact leafOf
  rw [rooted] at included
  exact ⟨payload,built,leaves,a,carried,builds,equal,logged,read,leafOf,included⟩

/-- Only receipts of the log are accepted. -/
theorem verifyMembership_sound (s : Services) (log : List Dict) (receipt checkpoint proof : Dict)
    (free : CollisionFree s.sha256 (checkpointHashed s log ++ membershipHashed s receipt proof))
    (jcs : JcsInjective s (Encoded s log receipt checkpoint)) (unforgeable : Unforgeable s log checkpoint)
    (result : MembershipResult) (verified : verifyMembership s receipt checkpoint proof = .ok result)
    (accepted : result.ok = true) : ∃ other ∈ log, pyEq (.obj receipt) (.obj other) = true := by
  obtain ⟨_,_,leaves,a,_,_,_,logged,read,leafOf,included⟩ :=
    verifyMembership_committed jcs unforgeable verified accepted
  rw [checkpointHashed,logged,membershipHashed,read] at free
  have member := verifyInclusion_member s.sha256 leaves a.leaf a.leafIndex a.treeSize a.proof free included
  obtain ⟨other,inLog,otherLeaf⟩ := checkpointLeaves_mem logged member
  exact ⟨other,inLog,jcs receipt other a.leaf .receipt (.logged other inLog) leafOf otherLeaf⟩

def ascii (text : List Char) : Bytes := text.map fun c => UInt8.ofNat c.toNat

def sampleText (value : Json) : Bytes := ascii (dumps (fun _ => []) .canonical value)

def sampleReceipt (receiptId : String) : Dict := [("receipt_id",.str receiptId)]

def sampleLeaf (receiptId : String) : Bytes := sampleText (.obj (sampleReceipt receiptId))

def sampleDid : String := "did:key:z6MkeTG3bFFSLYVU7VqhgZxqr6YzpaGrQtFMh1uvqGy1vDnP"

def samplePayload : Dict :=
  checkpointPayload sampleDid "2026-06-01T00:00:00Z" 2
    (nodeHash head32 (leafHash head32 (sampleLeaf "a")) (leafHash head32 (sampleLeaf "b"))) [.str "a",.str "b"]

def sampleServices : Services where
  b58decode text :=
    if text = "6MkeTG3bFFSLYVU7VqhgZxqr6YzpaGrQtFMh1uvqGy1vDnP" then .ok (0xed :: 0x01 :: List.replicate 32 0)
    else .error (.valueError "Invalid character")
  fromPublicBytes raw := .ok raw
  b64decode
    | .str _ => .ok [0]
    | _ => .error (.typeError "argument should be a bytes-like object or ASCII string")
  canonicalize
    | .obj (version :: type :: ("signer_did",.str did) :: ("created_at",.str time) :: rest) =>
      -- one signer and one time: the only payload the sample signs
      if did = sampleDid ∧ time = "2026-06-01T00:00:00Z" then
        .ok (sampleText (.obj (version :: type :: ("signer_did",.str did) :: ("created_at",.str time) :: rest)))
      else .error (.valueError "another checkpoint")
    | value => .ok (sampleText value)
  verify _ _ message := decide (message = sampleText (.obj samplePayload))
  repr _ := "?"
  nowIso := "2026"
  sha256 := head32
  fromPrivateBytes raw := .ok raw
  sign _ _ := [0]
  b64encode _ := "AA=="
  parseInt _ := none

theorem sample_root : merkleRoot head32 [sampleLeaf "a",sampleLeaf "b"] =
    nodeHash head32 (leafHash head32 (sampleLeaf "a")) (leafHash head32 (sampleLeaf "b")) := by
  simp [merkleRoot,largestPow2Lt,doubleWhile]

def sampleLog : List Dict := [sampleReceipt "a",sampleReceipt "b"]

def sampleCheckpoint : Dict :=
  [("payload",.obj samplePayload),("signer_did",.str sampleDid),("signature",.str "AA==")]

theorem sample_build (skBytes : Bytes) (signerDid createdAt : String) :
    buildCheckpoint sampleServices sampleLog skBytes signerDid createdAt =
      if signerDid = sampleDid ∧ createdAt = "2026-06-01T00:00:00Z" then .ok sampleCheckpoint
      else .error (.valueError "another checkpoint") := by
  have unfolded : buildCheckpoint sampleServices sampleLog skBytes signerDid createdAt = (do
      let payload := checkpointPayload signerDid createdAt 2 (merkleRoot head32 [sampleLeaf "a",sampleLeaf "b"])
        [.str "a",.str "b"]
      let message ← sampleServices.canonicalize (.obj payload)
      return [("payload",.obj payload),("signer_did",.str signerDid),
        ("signature",.str (sampleServices.b64encode (sampleServices.sign skBytes message)))]) := rfl
  rw [unfolded,sample_root]
  by_cases known : signerDid = sampleDid ∧ createdAt = "2026-06-01T00:00:00Z"
  · obtain ⟨rfl,rfl⟩ := known
    simp [sampleServices,checkpointPayload,samplePayload,sampleCheckpoint]
  · simp [sampleServices,checkpointPayload,known]

theorem sample_builds (payload : Dict) : Builds sampleServices sampleLog payload ↔ payload = samplePayload := by
  constructor
  · rintro ⟨skBytes,signerDid,createdAt,checkpoint,built,named⟩
    rw [sample_build] at built
    split at built
    next =>
      cases built
      simpa [sampleCheckpoint,Json.get,eq_comm] using named
    next => cases built
  · rintro rfl
    exact ⟨[],sampleDid,_,sampleCheckpoint,by rw [sample_build,if_pos ⟨rfl,rfl⟩],rfl⟩

def sampleProof : Dict :=
  [("leaf_index",.int (-1)),("tree_size",.int 1),
    ("merkle_root",.str ("sha256:" ++
      Hex.hex (nodeHash head32 (leafHash head32 (sampleLeaf "a")) (leafHash head32 (sampleLeaf "b"))))),
    ("proof",.arr [.str (Hex.hex (leafHash head32 (sampleLeaf "a")))])]

theorem sample_encoded {value : Dict}
    (encoded : Encoded sampleServices sampleLog (sampleReceipt "b") sampleCheckpoint value) :
    value = sampleReceipt "a" ∨ value = sampleReceipt "b" ∨ value = samplePayload := by
  cases encoded with
  | receipt => exact Or.inr (Or.inl rfl)
  | logged _ member =>
    simp only [sampleLog,List.mem_cons,List.not_mem_nil,or_false] at member
    rcases member with rfl | rfl
    · exact Or.inl rfl
    · exact Or.inr (Or.inl rfl)
  | payload _ named =>
    refine Or.inr (Or.inr ?_)
    simpa [sampleCheckpoint,Json.get,eq_comm] using named
  | built _ built => exact Or.inr (Or.inr ((sample_builds _).mp built))

theorem sample_injective : JcsInjective sampleServices
    (Encoded sampleServices sampleLog (sampleReceipt "b") sampleCheckpoint) := by
  intro a b bytes first second encoded same
  have equal := encoded.trans same.symm
  clear encoded same
  rcases sample_encoded first with rfl | rfl | rfl <;> rcases sample_encoded second with rfl | rfl | rfl <;>
    revert equal <;> decide +kernel

theorem sample_unforgeable : Unforgeable sampleServices sampleLog sampleCheckpoint := by
  intro signer key signature payload message _ _ _ _ holds
  refine ⟨samplePayload,(sample_builds _).mpr rfl,?_⟩
  have signed : message = sampleText (.obj samplePayload) := of_decide_eq_true holds
  rw [signed]
  rfl

theorem sample_hashed : checkpointHashed sampleServices sampleLog =
    [0x01 :: (leafHash head32 (sampleLeaf "a") ++ leafHash head32 (sampleLeaf "b")),
      0x00 :: sampleLeaf "a",0x00 :: sampleLeaf "b"] := by
  have leaves : checkpointHashed sampleServices sampleLog = merkleHashed head32 [sampleLeaf "a",sampleLeaf "b"] := rfl
  rw [leaves,merkleHashed_pair]

theorem sample_free : CollisionFree sampleServices.sha256
    (checkpointHashed sampleServices sampleLog ++
      membershipHashed sampleServices (sampleReceipt "b") sampleProof) := by
  refine ⟨head32_size,?_⟩
  rw [sample_hashed]
  decide +kernel

theorem sample_accepted : verifyMembership sampleServices (sampleReceipt "b") sampleCheckpoint sampleProof =
    .ok .accepted := by
  decide +kernel

theorem verifyMembership_sound_negative_index :
    verifyMembership sampleServices (sampleReceipt "b") sampleCheckpoint sampleProof = .ok .accepted ∧
      ∃ other ∈ sampleLog, pyEq (.obj (sampleReceipt "b")) (.obj other) = true :=
  ⟨sample_accepted,verifyMembership_sound sampleServices sampleLog (sampleReceipt "b") sampleCheckpoint sampleProof
    sample_free sample_injective sample_unforgeable .accepted sample_accepted rfl⟩

end Orrery.Merkle
