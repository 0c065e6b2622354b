import Orrery.Foundation.Sweeps
import Orrery.Merkle.Positions

/-! What the chapter serves of its Issuer Log besides the checkpoint: the proof of one receipt
(server/chapter_agent.py), and a published bundle of some (server/receipt_publication.py). -/
namespace Orrery.Merkle
open Foundation Json

section Serving
variable (s : Services)

def auditPath (leaves : List Bytes) (idx : ℕ) : Except Exc (List Json) :=
  match inclusionProof s.sha256 leaves idx with
  | .ok path => .ok (path.map fun p => .str (Hex.hex p))
  | .error text => .error (.other "IndexError" text)

def rootText (root : Bytes) : String := "sha256:" ++ Hex.hex root

def checkpointProof (receipts : List Dict) (receiptId : String) : Except Exc (Option Dict) :=
  match receipts.findIdx? fun r => pyEq (.str receiptId) ((get r "receipt_id").getD .null) with
  | none => .ok none
  | some idx => do
    let leaves ← checkpointLeaves s receipts
    let path ← auditPath s leaves idx
    return some [("receipt_id",.str receiptId),("leaf_index",.int idx),("tree_size",.int receipts.length),
      ("merkle_root",.str (rootText (merkleRoot s.sha256 leaves))),("proof",.arr path)]

inductive PublicationFailure
  | publicationError (text : String)
  | raised (e : Exc)

def raising {α : Type} : Except Exc α → Except PublicationFailure α
  | .ok a => .ok a
  | .error e => .error (.raised e)

@[simp] theorem raising_ok {α : Type} (a : α) : raising (.ok a) = .ok a := rfl

def byId (issuerLog : List Dict) (rid : String) : Option (Dict × ℕ) :=
  issuerLog.zipIdx.reverse.find? fun entry => pyEq (.str rid) ((get entry.1 "receipt_id").getD .null)

def disclose (issuerLog : List Dict) (leaves : List Bytes) (issuerDid rid : String) : Except PublicationFailure Dict :=
  match byId issuerLog rid with
  | none => .error (.publicationError s!"receipt {s.repr (.str rid)} is not in this org's Issuer Log")
  | some (receipt,idx) =>
    let issuer := (get receipt "issuer_did").getD .null
    if !pyEq (.str issuerDid) issuer then .error (.publicationError
      (s!"receipt {s.repr (.str rid)} was issued by {s.repr issuer}, not by this org " ++
        s!"({s.repr (.str issuerDid)}); refusing to publish another issuer's receipt"))
    else do
      let path ← raising (auditPath s leaves idx)
      return [("receipt",.obj receipt),("leaf_index",.int idx),("proof",.arr path)]

def howToVerify : String :=
  "Do NOT take issuer_did on faith and do NOT look for a key in this file. " ++
  "Fetch https://<the org you are auditing>/.well-known/did.json, build " ++
  "did:key:<verificationMethod[0].publicKeyMultibase>, and require it to equal " ++
  "issuer_did. Then sm_arp.verify_receipt() each disclosed receipt, and check " ++
  "each RFC 6962 inclusion proof against checkpoint.payload.merkle_root. " ++
  "See docs/VERIFY_A_RECEIPT.md."

def buildBundle (publicationId publishedAt : String) (receiptIds : List String) (issuerLog : List Dict)
    (issuerDid : String) (skBytes : Bytes) (createdAt : String) : Except PublicationFailure Dict := do
  -- an id that cannot be a key of a dictionary raises
  let _ ← raising (issuerLog.mapM fun r => hashKey ((get r "receipt_id").getD .null))
  let leaves ← raising (checkpointLeaves s issuerLog)
  let disclosed ← receiptIds.mapM (disclose s issuerLog leaves issuerDid)
  let checkpoint ← raising (buildCheckpoint s issuerLog skBytes issuerDid createdAt)
  return [("bundle_version",.str "1"),("publication_id",.str publicationId),("published_at",.str publishedAt),
    ("issuer_did",.str issuerDid),("checkpoint",.obj checkpoint),("disclosed",.arr (disclosed.map .obj)),
    ("how_to_verify",.str howToVerify)]

/-- What is signed with these bytes verifies under the key of this did. -/
def SignsAs (skBytes : Bytes) (did : String) : Prop :=
  ∃ sk key, s.fromPrivateBytes skBytes = .ok sk ∧ pubkeyFromDid s (.str did) = .ok key ∧ ∀ message,
    s.b64encode (s.sign sk message) ≠ "" ∧ s.b64decode (.str (s.b64encode (s.sign sk message))) = .ok (s.sign sk message) ∧
      s.verify key (s.sign sk message) message = true

end Serving

section Honest
variable {s : Services} {log : List Dict} {leaves : List Bytes} {skBytes : Bytes} {did createdAt : String} {checkpoint : Dict}

theorem signature_verifies {payload : Dict} {signature : String}
    (carried : get checkpoint "payload" = some (.obj payload)) (named : get checkpoint "signer_did" = some (.str did))
    (signed : get checkpoint "signature" = some (.str signature)) (some_did : (Json.str did).truthy = true)
    (filled : (Json.str signature).truthy = true)
    (checked : checkSigned s (.str did) (.str signature) (.obj payload) = .ok true) :
    verifyCheckpointSignature s checkpoint = .ok true := by
  have signer : signerOf checkpoint = .ok (.str did) := by rw [signerOf,named,Option.getD_some,if_pos some_did]
  rw [verifyCheckpointSignature,signer,ok_bind]
  simp only [carried,signed,Option.getD_some,some_did,filled,checked,Bool.not_true,Bool.or_self,Bool.false_eq_true,
    if_false]
  rfl

/-- A signed checkpoint verifies, and commits to the leaves of the log. -/
theorem buildCheckpoint_signed (signs : SignsAs s skBytes did)
    (built : buildCheckpoint s log skBytes did createdAt = .ok checkpoint) :
    verifyCheckpointSignature s checkpoint = .ok true ∧ ∃ leaves receiptIds, checkpointLeaves s log = .ok leaves ∧
      get checkpoint "payload" = some (.obj
        (checkpointPayload did createdAt log.length (merkleRoot s.sha256 leaves) receiptIds)) := by
  obtain ⟨leaves,encoded,built⟩ := bind_success _ _ _ built
  obtain ⟨receiptIds,_,built⟩ := bind_success _ _ _ built
  obtain ⟨sk,loaded,built⟩ := bind_success _ _ _ built
  obtain ⟨message,canonical,built⟩ := bind_success _ _ _ built
  cases built
  obtain ⟨sk',key,loaded',named,signs⟩ := signs
  obtain rfl := Except.ok.inj (loaded.symm.trans loaded')
  obtain ⟨filled,decoded,verified⟩ := signs message
  have some_did : (Json.str did).truthy = true := by
    by_contra empty
    obtain rfl : did = "" := by simpa [truthy] using empty
    cases named
  refine ⟨signature_verifies rfl rfl rfl some_did (by simpa [truthy] using filled) ?_,leaves,receiptIds,encoded,rfl⟩
  rw [checkSigned,named,ok_bind,decoded,ok_bind,canonical,ok_bind,verified]
  rfl

theorem path_accepted (sha256 : Bytes → Bytes) {i : ℕ} {leaf : Bytes} (found : leaves[i]? = some leaf) :
    verifyInclusion sha256 leaf i leaves.length (HashTree.path (hashes sha256) leaves i) (merkleRoot sha256 leaves) =
      true := by
  obtain ⟨index,rfl⟩ := List.getElem?_eq_some_iff.mp found
  rw [verifyInclusion,if_neg (by omega),start_cursor sha256 _ index,replay_eq]
  have climbed := HashTree.climb_path (hashes sha256) leaves i index
  rw [List.get_eq_getElem] at climbed
  rw [climbed]
  simp [ofCursor,merkleRoot_eq]

theorem leaf_of (encoded : checkpointLeaves s log = .ok leaves) {i : ℕ} {receipt : Dict} (found : log[i]? = some receipt) :
    ∃ leaf, leaves[i]? = some leaf ∧ s.canonicalize (.obj receipt) = .ok leaf := by
  have index : i < leaves.length := by
    rw [checkpointLeaves_length encoded]
    exact (List.getElem?_eq_some_iff.mp found).1
  obtain ⟨other,stands,leafOf⟩ := checkpointLeaves_get encoded (List.getElem?_eq_getElem index)
  obtain rfl := Option.some.inj (found.symm.trans stands)
  exact ⟨_,List.getElem?_eq_getElem index,leafOf⟩

theorem auditPath_ok {i : ℕ} (index : i < leaves.length) : auditPath s leaves i =
    .ok ((HashTree.path (hashes s.sha256) leaves i).map fun p => .str (Hex.hex p)) := by
  rw [auditPath,inclusionProof_eq s.sha256 _ leaves i rfl index]

theorem bytesFromHex_path (path : List Bytes) :
    (path.map fun p => Json.str (Hex.hex p)).mapM bytesFromHex = .ok path := by
  induction path with
  | nil => rfl
  | cons p path ih =>
    rw [List.map_cons,List.mapM_cons,bytesFromHex,Hex.fromHex_hex,ok_bind,ih]
    rfl

/-- A proof that names a place of the log, and the signed size and root, is accepted. -/
theorem proof_accepted {receiptIds path : List Json} {proof receipt : Dict} {i : ℕ}
    (verified : verifyCheckpointSignature s checkpoint = .ok true)
    (carried : get checkpoint "payload" = some (.obj
      (checkpointPayload did createdAt log.length (merkleRoot s.sha256 leaves) receiptIds)))
    (encoded : checkpointLeaves s log = .ok leaves) (found : log[i]? = some receipt)
    (pathed : auditPath s leaves i = .ok path) (rooted : get proof "merkle_root" = some (.str (rootText (merkleRoot s.sha256 leaves))))
    (indexed : get proof "leaf_index" = some (.int i)) (sized : get proof "tree_size" = some (.int log.length))
    (listed : get proof "proof" = some (.arr path)) : verifyMembership s receipt checkpoint proof = .ok .accepted := by
  obtain ⟨leaf,stands,leafOf⟩ := leaf_of encoded found
  have length := checkpointLeaves_length encoded
  rw [auditPath_ok (List.getElem?_eq_some_iff.mp stands).1] at pathed
  obtain rfl := Except.ok.inj pathed
  have signedRoot : signedRootOf checkpoint = .ok (.str (rootText (merkleRoot s.sha256 leaves))) := by
    rw [signedRootOf,carried]
    rfl
  have written : (Json.str (rootText (merkleRoot s.sha256 leaves))).truthy = true := by simp [truthy,rootText]
  have same : pyEq (.str (rootText (merkleRoot s.sha256 leaves))) (.str (rootText (merkleRoot s.sha256 leaves))) = true := by
    simp [pyEq,hashKey]
  have arguments : inclusionArguments s receipt proof =
      .ok ⟨leaf,i,log.length,HashTree.path (hashes s.sha256) leaves i⟩ := by
    rw [inclusionArguments,receiptLeaf,leafOf,ok_bind]
    simp only [item,indexed,sized,listed,ok_bind,toInt,Option.getD_some,elements,bytesFromHex_path]
    rfl
  rw [verifyMembership,verified,ok_bind,if_neg (by simp),signedRoot,ok_bind,rooted,Option.getD_some,written,same,
    if_neg (by simp),arguments,ok_bind,rootText,rootBytes_hex,ok_bind,← length,path_accepted s.sha256 stands,if_pos rfl]
  rfl

theorem get_of_pyEq {d : Dict} {key text : String} (same : pyEq (.str text) ((get d key).getD .null) = true) :
    get d key = some (.str text) := by
  have equal := pyEq_str same
  cases found : get d key with
  | none => rw [found] at equal; cases equal
  | some value => rw [found] at equal; exact congrArg some equal

/-- Of a checkpointed log every receipt is served, and what is served convinces the member. -/
theorem checkpointProof_convinces (signs : SignsAs s skBytes did)
    (built : buildCheckpoint s log skBytes did createdAt = .ok checkpoint) (receiptId : String) :
    (checkpointProof s log receiptId = .ok none ∧ ∀ receipt ∈ log, get receipt "receipt_id" ≠ some (.str receiptId)) ∨
    ∃ proof, checkpointProof s log receiptId = .ok (some proof) ∧ ∃ receipt ∈ log,
      get receipt "receipt_id" = some (.str receiptId) ∧ verifyMembership s receipt checkpoint proof = .ok .accepted := by
  obtain ⟨verified,leaves,receiptIds,encoded,carried⟩ := buildCheckpoint_signed signs built
  unfold checkpointProof
  split
  next absent =>
    refine .inl ⟨rfl,fun receipt inside named => ?_⟩
    have missed := List.findIdx?_eq_none_iff.mp absent receipt inside
    rw [named] at missed
    simp [pyEq,hashKey] at missed
  next idx found =>
    obtain ⟨bound,named,_⟩ := List.findIdx?_eq_some_iff_getElem.mp found
    have pathed := @auditPath_ok s leaves idx (by rwa [checkpointLeaves_length encoded])
    rw [encoded,ok_bind,pathed,ok_bind]
    exact .inr ⟨_,rfl,log[idx],List.getElem_mem bound,get_of_pyEq named,
      proof_accepted verified carried encoded (List.getElem?_eq_getElem bound) pathed rfl rfl rfl rfl⟩

def pairedServices : Services := { sampleServices with verify := fun _ signature _ => decide (signature = [0]) }

theorem paired_signs : SignsAs pairedServices [] sampleDid :=
  ⟨[],List.replicate 32 0,rfl,by decide +kernel,fun _ => ⟨(by decide : "AA==" ≠ ""),rfl,rfl⟩⟩

theorem paired_build : buildCheckpoint pairedServices sampleLog [] sampleDid "2026-06-01T00:00:00Z" =
    .ok sampleCheckpoint := by
  have same : buildCheckpoint pairedServices = buildCheckpoint sampleServices := rfl
  rw [same,sample_build,if_pos ⟨rfl,rfl⟩]

theorem secondReceipt_served : ∃ proof, checkpointProof pairedServices sampleLog "b" = .ok (some proof) ∧
    ∃ receipt ∈ sampleLog, get receipt "receipt_id" = some (.str "b") ∧
      verifyMembership pairedServices receipt sampleCheckpoint proof = .ok .accepted := by
  obtain ⟨_,absent⟩ | served := checkpointProof_convinces paired_signs paired_build "b"
  · exact absurd rfl (absent (sampleReceipt "b") (by simp [sampleLog]))
  · exact served

/-- What the reader of a bundle takes from an entry, and from the signed payload. -/
def readerProof (payload entry : Dict) : Dict :=
  [("leaf_index",(get entry "leaf_index").getD .null),("tree_size",(get payload "tree_size").getD .null),
    ("merkle_root",(get payload "merkle_root").getD .null),("proof",(get entry "proof").getD .null)]

def Shows (s : Services) (log : List Dict) (checkpoint payload : Dict) (did rid : String) (entry : Dict) : Prop :=
  ∃ receipt ∈ log, get entry "receipt" = some (.obj receipt) ∧ get receipt "receipt_id" = some (.str rid) ∧
    get receipt "issuer_did" = some (.str did) ∧
    verifyMembership s receipt checkpoint (readerProof payload entry) = .ok .accepted

theorem disclose_shows {receiptIds : List Json} (verified : verifyCheckpointSignature s checkpoint = .ok true)
    (carried : get checkpoint "payload" = some (.obj
      (checkpointPayload did createdAt log.length (merkleRoot s.sha256 leaves) receiptIds)))
    (encoded : checkpointLeaves s log = .ok leaves) {rid : String} {entry : Dict}
    (disclosed : disclose s log leaves did rid = .ok entry) : Shows s log checkpoint
      (checkpointPayload did createdAt log.length (merkleRoot s.sha256 leaves) receiptIds) did rid entry := by
  unfold disclose at disclosed
  split at disclosed
  next => cases disclosed
  next receipt idx known =>
    rw [byId] at known
    have named := List.find?_some (p := fun entry : Dict × ℕ => pyEq (.str rid) ((get entry.1 "receipt_id").getD .null)) known
    have placed : log[idx]? = some receipt :=
      List.mem_zipIdx_iff_getElem?.mp (List.mem_reverse.mp (List.mem_of_find?_eq_some known))
    dsimp only at disclosed
    split at disclosed
    next => cases disclosed
    next own =>
      have issued := @get_of_pyEq receipt "issuer_did" did (by simpa using own)
      obtain ⟨path,pathed,disclosed⟩ := bind_success _ _ _ disclosed
      obtain rfl := Except.ok.inj disclosed
      have pathed : auditPath s leaves idx = .ok path := by
        cases walked : auditPath s leaves idx with
        | error e => rw [walked] at pathed; cases pathed
        | ok path' => rw [walked] at pathed; cases pathed; rfl
      exact ⟨receipt,List.mem_of_getElem? placed,rfl,get_of_pyEq named,issued,
        proof_accepted verified carried encoded placed pathed rfl rfl rfl rfl⟩

/-- A published bundle verifies: its checkpoint is signed, and its entries are, in order,
receipts of the org with the ids that were named. -/
theorem buildBundle_convinces (signs : SignsAs s skBytes did) {publicationId publishedAt : String} {receiptIds : List String}
    {bundle : Dict}
    (bundled : buildBundle s publicationId publishedAt receiptIds log did skBytes createdAt = .ok bundle) :
    ∃ checkpoint payload entries, get bundle "checkpoint" = some (.obj checkpoint) ∧
      get checkpoint "payload" = some (.obj payload) ∧ get bundle "disclosed" = some (.arr (entries.map .obj)) ∧
      verifyCheckpointSignature s checkpoint = .ok true ∧
      List.Forall₂ (Shows s log checkpoint payload did) receiptIds entries := by
  have raised {α : Type} {read : Except Exc α} {a : α} (ok : raising read = .ok a) : read = .ok a := by
    cases read <;> cases ok
    rfl
  obtain ⟨_,_,bundled⟩ := bind_success _ _ _ bundled
  obtain ⟨leaves,encoded,bundled⟩ := bind_success _ _ _ bundled
  obtain ⟨entries,disclosed,bundled⟩ := bind_success _ _ _ bundled
  obtain ⟨checkpoint,built,bundled⟩ := bind_success _ _ _ bundled
  obtain rfl := Except.ok.inj bundled
  obtain ⟨verified,leaves',ids,encoded',carried⟩ := buildCheckpoint_signed signs (raised built)
  obtain rfl := Except.ok.inj ((raised encoded).symm.trans encoded')
  exact ⟨checkpoint,_,entries,rfl,carried,rfl,verified,
    (mapM_reads disclosed).imp fun _ _ here => disclose_shows verified carried encoded' here⟩

def ownReceipt : Dict := [("receipt_id",.str "a"),("issuer_did",.str sampleDid)]

def bundleTime : String := "2026-06-01T00:00:00Z"

theorem ownReceipt_published : ∃ bundle payload entry,
    buildBundle pairedServices "p1" bundleTime ["a"] [ownReceipt] sampleDid [] bundleTime = .ok bundle ∧
      get bundle "disclosed" = some (.arr [.obj entry]) ∧
      ∃ checkpoint, Shows pairedServices [ownReceipt] checkpoint payload sampleDid "a" entry := by
  obtain ⟨bundle,bundled⟩ : ∃ bundle,
      buildBundle pairedServices "p1" bundleTime ["a"] [ownReceipt] sampleDid [] bundleTime = .ok bundle := by
    have known : byId [ownReceipt] "a" = some (ownReceipt,0) := rfl
    have own : pyEq (.str sampleDid) ((get ownReceipt "issuer_did").getD .null) = true := by decide +kernel
    have encoded : checkpointLeaves pairedServices [ownReceipt] = .ok [sampleText (.obj ownReceipt)] := rfl
    have disclosed : ∃ entry, disclose pairedServices [ownReceipt] [sampleText (.obj ownReceipt)] sampleDid "a" = .ok entry := by
      rw [disclose,known]
      simp only [own,Bool.not_true,Bool.false_eq_true,if_false]
      rw [auditPath_ok (by simp)]
      exact ⟨_,rfl⟩
    obtain ⟨entry,disclosed⟩ := disclosed
    obtain ⟨checkpoint,built⟩ : ∃ checkpoint, buildCheckpoint pairedServices [ownReceipt] [] sampleDid bundleTime = .ok checkpoint :=
      ⟨_,rfl⟩
    have ids : [ownReceipt].mapM (fun r => hashKey ((get r "receipt_id").getD .null)) = .ok [.str "a"] := rfl
    rw [buildBundle,ids,encoded,built]
    simp only [raising_ok,ok_bind,List.mapM_cons,List.mapM_nil,disclosed]
    exact ⟨_,rfl⟩
  obtain ⟨checkpoint,payload,entries,_,_,listed,_,shown⟩ := buildBundle_convinces paired_signs bundled
  obtain ⟨entry,_,shows,rest,rfl⟩ := List.forall₂_cons_left_iff.mp shown
  obtain rfl := List.forall₂_nil_left_iff.mp rest
  exact ⟨bundle,payload,entry,bundled,listed,checkpoint,shows⟩

end Honest
end Orrery.Merkle
