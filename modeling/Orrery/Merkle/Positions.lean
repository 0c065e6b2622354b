import Orrery.Merkle.Membership

/-! The position an inclusion proof claims. The chapter signs the size of its
log, the verifier takes size and index from the proof. -/
namespace Orrery.Merkle
open Foundation Json

theorem checkpointLeaves_length {s : Services} {log : List Dict} : ∀ {leaves : List Bytes},
    checkpointLeaves s log = .ok leaves → leaves.length = log.length := by
  induction log with
  | nil =>
    intro leaves encoded
    cases encoded
    rfl
  | cons first log ih =>
    intro leaves encoded
    rw [checkpointLeaves,List.mapM_cons] at encoded
    obtain ⟨own,_,encoded⟩ := bind_success _ _ _ encoded
    obtain ⟨others,ofRest,encoded⟩ := bind_success _ _ _ encoded
    cases encoded
    simp [ih ofRest]

theorem checkpointLeaves_get {s : Services} {log : List Dict} : ∀ {leaves : List Bytes} {i : Nat} {leaf : Bytes},
    checkpointLeaves s log = .ok leaves → leaves[i]? = some leaf →
      ∃ receipt, log[i]? = some receipt ∧ s.canonicalize (.obj receipt) = .ok leaf := by
  induction log with
  | nil =>
    intro leaves i leaf encoded found
    cases encoded
    simp at found
  | cons first log ih =>
    intro leaves i leaf encoded found
    rw [checkpointLeaves,List.mapM_cons] at encoded
    obtain ⟨own,ofFirst,encoded⟩ := bind_success _ _ _ encoded
    obtain ⟨others,ofRest,encoded⟩ := bind_success _ _ _ encoded
    cases encoded
    cases i with
    | zero =>
      obtain rfl : own = leaf := by simpa using found
      exact ⟨first,by simp,ofFirst⟩
    | succ i =>
      obtain ⟨receipt,stands,leafOf⟩ := ih ofRest (by simpa using found)
      exact ⟨receipt,by simpa using stands,leafOf⟩

def signedTreeSize (s : Services) (checkpoint : Dict) : Except Exc Int := do
  match ← item checkpoint "payload" with
  | .obj payload => toInt s (← item payload "tree_size")
  | other => .error (noAttribute other "get")

theorem pyEq_toInt {s : Services} {n : Int} {value : Json} (same : pyEq (.int n) value = true) :
    toInt s value = .ok n := by
  cases value with
  | bool b =>
    have equal : (n : ℚ) = if b then 1 else 0 := by simpa [pyEq,hashKey] using same
    cases b <;> simp_all [toInt]
  | int i =>
    have equal : (n : ℚ) = i := by simpa [pyEq,hashKey] using same
    simp [toInt,Int.cast_injective equal]
  | float q =>
    have equal : (n : ℚ) = q := by simpa [pyEq,hashKey] using same
    simp [toInt,← equal]
  | null => simp [pyEq,hashKey] at same
  | str text => simp [pyEq,hashKey] at same
  | arr items => simp [pyEq,hashKey] at same
  | obj fields => simp [pyEq,hashKey] at same

theorem Builds.treeSize {s : Services} {log : List Dict} {payload : Dict} (builds : Builds s log payload) :
    ("tree_size",.int log.length) ∈ payload := by
  obtain ⟨skBytes,signerDid,createdAt,checkpoint,made,named⟩ := builds
  obtain ⟨leaves,_,made⟩ := bind_success _ _ _ made
  obtain ⟨receiptIds,_,made⟩ := bind_success _ _ _ made
  obtain ⟨sk,_,made⟩ := bind_success _ _ _ made
  obtain ⟨message,_,made⟩ := bind_success _ _ _ made
  cases made
  obtain rfl : checkpointPayload signerDid createdAt log.length (merkleRoot s.sha256 leaves) receiptIds = payload := by
    simpa [Json.get] using named
  simp [checkpointPayload]

theorem signedTreeSize_built {s : Services} {log : List Dict} {checkpoint payload built : Dict}
    (carried : get checkpoint "payload" = some (.obj payload)) (builds : Builds s log built)
    (equal : pyEq (.obj built) (.obj payload) = true) : signedTreeSize s checkpoint = .ok log.length := by
  rw [pyEq,Bool.and_eq_true] at equal
  obtain ⟨found,at_key,same⟩ := pyEqFields_get equal.2 builds.treeSize
  have payloadItem : item checkpoint "payload" = .ok (.obj payload) := by simp [item,carried]
  have sizeItem : item payload "tree_size" = .ok found := by simp [item,at_key]
  simp only [signedTreeSize,payloadItem,sizeItem,bind,Except.bind]
  exact pyEq_toInt same

structure InPosition (log : List Dict) (receipt : Dict) (claimed : InclusionArguments) : Prop where
  size : claimed.treeSize = log.length
  least : 0 ≤ claimed.leafIndex
  below : claimed.leafIndex < log.length
  stands : ∃ other, log[claimed.leafIndex.toNat]? = some other ∧ pyEq (.obj receipt) (.obj other) = true

/-- An accepted proof binds its position exactly if it names the signed size and
an index that is not negative. -/
theorem verifyMembership_position (s : Services) (log : List Dict) (receipt checkpoint proof : Dict)
    (free : CollisionFree s.sha256 (checkpointHashed s log ++ membershipHashed s receipt proof))
    (jcs : JcsInjective s (Encoded s log receipt checkpoint)) (unforgeable : Unforgeable s log checkpoint)
    (result : MembershipResult) (verified : verifyMembership s receipt checkpoint proof = .ok result)
    (accepted : result.ok = true) : ∃ claimed, inclusionArguments s receipt proof = .ok claimed ∧
      (InPosition log receipt claimed ↔
        signedTreeSize s checkpoint = .ok claimed.treeSize ∧ 0 ≤ claimed.leafIndex) := by
  obtain ⟨payload,built,leaves,claimed,carried,builds,equal,logged,read,leafOf,included⟩ :=
    verifyMembership_committed jcs unforgeable verified accepted
  have signed := signedTreeSize_built carried builds equal
  have length := checkpointLeaves_length logged
  refine ⟨claimed,read,?_⟩
  constructor
  · intro stands
    rw [stands.size]
    exact ⟨signed,stands.least⟩
  · intro bound
    obtain ⟨named,least⟩ := bound
    have size : claimed.treeSize = log.length := Except.ok.inj (named.symm.trans signed)
    have index : (claimed.leafIndex.toNat : Int) = claimed.leafIndex := Int.toNat_of_nonneg least
    rw [checkpointHashed,logged,membershipHashed,read] at free
    dsimp only at free
    rw [size,← length,← index] at free included
    obtain ⟨below,found,_⟩ := verifyInclusion_sound s.sha256 leaves claimed.leaf _ claimed.proof free included
    obtain ⟨other,stands,otherLeaf⟩ := checkpointLeaves_get logged found
    refine ⟨size,least,?_,other,stands,?_⟩
    · omega
    · exact jcs receipt other claimed.leaf .receipt (.logged other (List.mem_of_getElem? stands)) leafOf otherLeaf

def proofNaming (leafIndex treeSize : Int) : Dict :=
  ("leaf_index",.int leafIndex) :: ("tree_size",.int treeSize) :: sampleProof.drop 2

theorem proofNaming_arguments (leafIndex treeSize : Int) :
    inclusionArguments sampleServices (sampleReceipt "b") (proofNaming leafIndex treeSize) =
      .ok ⟨sampleLeaf "b",leafIndex,treeSize,[leafHash head32 (sampleLeaf "a")]⟩ := by
  have leaf : receiptLeaf sampleServices (sampleReceipt "b") = .ok (sampleLeaf "b") := rfl
  have index : item (proofNaming leafIndex treeSize) "leaf_index" = .ok (.int leafIndex) := rfl
  have size : item (proofNaming leafIndex treeSize) "tree_size" = .ok (.int treeSize) := rfl
  have nodes : get (proofNaming leafIndex treeSize) "proof" =
      some (.arr [.str (Hex.hex (leafHash head32 (sampleLeaf "a")))]) := rfl
  have node : bytesFromHex (.str (Hex.hex (leafHash head32 (sampleLeaf "a")))) =
      .ok (leafHash head32 (sampleLeaf "a")) := Hex.fromHex_hex _
  simp [inclusionArguments,leaf,index,size,nodes,node,toInt,elements,bind,Except.bind,pure,Except.pure]

theorem misplaced_arguments : inclusionArguments sampleServices (sampleReceipt "b") sampleProof =
    .ok ⟨sampleLeaf "b",-1,1,[leafHash head32 (sampleLeaf "a")]⟩ := proofNaming_arguments (-1) 1

/-- A proof for the second receipt of two names index -1 in a log of one receipt. -/
theorem sampleProof_misplaced :
    CollisionFree sampleServices.sha256 (checkpointHashed sampleServices sampleLog ++
        membershipHashed sampleServices (sampleReceipt "b") sampleProof) ∧
      JcsInjective sampleServices (Encoded sampleServices sampleLog (sampleReceipt "b") sampleCheckpoint) ∧
      Unforgeable sampleServices sampleLog sampleCheckpoint ∧
      verifyMembership sampleServices (sampleReceipt "b") sampleCheckpoint sampleProof = .ok .accepted ∧
      ∃ claimed, inclusionArguments sampleServices (sampleReceipt "b") sampleProof = .ok claimed ∧
        claimed.leafIndex = -1 ∧ claimed.treeSize = 1 ∧ ¬ InPosition sampleLog (sampleReceipt "b") claimed := by
  refine ⟨sample_free,sample_injective,sample_unforgeable,sample_accepted,_,misplaced_arguments,rfl,rfl,?_⟩
  intro stands
  have least := stands.least
  contradiction

theorem honestProof_bound : ∃ claimed,
    inclusionArguments sampleServices (sampleReceipt "b") (proofNaming 1 2) = .ok claimed ∧
      InPosition sampleLog (sampleReceipt "b") claimed := by
  have free : CollisionFree sampleServices.sha256 (checkpointHashed sampleServices sampleLog ++
      membershipHashed sampleServices (sampleReceipt "b") (proofNaming 1 2)) := by
    refine ⟨head32_size,?_⟩
    rw [sample_hashed]
    decide +kernel
  have accepted : verifyMembership sampleServices (sampleReceipt "b") sampleCheckpoint (proofNaming 1 2) =
      .ok .accepted := by
    decide +kernel
  obtain ⟨claimed,read,bound⟩ := verifyMembership_position sampleServices sampleLog (sampleReceipt "b")
    sampleCheckpoint (proofNaming 1 2) free sample_injective sample_unforgeable .accepted accepted rfl
  refine ⟨claimed,read,bound.mpr ?_⟩
  obtain rfl := Except.ok.inj ((proofNaming_arguments 1 2).symm.trans read)
  exact ⟨rfl,by decide⟩

end Orrery.Merkle
