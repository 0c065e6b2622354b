import Mathlib.Algebra.Order.Ring.Abs
import Mathlib.Algebra.Order.Ring.Rat
import Orrery.Chapter.Identity

/-! Rotation of a peer's key (server/federation_policy.py): the verification of an
attestation under the pinned key, and the walk along the chain that a peer publishes. -/
namespace Orrery.Federation.Policy
open Foundation Json Chapter

abbrev Clock := { t : ℚ // 0 ≤ t ∧ t < 2^61 }

structure PeerEnv extends Codec where
  agentId : String
  canonicalize : Dict → Except Exc String
  maxAge : Int

def rotationType : String := "chapter.key.rotation"

def didKey : String := "did:key:"

section Verification
variable (env : PeerEnv)

def rotationSigningMaterial (att : Dict) : Except Exc String :=
  env.canonicalize [("type",.str rotationType),("peer_chapter_id",(get att "peer_chapter_id").getD (.str "")),
    ("old_did",(get att "old_did").getD (.str "")),("new_did",(get att "new_did").getD (.str "")),
    ("issued_at",(get att "issued_at").getD (.int 0))]

def intOf : Json → Option Int
  | .int i => some i
  | .bool b => some (if b then 1 else 0)
  | _ => none

def floatLimit : ℕ := 2^1024-2^970

def ageOf (now : Clock) (issuedAt : Int) : Except Exc ℚ :=
  if issuedAt.natAbs < floatLimit then .ok (now.1-issuedAt)
  else .error (.other "OverflowError" "int too large to convert to float")

def orEmpty (value : Option Json) : Json := (value.filter truthy).getD (.str "")

def pinnedKey (pinnedDid : String) : Option Bytes :=
  let bare := if startsWith didKey pinnedDid then dropStart didKey pinnedDid else pinnedDid
  match env.b58decode (String.ofList (bare.toList.drop 1)) with
  | .ok raw => if multicodecPrefix.isPrefixOf raw then some (raw.drop 2) else none
  | .error _ => none

def signedByPinned (att : Dict) (key : Bytes) : Bool :=
  match env.verifyKey key, rotationSigningMaterial env att, env.b64decode (orEmpty (get att "signature")) with
  | .ok _, .ok material, .ok signature => env.nacl key material signature = .valid
  | _, _, _ => false

def verifyIssued (att : Dict) (pinnedDid : String) (now : Clock) (issuedAt : Int) : Except Exc (Bool × String) := do
  let age ← ageOf now issuedAt
  if age > env.maxAge then return (false,"stale")
  else if age < -env.maxAge then return (false,"future_dated")
  else if (orEmpty (get att "signature")).truthy = false then return (false,"no_signature")
  else match pinnedKey env pinnedDid with
  | none => return (false,"pinned_did_undecodable")
  | some key => return if signedByPinned env att key then (true,"ok") else (false,"signature_not_by_pinned_key")

def verifyRotationAttestation (att : Dict) (peerId : String) (pinnedDid : Option String) (now : Clock) :
    Except Exc (Bool × String) :=
  match pinnedDid.filter (· ≠ "") with
  | none => .ok (false,"no_pin")
  | some pinned =>
    if !eqStr (get att "type") rotationType then .ok (false,"wrong_type")
    else if !eqStr (get att "peer_chapter_id") peerId then .ok (false,"peer_mismatch")
    else if !eqStr (get att "old_did") pinned then .ok (false,"old_did_not_pinned")
    else match orEmpty (get att "new_did") with
    | .str newDid =>
      if startsWith didKey newDid = false ∨ newDid = pinned then .ok (false,"new_did_invalid")
      else match (get att "issued_at").bind intOf with
      | none => .ok (false,"issued_at_invalid")
      | some issuedAt => verifyIssued env att pinned now issuedAt
    | other => .error (.attributeError s!"'{other.typeName}' object has no attribute 'startswith'")

def walkLinks (peerId pinnedDid : String) : List Json → (ℕ → Clock) → String → Except Exc (Bool × String × String)
  | [], _, current => .ok (true,"ok",current)
  | .obj att :: rest, times, current => do
    let (ok,reason) ← verifyRotationAttestation env att peerId (some current) (times 0)
    if ok then walkLinks peerId pinnedDid rest (fun n => times (n+1)) (env.str ((get att "new_did").getD .null))
    else return (false,if reason = "old_did_not_pinned" then "chain_break" else reason,pinnedDid)
  | _ :: _, _, _ => .ok (false,"malformed_entry",pinnedDid)

def walkRotationChain (rotations : List Json) (peerId pinnedDid : String) (times : ℕ → Clock) :
    Except Exc (Bool × String × String) :=
  if rotations = [] then .ok (false,"empty_chain",pinnedDid) else walkLinks env peerId pinnedDid rotations times
    pinnedDid

def acceptRotations (rotations : Option (List Json)) (peerId attestedDid pinnedDid : String) (times : ℕ → Clock) :
    Except Exc (Bool × String) :=
  match rotations with
  | none => .ok (false,"no_chain_published")
  | some rotations => do
    let (ok,reason,finalDid) ← walkRotationChain env rotations peerId pinnedDid times
    return if !ok then (false,reason)
      else if finalDid ≠ attestedDid then (false,"chain_does_not_reach_attested_did")
      else (true,"ok")

end Verification

structure Proves (env : PeerEnv) (peerId : String) (att : Dict) (old new : String) (issuedAt : Int) : Prop where
  kind : get att "type" = some (.str rotationType)
  peer : get att "peer_chapter_id" = some (.str peerId)
  oldDid : get att "old_did" = some (.str old)
  newDid : get att "new_did" = some (.str new)
  pinned : old ≠ ""
  keyed : startsWith didKey new = true
  differs : new ≠ old
  issued : (get att "issued_at").bind intOf = some issuedAt
  bounded : issuedAt.natAbs < floatLimit
  signature : (orEmpty (get att "signature")).truthy = true
  signed : ∃ key, pinnedKey env old = some key ∧ signedByPinned env att key = true

def Fresh (env : PeerEnv) (now : Clock) (issuedAt : Int) : Prop := |now.1-issuedAt| ≤ env.maxAge

section Links
variable {env : PeerEnv} {peerId old new reason : String} {att : Dict} {now : Clock} {issuedAt : Int}

theorem orEmpty_text {value : Option Json} (text : orEmpty value = .str new) (named : new ≠ "") : value =
    some (.str new) := by
  rw [orEmpty] at text
  cases value with
  | none => exact absurd (Json.str.inj text).symm named
  | some v =>
    cases h : truthy v with
    | false =>
      rw [Option.filter_some,if_neg (by rw [h]; exact Bool.false_ne_true)] at text
      exact absurd (Json.str.inj text).symm named
    | true =>
      rw [Option.filter_some,if_pos h] at text
      exact congrArg some text

theorem fresh_iff : Fresh env now issuedAt ↔ ¬ now.1-issuedAt > env.maxAge ∧ ¬ now.1-issuedAt < -env.maxAge := by
  rw [Fresh,abs_le,not_lt,not_lt,and_comm]

theorem verifyIssued_ok : verifyIssued env att old now issuedAt = .ok (true,reason) ↔ reason = "ok" ∧
    issuedAt.natAbs < floatLimit ∧ Fresh env now issuedAt ∧ (orEmpty (get att "signature")).truthy = true ∧
    ∃ key, pinnedKey env old = some key ∧ signedByPinned env att key = true := by
  rw [verifyIssued,ageOf,fresh_iff]
  by_cases bounded : issuedAt.natAbs < floatLimit
  · rw [if_pos bounded,ok_bind]
    split
    next stale => exact iff_of_false (fun refused => nomatch refused) fun holds => holds.2.2.1.1 stale
    next young =>
    split
    next ahead => exact iff_of_false (fun refused => nomatch refused) fun holds => holds.2.2.1.2 ahead
    next past =>
    split
    next unsigned => exact iff_of_false (fun refused => nomatch refused) fun holds => by simp [unsigned] at holds
    next present =>
    have shown : (orEmpty (get att "signature")).truthy = true := by simpa using present
    split
    next undecodable => exact iff_of_false (fun refused => nomatch refused) fun holds => by simp [undecodable] at holds
    next key decoded =>
    rw [decoded]
    split
    next signed =>
      constructor
      · intro same
        cases same
        exact ⟨rfl,bounded,⟨young,past⟩,shown,key,rfl,signed⟩
      · rintro ⟨rfl,-⟩
        rfl
    next unsigned =>
      refine iff_of_false (fun refused => nomatch refused) ?_
      rintro ⟨-,-,-,-,other,same,signed⟩
      cases same
      exact unsigned signed
  · rw [if_neg bounded]
    exact iff_of_false (fun raised => nomatch raised) fun holds => bounded holds.2.1

theorem verifyRotationAttestation_ok : verifyRotationAttestation env att peerId (some old) now = .ok (true,reason) ↔
    reason = "ok" ∧ ∃ new issuedAt, Proves env peerId att old new issuedAt ∧ Fresh env now issuedAt := by
  constructor
  · intro accepted
    rw [verifyRotationAttestation] at accepted
    split at accepted
    · cases accepted
    next pinned filled =>
    obtain ⟨same,named⟩ := Option.filter_eq_some_iff.mp filled
    cases same
    split at accepted
    · cases accepted
    next kind =>
    split at accepted
    · cases accepted
    next peer =>
    split at accepted
    · cases accepted
    next oldDid =>
    split at accepted
    next newDid text =>
      split at accepted
      · cases accepted
      next valid =>
      split at accepted
      · cases accepted
      next issuedAt issued =>
      obtain ⟨ok,bounded,fresh,signature,signed⟩ := verifyIssued_ok.mp accepted
      rw [not_or,Bool.not_eq_false] at valid
      have filled : newDid ≠ "" := by
        rintro rfl
        exact absurd valid.1 (by decide)
      exact ⟨ok,newDid,issuedAt,⟨(eqStr_iff _ _).mp (by simpa using kind),(eqStr_iff _ _).mp (by simpa using peer),
        (eqStr_iff _ _).mp (by simpa using oldDid),orEmpty_text text filled,by simpa using named,valid.1,valid.2,issued,
        bounded,signature,signed⟩,fresh⟩
    · cases accepted
  · rintro ⟨rfl,new,issuedAt,proves,fresh⟩
    have pinned : (some old).filter (· ≠ "") = some old := by simp [proves.pinned]
    have filled : new ≠ "" := by
      rintro rfl
      exact absurd proves.keyed (by decide)
    have text : orEmpty (some (.str new)) = .str new := by
      have kept : truthy (.str new) = true := bne_iff_ne.mpr filled
      rw [orEmpty,Option.filter_some,if_pos kept]
      rfl
    rw [verifyRotationAttestation,pinned]
    dsimp only
    rw [(eqStr_iff _ _).mpr proves.kind,(eqStr_iff _ _).mpr proves.peer,(eqStr_iff _ _).mpr proves.oldDid,
      proves.newDid,text]
    simp only [Bool.not_true,Bool.false_eq_true,if_false,proves.keyed,proves.differs,Bool.true_eq_false,or_self,
      proves.issued]
    exact verifyIssued_ok.mpr ⟨rfl,proves.bounded,fresh,proves.signature,proves.signed⟩

def Leads (env : PeerEnv) (peerId : String) : List Json → (ℕ → Clock) → String → String → Prop
  | [], _, current, final => current = final
  | item :: rest, times, current, final => ∃ att next issuedAt, item = .obj att ∧
      Proves env peerId att current next issuedAt ∧
      Fresh env (times 0) issuedAt ∧ Leads env peerId rest (fun n => times (n+1)) next final

theorem walkLinks_ok {pinnedDid final : String} (rotations : List Json) : ∀ (times : ℕ → Clock) (current : String),
    walkLinks env peerId pinnedDid rotations times current = .ok (true,reason,final) ↔
      reason = "ok" ∧ Leads env peerId rotations times current final := by
  induction rotations with
  | nil =>
    intro times current
    rw [walkLinks,Leads,Except.ok.injEq,Prod.mk.injEq,Prod.mk.injEq,and_iff_right rfl,eq_comm (a := "ok")]
  | cons item rest ih =>
    intro times current
    constructor
    · intro walked
      unfold walkLinks at walked
      split at walked
      next same => cases same
      next att rest' same =>
        cases same
        obtain ⟨⟨ok,why⟩,verified,walked⟩ := bind_success _ _ _ walked
        dsimp only at walked
        split at walked
        next yes =>
          rw [yes] at verified
          obtain ⟨-,next,issuedAt,proves,fresh⟩ := verifyRotationAttestation_ok.mp verified
          rw [proves.newDid] at walked
          obtain ⟨same,leads⟩ := (ih _ _).mp walked
          exact ⟨same,att,next,issuedAt,rfl,proves,fresh,leads⟩
        next => cases walked
      next => cases walked
    · rintro ⟨rfl,att,next,issuedAt,rfl,proves,fresh,leads⟩
      rw [walkLinks,verifyRotationAttestation_ok.mpr ⟨rfl,next,issuedAt,proves,fresh⟩,ok_bind]
      dsimp only
      rw [if_pos rfl,proves.newDid]
      exact (ih _ _).mpr ⟨rfl,leads⟩

theorem walkRotationChain_ok {pinnedDid final : String} {rotations : List Json} {times : ℕ → Clock} :
    walkRotationChain env rotations peerId pinnedDid times = .ok (true,reason,final) ↔
      rotations ≠ [] ∧ reason = "ok" ∧ Leads env peerId rotations times pinnedDid final := by
  unfold walkRotationChain
  split
  next none => exact iff_of_false (fun refused => nomatch refused) fun holds => holds.1 none
  next some => rw [walkLinks_ok,and_iff_right some]

theorem acceptRotations_ok {attestedDid pinnedDid : String} {rotations : Option (List Json)} {times : ℕ → Clock} :
    acceptRotations env rotations peerId attestedDid pinnedDid times = .ok (true,reason) ↔ reason = "ok" ∧
      ∃ chain, rotations = some chain ∧ chain ≠ [] ∧ Leads env peerId chain times pinnedDid attestedDid := by
  constructor
  · intro accepted
    unfold acceptRotations at accepted
    split at accepted
    · cases accepted
    next chain =>
    obtain ⟨⟨ok,why,final⟩,walked,accepted⟩ := bind_success _ _ _ accepted
    dsimp only at accepted
    split at accepted
    · cases accepted
    next yes =>
    split at accepted
    · cases accepted
    next reached =>
    cases accepted
    rw [Bool.not_eq_true,Bool.not_eq_false'] at yes
    rw [yes] at walked
    obtain ⟨some,-,leads⟩ := walkRotationChain_ok.mp walked
    rw [not_not] at reached
    rw [reached] at leads
    exact ⟨rfl,chain,rfl,some,leads⟩
  · rintro ⟨rfl,chain,rfl,some,leads⟩
    rw [acceptRotations,walkRotationChain_ok.mpr ⟨some,rfl,leads⟩,ok_bind]
    dsimp only
    rw [if_neg (by decide),if_neg (not_not.mpr rfl)]
    rfl

end Links

end Orrery.Federation.Policy
