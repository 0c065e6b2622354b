import Mathlib.Algebra.Order.Ring.Abs
import Orrery.Chapter.Identity
import Orrery.Chapter.PgStore

/-! The signatures of federation peers (server/federation_signing.py): which key a request
or a broadcast is verified under, when the lookup of the peer's pin may fail. -/
namespace Orrery.Federation
open Foundation Json Chapter

abbrev Headers := String → String

def header (headers : Headers) (name lower : String) : String := orText (headers name) (headers lower)

def originHeader (headers : Headers) : String := header headers "X-Chapter-Origin" "x-chapter-origin"
def sigHeader (headers : Headers) : String := header headers "X-Chapter-Signature" "x-chapter-signature"
def tsHeader (headers : Headers) : String := header headers "X-Chapter-Timestamp" "x-chapter-timestamp"
def nonceHeader (headers : Headers) : String := header headers "X-Chapter-Nonce" "x-chapter-nonce"

structure SigningEnv extends Codec where
  canonical : Dict → String
  maxAge : ℚ

structure PeerEntry where
  endpoint : String
  did : Option String

abbrev DidKey := { did : String // startsWith didKeyZ did = true }

section Verification
variable (env : SigningEnv)

def signedMaterial (body : Dict) (ts nonce : String) : String :=
  let text := env.canonical body
  s!"{ts}\n{nonce}\n{text}"

def requestDescriptor (method urlPath origin : String) : Dict :=
  [("method",.str (String.ofList (method.toList.map Char.toUpper))),("path",.str urlPath),("origin",.str origin)]

def iterate : Json → Except Exc (List Json)
  | .arr items => .ok items
  | .obj fields => .ok (fields.map fun field => .str field.1)
  | .str s => .ok (s.toList.map fun c => .str (String.singleton c))
  | value => .error (.typeError s!"'{value.typeName}' object is not iterable")

def publicKeyBase64 (vm : Dict) : Option String :=
  ((get vm "publicKeyBase64").filter truthy).map env.toCodec.str

def keyOf (did : String) : Option String := (extractEd25519PubkeyFromDidKey env.toCodec did).filter (· ≠ "")

def methodKey : Json → Option String
  | .obj vm =>
    match get vm "publicKeyMultibase" with
    | some (.str mb) =>
      if startsWith "z" mb then (keyOf env ("did:key:" ++ mb)).or (publicKeyBase64 env vm) else publicKeyBase64 env vm
    | _ => publicKeyBase64 env vm
  | _ => none

def rstripSlash (s : String) : String := String.ofList (s.toList.reverse.dropWhile (· == '/')).reverse

def wellKnown (endpoint : String) : String := rstripSlash endpoint ++ "/.well-known/did.json"

def fetchPeerPubkey (endpoint : String) (httpGet : String → Option Json) : Except Exc (Option String) :=
  if endpoint = "" then .ok none
  else match httpGet (wellKnown endpoint) with
  | some (.obj doc) => do
    let methods ← iterate (((get doc "verificationMethod").filter truthy).getD (.arr []))
    return methods.findSome? (methodKey env)
  | _ => .ok none

def verificationKey (peerEndpoint : String) (httpGet : String → Option Json) (pinnedDid : Option String) :
    Except Exc (Except String (String × String)) :=
  match pinnedDid.filter (· ≠ "") with
  | some did =>
    match keyOf env did with
    | some pubkey => .ok (.ok (pubkey,"_pinned"))
    | none => .ok (.error "pinned_did_invalid")
  | none =>
    match fetchPeerPubkey env peerEndpoint httpGet with
    | .error e => .error e
    | .ok found =>
      match found.filter (· ≠ "") with
      | some pubkey => .ok (.ok (pubkey,""))
      | none => .ok (.error "peer_key_unavailable")

def verifyUnder (body : Dict) (headers : Headers) (now window : ℚ) (requireReplayProtection : Bool)
    (pubkey okSuffix : String) : Bool × String :=
  let ts := tsHeader headers
  if ts ≠ "" then
    match env.parseInt ts with
    | none => (false,"invalid_timestamp")
    | some tsInt =>
      if |now-tsInt| > window then (false,"stale_timestamp")
      else if ed25519Verify env.toCodec (signedMaterial env body ts (nonceHeader headers))
        (sigHeader headers) pubkey then
        (true,"ok" ++ okSuffix)
      else (false,"invalid_signature")
  else if requireReplayProtection then (false,"missing_timestamp")
  else if ed25519Verify env.toCodec (env.canonical body) (sigHeader headers) pubkey then (true,"ok_legacy" ++ okSuffix)
  else (false,"invalid_signature")

def verifyInbound (body : Dict) (headers : Headers) (peerEndpoint : String) (httpGet : String → Option Json)
    (now window : ℚ) (requireReplayProtection : Bool) (pinnedDid : Option String) : Except Exc (Bool × String) :=
  if sigHeader headers = "" then .ok (false,"missing_signature")
  else match verificationKey env peerEndpoint httpGet pinnedDid with
  | .error e => .error e
  | .ok (.error reason) => .ok (false,reason)
  | .ok (.ok (pubkey,okSuffix)) => .ok (verifyUnder env body headers now window requireReplayProtection pubkey okSuffix)

def getPeerPolicy (rows : List Dict) : DbAnswer → Except Exc (Option Dict)
  | .answered => .ok rows.head?
  | .noAnswer => .ok none
  | .raised _ => .ok none

def pinnedDidFor (policy : Except Exc (Option Dict)) (entry : Option PeerEntry) : Option String × Bool :=
  let did := (entry.bind PeerEntry.did).filter (· ≠ "")
  match policy with
  | .error _ => (did,true)
  | .ok row =>
    match (row.bind fun row => get row "pinned_did").filter truthy with
    | some pin => (some (env.toCodec.str pin),false)
    | none => (did,false)

def verifyPeerRequest (method urlPath : String) (headers : Headers) (federation : String → Option PeerEntry)
    (policies : String → Except Exc (Option Dict)) (httpGet : String → Option Json) (now : ℚ) :
    Except Exc (Bool × String × String) :=
  let sender := originHeader headers
  if sender = "" then .ok (false,"","missing_origin")
  else if sigHeader headers = "" then .ok (false,sender,"missing_signature")
  else match federation sender with
  | none => .ok (false,sender,"unknown_peer")
  | some entry =>
    let (pinnedDid,pinLookupFailed) := pinnedDidFor env (policies sender) (some entry)
    if pinLookupFailed then .ok (false,sender,"pin_lookup_failed")
    else (verifyInbound env (requestDescriptor method urlPath sender) headers entry.endpoint httpGet now env.maxAge true
      pinnedDid).map fun verdict => (verdict.1,sender,verdict.2)

variable {env} {body : Dict} {headers : Headers} {peerEndpoint : String} {httpGet : String → Option Json}
  {now window : ℚ}
  {requireReplayProtection : Bool} {pinnedDid : Option String} {reason : String}

def SignatureOf (env : SigningEnv) (body : Dict) (headers : Headers) (pubkey : String) : Prop :=
  if tsHeader headers ≠ "" then
    ed25519Verify env.toCodec (signedMaterial env body (tsHeader headers) (nonceHeader headers))
      (sigHeader headers) pubkey =
      true
  else ed25519Verify env.toCodec (env.canonical body) (sigHeader headers) pubkey = true

theorem verifyUnder_true {pubkey okSuffix : String}
    (passed : (verifyUnder env body headers now window requireReplayProtection pubkey okSuffix).1 = true) :
    SignatureOf env body headers pubkey := by
  unfold verifyUnder at passed
  unfold SignatureOf
  dsimp only at passed
  split at passed
  next dated =>
    rw [if_pos dated]
    split at passed
    · cases passed
    · split at passed
      · cases passed
      · split at passed
        next verified => exact verified
        next => cases passed
  next undated =>
    rw [if_neg undated]
    split at passed
    · cases passed
    · split at passed
      next verified => exact verified
      next => cases passed

theorem verifyInbound_true (passed :
    verifyInbound env body headers peerEndpoint httpGet now window requireReplayProtection
    pinnedDid = .ok (true,reason)) : ∃ pubkey okSuffix,
      verificationKey env peerEndpoint httpGet pinnedDid = .ok (.ok (pubkey,okSuffix)) ∧
      SignatureOf env body headers pubkey := by
  unfold verifyInbound at passed
  split at passed
  · cases passed
  · split at passed
    · cases passed
    · cases passed
    next pubkey okSuffix found =>
      have verdict := congrArg Prod.fst (Except.ok.inj passed)
      exact ⟨pubkey,okSuffix,found,verifyUnder_true verdict⟩

end Verification

section Pins
variable (env : SigningEnv) (parseFloat : List Char → ℚ) (pinned : DidKey) (entry : Option PeerEntry)
  (answer : DbAnswer)

def policyRow : Dict := [("pinned_did",rowText parseFloat pinned.1)]

def policyOf : Except Exc (Option Dict) := getPeerPolicy [policyRow parseFloat pinned] answer

def entryDid : Option String := (entry.bind PeerEntry.did).filter (· ≠ "")

def entryEndpoint : String := (entry.map PeerEntry.endpoint).getD ""

def SignedByPin (body : Dict) (headers : Headers) : Prop :=
  ∃ pubkey, keyOf env pinned.1 = some pubkey ∧ SignatureOf env body headers pubkey

/-- Whatever the endpoint serves, a request of the peer is accepted only with a signature
of the pinned key. -/
def RequestsPinned (peer : String) : Prop :=
  ∀ method urlPath headers federation policies httpGet now reason, federation peer = entry →
    policies peer = policyOf parseFloat pinned answer → originHeader headers = peer →
    verifyPeerRequest env method urlPath headers federation policies httpGet now = .ok (true,peer,reason) →
    SignedByPin env pinned (requestDescriptor method urlPath peer) headers

def BroadcastsPinned : Prop :=
  ∀ body headers httpGet now window requireReplayProtection did reason,
    pinnedDidFor env (policyOf parseFloat pinned answer) entry = (did,false) →
    verifyInbound env body headers (entryEndpoint entry) httpGet now window requireReplayProtection did =
      .ok (true,reason) →
    SignedByPin env pinned body headers

/-- The pin was read; or the peer's did in memory has its key, or none; or there is neither
a did nor an endpoint. -/
def PinHeld : Prop :=
  answer = .answered ∨ (∃ did, entryDid entry = some did ∧
    (keyOf env did = none ∨ keyOf env did = keyOf env pinned.1)) ∨
    (entryDid entry = none ∧ entryEndpoint entry = "")

/-- Who holds this key can sign everything, with signatures that are not of the pinned key. -/
def SignsApart (pubkey : String) : Prop :=
  ∀ message, ∃ signature, signature ≠ "" ∧ ed25519Verify env.toCodec message signature pubkey = true ∧
    ∀ pin, keyOf env pinned.1 = some pin → ed25519Verify env.toCodec message signature pin = false

variable {env parseFloat pinned entry answer}

theorem pinned_plain (parseFloat : List Char → ℚ) (pinned : DidKey) : rowText parseFloat pinned.1 = .str pinned.1 ∧
    pinned.1 ≠ "" := by
  have starts := pinned.2
  unfold startsWith at starts
  rw [List.isPrefixOf_iff_prefix] at starts
  obtain ⟨rest,whole⟩ := starts
  have first : pinned.1.toList = 'd' :: ("id:key:z".toList ++ rest) := whole.symm
  refine ⟨rowText_plain first (by decide) (by decide),?_⟩
  intro empty
  rw [empty] at first
  cases first

theorem pinnedDidFor_eq : pinnedDidFor env (policyOf parseFloat pinned answer) entry =
    (if answer = .answered then some pinned.1 else entryDid entry,false) := by
  obtain ⟨plain,named⟩ := pinned_plain parseFloat pinned
  cases answer with
  | answered =>
    have truth : (Json.str pinned.1).truthy = true := by simpa [truthy] using named
    have row : (some (policyRow parseFloat pinned)).bind (fun row => get row "pinned_did") = some (.str pinned.1) := by
      simp [policyRow,plain,get_cons]
    unfold pinnedDidFor policyOf getPeerPolicy
    dsimp only [List.head?_cons]
    rw [row,Option.filter_some,if_pos truth]
    rfl
  | noAnswer => rfl
  | raised kind => rfl

theorem verificationKey_held (held : PinHeld env pinned entry answer) {httpGet : String → Option Json}
    {pubkey okSuffix : String}
    (found : verificationKey env (entryEndpoint entry) httpGet
      (if answer = .answered then some pinned.1 else entryDid entry) = .ok (.ok (pubkey,okSuffix))) :
    keyOf env pinned.1 = some pubkey := by
  have named := (pinned_plain (fun _ => 0) pinned).2
  by_cases answered : answer = .answered
  · rw [if_pos answered,verificationKey,Option.filter_some,if_pos (by simpa using named)] at found
    dsimp only at found
    split at found
    next key => cases found; assumption
    next => cases found
  · rw [if_neg answered] at found
    rcases held with read | ⟨did,same,key⟩ | ⟨none,endpoint⟩
    · exact absurd read answered
    · have filled : did ≠ "" := by
        have := (Option.filter_eq_some_iff.mp same).2
        simpa using this
      rw [same,verificationKey,Option.filter_some,if_pos (by simpa using filled)] at found
      dsimp only at found
      rcases key with absent | own
      · rw [absent] at found
        cases found
      · rw [own] at found
        split at found
        next key => cases found; assumption
        next => cases found
    · rw [none,endpoint] at found
      cases found

def serving (pubkey : String) : String → Option Json :=
  fun _ => some (.obj [("verificationMethod",.arr [.obj [("publicKeyBase64",.str pubkey)]])])

theorem fetchPeerPubkey_serving {endpoint pubkey : String} (reachable : endpoint ≠ "") (named : pubkey ≠ "") :
    fetchPeerPubkey env endpoint (serving pubkey) = .ok (some pubkey) := by
  have truth : (Json.str pubkey).truthy = true := by simpa [truthy] using named
  have key : methodKey env (.obj [("publicKeyBase64",.str pubkey)]) = some pubkey := by
    simp [methodKey,publicKeyBase64,Option.filter_some,truth,Codec.str,Json.get]
  unfold fetchPeerPubkey
  rw [if_neg reachable]
  simp [serving,get_cons,Option.filter_some,truthy,iterate,key,bind,Except.bind,pure,Except.pure]

theorem exists_foreign_key {other : String} (named : other ≠ "") (outsider : SignsApart env pinned other)
    (owner : ∀ did key, entryDid entry = some did → keyOf env did = some key → keyOf env pinned.1 ≠ some key →
      SignsApart env pinned key) (lost : ¬ PinHeld env pinned entry answer) :
    ∃ pubkey httpGet okSuffix, SignsApart env pinned pubkey ∧ verificationKey env (entryEndpoint entry) httpGet
      (if answer = .answered then some pinned.1 else entryDid entry) = .ok (.ok (pubkey,okSuffix)) := by
  unfold PinHeld at lost
  rw [not_or,not_or] at lost
  obtain ⟨unread,strange,reachable⟩ := lost
  rw [if_neg unread]
  cases same : entryDid entry with
  | some did =>
    have filled : did ≠ "" := by simpa using (Option.filter_eq_some_iff.mp same).2
    cases key : keyOf env did with
    | none => exact absurd ⟨did,same,Or.inl key⟩ strange
    | some pubkey =>
      have apart : keyOf env pinned.1 ≠ some pubkey := by
        intro own
        exact strange ⟨did,same,Or.inr (by rw [key,own])⟩
      refine ⟨pubkey,fun _ => none,"_pinned",owner did pubkey same key apart,?_⟩
      rw [verificationKey,Option.filter_some,if_pos (by simpa using filled)]
      dsimp only
      rw [key]
  | none =>
    have endpoint : entryEndpoint entry ≠ "" := fun empty => reachable ⟨same,empty⟩
    refine ⟨other,serving other,"",outsider,?_⟩
    rw [verificationKey,Option.filter_none]
    dsimp only
    rw [fetchPeerPubkey_serving endpoint named]
    dsimp only
    rw [Option.filter_some,if_pos (by simpa using named)]

def signedHeaders (origin ts signature : String) : Headers := fun name =>
  if name = "X-Chapter-Origin" then origin
  else if name = "X-Chapter-Signature" then signature
  else if name = "X-Chapter-Timestamp" then ts
  else ""

theorem orText_empty (a : String) : orText a "" = a := by
  unfold orText
  split
  next empty => exact empty.symm
  next => rfl

theorem signedHeaders_values (origin ts signature : String) :
    originHeader (signedHeaders origin ts signature) = origin ∧ sigHeader (signedHeaders origin ts signature) =
      signature ∧
      tsHeader (signedHeaders origin ts signature) = ts ∧ nonceHeader (signedHeaders origin ts signature) = "" := by
  have absent : ∀ name ∈ ["x-chapter-origin","x-chapter-signature","x-chapter-timestamp","X-Chapter-Nonce",
    "x-chapter-nonce"],
      signedHeaders origin ts signature name = "" := by
    intro name inside
    unfold signedHeaders
    simp only [List.mem_cons,List.not_mem_nil,or_false] at inside
    rcases inside with rfl | rfl | rfl | rfl | rfl <;>
      rw [if_neg (by decide),if_neg (by decide),if_neg (by decide)]
  unfold originHeader sigHeader tsHeader nonceHeader header
  rw [absent "x-chapter-origin" (by simp),absent "x-chapter-signature" (by simp),absent "x-chapter-timestamp" (by simp),
    absent "X-Chapter-Nonce" (by simp),absent "x-chapter-nonce"
      (by simp),orText_empty,orText_empty,orText_empty,orText_empty]
  unfold signedHeaders
  refine ⟨if_pos rfl,?_,?_,rfl⟩
  · rw [if_neg (by decide),if_pos rfl]
  · rw [if_neg (by decide),if_neg (by decide),if_pos rfl]

theorem broadcastsPinned_iff {other : String} (named : other ≠ "") (outsider : SignsApart env pinned other)
    (owner : ∀ did key, entryDid entry = some did → keyOf env did = some key → keyOf env pinned.1 ≠ some key →
      SignsApart env pinned key) :
    BroadcastsPinned env parseFloat pinned entry answer ↔ PinHeld env pinned entry answer := by
  constructor
  · intro always
    by_contra lost
    obtain ⟨pubkey,httpGet,okSuffix,apart,found⟩ := exists_foreign_key named outsider owner lost
    obtain ⟨signature,filled,verified,foreign⟩ := apart (env.canonical [])
    obtain ⟨_,shown,undated,_⟩ := signedHeaders_values "" "" signature
    have passes : verifyInbound env [] (signedHeaders "" "" signature) (entryEndpoint entry) httpGet 0 0 false
        (if answer = .answered then some pinned.1 else entryDid entry) = .ok (true,"ok_legacy" ++ okSuffix) := by
      unfold verifyInbound
      rw [if_neg (by rw [shown]; exact filled),found]
      dsimp only
      unfold verifyUnder
      dsimp only
      rw [undated,shown,if_neg (by decide),if_neg (by decide),if_pos verified]
    obtain ⟨pin,own,signed⟩ := always [] _ httpGet 0 0 false _ _ pinnedDidFor_eq passes
    unfold SignatureOf at signed
    rw [undated,shown,if_neg (by decide),foreign pin own] at signed
    cases signed
  · intro held body headers httpGet now window require did reason resolved passed
    rw [pinnedDidFor_eq] at resolved
    cases resolved
    obtain ⟨pubkey,okSuffix,found,signed⟩ := verifyInbound_true passed
    exact ⟨pubkey,verificationKey_held held found,signed⟩

theorem requestsPinned_iff {other peer : String} (named : other ≠ "") (outsider : SignsApart env pinned other)
    (owner : ∀ did key, entryDid entry = some did → keyOf env did = some key → keyOf env pinned.1 ≠ some key →
      SignsApart env pinned key) (presented : peer ≠ "") (zero : env.parseInt "0" = some 0)
        (open_window : 0 ≤ env.maxAge) :
    RequestsPinned env parseFloat pinned entry answer peer ↔ PinHeld env pinned entry answer := by
  constructor
  · intro always
    by_contra lost
    obtain ⟨pubkey,httpGet,okSuffix,apart,found⟩ := exists_foreign_key named outsider owner lost
    obtain ⟨signature,filled,verified,foreign⟩ :=
      apart (signedMaterial env (requestDescriptor "GET" "/api/members" peer) "0" "")
    obtain ⟨origin,shown,dated,once⟩ := signedHeaders_values peer "0" signature
    cases entry with
    | none => exact lost (Or.inr (Or.inr ⟨rfl,rfl⟩))
    | some known =>
      have passes : verifyPeerRequest env "GET" "/api/members" (signedHeaders peer "0" signature) (fun _ => some known)
          (fun _ => policyOf parseFloat pinned answer) httpGet 0 = .ok (true,peer,"ok" ++ okSuffix) := by
        unfold verifyPeerRequest
        dsimp only
        rw [origin,if_neg presented,if_neg (by rw [shown]; exact filled),pinnedDidFor_eq]
        dsimp only
        rw [if_neg (by decide)]
        unfold verifyInbound
        have place : entryEndpoint (some known) = known.endpoint := rfl
        rw [if_neg (by rw [shown]; exact filled),← place,found]
        dsimp only
        unfold verifyUnder
        dsimp only
        rw [dated,shown,once,if_pos (by decide),zero]
        dsimp only
        rw [if_neg (by simpa using open_window),if_pos verified]
        rfl
      obtain ⟨pin,own,signed⟩ := always _ _ _ _ _ httpGet 0 _ rfl rfl origin passes
      unfold SignatureOf at signed
      rw [dated,shown,once,if_pos (by decide),foreign pin own] at signed
      cases signed
  · intro held method urlPath headers federation policies httpGet now reason registered policy origin passed
    unfold verifyPeerRequest at passed
    dsimp only at passed
    rw [origin,registered,policy] at passed
    split at passed
    · cases passed
    split at passed
    · cases passed
    cases entry with
    | none => cases passed
    | some known =>
      dsimp only at passed
      rw [pinnedDidFor_eq] at passed
      dsimp only at passed
      rw [if_neg (by decide)] at passed
      cases verdict : verifyInbound env (requestDescriptor method urlPath peer) headers known.endpoint httpGet now
        env.maxAge true
          (if answer = .answered then some pinned.1 else entryDid (some known)) with
      | error e =>
        rw [verdict] at passed
        cases passed
      | ok result =>
        rw [verdict] at passed
        obtain ⟨valid,text⟩ := result
        cases passed
        obtain ⟨pubkey,okSuffix,found,signed⟩ := verifyInbound_true verdict
        exact ⟨pubkey,verificationKey_held held found,signed⟩

/-- For every peer with a pin, every entry of it in memory and every outcome of the lookup:
its requests, and its broadcasts, are accepted only with signatures of the pinned key,
exactly if the pin was read, or what the code falls back on has the same key or none. -/
theorem never_downgraded_iff {other peer : String} (named : other ≠ "") (outsider : SignsApart env pinned other)
    (owner : ∀ did key, entryDid entry = some did → keyOf env did = some key → keyOf env pinned.1 ≠ some key →
      SignsApart env pinned key) (presented : peer ≠ "") (zero : env.parseInt "0" = some 0)
        (open_window : 0 ≤ env.maxAge) :
    (RequestsPinned env parseFloat pinned entry answer peer ↔ PinHeld env pinned entry answer) ∧
      (BroadcastsPinned env parseFloat pinned entry answer ↔ PinHeld env pinned entry answer) :=
  ⟨requestsPinned_iff named outsider owner presented zero open_window,broadcastsPinned_iff named outsider owner⟩

def plainSigning : SigningEnv where
  toCodec := { plainCodec with parseInt := fun s => if s = "0" then some 0 else none }
  canonical _ := ""
  maxAge := 300

def pinOfA : DidKey := ⟨didKeyZ ++ String.ofList (Char.ofNat 0xed :: Char.ofNat 1 :: List.replicate 32 'a'),by decide⟩

theorem keyOf_pinOfA : keyOf plainSigning pinOfA.1 = some (keyNamed 'a') := by decide +kernel

theorem signsApart_b : SignsApart plainSigning pinOfA (keyNamed 'b') := by
  intro message
  refine ⟨keyNamed 'b',by decide,rfl,?_⟩
  intro pin own
  cases keyOf_pinOfA.symm.trans own
  rfl

def plainEntry : PeerEntry := ⟨"peer",none⟩

theorem nobody_else : ∀ did key, entryDid (some plainEntry) = some did → keyOf plainSigning did = some key →
    keyOf plainSigning pinOfA.1 ≠ some key → SignsApart plainSigning pinOfA key := by
  intro did key absent
  cases absent

theorem pin_read : RequestsPinned plainSigning (fun _ => 0) pinOfA (some plainEntry) .answered "peer" ∧
    BroadcastsPinned plainSigning (fun _ => 0) pinOfA (some plainEntry) .answered := by
  have held : PinHeld plainSigning pinOfA (some plainEntry) .answered := Or.inl rfl
  have presented : "peer" ≠ "" := by decide
  obtain ⟨requests,broadcasts⟩ := never_downgraded_iff (by decide) signsApart_b nobody_else presented rfl (by decide)
  exact ⟨requests.mpr held,broadcasts.mpr held⟩

/-- The database does not answer, and the endpoint's key is taken. -/
theorem pin_unread : ¬ RequestsPinned plainSigning (fun _ => 0) pinOfA (some plainEntry) .noAnswer "peer" ∧
    ¬ BroadcastsPinned plainSigning (fun _ => 0) pinOfA (some plainEntry) .noAnswer := by
  have lost : ¬ PinHeld plainSigning pinOfA (some plainEntry) .noAnswer := by
    rintro (read | ⟨did,absent,_⟩ | ⟨_,endpoint⟩)
    · cases read
    · cases absent
    · exact absurd endpoint (by decide)
  exact ⟨fun always => lost ((requestsPinned_iff (by decide) signsApart_b nobody_else (by decide) rfl (by decide)).mp
    always),
    fun always => lost ((broadcastsPinned_iff (by decide) signsApart_b nobody_else).mp always)⟩

end Pins
end Orrery.Federation
