import Orrery.Arp.ReceiptChain
import Orrery.Foundation.Base64
import Orrery.Vrp.Scoring

/-! Both sides of a co-signature (community_member/cosign.py). The counterparty signs
the receipt without its signature carriers; the issuer inserts the entry before it signs
and takes it out again when it does not corroborate, with whatever that leaves empty. -/
namespace Orrery.Arp
open Foundation Json

section Attaching

def priorWitnesses (evidence : Dict) : List Json :=
  match get evidence "witness_signatures" with
  | some (.arr witnesses) => witnesses
  | _ => []

def witnessedBy (evidence entry : Dict) : Dict :=
  setItem evidence "witness_signatures" (.arr (priorWitnesses evidence ++ [.obj entry]))

def restoredEvidence (evidence : Dict) : Dict :=
  if (priorWitnesses evidence).isEmpty then pop evidence "witness_signatures" else evidence

def restored (receipt evidence : Dict) : Dict :=
  if (restoredEvidence evidence).isEmpty then pop receipt "evidence"
  else setItem receipt "evidence" (.obj (restoredEvidence evidence))

theorem priorWitnesses_some {evidence : Dict} (some : priorWitnesses evidence ≠ []) :
    get evidence "witness_signatures" = .some (.arr (priorWitnesses evidence)) := by
  unfold priorWitnesses at some ⊢
  split
  next witnesses held => exact held
  next => simp_all

theorem attachEntry_obj (s : Signing) {receipt evidence : Dict} (entry : Dict)
    (held : (get receipt "evidence").getD (.obj []) = .obj evidence) : attachEntry s receipt (.obj entry) = do
      if ← s.isCorroborated (setItem receipt "evidence" (.obj (witnessedBy evidence entry))) then
        return (setItem receipt "evidence" (.obj (witnessedBy evidence entry)),true)
      else return (restored receipt evidence,false) := by
  have undone : (if (priorWitnesses evidence).isEmpty then pop evidence "witness_signatures"
      else setItem evidence "witness_signatures" (.arr (priorWitnesses evidence))) = restoredEvidence evidence := by
    unfold restoredEvidence
    split
    next => rfl
    next several => exact setItem_same (priorWitnesses_some (by simpa using several))
  rewrite [restored,← undone,attachEntry,held]
  rfl

theorem attachEntry_nonobj (s : Signing) {receipt : Dict} (entry : Dict)
    (held : ∀ evidence, (get receipt "evidence").getD (.obj []) ≠ .obj evidence) :
    attachEntry s receipt (.obj entry) = .ok (pop receipt "evidence",false) := by
  rw [attachEntry]
  split
  next evidence here => exact absurd here (held evidence)
  next => rfl

/-- The evidence the rollback puts back: there is none, or its witnesses are a list with
an entry, or it has other fields and no witnesses at all. -/
def Restorable (receipt : Dict) : Prop :=
  match get receipt "evidence" with
  | none => True
  | some (.obj evidence) =>
    match get evidence "witness_signatures" with
    | none => evidence ≠ []
    | some (.arr witnesses) => witnesses ≠ []
    | some _ => False
  | some _ => False

theorem pop_evidence_ne {receipt : Dict} {value : Json} (held : get receipt "evidence" = some value) :
    pop receipt "evidence" ≠ receipt := by
  intro same
  have gone := get_pop_self receipt "evidence"
  rw [same,held] at gone
  cases gone

theorem restoredEvidence_eq_iff (evidence : Dict) : restoredEvidence evidence = evidence ↔
    get evidence "witness_signatures" = none ∨ priorWitnesses evidence ≠ [] := by
  unfold restoredEvidence
  split
  next empty =>
    have none_left : priorWitnesses evidence = [] := List.isEmpty_iff.mp empty
    constructor
    · intro same
      refine .inl ?_
      rw [← same]
      exact get_pop_self evidence "witness_signatures"
    · rintro (absent | some)
      · exact pop_absent absent
      · exact absurd none_left some
  next several => simp_all

theorem restored_eq_iff {receipt evidence : Dict} (held : get receipt "evidence" = some (.obj evidence)) :
    restored receipt evidence = receipt ↔ evidence ≠ [] ∧ restoredEvidence evidence = evidence := by
  unfold restored
  constructor
  · intro same
    split at same
    next => exact absurd same (pop_evidence_ne held)
    next filled =>
      have back := get_setItem_self receipt "evidence" (.obj (restoredEvidence evidence))
      rw [same,held] at back
      have kept := Json.obj.inj (Option.some.inj back)
      exact ⟨fun empty => filled (by rw [← kept,empty]; rfl),kept.symm⟩
  · rintro ⟨filled,kept⟩
    rw [kept,if_neg (by simpa using filled)]
    exact setItem_same held

theorem restorable_iff {receipt evidence : Dict} (held : get receipt "evidence" = some (.obj evidence)) :
    Restorable receipt ↔ evidence ≠ [] ∧ restoredEvidence evidence = evidence := by
  rw [restoredEvidence_eq_iff,Restorable,held,priorWitnesses]
  have filled : ∀ {value : Json}, get evidence "witness_signatures" = some value → evidence ≠ [] := by
    rintro value present rfl
    cases present
  cases witnesses : get evidence "witness_signatures" with
  | none => simp [witnesses]
  | some value => cases value <;> simp [witnesses,filled witnesses]

/-- A refused entry leaves the receipt as it was where the rollback can put it back, and
nowhere else. -/
theorem refusedEntry_restores_iff {s : Signing} {receipt receipt' : Dict} {entry : Json}
    (refused : attachEntry s receipt entry = .ok (receipt',false)) :
    receipt' = receipt ↔ (∀ fields, entry ≠ .obj fields) ∨ Restorable receipt := by
  cases entry with
  | obj fields =>
    have none_else : ¬ ∀ other, Json.obj fields ≠ .obj other := fun apart => apart fields rfl
    rw [or_iff_right none_else]
    cases held : get receipt "evidence" with
    | none =>
      rw [attachEntry_obj s fields (show (get receipt "evidence").getD (.obj []) = .obj [] by rw [held]; rfl)] at refused
      obtain ⟨corroborated,_,refused⟩ := bind_success _ _ _ refused
      cases corroborated with
      | true => cases refused
      | false =>
        obtain ⟨rfl,_⟩ := Prod.mk.inj (Except.ok.inj refused)
        have untouched : restored receipt [] = receipt := pop_absent held
        simp [untouched,Restorable,held]
    | some value =>
      cases value with
      | obj evidence =>
        rw [attachEntry_obj s fields (by rw [held]; rfl)] at refused
        obtain ⟨corroborated,_,refused⟩ := bind_success _ _ _ refused
        cases corroborated with
        | true => cases refused
        | false =>
          obtain ⟨rfl,_⟩ := Prod.mk.inj (Except.ok.inj refused)
          rw [restorable_iff held,restored_eq_iff held]
      | _ =>
        rw [attachEntry_nonobj s fields (by simp [held])] at refused
        obtain ⟨rfl,_⟩ := Prod.mk.inj (Except.ok.inj refused)
        simp [Restorable,held,pop_evidence_ne held]
  | _ =>
    obtain ⟨rfl,_⟩ := Prod.mk.inj (Except.ok.inj refused)
    simp

end Attaching

structure Cosigning extends Merkle.Services where
  publicBytes : Bytes → Bytes
  b58encode : Bytes → String
  parseNumber : String → Except Exc Vrp.Number
  recursionLimit : Nat

namespace Cosigning
variable (c : Cosigning)

def host : Vrp.Host where
  canonicalize := c.canonicalize
  sha256 := c.sha256
  b58decode := c.b58decode
  fromPublicBytes := c.fromPublicBytes
  b64decode text := c.b64decode (.str text)
  verify := c.verify
  repr := c.repr
  parseNumber := c.parseNumber
  recursionLimit := c.recursionLimit

def didKeyFromPubkey (pubkey : Bytes) : String := "did:key:z" ++ c.b58encode (Dat.didPrefix ++ pubkey)

def ownDid (skBytes : Bytes) : Except Exc String := do
  let sk ← c.fromPrivateBytes skBytes
  return c.didKeyFromPubkey (c.publicBytes sk)

def signing : Signing where
  toServices := c.toServices
  didFromPrivateKey := c.ownDid
  isCorroborated := Vrp.isCorroborated c.host

def cosignReceipt (receipt : Dict) (signingKeyBytes : Bytes) (witnessDid : Option String) : Except Exc Dict := do
  let sk ← c.fromPrivateBytes signingKeyBytes
  let did := orElse witnessDid (c.didKeyFromPubkey (c.publicBytes sk))
  let payload ← c.canonicalize (.obj (Vrp.corroborationPayload receipt))
  return [("witness_did",.str did),("signature",.str (c.b64encode (c.sign sk payload)))]

def witnessDid (skBytes : Bytes) : Option String → Except Exc String
  | some did => if did = "" then c.ownDid skBytes else .ok did
  | none => c.ownDid skBytes

def makeWitness (receipt : Dict) (skBytes : Bytes) (ownDid : Option String) : Except Exc (Option Dict) := do
  let did ← c.witnessDid skBytes ownDid
  match get receipt "action" with
  | some (.obj action) =>
    let counterparty := (get action "counterparty_did").getD .null
    let issuer := (get receipt "issuer_did").getD .null
    if !issuer.truthy || !pyEq counterparty (.str did) || pyEq counterparty issuer then return none
    else return some (← c.cosignReceipt receipt skBytes (some did))
  | _ => return none

end Cosigning

def entryJson : Option Dict → Json
  | some entry => .obj entry
  | none => .null

section Survival
variable {c : Cosigning}

/-- What a co-signature relies on: encodings are read back, texts that are none are told by
an error the verifier passes over, and a key verifies what it has signed. -/
structure Sound (c : Cosigning) : Prop where
  base58 : ∀ raw, c.b58decode (c.b58encode raw) = .ok raw
  base64 : ∀ raw, c.b64decode (.str (c.b64encode raw)) = .ok raw
  unread : ∀ text e, c.b64decode (.str text) = .error e → Vrp.passedOver e = true
  signs : ∀ raw sk, c.fromPrivateBytes raw = .ok sk → ∃ key, c.fromPublicBytes (c.publicBytes sk) = .ok key ∧
    ∀ message, c.verify key (c.sign sk message) message = true

/-- The receipt names the counterparty, and an issuer that is someone else. -/
structure Names (receipt : Dict) (did : String) : Prop where
  party : ∃ action, get receipt "action" = some (.obj action) ∧ get action "counterparty_did" = some (.str did)
  issuer : ∃ issuer, get receipt "issuer_did" = some issuer ∧ issuer.truthy = true ∧ issuer ≠ .str did

def PlainEvidence (receipt : Dict) : Prop := ∀ value, get receipt "evidence" = some value → ∃ fields, value = .obj fields

theorem pubkeyFromDidKey_didKey (sound : Sound c) (pubkey : Bytes) :
    Vrp.pubkeyFromDidKey c.host (.str (c.didKeyFromPubkey pubkey)) = .ok pubkey := by
  have text : (c.didKeyFromPubkey pubkey).toList = "did:key:z".toList ++ (c.b58encode (Dat.didPrefix ++ pubkey)).toList :=
    String.toList_append
  have rest : String.ofList ((c.didKeyFromPubkey pubkey).toList.drop "did:key:z".length) =
      c.b58encode (Dat.didPrefix ++ pubkey) := by
    rw [text,← String.length_toList,List.drop_left,String.ofList_toList]
  have named : "did:key:z".toList.isPrefixOf (c.didKeyFromPubkey pubkey).toList = true := by
    rw [text,List.isPrefixOf_iff_prefix]
    exact List.prefix_append _ _
  have decoded : c.host.b58decode (c.b58encode (Dat.didPrefix ++ pubkey)) = .ok (Dat.didPrefix ++ pubkey) :=
    sound.base58 _
  rw [Vrp.pubkeyFromDidKey,if_pos named,rest,decoded]
  rfl

theorem corroborationPayload_signed (receipt : Dict) (signature : Json) :
    Vrp.corroborationPayload (setItem receipt "signature" signature) = Vrp.corroborationPayload receipt := by
  rw [Vrp.corroborationPayload,Vrp.corroborationPayload,pop_setItem_self]

theorem withoutWitnesses_witnessed {receipt evidence : Dict} (entry : Dict)
    (held : (get receipt "evidence").getD (.obj []) = .obj evidence) :
    Vrp.withoutWitnesses (setItem receipt "evidence" (.obj (witnessedBy evidence entry))) =
      Vrp.withoutWitnesses receipt := by
  have bare : pop (witnessedBy evidence entry) "witness_signatures" = pop evidence "witness_signatures" :=
    pop_setItem_self _ _ _
  rw [Vrp.withoutWitnesses,get_setItem_self]
  dsimp only
  rw [bare,pop_setItem_self,setItem_setItem,Vrp.withoutWitnesses]
  cases present : get receipt "evidence" with
  | none =>
    rw [present] at held
    obtain rfl := (Json.obj.inj held).symm
    exact pop_absent present
  | some value =>
    rw [present] at held
    obtain rfl := held
    rfl

theorem corroborationPayload_witnessed {receipt evidence : Dict} (entry : Dict)
    (held : (get receipt "evidence").getD (.obj []) = .obj evidence) :
    Vrp.corroborationPayload (setItem receipt "evidence" (.obj (witnessedBy evidence entry))) =
      Vrp.corroborationPayload receipt := by
  rw [Vrp.corroborationPayload,Vrp.corroborationPayload,pop_setItem_other _ _ (by decide)]
  apply withoutWitnesses_witnessed
  rw [get_pop_other _ _ _ (by decide),held]

theorem Names.counterparty {receipt : Dict} {did : String} (names : Names receipt did) (filled : did ≠ "") :
    Vrp.counterparty receipt = .ok (some (.str did)) := by
  obtain ⟨action,acts,party⟩ := names.party
  obtain ⟨issuer,issued,_,other⟩ := names.issuer
  have distinct : pyEq (.str did) issuer = false := by
    rw [Bool.eq_false_iff]
    exact fun same => other (pyEq_str same)
  have opened : Vrp.orEmpty (get receipt "action") = .ok action := by
    rw [acts]
    rfl
  rw [Vrp.counterparty,opened,ok_bind,party,issued]
  simp [truthy,filled,distinct,pure,Except.pure]

theorem Names.congr {receipt other : Dict} {did : String} (names : Names receipt did)
    (same : ∀ key, key ≠ "evidence" → key ≠ "signature" → get other key = get receipt key) : Names other did where
  party := by
    rw [same _ (by decide) (by decide)]
    exact names.party
  issuer := by
    rw [same _ (by decide) (by decide)]
    exact names.issuer

section Entry
variable {sk : Bytes} {key : Bytes} (sound : Sound c) (opened : c.fromPublicBytes (c.publicBytes sk) = .ok key)
include sound opened

theorem cosigned_eq (payload : Bytes) (entry : Dict) :
    Vrp.cosigned c.host (.str (c.didKeyFromPubkey (c.publicBytes sk))) payload entry =
      (fun signature => c.verify key signature payload) <$>
        c.b64decode (.str (c.host.str ((get entry "signature").getD (.str "")))) := by
  rw [Vrp.cosigned,pubkeyFromDidKey_didKey sound,ok_bind,show c.host.fromPublicBytes _ = .ok key from opened,ok_bind]
  rfl

theorem checkWitness_returns (payload : Bytes) (entry : Json) :
    ∃ b, Vrp.checkWitness c.host (.str (c.didKeyFromPubkey (c.publicBytes sk))) payload entry = .ok b := by
  cases entry with
  | obj fields =>
    dsimp only [Vrp.checkWitness]
    rw [cosigned_eq sound opened]
    split
    next =>
      cases read : c.b64decode (.str (c.host.str ((get fields "signature").getD (.str "")))) with
      | ok signature => exact ⟨_,rfl⟩
      | error e => exact ⟨false,if_pos (sound.unread _ e read)⟩
    next => exact ⟨false,rfl⟩
  | _ => exact ⟨false,rfl⟩

theorem isCorroborated_witnessed {receipt evidence entry : Dict} {payload : Bytes}
    (names : Names receipt (c.didKeyFromPubkey (c.publicBytes sk)))
    (held : get receipt "evidence" = some (.obj (witnessedBy evidence entry)))
    (encoded : c.canonicalize (.obj (Vrp.corroborationPayload receipt)) = .ok payload)
    (signed : Vrp.checkWitness c.host (.str (c.didKeyFromPubkey (c.publicBytes sk))) payload (.obj entry) = .ok true) :
    Vrp.isCorroborated c.host receipt = .ok true := by
  have filled : c.didKeyFromPubkey (c.publicBytes sk) ≠ "" := by
    intro empty
    have letters := congrArg String.toList empty
    simp [Cosigning.didKeyFromPubkey] at letters
  have witnesses : Vrp.witnessSignatures receipt = .ok (.arr (priorWitnesses evidence ++ [.obj entry])) := by
    rw [Vrp.witnessSignatures,held]
    have found : (get (witnessedBy evidence entry) "witness_signatures").getD .null =
        .arr (priorWitnesses evidence ++ [.obj entry]) := by
      rw [witnessedBy,get_setItem_self]
      rfl
    have opened : Vrp.orEmpty (some (.obj (witnessedBy evidence entry))) = .ok (witnessedBy evidence entry) := rfl
    rw [opened,ok_bind,found]
    simp [truthy,pure,Except.pure]
  rw [Vrp.isCorroborated,names.counterparty filled,ok_bind]
  dsimp only
  rw [witnesses,ok_bind,show c.host.canonicalize _ = .ok payload from encoded,ok_bind,Vrp.iterate,ok_bind]
  exact anyM_last (fun earlier _ => checkWitness_returns sound opened payload earlier) signed

end Entry

theorem signReceipt_eq {s : Signing} {receipt signed : Dict} {skBytes : Bytes}
    (ran : signReceipt s receipt skBytes = .ok signed) : ∃ signature, signed = setItem receipt "signature" signature := by
  obtain ⟨sk,_,ran⟩ := bind_success _ _ _ ran
  obtain ⟨canonical,_,ran⟩ := bind_success _ _ _ ran
  exact ⟨_,(Except.ok.inj ran).symm⟩

theorem makeWitness_party {receipt : Dict} {did : String} {skBytes : Bytes} {given : Option String}
    {result : Option Dict} (names : Names receipt did) (own : c.ownDid skBytes = .ok did)
    (named : ∀ text, given = some text → text = did) (witnessed : c.makeWitness receipt skBytes given = .ok result) :
    ∃ sk payload, c.fromPrivateBytes skBytes = .ok sk ∧ did = c.didKeyFromPubkey (c.publicBytes sk) ∧
      c.canonicalize (.obj (Vrp.corroborationPayload receipt)) = .ok payload ∧
      result = some [("witness_did",.str did),("signature",.str (c.b64encode (c.sign sk payload)))] := by
  have derived : c.witnessDid skBytes given = .ok did := by
    cases given with
    | none => exact own
    | some text =>
      obtain rfl := named text rfl
      rw [Cosigning.witnessDid]
      split
      · exact own
      · rfl
  obtain ⟨action,acts,party⟩ := names.party
  obtain ⟨issuer,issued,present,other⟩ := names.issuer
  have apart : pyEq (.str did) issuer = false := by
    rw [Bool.eq_false_iff]
    exact fun same => other (pyEq_str same)
  have self : pyEq (.str did) (.str did) = true := by simp [pyEq,hashKey]
  rw [Cosigning.makeWitness,derived,ok_bind,acts] at witnessed
  simp only [party,issued,Option.getD_some,present,apart,self,Bool.not_true,Bool.or_self,Bool.false_eq_true,
    if_false] at witnessed
  obtain ⟨entry,cosigned,witnessed⟩ := bind_success _ _ _ witnessed
  obtain ⟨sk,opened,cosigned⟩ := bind_success _ _ _ cosigned
  obtain ⟨payload,encoded,cosigned⟩ := bind_success _ _ _ cosigned
  obtain ⟨sk',opened',own⟩ := bind_success _ _ _ own
  obtain rfl := Except.ok.inj (opened.symm.trans opened')
  refine ⟨sk,payload,opened,(Except.ok.inj own).symm,encoded,?_⟩
  have filled : did ≠ "" := by
    rintro rfl
    have letters := congrArg String.toList (Except.ok.inj own)
    simp [Cosigning.didKeyFromPubkey] at letters
  rw [← Except.ok.inj witnessed,← Except.ok.inj cosigned,orElse,if_neg filled]

theorem PlainEvidence.fields {receipt : Dict} (plain : PlainEvidence receipt) :
    ∃ evidence, (get receipt "evidence").getD (.obj []) = .obj evidence := by
  cases held : get receipt "evidence" with
  | none => exact ⟨[],rfl⟩
  | some value => exact plain value held

/-- The entry of the named counterparty is kept, and the receipt that is signed with it is
corroborated: neither of the two changes what the counterparty has signed. -/
theorem cosigned_survives (sound : Sound c) {receipt : Dict} {did : String} {skBytes : Bytes} {given : Option String}
    {result : Option Dict} (names : Names receipt did) (plain : PlainEvidence receipt)
    (own : c.ownDid skBytes = .ok did) (named : ∀ text, given = some text → text = did)
    (witnessed : c.makeWitness receipt skBytes given = .ok result) :
    ∃ attached, attachEntry c.signing receipt (entryJson result) = .ok (attached,true) ∧
      ∀ issuerSk signed, signReceipt c.signing attached issuerSk = .ok signed →
        Vrp.isCorroborated c.host signed = .ok true ∧
        Vrp.corroborationPayload signed = Vrp.corroborationPayload receipt := by
  obtain ⟨sk,payload,opened,rfl,encoded,rfl⟩ := makeWitness_party names own named witnessed
  obtain ⟨key,loaded,verifies⟩ := sound.signs _ _ opened
  obtain ⟨evidence,held⟩ := plain.fields
  generalize made : [("witness_did",Json.str (c.didKeyFromPubkey (c.publicBytes sk))),
    ("signature",Json.str (c.b64encode (c.sign sk payload)))] = entry
  have signs : Vrp.checkWitness c.host (.str (c.didKeyFromPubkey (c.publicBytes sk))) payload (.obj entry) =
      .ok true := by
    have signature : (get entry "signature").getD (.str "") = .str (c.b64encode (c.sign sk payload)) := by
      rw [← made]
      rfl
    have signer : (get entry "witness_did").getD .null = .str (c.didKeyFromPubkey (c.publicBytes sk)) := by
      rw [← made]
      rfl
    dsimp only [Vrp.checkWitness]
    rw [signer,if_pos (by simp [pyEq,hashKey]),cosigned_eq sound loaded,signature]
    rw [show c.host.str (.str (c.b64encode (c.sign sk payload))) = c.b64encode (c.sign sk payload) from rfl,sound.base64]
    exact congrArg Except.ok (verifies payload)
  have corroborated : ∀ other : Dict, get other "evidence" = some (.obj (witnessedBy evidence entry)) →
      (∀ key, key ≠ "evidence" → key ≠ "signature" → get other key = get receipt key) →
      Vrp.corroborationPayload other = Vrp.corroborationPayload receipt → Vrp.isCorroborated c.host other = .ok true :=
    fun other there same payloads =>
      isCorroborated_witnessed sound loaded (names.congr same) there (by rw [payloads,encoded]) signs
  refine ⟨setItem receipt "evidence" (.obj (witnessedBy evidence entry)),?_,?_⟩
  · rw [entryJson,attachEntry_obj _ _ held]
    have kept := corroborated _ (get_setItem_self _ _ _) (fun key other _ => get_setItem_other _ _ _ _ other)
      (corroborationPayload_witnessed entry held)
    rw [show c.signing.isCorroborated _ = .ok true from kept,ok_bind]
    rfl
  · intro issuerSk signed ran
    obtain ⟨signature,rfl⟩ := signReceipt_eq ran
    have payloads := (corroborationPayload_signed _ signature).trans (corroborationPayload_witnessed entry held)
    refine ⟨corroborated _ ?_ ?_ payloads,payloads⟩
    · rw [get_setItem_other _ _ _ _ (by decide),get_setItem_self]
    · intro key other unsigned
      rw [get_setItem_other _ _ _ _ unsigned,get_setItem_other _ _ _ _ other]

end Survival

section Sample

def sampleB64 (text : String) : Except Exc Bytes :=
  match Base64.b64decode text with
  | .ok raw => if Base64.b64encode raw = text then .ok raw else .error Base64.incorrectPadding
  | .error _ => .error Base64.incorrectPadding

/-- A signature is the key before the message, and a key's text has a character for each byte. -/
def sampleCosigning : Cosigning where
  b58decode text := .ok (text.toList.map fun char => UInt8.ofNat char.toNat)
  fromPublicBytes raw := .ok raw
  b64decode
    | .str text => sampleB64 text
    | _ => .error (.typeError "a bytes-like object is required")
  canonicalize value := .ok (Merkle.sampleText value)
  verify key signature message := decide (signature = key ++ message)
  repr _ := "?"
  nowIso := "2026-06-01T00:00:00Z"
  sha256 raw := raw
  fromPrivateBytes raw := .ok raw
  sign sk message := sk ++ message
  b64encode := Base64.b64encode
  parseInt _ := none
  publicBytes sk := sk
  b58encode raw := String.ofList (raw.map fun byte => Char.ofNat byte.toNat)
  parseNumber _ := .error (.valueError "could not convert string to float")
  recursionLimit := 1000

theorem sampleB64_encoded (raw : Bytes) : sampleB64 (Base64.b64encode raw) = .ok raw := by
  rw [sampleB64,Base64.b64decode_b64encode]
  exact if_pos rfl

theorem sampleB64_refused {text : String} {e : Exc} (refused : sampleB64 text = .error e) :
    e = Base64.incorrectPadding := by
  unfold sampleB64 at refused
  split at refused
  next =>
    split at refused
    · cases refused
    · exact (Except.error.inj refused).symm
  next => exact (Except.error.inj refused).symm

theorem sampleCosigning_sound : Sound sampleCosigning where
  base58 raw := by
    change Except.ok ((String.ofList (raw.map fun byte => Char.ofNat byte.toNat)).toList.map fun char =>
      UInt8.ofNat char.toNat) = Except.ok raw
    rw [String.toList_ofList,List.map_map]
    exact congrArg Except.ok (List.map_id'' Hex.byte_char raw)
  base64 := sampleB64_encoded
  unread text e refused := by
    rw [sampleB64_refused refused]
    rfl
  signs raw sk opened := ⟨sk,rfl,fun message => by simp [sampleCosigning]⟩

def sampleKey : Bytes := List.replicate 32 66

def samplePeer : String := sampleCosigning.didKeyFromPubkey sampleKey

def sampleReceipt (evidence : Dict) : Dict :=
  [("issuer_did",.str "did:key:z6MkAnn"),("action",.obj [("counterparty_did",.str samplePeer)])] ++ evidence

/-- An entry without a signer is refused on a receipt whose evidence is empty: the evidence
is gone, and what the issuer signs is another document. -/
theorem emptyEvidence_dropped :
    attachEntry sampleCosigning.signing (sampleReceipt [("evidence",.obj [])]) (.obj []) =
      .ok (sampleReceipt [],false) ∧ sampleReceipt [] ≠ sampleReceipt [("evidence",.obj [])] := by
  refine ⟨?_,by simp [sampleReceipt]⟩
  rfl

theorem notedEvidence_restored : ∃ receipt',
    attachEntry sampleCosigning.signing (sampleReceipt [("evidence",.obj [("note",.str "late")])]) (.obj []) =
      .ok (receipt',false) ∧ receipt' = sampleReceipt [("evidence",.obj [("note",.str "late")])] := by
  have refused : attachEntry sampleCosigning.signing (sampleReceipt [("evidence",.obj [("note",.str "late")])])
      (.obj []) = .ok (sampleReceipt [("evidence",.obj [("note",.str "late")])],false) := rfl
  exact ⟨_,refused,(refusedEntry_restores_iff refused).mpr (.inr (List.cons_ne_nil _ _))⟩

/-- The counterparty's entry on a receipt that has an earlier one. -/
theorem samplePeer_corroborates : ∃ result attached,
    sampleCosigning.makeWitness (sampleReceipt [("evidence",.obj [("witness_signatures",.arr [.null])])]) sampleKey none =
      .ok result ∧
    attachEntry sampleCosigning.signing (sampleReceipt [("evidence",.obj [("witness_signatures",.arr [.null])])])
      (entryJson result) = .ok (attached,true) ∧
    ∀ issuerSk signed, signReceipt sampleCosigning.signing attached issuerSk = .ok signed →
      Vrp.isCorroborated sampleCosigning.host signed = .ok true ∧ Vrp.corroborationPayload signed =
        Vrp.corroborationPayload (sampleReceipt [("evidence",.obj [("witness_signatures",.arr [.null])])]) := by
  have witnessed : sampleCosigning.makeWitness
      (sampleReceipt [("evidence",.obj [("witness_signatures",.arr [.null])])]) sampleKey none = .ok (some
      [("witness_did",.str samplePeer),("signature",.str (Base64.b64encode (sampleKey ++ Merkle.sampleText
        (.obj (sampleReceipt [])))))]) := by
    rfl
  have apart : samplePeer ≠ "did:key:z6MkAnn" := by decide
  have names : Names (sampleReceipt [("evidence",.obj [("witness_signatures",.arr [.null])])]) samplePeer :=
    ⟨⟨_,rfl,rfl⟩,⟨_,rfl,rfl,fun same => apart (Json.str.inj same).symm⟩⟩
  obtain ⟨attached,kept,survives⟩ := cosigned_survives sampleCosigning_sound names (fun value held =>
    ⟨_,(Option.some.inj held).symm⟩) rfl (by simp) witnessed
  exact ⟨_,attached,witnessed,kept,survives⟩

end Sample

end Orrery.Arp
