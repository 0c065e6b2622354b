import Orrery.Foundation.Chains
import Orrery.Foundation.Hex
import Orrery.Foundation.Runs
import Orrery.Merkle.Membership

/-! The receipts of the Agency Log (community_member/arp.py, interactions.py, cosign.py).
A recording reads the tip of its issuer's chain, asks the counterparty to co-sign,
then signs and appends; other recordings go on in between. The receipt_json column
is kept decoded, and the rows are in the order of their rowid. -/
namespace Orrery.Arp
open Foundation Json Chains

abbrev Bytes := Merkle.Bytes

structure Signing extends Merkle.Services where
  didFromPrivateKey : Bytes → Except Exc String
  isCorroborated : Dict → Except Exc Bool

def arpVersion : String := "arp/0.1"

structure ReceiptRow where
  receiptId : String
  issuerDid : String
  principalDid : String
  issuedAt : String
  category : String
  summary : String
  receipt : Dict

abbrev Receipts := List ReceiptRow

def receiptChainLink (s : Signing) (receipt : Dict) : Except Exc String := do
  let canonical ← s.canonicalize (.obj receipt)
  return "sha256:" ++ Hex.hex (s.sha256 canonical)

def ofIssuer (log : Receipts) (issuerDid : String) : List Dict :=
  (log.filter fun row => row.issuerDid == issuerDid).map (·.receipt)

def tip (s : Signing) (log : Receipts) (issuerDid : String) : Except Exc (Option String) :=
  match (ofIssuer log issuerDid).getLast? with
  | none => .ok none
  | some receipt => do return some (← receiptChainLink s receipt)

def textItem (d : Dict) (key : String) : Except Exc String := do
  match ← item d key with
  | .str text => return text
  | other => .error (.other "ProgrammingError" s!"Error binding parameter: type '{other.typeName}' is not supported")

def receiptRow (receipt : Dict) : Except Exc ReceiptRow := do
  let receiptId ← textItem receipt "receipt_id"
  let issuerDid ← textItem receipt "issuer_did"
  let principalDid ← textItem receipt "principal_did"
  let issuedAt ← textItem receipt "issued_at"
  match ← item receipt "action" with
  | .obj action =>
    return ⟨receiptId,issuerDid,principalDid,issuedAt,← textItem action "category",← textItem action "human_summary",
      receipt⟩
  | other => .error (.typeError s!"'{other.typeName}' object is not subscriptable")

def append (log : Receipts) (receipt : Dict) : Except Exc Receipts := do
  let row ← receiptRow receipt
  return if log.any (fun old => old.receiptId == row.receiptId) then log else log ++ [row]

structure Interaction where
  skBytes : Bytes
  counterpartyDid : String
  counterpartyLabel : String
  summary : String
  category : String
  outcome : String
  cosign : Bool
  receiptId : Option String
  issuedAt : Option String
  authorityChain : Option (List String)
  evidence : Option Dict
  previousReceiptHash : Option (Option String)
  jurisdiction : Option Dict
  accessibility : Option Dict
  extensions : Option Dict

def orElse (given : Option String) (fallback : String) : String :=
  match given with
  | some text => if text = "" then fallback else text
  | none => fallback

def optionalField (key : String) (value : Option Json) : Dict := (value.map fun v => (key,v)).toList

def buildReceipt (action : Dict) (issuerDid principalDid : String) (call : Interaction) (uuid now : String)
    (previousReceiptHash : Option String) : Dict :=
  [("version",.str arpVersion),("receipt_id",.str (orElse call.receiptId uuid)),("issuer_did",.str issuerDid),
    ("principal_did",.str principalDid),("issued_at",.str (orElse call.issuedAt now)),("action",.obj action)] ++
  optionalField "authority_chain" (call.authorityChain.map fun names => .arr (names.map .str)) ++
  optionalField "evidence" (call.evidence.map .obj) ++
  optionalField "previous_receipt_hash" (previousReceiptHash.map .str) ++
  optionalField "jurisdiction" (call.jurisdiction.map .obj) ++
  optionalField "accessibility" (call.accessibility.map .obj) ++
  optionalField "extensions" (call.extensions.map .obj)

def previousHash (s : Signing) (log : Receipts) (issuerDid : String) (call : Interaction) :
    Except Exc (Option String) :=
  match call.previousReceiptHash with
  | some given => .ok given
  | none => tip s log issuerDid

def buildInteractionReceipt (s : Signing) (log : Receipts) (call : Interaction) (uuid now : String) :
    Except Exc (String × Dict) := do
  let issuerDid ← s.didFromPrivateKey call.skBytes
  let previous ← previousHash s log issuerDid call
  let action := [("category",.str call.category),("human_summary",.str call.summary),("outcome",.str call.outcome),
    ("counterparty_did",.str call.counterpartyDid),("counterparty_label",.str call.counterpartyLabel)]
  return (issuerDid,buildReceipt action issuerDid issuerDid call uuid now previous)

/-- The counterparty's entry stays only if the receipt is then corroborated. -/
def attachEntry (s : Signing) (receipt : Dict) : Json → Except Exc (Dict × Bool)
  | .obj entry =>
    match (get receipt "evidence").getD (.obj []) with
    | .obj evidence => do
      let witnesses := match get evidence "witness_signatures" with
        | some (.arr witnesses) => witnesses
        | _ => []
      let signed := setItem evidence "witness_signatures" (.arr (witnesses ++ [.obj entry]))
      if ← s.isCorroborated (setItem receipt "evidence" (.obj signed)) then
        return (setItem receipt "evidence" (.obj signed),true)
      else
        let evidence := if witnesses.isEmpty then pop evidence "witness_signatures"
          else setItem evidence "witness_signatures" (.arr witnesses)
        return (if evidence.isEmpty then pop receipt "evidence" else setItem receipt "evidence" (.obj evidence),false)
    | _ => .ok (pop receipt "evidence",false)
  | _ => .ok (receipt,false)

def signReceipt (s : Signing) (receipt : Dict) (skBytes : Bytes) : Except Exc Dict := do
  let sk ← s.fromPrivateBytes skBytes
  let canonical ← s.canonicalize (.obj (pop receipt "signature"))
  return setItem receipt "signature" (.str (s.b64encode (s.sign sk canonical)))

def finalizeInteraction (s : Signing) (log : Receipts) (receipt : Dict) (skBytes : Bytes) : Except Exc Receipts := do
  append log (← signReceipt s receipt skBytes)

/-- `built` and `witnessed` hold the issuer, the unsigned receipt and how many receipts
the issuer had when the tip was read. -/
inductive RecordPhase
  | starting
  | built (issuerDid : String) (receipt : Dict) (seen : Nat)
  | witnessed (issuerDid : String) (receipt : Dict) (seen : Nat)
  | ended

structure Recording where
  call : Interaction
  phase : RecordPhase

structure Recordings where
  log : Receipts
  calls : List Recording

def Recordings.empty : Recordings := ⟨[],[]⟩

inductive RecordMove
  | call (call : Interaction)
  | build (i : Nat) (uuid now : String)
  | cosign (i : Nat) (entry : Json)
  | append (i : Nat)

def Recordings.turn (s : Recordings) (i : Nat) (call : Interaction) (phase : RecordPhase) : Recordings :=
  { s with calls := s.calls.set i ⟨call,phase⟩ }

def Recording.ready (r : Recording) : Option (String × Dict × Nat) :=
  match r.phase with
  | .built issuerDid receipt seen => if r.call.cosign then none else some (issuerDid,receipt,seen)
  | .witnessed issuerDid receipt seen => some (issuerDid,receipt,seen)
  | _ => none

def Recordings.step (s : Signing) (r : Recordings) : RecordMove → Option Recordings
  | .call call => some { r with calls := r.calls ++ [⟨call,.starting⟩] }
  | .build i uuid now =>
    match r.calls[i]? with
    | some ⟨call,.starting⟩ =>
      match buildInteractionReceipt s r.log call uuid now with
      | .ok (issuerDid,receipt) => some (r.turn i call (.built issuerDid receipt (ofIssuer r.log issuerDid).length))
      | .error _ => some (r.turn i call .ended)
    | _ => none
  | .cosign i entry =>
    match r.calls[i]? with
    | some ⟨call,.built issuerDid receipt seen⟩ =>
      if call.cosign then
        match attachEntry s receipt entry with
        | .ok (receipt,_) => some (r.turn i call (.witnessed issuerDid receipt seen))
        | .error _ => some (r.turn i call .ended)
      else none
    | _ => none
  | .append i =>
    match r.calls[i]? with
    | some recording =>
      match recording.ready with
      | some (_,receipt,_) =>
        match finalizeInteraction s r.log receipt recording.call.skBytes with
        | .ok log => some (Recordings.turn ⟨log,r.calls⟩ i recording.call .ended)
        | .error _ => some (r.turn i recording.call .ended)
      | none => none
    | none => none

def Follows (s : Signing) (previous : Option Dict) (receipt : Dict) : Prop :=
  match previous with
  | none => get receipt "previous_receipt_hash" = none
  | some before => ∃ link, receiptChainLink s before = .ok link ∧ get receipt "previous_receipt_hash" = some (.str link)

/-- Every issuer's receipts are one chain, in the order they were inserted. -/
def OneChain (s : Signing) (log : Receipts) : Prop := ∀ issuerDid, Linked (Follows s) none (ofIssuer log issuerDid)

def Unraced (r : Recordings) : RecordMove → Prop
  | .append i => ∀ recording ∈ r.calls[i]?, recording.call.previousReceiptHash = none ∧
    ∀ draft ∈ recording.ready, (ofIssuer r.log draft.1).length = draft.2.2
  | _ => True

structure Drafted (s : Signing) (log : Receipts) (call : Interaction) (issuerDid : String) (receipt : Dict)
    (seen : Nat) : Prop where
  issuer : get receipt "issuer_did" = some (.str issuerDid)
  old : seen ≤ (ofIssuer log issuerDid).length
  follows : call.previousReceiptHash = none → Follows s ((ofIssuer log issuerDid).take seen).getLast? receipt

def RecordPhase.Sound (s : Signing) (log : Receipts) (call : Interaction) : RecordPhase → Prop
  | .built issuerDid receipt seen | .witnessed issuerDid receipt seen => Drafted s log call issuerDid receipt seen
  | _ => True

structure Orderly (s : Signing) (r : Recordings) : Prop where
  chain : OneChain s r.log
  sound : ∀ recording ∈ r.calls, recording.phase.Sound s r.log recording.call

theorem get_optionalField (key other : String) (value : Option Json) :
    get (optionalField key value) other = if key = other then value else none := by
  cases value with
  | none => simp [optionalField,Json.get]
  | some v => by_cases same : key = other <;> simp [optionalField,Json.get,same]

theorem drafted_built {s : Signing} {log : Receipts} {call : Interaction} {uuid now issuerDid : String} {receipt : Dict}
    (built : buildInteractionReceipt s log call uuid now = .ok (issuerDid,receipt)) :
    Drafted s log call issuerDid receipt (ofIssuer log issuerDid).length := by
  obtain ⟨own,_,built⟩ := bind_success _ _ _ built
  obtain ⟨previous,read,built⟩ := bind_success _ _ _ built
  cases built
  refine ⟨by simp [buildReceipt,Json.get],Nat.le_refl _,?_⟩
  intro unset
  have field : ∀ action, get (buildReceipt action issuerDid issuerDid call uuid now previous) "previous_receipt_hash" =
      previous.map .str := by
    intro action
    simp [buildReceipt,get_append,get_optionalField,get_cons]
  simp only [previousHash,unset] at read
  rw [List.take_length]
  cases last : (ofIssuer log issuerDid).getLast? with
  | none =>
    simp only [tip,last,Except.ok.injEq] at read
    rw [Follows,field,← read]
    rfl
  | some before =>
    simp only [tip,last] at read
    obtain ⟨link,linked,read⟩ := bind_success _ _ _ read
    cases read
    exact ⟨link,linked,field _⟩

theorem attachEntry_get {s : Signing} {receipt receipt' : Dict} {entry : Json} {kept : Bool}
    (attached : attachEntry s receipt entry = .ok (receipt',kept)) (key : String) (other : key ≠ "evidence") :
    get receipt' key = get receipt key := by
  unfold attachEntry at attached
  split at attached
  next entry =>
    split at attached
    next evidence _ =>
      obtain ⟨corroborated,_,attached⟩ := bind_success _ _ _ attached
      split at attached
      next =>
        cases attached
        exact get_setItem_other _ _ _ _ other
      next =>
        cases attached
        have undone : ∀ (bare : Bool) (evidence : Dict), get (if bare = true then pop receipt "evidence"
            else setItem receipt "evidence" (.obj evidence)) key = get receipt key := by
          intro bare evidence
          cases bare with
          | true => exact get_pop_other _ _ _ other
          | false => exact get_setItem_other _ _ _ _ other
        exact undone _ _
    next =>
      cases attached
      exact get_pop_other _ _ _ other
  next => cases attached; rfl

theorem Drafted.congr {s : Signing} {log : Receipts} {call : Interaction} {issuerDid : String} {receipt receipt' : Dict}
    {seen : Nat} (drafted : Drafted s log call issuerDid receipt seen)
    (issuer : get receipt' "issuer_did" = get receipt "issuer_did")
    (previous : get receipt' "previous_receipt_hash" = get receipt "previous_receipt_hash") :
    Drafted s log call issuerDid receipt' seen := by
  refine ⟨issuer.trans drafted.issuer,drafted.old,?_⟩
  intro unset
  have follows := drafted.follows unset
  unfold Follows at follows ⊢
  rw [previous]
  exact follows

theorem textItem_get {d : Dict} {key text : String} (found : get d key = some (.str text)) :
    textItem d key = .ok text := by
  rw [textItem,item,found]
  rfl

theorem append_ofIssuer {log log' : Receipts} {receipt : Dict} {issuerDid : String}
    (issuer : get receipt "issuer_did" = some (.str issuerDid)) (appended : append log receipt = .ok log') :
    log' = log ∨ ∀ other, ofIssuer log' other = ofIssuer log other ++ if other = issuerDid then [receipt] else [] := by
  obtain ⟨row,read,appended⟩ := bind_success _ _ _ appended
  cases appended
  split
  next => exact Or.inl rfl
  next =>
    right
    intro other
    obtain ⟨receiptId,_,read⟩ := bind_success _ _ _ read
    obtain ⟨own,named,read⟩ := bind_success _ _ _ read
    obtain ⟨principalDid,_,read⟩ := bind_success _ _ _ read
    obtain ⟨issuedAt,_,read⟩ := bind_success _ _ _ read
    obtain ⟨action,_,read⟩ := bind_success _ _ _ read
    obtain rfl : issuerDid = own := Except.ok.inj ((textItem_get issuer).symm.trans named)
    split at read
    next =>
      obtain ⟨category,_,read⟩ := bind_success _ _ _ read
      obtain ⟨summary,_,read⟩ := bind_success _ _ _ read
      cases read
      by_cases same : other = issuerDid
      · simp [ofIssuer,same]
      · simp [ofIssuer,same,Ne.symm same]
    next => cases read

theorem Drafted.grow {s : Signing} {log log' : Receipts} {call : Interaction} {issuerDid : String} {receipt : Dict}
    {seen : Nat} (drafted : Drafted s log call issuerDid receipt seen)
    (grown : ofIssuer log issuerDid <+: ofIssuer log' issuerDid) : Drafted s log' call issuerDid receipt seen := by
  obtain ⟨more,same⟩ := grown
  refine ⟨drafted.issuer,?_,?_⟩
  · have old := drafted.old
    rw [← same,List.length_append]
    omega
  · rw [← same,List.take_append_of_le_length drafted.old]
    exact drafted.follows

theorem signReceipt_get {s : Signing} {receipt receipt' : Dict} {skBytes : Bytes}
    (signed : signReceipt s receipt skBytes = .ok receipt') (key : String) (other : key ≠ "signature") :
    get receipt' key = get receipt key := by
  obtain ⟨sk,_,signed⟩ := bind_success _ _ _ signed
  obtain ⟨canonical,_,signed⟩ := bind_success _ _ _ signed
  cases signed
  exact get_setItem_other _ _ _ _ other

theorem OneChain.append {s : Signing} {log log' : Receipts} {call : Interaction} {issuerDid : String} {receipt : Dict}
    {seen : Nat} (chain : OneChain s log) (drafted : Drafted s log call issuerDid receipt seen)
    (unset : call.previousReceiptHash = none) (unraced : (ofIssuer log issuerDid).length = seen)
    (appended : append log receipt = .ok log') :
    OneChain s log' ∧ ∀ other, ofIssuer log other <+: ofIssuer log' other := by
  rcases append_ofIssuer drafted.issuer appended with rfl | rows
  · exact ⟨chain,fun _ => List.prefix_rfl⟩
  · refine ⟨?_,fun other => by rw [rows other]; exact List.prefix_append _ _⟩
    intro other
    rw [rows other]
    by_cases same : other = issuerDid
    · subst same
      rw [if_pos rfl]
      refine linked_append (chain other) ?_
      have follows := drafted.follows unset
      rw [← unraced,List.take_length] at follows
      rwa [Option.or_none]
    · rw [if_neg same,List.append_nil]
      exact chain other

theorem Orderly.turned {s : Signing} {r : Recordings} {log : Receipts} {i : Nat} {call : Interaction}
    {phase : RecordPhase}
    (orderly : Orderly s r) (chain : OneChain s log)
    (grown : ∀ issuerDid, ofIssuer r.log issuerDid <+: ofIssuer log issuerDid)
    (own : phase.Sound s log call) : Orderly s (Recordings.turn ⟨log,r.calls⟩ i call phase) := by
  refine ⟨chain,?_⟩
  intro recording member
  rcases List.mem_or_eq_of_mem_set member with member | rfl
  · have sound := orderly.sound recording member
    obtain ⟨call',phase'⟩ := recording
    cases phase' with
    | starting => trivial
    | built issuerDid receipt seen => exact Drafted.grow sound (grown issuerDid)
    | witnessed issuerDid receipt seen => exact Drafted.grow sound (grown issuerDid)
    | ended => trivial
  · exact own

theorem Orderly.step {s : Signing} {r r' : Recordings} {move : RecordMove} (orderly : Orderly s r)
    (unraced : Unraced r move)
    (stepped : r.step s move = some r') : Orderly s r' := by
  have still : ∀ issuerDid, ofIssuer r.log issuerDid <+: ofIssuer r.log issuerDid := fun _ => List.prefix_rfl
  cases move with
  | call call =>
    obtain rfl := Option.some.inj stepped
    refine ⟨orderly.chain,?_⟩
    intro recording member
    rcases List.mem_append.mp member with member | single
    · exact orderly.sound recording member
    · obtain rfl := List.mem_singleton.mp single
      trivial
  | build i uuid now =>
    simp only [Recordings.step] at stepped
    split at stepped
    next call stands =>
      split at stepped
      next issuerDid receipt built =>
        obtain rfl := Option.some.inj stepped
        exact orderly.turned orderly.chain still (drafted_built built)
      next =>
        obtain rfl := Option.some.inj stepped
        exact orderly.turned orderly.chain still trivial
    next => cases stepped
  | cosign i entry =>
    simp only [Recordings.step] at stepped
    split at stepped
    next call issuerDid receipt seen stands =>
      split at stepped
      next =>
        have drafted : Drafted s r.log call issuerDid receipt seen := orderly.sound _ (List.mem_of_getElem? stands)
        split at stepped
        next receipt' kept attached =>
          obtain rfl := Option.some.inj stepped
          exact orderly.turned orderly.chain still (drafted.congr (attachEntry_get attached _ (by decide))
            (attachEntry_get attached _ (by decide)))
        next =>
          obtain rfl := Option.some.inj stepped
          exact orderly.turned orderly.chain still trivial
      next => cases stepped
    next => cases stepped
  | append i =>
    simp only [Recordings.step] at stepped
    split at stepped
    next recording stands =>
      split at stepped
      next issuerDid receipt seen ready =>
        obtain ⟨unset,current⟩ := unraced recording stands
        have drafted : Drafted s r.log recording.call issuerDid receipt seen := by
          have sound := orderly.sound recording (List.mem_of_getElem? stands)
          obtain ⟨call,phase⟩ := recording
          cases phase <;> simp_all [Recording.ready,RecordPhase.Sound]
        split at stepped
        next log finalized =>
          obtain rfl := Option.some.inj stepped
          obtain ⟨signed,signing,appended⟩ := bind_success _ _ _ finalized
          have final := drafted.congr (signReceipt_get signing _ (by decide)) (signReceipt_get signing _ (by decide))
          obtain ⟨chain,grown⟩ := orderly.chain.append final unset (current _ ready) appended
          exact orderly.turned chain grown trivial
        next =>
          obtain rfl := Option.some.inj stepped
          exact orderly.turned orderly.chain still trivial
      next => cases stepped
    next => cases stepped

/-- In every interleaving in which no receipt of an issuer is inserted between a
recording's reading of the tip and its append, every issuer has one chain. -/
theorem oneChain_reached (s : Signing) (r : Recordings) (run : Runs.Reached (Recordings.step s) Unraced .empty r) :
    OneChain s r.log := by
  have orderly : Orderly s r := by
    refine run.invariant ⟨fun _ => trivial,by simp [Recordings.empty]⟩ ?_
    intro r move r' orderly unraced stepped
    exact orderly.step unraced stepped
  exact orderly.chain

instance (r : Recordings) : (move : RecordMove) → Decidable (Unraced r move)
  | .append i => inferInstanceAs (Decidable (∀ recording ∈ r.calls[i]?, recording.call.previousReceiptHash = none ∧
      ∀ draft ∈ recording.ready, (ofIssuer r.log draft.1).length = draft.2.2))
  | .call _ | .build .. | .cosign .. => inferInstanceAs (Decidable True)

def sampleSigning : Signing where
  toServices := { Merkle.sampleServices with canonicalize := fun value => .ok (Merkle.sampleText value), sha256 := id }
  didFromPrivateKey _ := .ok "did:key:zi"
  isCorroborated _ := .ok false

def sampleInteraction : Interaction :=
  ⟨[],"did:key:za","A","Called A (ping).","message_sent","completed",true,none,none,none,none,none,none,none,none⟩

def oneByOne : List RecordMove :=
  [.call sampleInteraction,.call sampleInteraction,.build 0 "r1" "0",.cosign 0 .null,.append 0,
    .build 1 "r2" "1",.cosign 1 .null,.append 1]

theorem oneChain_oneByOne : ∃ r, Runs.Reached (Recordings.step sampleSigning) Unraced .empty r ∧
    r.log.map (·.receiptId) = ["r1","r2"] ∧ OneChain sampleSigning r.log := by
  have walked : (Runs.walk (Recordings.step sampleSigning) (fun r move => decide (Unraced r move)) oneByOne .empty).map
      (fun r => r.log.map (·.receiptId)) = some ["r1","r2"] := by decide +kernel
  obtain ⟨r,ended,ids⟩ := Option.map_eq_some_iff.mp walked
  have run : Runs.Reached (Recordings.step sampleSigning) Unraced .empty r :=
    Runs.reached_walk (fun _ _ => of_decide_eq_true) oneByOne .start ended
  exact ⟨r,run,ids,oneChain_reached sampleSigning r run⟩

def overtaking : List RecordMove :=
  [.call sampleInteraction,.call sampleInteraction,.build 0 "r1" "0",.build 1 "r2" "0",.cosign 0 .null,.append 0,
    .cosign 1 .null,.append 1]

theorem overtaking_forks : ∃ r, Runs.Reached (Recordings.step sampleSigning) Runs.Free .empty r ∧
    ¬ OneChain sampleSigning r.log := by
  have walked : (Runs.walk (Recordings.step sampleSigning) (fun _ _ => true) overtaking .empty).map
      (fun r => (ofIssuer r.log "did:key:zi").map fun receipt => (get receipt "previous_receipt_hash").isSome) =
      some [false,false] := by decide +kernel
  obtain ⟨r,ended,hashes⟩ := Option.map_eq_some_iff.mp walked
  refine ⟨r,Runs.reached_walk (fun _ _ _ => trivial) overtaking .start ended,?_⟩
  intro chain
  have linked := chain "did:key:zi"
  generalize ofIssuer r.log "did:key:zi" = receipts at linked hashes
  match receipts, linked, hashes with
  | [_], _, hashes => simp at hashes
  | first :: second :: rest, ⟨_,⟨link,_,previous⟩,_⟩, hashes => simp [previous] at hashes

end Orrery.Arp
