import Orrery.Vrp.Scoring

/-! The scores read receipts as JSON documents. Two lists of receipts that hold the same
documents as often have the same scores, whichever method is used and in whatever order
the receipts stand. -/
namespace Orrery.Vrp
open Foundation Json

structure Canonical (host : Host) (given : Dict → Prop) : Prop where
  injective : ∀ a b bytes, given a → given b → host.canonicalize (.obj a) = .ok bytes →
    host.canonicalize (.obj b) = .ok bytes → AlikeFields a b
  stable : ∀ a b, given a → given b → AlikeFields a b → host.canonicalize (.obj a) = host.canonicalize (.obj b)

theorem Canonical.mono {host : Host} {given fewer : Dict → Prop} (canonical : Canonical host given)
    (within : ∀ d, fewer d → given d) : Canonical host fewer where
  injective a b bytes inside inside' := canonical.injective a b bytes (within a inside) (within b inside')
  stable a b inside inside' := canonical.stable a b (within a inside) (within b inside')

def SignaturesAreTexts (host : Host) : Prop :=
  ∀ value bytes key message, (∀ s, value ≠ .str s) → host.b64decode (host.str value) = .ok bytes →
    host.verify key bytes message = false

inductive Encoded (receipts : List Dict) : Dict → Prop
  | receipt {receipt : Dict} (inside : receipt ∈ receipts) : Encoded receipts receipt
  | payload {receipt : Dict} (inside : receipt ∈ receipts) : Encoded receipts (corroborationPayload receipt)

theorem orEmpty_cases {value : Option Json} {d : Dict} (ok : orEmpty value = .ok d) :
    value.getD .null = .obj d ∨ d = [] ∧ ∀ e, value.getD .null ≠ .obj e := by
  unfold orEmpty at ok
  split at ok
  next fields here =>
    obtain rfl := Except.ok.inj ok
    exact .inl here
  next other apart =>
    split at ok
    · cases ok
    · exact .inr ⟨(Except.ok.inj ok).symm,apart⟩

section Fields
variable {d e : Dict} (fields : AlikeFields d e)
include fields

theorem orEmpty_related (key : String) : Related AlikeFields (orEmpty (get d key)) (orEmpty (get e key)) := by
  intro a b left right
  have alike := fields.getD key .null
  rcases orEmpty_cases left with here | ⟨rfl,apart⟩
  · rw [here] at alike
    obtain ⟨c,there,members⟩ := alike.fields
    rcases orEmpty_cases right with same | ⟨_,apart⟩
    · obtain rfl := Json.obj.inj (there.symm.trans same)
      exact members
    · exact absurd there (apart c)
  · rcases orEmpty_cases right with there | ⟨rfl,_⟩
    · rw [there] at alike
      obtain ⟨c,here,_⟩ := alike.symm.fields
      exact absurd here (apart c)
    · exact (alike_obj_iff [] []).mp (.refl _)

theorem categoryWeight_agree (weights : Weights) : Agree (categoryWeight weights d) (categoryWeight weights e) := by
  unfold categoryWeight
  refine (orEmpty_related fields "action").bind fun a b _ _ members => ?_
  rw [(members.getD "category" (.str "")).hashKey]
  exact Agree.refl _

theorem counterparty_related :
    Related (fun cp cp' => ∀ s, cp = some (.str s) ↔ cp' = some (.str s)) (counterparty d) (counterparty e) := by
  unfold counterparty
  refine (orEmpty_related fields "action").bind fun a b _ _ members => ?_
  have party := members.getD "counterparty_did" .null
  have issuer := fields.getD "issuer_did" .null
  generalize (get a "counterparty_did").getD .null = v, (get b "counterparty_did").getD .null = w at party
  generalize (get d "issuer_did").getD .null = i, (get e "issuer_did").getD .null = j at issuer
  apply Related.ok
  intro s
  have text : ∀ {v w i j : Json}, Alike v w → Alike i j →
      (if (v.truthy && !pyEq v i) = true then some v else none) = some (.str s) →
      (if (w.truthy && !pyEq w j) = true then some w else none) = some (.str s) := by
    intro v w i j party issuer found
    split at found
    next distinct =>
      obtain rfl := Option.some.inj found
      obtain rfl := party.text
      have other : pyEq (.str s) j = pyEq (.str s) i := by
        rw [Bool.eq_iff_iff]
        constructor
        · intro same
          obtain rfl := pyEq_str same
          obtain rfl := issuer.symm.text
          exact same
        · intro same
          obtain rfl := pyEq_str same
          obtain rfl := issuer.text
          exact same
      rw [other,if_pos distinct]
    next => cases found
  exact ⟨text party issuer,text party.symm issuer.symm⟩

theorem withoutWitnesses_alike : AlikeFields (withoutWitnesses d) (withoutWitnesses e) := by
  rw [withoutWitnesses.eq_def d]
  split
  next evidence here =>
    obtain ⟨w,there,alike⟩ := fields.get_some here
    obtain ⟨evidence',rfl,members⟩ := alike.fields
    have bare := members.pop "witness_signatures"
    simp only [withoutWitnesses,there,bare.isEmpty]
    split
    · exact fields.pop "evidence"
    · exact fields.setItem "evidence" bare.alike
  next apart =>
    rw [withoutWitnesses.eq_def e]
    split
    next evidence there =>
      obtain ⟨v,here,alike⟩ := ((alike_obj_iff e d).mp fields.alike.symm).get_some there
      obtain ⟨evidence',rfl,_⟩ := alike.fields
      exact absurd here (apart evidence')
    next => exact fields

theorem corroborationPayload_alike : AlikeFields (corroborationPayload d) (corroborationPayload e) :=
  withoutWitnesses_alike (fields.pop "signature")

end Fields

theorem pyEq_text (value : Json) (s : String) : pyEq value (.str s) = true ↔ value = .str s := by
  cases value <;> simp [pyEq,hashKey]

section Corroboration
variable {host : Host}

theorem checkWitness_obj (host : Host) (cp : Json) (payload : Bytes) (entry : Dict) {b : Bool}
    (checked : checkWitness host cp payload (.obj entry) = .ok b) : b = false ∨ cosigned host cp payload entry =
      .ok b := by
  dsimp only [checkWitness] at checked
  split at checked
  next =>
    split at checked
    next verified ran =>
      obtain rfl := Except.ok.inj checked
      exact .inr ran
    next e raised =>
      split at checked
      · exact .inl (Except.ok.inj checked).symm
      · cases checked
  next => exact .inl (Except.ok.inj checked).symm

theorem checkWitness_nontext {cp : Json} (nontext : ∀ s, cp ≠ .str s) (payload : Bytes) (entry : Json) {b : Bool}
    (checked : checkWitness host cp payload entry = .ok b) : b = false := by
  cases entry with
  | obj fields =>
    rcases checkWitness_obj host cp payload fields checked with refused | ran
    · exact refused
    · obtain ⟨pubkey,found,_⟩ := bind_success _ _ _ ran
      cases cp with
      | str s => exact absurd rfl (nontext s)
      | _ => cases found
  | _ => exact (Except.ok.inj checked).symm

theorem cosigned_nontext (texts : SignaturesAreTexts host) (cp : Json) (payload : Bytes) (entry : Dict)
    (nontext : ∀ s, (get entry "signature").getD (.str "") ≠ .str s) {b : Bool}
    (ran : cosigned host cp payload entry = .ok b) : b = false := by
  obtain ⟨pubkey,_,ran⟩ := bind_success _ _ _ ran
  obtain ⟨key,_,ran⟩ := bind_success _ _ _ ran
  obtain ⟨signature,decoded,ran⟩ := bind_success _ _ _ ran
  rw [← Except.ok.inj ran]
  exact texts _ signature key payload nontext decoded

theorem checkWitness_agree (texts : SignaturesAreTexts host) (s : String) (payload : Bytes) {v w : Json}
    (alike : Alike v w) : Agree (checkWitness host (.str s) payload v) (checkWitness host (.str s) payload w) := by
  cases v with
  | obj entry =>
    obtain ⟨entry',rfl,fields⟩ := alike.fields
    have signature := fields.getD "signature" (.str "")
    by_cases text : ∃ t, (get entry "signature").getD (.str "") = .str t
    · obtain ⟨t,here⟩ := text
      rw [here] at signature
      have named := fields.getD "witness_did" .null
      have same : pyEq ((get entry "witness_did").getD .null) (.str s) =
          pyEq ((get entry' "witness_did").getD .null) (.str s) := by
        rw [Bool.eq_iff_iff,pyEq_text,pyEq_text]
        constructor
        · intro here
          rw [here] at named
          exact named.text
        · intro there
          rw [there] at named
          exact named.symm.text
      have cosigns : cosigned host (.str s) payload entry = cosigned host (.str s) payload entry' := by
        rw [cosigned,cosigned,here,signature.text]
      dsimp only [checkWitness]
      rw [same,cosigns]
      exact Agree.refl _
    · have nontext : ∀ t, (get entry "signature").getD (.str "") ≠ .str t := fun t here => text ⟨t,here⟩
      have nontext' : ∀ t, (get entry' "signature").getD (.str "") ≠ .str t := by
        intro t there
        rw [there] at signature
        exact nontext t signature.symm.text
      intro a b left right
      have refused : a = false := (checkWitness_obj _ _ _ _ left).elim id (cosigned_nontext texts _ _ _ nontext)
      have refused' : b = false := (checkWitness_obj _ _ _ _ right).elim id (cosigned_nontext texts _ _ _ nontext')
      rw [refused,refused']
  | _ =>
    cases w with
    | obj entry =>
      obtain ⟨entry',same,_⟩ := alike.symm.fields
      cases same
    | _ => exact Agree.refl _

theorem iterate_nonlist (cp : Json) (payload : Bytes) {value : Json} {items : List Json}
    (nonlist : ∀ entries, value ≠ .arr entries) (run : iterate value = .ok items) {b : Bool}
    (found : items.anyM (checkWitness host cp payload) = .ok b) : b = false := by
  apply anyM_false _ found
  have strings : ∀ item ∈ items, ∃ s, item = .str s := by
    cases value with
    | arr entries => exact absurd rfl (nonlist entries)
    | obj fields =>
      obtain rfl := Except.ok.inj run
      intro item inside
      obtain ⟨field,_,rfl⟩ := List.mem_map.mp inside
      exact ⟨_,rfl⟩
    | str s =>
      obtain rfl := Except.ok.inj run
      intro item inside
      obtain ⟨c,_,rfl⟩ := List.mem_map.mp inside
      exact ⟨_,rfl⟩
    | _ => cases run
  intro item inside b checked
  obtain ⟨s,rfl⟩ := strings item inside
  exact (Except.ok.inj checked).symm

theorem witnesses_agree (texts : SignaturesAreTexts host) (s : String) (payload : Bytes) {v w : Json}
    (alike : Alike v w) : Agree (iterate v >>= fun items => items.anyM (checkWitness host (.str s) payload))
      (iterate w >>= fun items => items.anyM (checkWitness host (.str s) payload)) := by
  by_cases list : ∃ entries, v = .arr entries
  · obtain ⟨entries,rfl⟩ := list
    obtain ⟨others,rfl,related⟩ := alike.items
    exact Agree.anyM related fun a b here => checkWitness_agree texts s payload here
  · have nonlist : ∀ entries, v ≠ .arr entries := fun entries here => list ⟨entries,here⟩
    have nonlist' : ∀ entries, w ≠ .arr entries := by
      rintro entries rfl
      obtain ⟨others,rfl,_⟩ := alike.symm.items
      exact nonlist others rfl
    intro a b left right
    obtain ⟨items,ran,found⟩ := bind_success _ _ _ left
    obtain ⟨items',ran',found'⟩ := bind_success _ _ _ right
    rw [iterate_nonlist _ _ nonlist ran found,iterate_nonlist _ _ nonlist' ran' found']

theorem witnessSignatures_related {d e : Dict} (fields : AlikeFields d e) :
    Related Alike (witnessSignatures d) (witnessSignatures e) := by
  unfold witnessSignatures
  refine (orEmpty_related fields "evidence").bind fun a b _ _ members => ?_
  have witnesses := members.getD "witness_signatures" .null
  dsimp only
  rw [witnesses.truthy]
  apply Related.ok
  split
  · exact witnesses
  · exact .refl _

theorem isCorroborated_named {receipt : Dict} (corroborated : isCorroborated host receipt = .ok true) :
    ∃ s, counterparty receipt = .ok (some (.str s)) := by
  obtain ⟨cp,named,run⟩ := bind_success _ _ _ corroborated
  cases cp with
  | none => cases run
  | some cp =>
    by_cases text : ∃ s, cp = .str s
    · obtain ⟨s,rfl⟩ := text
      exact ⟨s,named⟩
    · obtain ⟨witnesses,_,run⟩ := bind_success _ _ _ run
      obtain ⟨payload,_,run⟩ := bind_success _ _ _ run
      obtain ⟨items,_,found⟩ := bind_success _ _ _ run
      have refused := anyM_false (fun item _ b checked =>
        checkWitness_nontext (fun s here => text ⟨s,here⟩) payload item checked) found
      cases refused

section Receipts
variable (texts : SignaturesAreTexts host) {isValid : Dict → Bool} {given : Dict → Prop}
  (canonical : Canonical host given)
  {d e : Dict} (fields : AlikeFields d e) (payload : given (corroborationPayload d)) (payload' :
    given (corroborationPayload e))
include texts canonical fields payload payload'

theorem isCorroborated_agree : Agree (isCorroborated host d) (isCorroborated host e) := by
  have one : ∀ {d e : Dict}, AlikeFields d e → given (corroborationPayload d) → given (corroborationPayload e) →
      isCorroborated host d = .ok true → ∀ b, isCorroborated host e = .ok b → b = true := by
    intro d e fields payload payload' corroborated b run
    obtain ⟨s,named⟩ := isCorroborated_named corroborated
    obtain ⟨cp,named',run'⟩ := bind_success _ _ _ run
    obtain rfl := (counterparty_related fields _ _ named named' s).mp rfl
    rw [isCorroborated,named] at corroborated
    have encodings := canonical.stable _ _ payload payload' (corroborationPayload_alike fields)
    refine ((?_ : Agree _ _) true b corroborated run').symm
    refine (witnessSignatures_related fields).bind fun v w _ _ alike => ?_
    rw [encodings]
    refine Related.bind (Agree.refl _) ?_
    rintro bytes _ _ _ rfl
    exact witnesses_agree texts s bytes alike
  intro a b left right
  cases a with
  | true => exact (one fields payload payload' left b right).symm
  | false =>
    cases b with
    | true => exact one ((alike_obj_iff e d).mp fields.alike.symm) payload' payload right false left
    | false => rfl

variable (verdict : isValid d = isValid e)
include verdict

theorem edge_agree : Agree (edge host isValid d) (edge host isValid e) := by
  unfold edge
  rw [verdict]
  split
  · exact Agree.refl _
  · refine (isCorroborated_agree texts canonical fields payload payload').bind ?_
    rintro corroborated _ left right rfl
    cases corroborated with
    | false => exact Agree.refl _
    | true =>
      obtain ⟨s,named⟩ := isCorroborated_named left
      obtain ⟨s',named'⟩ := isCorroborated_named right
      have same := (counterparty_related fields _ _ named named' s).mp rfl
      rw [named,named',same,(fields.getD "issuer_did" (.str "")).hashKey]
      exact Agree.refl _

theorem isEffective_agree (severed : List Key) :
    Agree (isEffective host isValid severed d) (isEffective host isValid severed e) := by
  unfold isEffective
  rw [verdict]
  split
  · exact Agree.refl _
  · refine (isCorroborated_agree texts canonical fields payload payload').bind ?_
    rintro corroborated _ left right rfl
    cases corroborated with
    | false => exact Agree.refl _
    | true =>
      obtain ⟨s,named⟩ := isCorroborated_named left
      obtain ⟨s',named'⟩ := isCorroborated_named right
      have same := (counterparty_related fields _ _ named named' s).mp rfl
      rw [named,named',same,(fields.getD "issuer_did" .null).hashKey]
      exact Agree.refl _

end Receipts

end Corroboration

/-- What scoring these receipts takes for granted: of the encoder, of signatures and of the
caller's check, which is given documents. -/
structure ReadsDocuments (host : Host) (isValid : Dict → Bool) (receipts : List Dict) : Prop where
  canonical : Canonical host (Encoded receipts)
  texts : SignaturesAreTexts host
  verdict : ∀ a ∈ receipts, ∀ b ∈ receipts, AlikeFields a b → isValid a = isValid b

theorem effective_eq (found : List (Dict × Bool)) : ∀ out : List Dict,
    found.foldl (fun out found => if found.2 then out ++ [found.1] else out) out =
      out ++ (found.filter (·.2)).map (·.1) := by
  induction found with
  | nil => simp
  | cons entry found ih =>
    intro out
    rw [List.foldl_cons,ih,List.filter_cons]
    split <;> simp

section Scores
variable {host : Host} {isValid : Dict → Bool} {weights : Weights} {receipts others : List Dict}
  (reads : ReadsDocuments host isValid (receipts ++ others)) (matched : Matched AlikeFields receipts others)
include reads matched

theorem reputationScore_matched {score score' : ℚ} (first : reputationScore isValid weights receipts = .ok score)
    (second : reputationScore isValid weights others = .ok score') : score = score' := by
  obtain ⟨found,readings,rfl⟩ := (sweep_ok _ _ _ _ _).mp first
  obtain ⟨found',readings',rfl⟩ := (sweep_ok _ _ _ _ _).mp second
  refine (matched.reads readings readings' ?_).perm.foldl_eq 0
  intro a inside b inside' fields
  unfold points
  rw [reads.verdict a (by simp [inside]) b (by simp [inside']) fields]
  split
  · exact categoryWeight_agree fields weights
  · exact Agree.refl _

theorem corroborationGraph_matched {graph graph' : Graph} (first : corroborationGraph host isValid receipts = .ok graph)
    (second : corroborationGraph host isValid others = .ok graph') : Graph.Same graph graph' := by
  obtain ⟨found,readings,rfl⟩ := (sweep_ok _ _ _ _ _).mp first
  obtain ⟨found',readings',rfl⟩ := (sweep_ok _ _ _ _ _).mp second
  refine Graph.same_ofEdges (matched.reads readings readings' ?_).perm
  intro a inside b inside' fields
  exact edge_agree reads.texts reads.canonical fields (.payload (by simp [inside])) (.payload (by simp [inside']))
    (reads.verdict a (by simp [inside]) b (by simp [inside']) fields)

theorem effectiveReceipts_matched {effective effective' : List Dict}
    (first : effectiveReceipts host isValid receipts = .ok effective)
    (second : effectiveReceipts host isValid others = .ok effective') : Matched AlikeFields effective effective' := by
  obtain ⟨graph,met,first⟩ := bind_success _ _ _ first
  obtain ⟨graph',met',second⟩ := bind_success _ _ _ second
  obtain ⟨severed,cut,first⟩ := bind_success _ _ _ first
  obtain ⟨severed',cut',second⟩ := bind_success _ _ _ second
  rw [(corroborationGraph_matched reads matched met met').severedDids] at cut
  obtain rfl := Except.ok.inj (cut.symm.trans cut')
  obtain ⟨found,readings,rfl⟩ := (sweep_ok _ _ _ _ _).mp first
  obtain ⟨found',readings',rfl⟩ := (sweep_ok _ _ _ _ _).mp second
  rw [effective_eq,effective_eq]
  have kept : Matched (fun p q : Dict × Bool => AlikeFields p.1 q.1 ∧ p.2 = q.2) found found' := by
    refine matched.reads readings readings' ?_
    intro a inside b inside' fields
    refine Related.bind (isEffective_agree reads.texts reads.canonical fields (.payload (by simp [inside]))
      (.payload (by simp [inside'])) (reads.verdict a (by simp [inside]) b (by simp [inside']) fields) severed) ?_
    intro left right _ _ same
    exact Related.ok ⟨fields,same⟩
  exact (kept.filter fun _ _ both => both.2).map _ fun _ _ both => both.1

theorem reputationScoreV2_matched {score score' : ℚ}
    (first : reputationScoreV2 host isValid weights receipts = .ok score)
    (second : reputationScoreV2 host isValid weights others = .ok score') : score = score' := by
  obtain ⟨effective,kept,first⟩ := bind_success _ _ _ first
  obtain ⟨effective',kept',second⟩ := bind_success _ _ _ second
  obtain ⟨found,readings,rfl⟩ := (sweep_ok _ _ _ _ _).mp first
  obtain ⟨found',readings',rfl⟩ := (sweep_ok _ _ _ _ _).mp second
  refine ((effectiveReceipts_matched reads matched kept kept').reads readings readings' ?_).perm.foldl_eq 0
  exact fun a _ b _ fields => categoryWeight_agree fields weights

end Scores

end Orrery.Vrp
