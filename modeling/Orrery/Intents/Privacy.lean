import Orrery.Intents.Calls

/-! Whom the results of the operations tell who asked: after each operation, an agent is
told the requester of an intent only if its recorded response is to accept. -/
namespace Orrery.Intents
open Foundation

def disclosures : Result → List (String × String)
  | .detail (.ok detail) => [(detail.intent.id,detail.intent.requesterAgentId)]
  | result => (introductionsIn result).map fun x => (x.intentId,x.requester.agentId)

def reader : Op → Option String
  | .createIntent _ requesterAgentId _ _ => some requesterAgentId
  | .respondToIntent _ responderAgentId _ _ _ => some responderAgentId
  | .respondToIntentEndpoint _ responderAgentId _ _ _ => some responderAgentId
  | .getIntroductions agentId => some agentId
  | .cancelIntent _ requesterAgentId _ => some requesterAgentId
  | .getPendingForAgent agentId => some agentId
  | .getIntentDetail _ caller => some caller
  | .matchIntent _ _ _ => none
  | .matchIntentFederation _ _ => none
  | .checkMutualConsent _ _ => none

def Db.Accepted (db : Db) (i agentId : String) : Prop :=
  ∃ row, db.responses.row (i,agentId) = some row ∧ row.response = .accept

structure Session where
  db : Db
  told : Option (String × Result)

structure Request where
  op : Op
  landings : Nat → Landing

def Session.step (chapter : String) (s : Session) (request : Request) : Session :=
  let outcome := Proc.run exec request.landings (program chapter request.op) s.db
  ⟨outcome.2.1,(reader request.op).map fun agentId => (agentId,outcome.1)⟩

/-- Nobody but the requester is told who asked without having accepted. -/
def Session.Private (s : Session) : Prop := ∀ agentId result, s.told = some (agentId,result) →
  ∀ i intent, s.db.intents.row i = some intent → intent.requesterAgentId ≠ agentId →
    (i,intent.requesterAgentId) ∈ disclosures result → s.db.Accepted i agentId

def DetailConsented (db : Db) (landings : Nat → Landing) (intentId caller : String) : Prop :=
  ∀ intent row, db.intents.row intentId = some intent → db.responses.row (intentId,caller) = some row →
    intent.requesterAgentId ≠ caller → (landings 0).works = true → (landings 1).works = true → row.response = .accept

def AcceptanceRecorded (db : Db) (landings : Nat → Landing) (intentId responderAgentId response : String) : Prop :=
  parseReply response = some .accept → ∀ intent row requester responder, db.intents.row intentId = some intent →
    db.responses.row (intentId,responderAgentId) = some row → db.agents.row intent.requesterAgentId = some requester →
    db.agents.row responderAgentId = some responder → intent.requesterAgentId ≠ responderAgentId →
    (landings 0).works = true → (landings 2).works = true → (landings 3).works = true → (landings 4).works = true →
    (landings 1).works = true ∨ row.response = .accept

def Consented (s : Session) (request : Request) : Prop :=
  match request.op with
  | .getIntentDetail intentId caller => DetailConsented s.db request.landings intentId caller
  | .respondToIntentEndpoint intentId responderAgentId response _ _ =>
    AcceptanceRecorded s.db request.landings intentId responderAgentId response
  | _ => True

section Runs
variable {db : Db} {landings : Nat → Landing}

def Landing.fetch {α : Type} (landing : Landing) (row : Option α) : Option α := if landing.works then row else none

theorem answer_toList {α : Type} (landing : Landing) (row : Option α) :
    landing.answer row.toList = (landing.fetch row).toList := by
  rw [Landing.answer,Landing.fetch]
  split <;> rfl

theorem intents_by_id (db : Db) (intentId : String) :
    db.intents.select (IntentFilter.admits { id := some intentId }) = (db.intents.row intentId).toList := by
  rw [← Table.select_key]
  congr 1
  funext row
  simp [IntentFilter.admits,meets,eq_comm]

theorem responses_by_key (db : Db) (intentId responderAgentId : String) :
    db.responses.select (ResponseFilter.admits { intentId := some intentId, responderAgentId := some responderAgentId }) =
      (db.responses.row (intentId,responderAgentId)).toList := by
  rw [← Table.select_key]
  congr 1
  funext row
  simp [ResponseFilter.admits,meets,eq_comm,IntentResponse.key]

theorem run_getIntents (filter : IntentFilter) : Proc.run exec landings (getIntents filter) db =
    ((landings 0).answer (db.intents.select filter.admits),db,fun n => landings (n+1)) := rfl

theorem run_getResponses (filter : ResponseFilter) : Proc.run exec landings (getResponses filter) db =
    ((landings 0).answer (db.responses.select filter.admits),db,fun n => landings (n+1)) := rfl

theorem run_getAgents (agentId : String) : Proc.run exec landings (getAgents agentId) db =
    (((landings 0).fetch (db.agents.row agentId)).toList,db,fun n => landings (n+1)) := by
  rw [← answer_toList,← Table.select_key]
  rfl

theorem run_patchResponses (filter : ResponseFilter) (change : ResponseChange) :
    Proc.run exec landings (patchResponses filter change) db =
      ((),db.after (landings 0) (.patchResponses filter change),fun n => landings (n+1)) := rfl

theorem run_checkMutualConsent (intentId responderAgentId : String) :
    (Proc.run exec landings (checkMutualConsent intentId responderAgentId) db).1 =
      ((landings 0).fetch (db.intents.row intentId)).bind fun intent =>
        ((landings 1).fetch (db.agents.row intent.requesterAgentId)).bind fun requester =>
          ((landings 2).fetch (db.agents.row responderAgentId)).map fun responder =>
            ⟨intentId,requester.profile,responder.profile,intent.intentText,intent.intentTags,none⟩ := by
  rw [checkMutualConsent,Proc.bind_eq,Proc.run_bind,run_getIntents,intents_by_id,answer_toList]
  cases (landings 0).fetch (db.intents.row intentId) with
  | none => rfl
  | some intent =>
    change (Proc.run exec (fun n => landings (n+1)) ((getAgents intent.requesterAgentId).bind _) db).1 = _
    rw [Proc.run_bind,run_getAgents,Proc.bind_eq,Proc.run_bind,run_getAgents]
    cases requested : (landings 1).fetch (db.agents.row intent.requesterAgentId) with
    | none =>
      rw [Option.bind_some,requested]
      rfl
    | some requester =>
      rw [Option.bind_some,requested,Option.bind_some]
      dsimp only
      simp only [Nat.reduceAdd]
      cases (landings 2).fetch (db.agents.row responderAgentId) with
      | none => rfl
      | some responder => rfl

theorem fetch_some {α : Type} {landing : Landing} {row : Option α} {a : α} :
    landing.fetch row = some a ↔ landing.works = true ∧ row = some a := by
  rw [Landing.fetch]
  split
  next works => simp [works]
  next stops => simp [stops]

theorem mem_responders {landing : Landing} {intentId caller : String} :
    caller ∈ (landing.answer (db.responses.select (ResponseFilter.admits { intentId := some intentId }))).map
        IntentResponse.responderAgentId ↔
      landing.works = true ∧ ∃ row, db.responses.row (intentId,caller) = some row := by
  rw [List.mem_map]
  constructor
  · rintro ⟨row,member,rfl⟩
    rw [Landing.answer] at member
    split at member
    next works =>
      obtain ⟨found,admitted⟩ := Table.mem_select.mp member
      have asked : intentId = row.intentId := by simpa [ResponseFilter.admits,meets] using admitted
      refine ⟨works,row,?_⟩
      rwa [asked]
    next => cases member
  · rintro ⟨works,row,found⟩
    have key : row.key = (intentId,caller) := Table.row_key found
    refine ⟨row,?_,congrArg Prod.snd key⟩
    rw [Landing.answer,if_pos works,Table.mem_select,key]
    refine ⟨found,?_⟩
    have asked : row.intentId = intentId := congrArg Prod.fst key
    simp [ResponseFilter.admits,meets,asked]

theorem disclosed_detail {intentId caller : String} {j requesterAgentId : String} :
    (j,requesterAgentId) ∈ disclosures (.detail (Proc.run exec landings (getIntentDetail intentId caller) db).1) ↔
      (landings 0).works = true ∧ ∃ intent, db.intents.row intentId = some intent ∧ j = intentId ∧
        requesterAgentId = intent.requesterAgentId ∧ (caller = intent.requesterAgentId ∨
          (landings 1).works = true ∧ ∃ row, db.responses.row (intentId,caller) = some row) := by
  rw [getIntentDetail,Proc.bind_eq,Proc.run_bind,run_getIntents,intents_by_id,answer_toList]
  cases fetched : (landings 0).fetch (db.intents.row intentId) with
  | none =>
    refine iff_of_false List.not_mem_nil ?_
    rintro ⟨works,intent,found,_⟩
    rw [fetch_some.mpr ⟨works,found⟩] at fetched
    cases fetched
  | some intent =>
    obtain ⟨works,found⟩ := fetch_some.mp fetched
    have id_ : intent.id = intentId := Table.row_key found
    have entitled := @mem_responders db (landings 1) intentId caller
    dsimp only [Option.toList_some]
    rw [Proc.bind_eq,Proc.run_bind,run_getResponses]
    dsimp only
    split
    next stranger =>
      refine iff_of_false List.not_mem_nil ?_
      rintro ⟨_,intent',found',_,_,own | party⟩
      · rw [found] at found'
        cases found'
        exact stranger.1 own
      · exact stranger.2 (entitled.mpr party)
    next entitled_ =>
      rw [not_and_or,not_not,not_not] at entitled_
      constructor
      · intro member
        obtain ⟨rfl,rfl⟩ := Prod.mk.inj (List.mem_singleton.mp member)
        exact ⟨works,intent,found,id_,rfl,entitled_.imp_right entitled.mp⟩
      · rintro ⟨_,intent',found',rfl,rfl,_⟩
        rw [found] at found'
        cases found'
        exact List.mem_singleton.mpr (Prod.ext id_.symm rfl)

def acceptance (landing : Landing) (intentId responderAgentId now : String) (db : Db) : Db :=
  db.after landing (.patchResponses { intentId := some intentId, responderAgentId := some responderAgentId }
    { response := .accept, counterText := none, consentedAt := some now })

theorem run_endpoint_accept {intentId responderAgentId response counterText now : String} {row : IntentResponse}
    (parsed : parseReply response = some .accept)
    (party : (landings 0).fetch (db.responses.row (intentId,responderAgentId)) = some row) :
    Proc.run exec landings (respondToIntentEndpoint intentId responderAgentId response counterText now) db =
      let recorded := acceptance (landings 1) intentId responderAgentId now db
      let checked := Proc.run exec (fun n => landings (n+1+1)) (checkMutualConsent intentId responderAgentId) recorded
      (.inr checked.1,checked.2) := by
  rw [respondToIntentEndpoint,Proc.bind_eq,Proc.run_bind,respondToIntent,parsed]
  dsimp only
  rw [Proc.bind_eq,Proc.run_bind,run_getResponses,responses_by_key,answer_toList,party]
  dsimp only [Option.toList_some]
  rw [Proc.bind_eq,Proc.run_bind,run_patchResponses]
  simp only [Proc.pure_eq,Proc.run_done,decide_true,reduceIte,reduceCtorEq,Nat.reduceAdd]
  rw [Proc.bind_eq,Proc.run_bind]
  rfl

theorem run_endpoint_silent {intentId responderAgentId response : String} (counterText now : String)
    (refused : parseReply response = some .accept →
      (landings 0).fetch (db.responses.row (intentId,responderAgentId)) = none) :
    disclosures (.answered (Proc.run exec landings
      (respondToIntentEndpoint intentId responderAgentId response counterText now) db).1) = [] := by
  rw [respondToIntentEndpoint,Proc.bind_eq,Proc.run_bind,respondToIntent]
  cases parsed : parseReply response with
  | none => rfl
  | some reply =>
    dsimp only
    rw [Proc.bind_eq,Proc.run_bind,run_getResponses,responses_by_key,answer_toList]
    cases party : (landings 0).fetch (db.responses.row (intentId,responderAgentId)) with
    | none => rfl
    | some row =>
      cases reply with
      | accept =>
        rw [refused parsed] at party
        cases party
      | _ => rfl

theorem accepted_acceptance {landing : Landing} {intentId responderAgentId now : String} {row : IntentResponse}
    (found : db.responses.row (intentId,responderAgentId) = some row) :
    (acceptance landing intentId responderAgentId now db).Accepted intentId responderAgentId ↔
      landing.works = true ∨ row.response = .accept := by
  have key : row.key = (intentId,responderAgentId) := Table.row_key found
  obtain ⟨here,own⟩ := Prod.mk.inj key
  rw [Db.Accepted,acceptance,Db.after]
  cases works : landing.works with
  | false => simp [found]
  | true => simp [Db.patchResponses,Table.row_update,found,ResponseFilter.admits,meets,here,own,ResponseChange.apply]

end Runs

def Observes : Act → Prop
  | .postIntent _ _ _ _ _ => False
  | .patchResponses _ _ => False
  | .postResponse _ _ _ => False
  | _ => True

structure Alike (before after : Db) : Prop where
  responses : after.responses = before.responses
  requesters : ∀ i, (after.intents.row i).map Intent.requesterAgentId = (before.intents.row i).map Intent.requesterAgentId

section Observing
variable {before db : Db} {landing : Landing} {act : Act}

theorem Alike.refl (db : Db) : Alike db db := ⟨rfl,fun _ => rfl⟩

theorem Alike.after (alike : Alike before db) (observes : Observes act) : Alike before (db.after landing act) := by
  cases act with
  | patchIntents filter change =>
    rw [Db.after]
    split
    next =>
      refine ⟨alike.responses,fun i => ?_⟩
      rw [← alike.requesters,Db.patchIntents,Table.row_update,Option.map_map]
      congr 1
      funext row
      rw [Function.comp_apply]
      split <;> rfl
    next => exact alike
  | postIntent id chapterAgentId requesterAgentId intentText intentTags => exact observes.elim
  | patchResponses filter change => exact observes.elim
  | postResponse intentId responderAgentId responderChapterId => exact observes.elim
  | _ => exact alike

theorem observed_checkMutualConsent (intentId responderAgentId : String) :
    (checkMutualConsent intentId responderAgentId).Along exec Observes (Alike before)
      (fun introduction => ∀ x ∈ introduction, x.intentId = intentId) := by
  have nobody : ∀ x ∈ (none : Option Introduction), x.intentId = intentId := by
    intro x member
    cases member
  apply Proc.Along.bind (along_getIntents trivial)
  intro intentData _
  cases intentData with
  | nil => exact nobody
  | cons intent _ =>
    apply Proc.Along.bind (along_getAgents trivial)
    intro requesters _
    apply Proc.Along.bind (along_getAgents trivial)
    intro responders _
    cases requesters with
    | nil => exact nobody
    | cons requester _ =>
      cases responders with
      | nil => exact nobody
      | cons responder _ =>
        apply Proc.Along.bind (along_patchIntents trivial)
        intro _ _
        refine ⟨trivial,fun _ _ _ => ⟨trivial,fun _ _ _ => ?_⟩⟩
        intro x member
        cases member
        rfl

theorem observed_introduce (intentId responderAgentId : String) (consentedAt : Option String) :
    (introduce intentId responderAgentId consentedAt).Along exec Observes (Alike before)
      (fun introduction => ∀ x ∈ introduction, x.intentId = intentId) := by
  apply Proc.Along.bind (observed_checkMutualConsent intentId responderAgentId)
  intro introduction same x member
  obtain ⟨y,found,rfl⟩ := Option.map_eq_some_iff.mp member
  exact same y found

theorem observed_getIntroductions (agentId : String) : (getIntroductions agentId).Along exec Observes (Alike before)
    (fun found => ∀ x ∈ found, before.Accepted x.intentId agentId ∨
      (before.intents.row x.intentId).map Intent.requesterAgentId = some agentId) := by
  apply Proc.Along.bind (along_getResponses trivial)
  intro respData accepted
  apply Proc.Along.bind (along_getIntents trivial)
  intro reqData fulfilled
  have responding : ∀ resp ∈ respData, before.Accepted resp.intentId agentId := by
    intro resp member
    obtain ⟨admitted,db,alike,found⟩ := accepted resp member
    have asked : agentId = resp.responderAgentId ∧ Reply.accept = resp.response := by
      simpa [ResponseFilter.admits,meets] using admitted
    refine ⟨resp,?_,asked.2.symm⟩
    rwa [alike.responses,IntentResponse.key,← asked.1] at found
  have requesting : ∀ req ∈ reqData, (before.intents.row req.id).map Intent.requesterAgentId = some agentId := by
    intro req member
    obtain ⟨admitted,db,alike,found⟩ := fulfilled req member
    have asked : agentId = req.requesterAgentId ∧ Status.fulfilled = req.status := by
      simpa [IntentFilter.admits,meets] using admitted
    rw [← alike.requesters,found,asked.1]
    rfl
  have introduces : ∀ resp ∈ respData, (introduce resp.intentId agentId resp.consentedAt).Along exec Observes (Alike before)
      fun introduction => ∀ x ∈ introduction, before.Accepted x.intentId agentId := by
    intro resp member
    apply (observed_introduce resp.intentId agentId resp.consentedAt).mono (fun _ allowed => allowed) (fun _ inside => inside)
    intro introduction same x found
    rw [same x found]
    exact responding resp member
  apply Proc.Along.bind (Proc.Along.each introduces)
  intro answered heard
  have acceptors : ∀ req ∈ reqData, ((getResponses { intentId := some req.id, response := some .accept }).bind fun acceptors =>
      Proc.each (fun acc => introduce req.id acc.responderAgentId acc.consentedAt) acceptors).Along exec Observes (Alike before)
        fun found => ∀ introduction ∈ found, ∀ x ∈ introduction,
          (before.intents.row x.intentId).map Intent.requesterAgentId = some agentId := by
    intro req member
    apply Proc.Along.bind (along_getResponses trivial)
    intro acceptors _
    apply Proc.Along.each
    intro acc _
    apply (observed_introduce req.id acc.responderAgentId acc.consentedAt).mono (fun _ allowed => allowed)
      (fun _ inside => inside)
    intro introduction same x found
    rw [same x found]
    exact requesting req member
  apply Proc.Along.bind (Proc.Along.each acceptors)
  intro asked own x member
  obtain ⟨introduction,member,found⟩ := List.mem_filterMap.mp member
  rcases List.mem_append.mp member with member | member
  · exact Or.inl (heard introduction member x found)
  · obtain ⟨group,grouped,member⟩ := List.mem_flatten.mp member
    exact Or.inr (own group grouped introduction member x found)

theorem observed_getIntentDetail (intentId caller : String) :
    (getIntentDetail intentId caller).Along exec Observes (Alike before) fun _ => True := by
  apply Proc.Along.bind (along_getIntents trivial)
  intro data _
  cases data with
  | nil => trivial
  | cons intent _ =>
    apply Proc.Along.bind (along_getResponses trivial)
    intro responses _
    split <;> trivial

theorem Alike.accepted (alike : Alike before db) (i agentId : String) : db.Accepted i agentId ↔ before.Accepted i agentId := by
  rw [Db.Accepted,Db.Accepted,alike.responses]

theorem run_observed {β : Type} {post : β → Prop} {p : Program β} (along : p.Along exec Observes (Alike db) post)
    (landings : Nat → Landing) :
    post (Proc.run exec landings p db).1 ∧ Alike db (Proc.run exec landings p db).2.1 :=
  along.run (fun _ _ _ observes alike => alike.after observes) landings db (.refl db)

end Observing

section Told
variable {db : Db} {landings : Nat → Landing} {agentId : String} {result : Result}

theorem private_alike {after : Db} (alike : Alike db after) :
    Session.Private ⟨after,some (agentId,result)⟩ ↔ Session.Private ⟨db,some (agentId,result)⟩ := by
  have one : ∀ {first second : Db}, Alike first second → Session.Private ⟨first,some (agentId,result)⟩ →
      Session.Private ⟨second,some (agentId,result)⟩ := by
    intro first second alike told agentId' result' same i intent found apart named
    have requester := alike.requesters i
    rw [show second.intents.row i = some intent from found,Option.map_some,eq_comm,Option.map_eq_some_iff] at requester
    obtain ⟨intent',found',asked⟩ := requester
    rw [← asked] at apart named
    exact (alike.accepted i agentId').mpr (told agentId' result' same i intent' found' apart named)
  exact ⟨one ⟨alike.responses.symm,fun i => (alike.requesters i).symm⟩,one alike⟩

theorem private_silent (silent : disclosures result = []) : Session.Private ⟨db,some (agentId,result)⟩ := by
  intro agentId' result' same i intent _ _ named
  cases same
  rw [silent] at named
  cases named

theorem private_detail (intentId caller : String) :
    Session.Private ⟨db,some (caller,.detail (Proc.run exec landings (getIntentDetail intentId caller) db).1)⟩ ↔
      DetailConsented db landings intentId caller := by
  constructor
  · intro told intent row found party apart works works'
    obtain ⟨row',party',accepts⟩ := told caller _ rfl intentId intent found apart
      (disclosed_detail.mpr ⟨works,intent,found,rfl,rfl,Or.inr ⟨works',row,party⟩⟩)
    rw [show db.responses.row (intentId,caller) = some row' from party'] at party
    cases party
    exact accepts
  · intro consented agentId result same i intent found apart named
    cases same
    obtain ⟨works,intent',found',rfl,asked,entitled⟩ := disclosed_detail.mp named
    rw [asked] at apart
    rcases entitled with own | ⟨works',row,party⟩
    · exact absurd own.symm apart
    · exact ⟨row,party,consented intent' row found' party apart works works'⟩

theorem private_introductions (agentId : String) :
    Session.Private ⟨db,some (agentId,.introductions (Proc.run exec landings (getIntroductions agentId) db).1)⟩ := by
  intro agentId' result same i intent found apart named
  cases same
  obtain ⟨x,member,named⟩ := List.mem_map.mp named
  obtain ⟨rfl,_⟩ := Prod.mk.inj named
  rcases (run_observed (observed_getIntroductions agentId) landings).1 x member with accepted | own
  · exact accepted
  · rw [show db.intents.row x.intentId = some intent from found] at own
    exact absurd (Option.some.inj own) apart

theorem private_acceptance {intentId responderAgentId response counterText now : String} {row : IntentResponse}
    (parsed : parseReply response = some .accept) (works : (landings 0).works = true)
    (party : db.responses.row (intentId,responderAgentId) = some row) :
    Session.Private ⟨(Proc.run exec landings
        (respondToIntentEndpoint intentId responderAgentId response counterText now) db).2.1,
      some (responderAgentId,.answered (Proc.run exec landings
        (respondToIntentEndpoint intentId responderAgentId response counterText now) db).1)⟩ ↔
      AcceptanceRecorded db landings intentId responderAgentId response := by
  rw [run_endpoint_accept parsed (fetch_some.mpr ⟨works,party⟩)]
  dsimp only
  rw [private_alike (run_observed (observed_checkMutualConsent intentId responderAgentId) _).2,run_checkMutualConsent]
  -- The acceptance changes no intent and no profile.
  have intents : (acceptance (landings 1) intentId responderAgentId now db).intents = db.intents := by
    rw [acceptance,Db.after]
    split <;> rfl
  have agents : (acceptance (landings 1) intentId responderAgentId now db).agents = db.agents := by
    rw [acceptance,Db.after]
    split <;> rfl
  rw [intents,agents]
  constructor
  · intro told _ intent row' requester responder found party' asked responds apart _ works2 works3 works4
    rw [party] at party'
    cases party'
    rw [fetch_some.mpr ⟨works2,found⟩,Option.bind_some,fetch_some.mpr ⟨works3,asked⟩,Option.bind_some,
      fetch_some.mpr ⟨works4,responds⟩,Option.map_some] at told
    refine (accepted_acceptance party).mp (told responderAgentId _ rfl intentId intent ?_ apart ?_)
    · exact (congrArg (fun table => table.row intentId) intents).trans found
    · have named : requester.agentId = intent.requesterAgentId := Table.row_key asked
      exact List.mem_singleton.mpr (Prod.ext rfl named.symm)
  · intro recorded agentId result same i intent _ apart named
    cases same
    obtain ⟨x,member,named⟩ := List.mem_map.mp named
    obtain ⟨intent',read,member⟩ := Option.bind_eq_some_iff.mp (Option.mem_toList.mp member)
    obtain ⟨requester,asked,member⟩ := Option.bind_eq_some_iff.mp member
    obtain ⟨responder,responds,rfl⟩ := Option.map_eq_some_iff.mp member
    obtain ⟨works2,found⟩ := fetch_some.mp read
    obtain ⟨works3,asked⟩ := fetch_some.mp asked
    obtain ⟨works4,responds⟩ := fetch_some.mp responds
    obtain ⟨rfl,same⟩ := Prod.mk.inj named
    have key : requester.agentId = intent'.requesterAgentId := Table.row_key asked
    rw [← same] at apart
    refine (accepted_acceptance party).mpr (recorded parsed intent' row requester responder found party asked responds ?_
      works works2 works3 works4)
    rw [← key]
    exact apart

theorem private_endpoint (intentId responderAgentId response counterText now : String) :
    Session.Private ⟨(Proc.run exec landings
        (respondToIntentEndpoint intentId responderAgentId response counterText now) db).2.1,
      some (responderAgentId,.answered (Proc.run exec landings
        (respondToIntentEndpoint intentId responderAgentId response counterText now) db).1)⟩ ↔
      AcceptanceRecorded db landings intentId responderAgentId response := by
  by_cases answered : parseReply response = some .accept ∧
      ∃ row, (landings 0).fetch (db.responses.row (intentId,responderAgentId)) = some row
  · obtain ⟨parsed,row,party⟩ := answered
    obtain ⟨works,party⟩ := fetch_some.mp party
    exact private_acceptance parsed works party
  · have refused : parseReply response = some .accept →
        (landings 0).fetch (db.responses.row (intentId,responderAgentId)) = none := by
      intro parsed
      cases party : (landings 0).fetch (db.responses.row (intentId,responderAgentId)) with
      | none => rfl
      | some row => exact absurd ⟨parsed,row,party⟩ answered
    refine iff_of_true (private_silent (run_endpoint_silent counterText now refused)) ?_
    intro parsed intent row requester responder _ party _ _ _ works
    have read := refused parsed
    rw [fetch_some.mpr ⟨works,party⟩] at read
    cases read

end Told

theorem private_step (chapter : String) (s : Session) (request : Request) :
    (s.step chapter request).Private ↔ Consented s request := by
  obtain ⟨op,landings⟩ := request
  have internal : ∀ db', Session.Private ⟨db',none⟩ := by
    intro db' agentId result same
    cases same
  cases op with
  | createIntent intentId requesterAgentId intentText intentTags => exact iff_of_true (private_silent rfl) trivial
  | matchIntent intentId found now => exact iff_of_true (internal _) trivial
  | matchIntentFederation intentId answers => exact iff_of_true (internal _) trivial
  | respondToIntent intentId responderAgentId response counterText now =>
    rw [Session.step,program,Proc.map_eq,Proc.run_bind]
    exact iff_of_true (private_silent rfl) trivial
  | respondToIntentEndpoint intentId responderAgentId response counterText now =>
    rw [Session.step,program,Proc.map_eq,Proc.run_bind]
    exact private_endpoint intentId responderAgentId response counterText now
  | checkMutualConsent intentId responderAgentId => exact iff_of_true (internal _) trivial
  | getIntroductions agentId =>
    rw [Session.step,program,Proc.map_eq,Proc.run_bind]
    refine iff_of_true ?_ trivial
    exact (private_alike (run_observed (observed_getIntroductions agentId) landings).2).mpr (private_introductions agentId)
  | cancelIntent intentId requesterAgentId now =>
    rw [Session.step,program,Proc.map_eq,Proc.run_bind]
    exact iff_of_true (private_silent rfl) trivial
  | getPendingForAgent agentId =>
    rw [Session.step,program,Proc.map_eq,Proc.run_bind]
    exact iff_of_true (private_silent rfl) trivial
  | getIntentDetail intentId caller =>
    rw [Session.step,program,Proc.map_eq,Proc.run_bind]
    exact (private_alike (run_observed (observed_getIntentDetail intentId caller) landings).2).trans
      (private_detail intentId caller)

/-- Who asked is told to none who has not accepted, after each operation of a run, exactly
when no detail is read by one who has not, and every acceptance answered is recorded. -/
theorem requester_private_iff (chapter : String) (db : Db) (requests : List Request) :
    (∀ k, ((requests.take k).foldl (Session.step chapter) ⟨db,none⟩).Private) ↔
      ∀ (k : Nat) request, requests[k]? = some request →
        Consented ((requests.take k).foldl (Session.step chapter) ⟨db,none⟩) request := by
  have untold : Session.Private ⟨db,none⟩ := by
    intro agentId result same
    cases same
  exact Runs.always_iff (I := fun _ => True) (fun _ _ _ => trivial) (fun s request _ _ => private_step chapter s request)
    requests _ trivial untold

/-- Bob, who was matched and has not answered, reads the detail of Ann's intent. -/
theorem detail_names_requester : ¬ (([⟨.createIntent "i" "ann" "someone who knows Lean" ["lean"],fun _ => carriedOut⟩,
    ⟨.matchIntent "i" [⟨"bob","chapter",1,["lean"]⟩] "now",fun _ => carriedOut⟩,
    ⟨.getIntentDetail "i" "bob",fun _ => carriedOut⟩] : List Request).foldl (Session.step "chapter") ⟨annAndBob,none⟩).Private := by
  rw [List.foldl_cons,List.foldl_cons,List.foldl_cons,List.foldl_nil,private_step]
  intro consented
  have accepts := consented ⟨"i","chapter","ann","someone who knows Lean",["lean"],.matched,1,[.projected "chapter" 1 ["lean"]],
    "now","now"⟩ ⟨"row","i","bob","chapter",.pending,none,none,"now"⟩ (by decide +kernel) (by decide +kernel) (by decide) rfl rfl
  cases accepts

end Orrery.Intents
