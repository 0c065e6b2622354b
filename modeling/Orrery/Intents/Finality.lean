import Orrery.Intents.Calls

/-! When a cancelled intent stays cancelled: every order of the calls on the store that
the calls under way make. -/
namespace Orrery.Intents
open Foundation

def Spares (i : String) : Act → Prop
  | .patchIntents filter change => ∀ row : Intent, row.id = i → filter.admits row = true → change.status = .cancelled
  | .patchResponses filter change => ∀ row : IntentResponse, row.intentId = i → filter.admits row = true →
      change.response ≠ .accept
  | .postResponse intentId _ _ => intentId ≠ i
  | .track activity => activity.intentId ≠ i
  | _ => True

def Unintroduced (i : String) (result : Result) : Prop := ∀ x ∈ introductionsIn result, x.intentId ≠ i

/-- The operations that would touch the intent when they are run on this store. -/
def Reaches (i : String) (db : Db) : Op → Prop
  | .matchIntent intentId _ _ => intentId = i
  | .matchIntentFederation intentId answers => intentId = i ∧ ∃ r ∈ answers, 0 < r.matchCount
  | .respondToIntent intentId responderAgentId response _ _ =>
    intentId = i ∧ parseReply response = some .accept ∧ ∃ row, db.responses.row (i,responderAgentId) = some row
  | .respondToIntentEndpoint intentId responderAgentId response _ _ =>
    intentId = i ∧ parseReply response = some .accept ∧ ∃ row, db.responses.row (i,responderAgentId) = some row
  | .checkMutualConsent intentId _ => intentId = i
  | .getIntroductions agentId => (∃ row, db.responses.row (i,agentId) = some row ∧ row.response = .accept) ∨
      ∃ intent, db.intents.row i = some intent ∧ intent.requesterAgentId = agentId ∧ intent.status = .fulfilled
  | _ => False

def MayReach (i : String) (db : Db) : Op → Prop
  | .getIntroductions agentId => (∃ row, db.responses.row (i,agentId) = some row) ∨
      ∃ intent, db.intents.row i = some intent ∧ intent.requesterAgentId = agentId
  | op => Reaches i db op

section Programs
variable {i : String} {rely : Db → Prop}

abbrev Spared {β : Type} (i : String) (rely : Db → Prop) (post : β → Prop) (p : Program β) : Prop :=
  p.Along exec (Spares i) rely post

theorem not_admits {filter : IntentFilter} {intentId : String} (asked : filter.id = some intentId)
    (other : intentId ≠ i)
    (change : IntentChange) : Spares i (.patchIntents filter change) := by
  intro row same admitted
  rw [IntentFilter.admits,asked] at admitted
  simp [meets,same,other] at admitted

theorem spared_checkMutualConsent {intentId : String} (unreached : ∀ db, rely db → intentId ≠ i)
    (responderAgentId : String) :
    Spared i rely (fun introduction => ∀ x ∈ introduction, x.intentId ≠ i)
      (checkMutualConsent intentId responderAgentId) := by
  have quiet : ∀ x ∈ (none : Option Introduction), x.intentId ≠ i := by
    intro x member
    cases member
  apply Proc.Along.bind (along_getIntents trivial)
  intro intentData listed
  cases intentData with
  | nil => exact quiet
  | cons intent _ =>
    obtain ⟨_,db,inside,_⟩ := listed intent List.mem_cons_self
    have other := unreached db inside
    apply Proc.Along.bind (along_getAgents trivial)
    intro requesters _
    apply Proc.Along.bind (along_getAgents trivial)
    intro responders _
    cases requesters with
    | nil => exact quiet
    | cons requester _ =>
      cases responders with
      | nil => exact quiet
      | cons responder _ =>
        apply Proc.Along.bind (along_patchIntents (not_admits rfl other _))
        intro _ _
        refine ⟨other,fun _ _ _ => ⟨other,fun _ _ _ => ?_⟩⟩
        intro x member
        cases member
        exact other

theorem spared_introduce {intentId : String} (other : intentId ≠ i) (responderAgentId : String)
    (consentedAt : Option String) : Spared i rely (fun introduction => ∀ x ∈ introduction, x.intentId ≠ i)
      (introduce intentId responderAgentId consentedAt) := by
  apply Proc.Along.bind (spared_checkMutualConsent (fun _ _ => other) responderAgentId)
  intro introduction apart x member
  obtain ⟨y,found,rfl⟩ := Option.map_eq_some_iff.mp member
  exact apart y found

theorem spared_respondToIntent {intentId responderAgentId response : String} (counterText now : String)
    (unreached : ∀ db, rely db → ¬ (intentId = i ∧ parseReply response = some .accept ∧
      ∃ row, db.responses.row (i,responderAgentId) = some row)) :
    Spared i rely (fun result => intentId = i → ∀ reply, result ≠ .ok ⟨true,reply⟩)
      (respondToIntent intentId responderAgentId response counterText now) := by
  rw [respondToIntent]
  split
  next => exact fun _ reply => nofun
  next reply parsed =>
    apply Proc.Along.bind (along_getResponses trivial)
    intro matched_ listed
    cases matched_ with
    | nil => exact fun _ reply => nofun
    | cons row _ =>
      -- An answer means a row, so an accept is of another intent.
      have other : reply = .accept → intentId ≠ i := by
        intro accepts same
        obtain ⟨admitted,db,inside,found⟩ := listed row List.mem_cons_self
        apply unreached db inside
        refine ⟨same,by rw [parsed,accepts],row,?_⟩
        have asked : intentId = row.intentId ∧ responderAgentId = row.responderAgentId := by
          simpa [ResponseFilter.admits,meets] using admitted
        rwa [IntentResponse.key,← asked.1,← asked.2,same] at found
      refine ⟨?_,fun _ _ _ => ?_⟩
      · intro row' same admitted accepts
        apply other accepts
        rw [← same]
        have key : intentId = row'.intentId ∧ responderAgentId = row'.responderAgentId := by
          simpa [ResponseFilter.admits,meets] using admitted
        exact key.1
      · intro same reply' done
        cases accepts : decide (reply = .accept) with
        | false =>
          change Except.ok _ = Except.ok _ at done
          rw [accepts] at done
          cases done
        | true => exact other (of_decide_eq_true accepts) same

theorem spared_respondToIntentEndpoint {intentId responderAgentId response : String} (counterText now : String)
    (unreached : ∀ db, rely db → ¬ (intentId = i ∧ parseReply response = some .accept ∧
      ∃ row, db.responses.row (i,responderAgentId) = some row)) :
    Spared i rely (fun result => Unintroduced i (.answered result))
      (respondToIntentEndpoint intentId responderAgentId response counterText now) := by
  apply Proc.Along.bind (spared_respondToIntent counterText now unreached)
  intro result mutual_
  split
  next reply =>
    have other : intentId ≠ i := fun same => mutual_ same reply rfl
    apply Proc.Along.bind (spared_checkMutualConsent (fun _ _ => other) responderAgentId)
    intro introduction apart x member
    exact apart x (Option.mem_toList.mp member)
  next =>
    intro x member
    cases member

theorem spared_getIntroductions {agentId : String}
    (unreached : ∀ db, rely db → ¬ Reaches i db (.getIntroductions agentId)) :
    Spared i rely (fun found => ∀ x ∈ found, x.intentId ≠ i) (getIntroductions agentId) := by
  apply Proc.Along.bind (along_getResponses trivial)
  intro respData accepted
  apply Proc.Along.bind (along_getIntents trivial)
  intro reqData fulfilled
  have responding : ∀ resp ∈ respData, resp.intentId ≠ i := by
    intro resp member same
    obtain ⟨admitted,db,inside,found⟩ := accepted resp member
    have asked : agentId = resp.responderAgentId ∧ Reply.accept = resp.response := by
      simpa [ResponseFilter.admits,meets] using admitted
    apply unreached db inside
    exact Or.inl ⟨resp,by rwa [IntentResponse.key,same,← asked.1] at found,asked.2.symm⟩
  have requesting : ∀ req ∈ reqData, req.id ≠ i := by
    intro req member same
    obtain ⟨admitted,db,inside,found⟩ := fulfilled req member
    have asked : agentId = req.requesterAgentId ∧ Status.fulfilled = req.status := by
      simpa [IntentFilter.admits,meets] using admitted
    apply unreached db inside
    exact Or.inr ⟨req,by rwa [same] at found,asked.1.symm,asked.2.symm⟩
  apply Proc.Along.bind (Proc.Along.each fun resp member => spared_introduce (responding resp member) _ _)
  intro answered apart
  have acceptors : ∀ req ∈ reqData, Spared i rely (fun found =>
    ∀ introduction ∈ found, ∀ x ∈ introduction, x.intentId ≠ i)
      ((getResponses { intentId := some req.id, response := some .accept }).bind fun acceptors =>
        Proc.each (fun acc => introduce req.id acc.responderAgentId acc.consentedAt) acceptors) := by
    intro req member
    apply Proc.Along.bind (along_getResponses trivial)
    intro acceptors _
    exact Proc.Along.each fun acc _ => spared_introduce (requesting req member) _ _
  apply Proc.Along.bind (Proc.Along.each acceptors)
  intro asked apart' x member
  obtain ⟨introduction,member,found⟩ := List.mem_filterMap.mp member
  rcases List.mem_append.mp member with member | member
  · exact apart introduction member x found
  · obtain ⟨group,grouped,member⟩ := List.mem_flatten.mp member
    exact apart' group grouped introduction member x found

theorem spared_matchIntent {intentId chapter : String} (unreached : ∀ db, rely db → intentId ≠ i)
    (found : List ProjectionMatch) (now : String) :
    Spared i rely (fun _ => True) (matchIntent chapter intentId found now) := by
  apply Proc.Along.bind (along_getIntents trivial)
  intro data listed
  cases data with
  | nil => trivial
  | cons intent _ =>
    obtain ⟨_,db,inside,_⟩ := listed intent List.mem_cons_self
    have other := unreached db inside
    apply Proc.Along.bind (along_patchIntents (not_admits rfl other _))
    intro _ _
    have posts : ∀ agentId : String, Spared i rely (fun _ => True) (postResponse intentId agentId chapter) :=
      fun agentId => ⟨other,fun _ _ _ => trivial⟩
    exact Proc.Along.bind (Proc.Along.each fun agentId _ => posts agentId) fun _ _ => trivial

theorem spared_matchIntentFederation {intentId : String} {answers : List RemoteMatch}
    (unreached : ∀ db, rely db → ¬ (intentId = i ∧ ∃ r ∈ answers, 0 < r.matchCount)) :
    Spared i rely (fun _ => True) (matchIntentFederation intentId answers) := by
  apply Proc.Along.bind (along_getIntents trivial)
  intro data listed
  cases data with
  | nil => trivial
  | cons intent _ =>
    obtain ⟨_,db,inside,_⟩ := listed intent List.mem_cons_self
    dsimp only
    split
    next some_ =>
      have elsewhere : intentId ≠ i := by
        intro same
        obtain ⟨r,member⟩ := List.exists_mem_of_ne_nil _ some_
        have counted := List.mem_filter.mp member
        exact unreached db inside ⟨same,r,counted.1,of_decide_eq_true counted.2⟩
      apply Proc.Along.bind (along_getIntents trivial)
      intro existing _
      cases existing with
      | nil => trivial
      | cons current _ =>
        exact Proc.Along.bind (along_patchIntents (not_admits rfl elsewhere _)) fun _ _ => trivial
    next => trivial

theorem spared_cancelIntent (intentId requesterAgentId now : String) :
    Spared i rely (fun _ => True) (cancelIntent intentId requesterAgentId now) := by
  apply Proc.Along.bind (along_getIntents trivial)
  intro data _
  cases data with
  | nil => trivial
  | cons _ _ =>
    have cancels : Spares i (.patchIntents { id := some intentId } { status := .cancelled, updatedAt := some now }) :=
      fun _ _ _ => rfl
    exact Proc.Along.bind (along_patchIntents cancels) fun _ _ => trivial

theorem spared_getPendingForAgent (agentId : String) : Spared i rely (fun _ => True) (getPendingForAgent agentId) := by
  apply Proc.Along.bind (along_getResponses trivial)
  intro responses _
  have reads : ∀ resp : IntentResponse, Spared i rely (fun _ => True)
      ((getIntents { id := some resp.intentId }).bind fun intentData => .done (intentData.head?.bind fun intent =>
        if intent.status = .active ∨ intent.status = .matched then
          some (⟨resp.id,intent.id,intent.intentText,intent.intentTags,resp.createdAt⟩ : PendingIntent)
        else none)) := fun resp => Proc.Along.bind (along_getIntents trivial) fun _ _ => trivial
  exact Proc.Along.bind (Proc.Along.each fun resp _ => reads resp) fun _ _ => trivial

theorem spared_getIntentDetail (intentId caller : String) :
    Spared i rely (fun _ => True) (getIntentDetail intentId caller) := by
  apply Proc.Along.bind (along_getIntents trivial)
  intro data _
  cases data with
  | nil => trivial
  | cons intent _ =>
    apply Proc.Along.bind (along_getResponses trivial)
    intro responses _
    split <;> trivial

theorem spared_program (chapter : String) {op : Op} (unreached : ∀ db, rely db → ¬ Reaches i db op) :
    Spared i rely (Unintroduced i) (program chapter op) := by
  have silent : ∀ {result : Result}, introductionsIn result = [] → Unintroduced i result := by
    intro result none_ x member
    rw [none_] at member
    cases member
  cases op with
  | createIntent intentId requesterAgentId intentText intentTags => exact ⟨trivial,fun _ _ _ => silent rfl⟩
  | matchIntent intentId found now =>
    exact Proc.Along.bind (spared_matchIntent unreached found now) fun _ _ => silent rfl
  | matchIntentFederation intentId answers =>
    exact Proc.Along.bind (spared_matchIntentFederation unreached) fun _ _ => silent rfl
  | respondToIntent intentId responderAgentId response counterText now =>
    exact Proc.Along.bind (spared_respondToIntent counterText now unreached) fun _ _ => silent rfl
  | respondToIntentEndpoint intentId responderAgentId response counterText now =>
    exact Proc.Along.bind (spared_respondToIntentEndpoint counterText now unreached) fun _ apart => apart
  | checkMutualConsent intentId responderAgentId =>
    apply Proc.Along.bind (spared_checkMutualConsent unreached responderAgentId)
    intro introduction apart x member
    exact apart x (Option.mem_toList.mp member)
  | getIntroductions agentId => exact Proc.Along.bind (spared_getIntroductions unreached) fun _ apart => apart
  | cancelIntent intentId requesterAgentId now =>
    exact Proc.Along.bind (spared_cancelIntent intentId requesterAgentId now) fun _ _ => silent rfl
  | getPendingForAgent agentId =>
    exact Proc.Along.bind (spared_getPendingForAgent agentId) fun _ _ => silent rfl
  | getIntentDetail intentId caller =>
    exact Proc.Along.bind (spared_getIntentDetail intentId caller) fun _ _ => silent rfl

end Programs

def IsCancelled (i : String) (db : Db) : Prop := ∃ intent, db.intents.row i = some intent ∧ intent.status = .cancelled

structure Stands (i : String) (before after : Db) : Prop where
  cancelled : IsCancelled i after
  parties : ∀ a row, after.responses.row (i,a) = some row → ∃ row', before.responses.row (i,a) = some row' ∧
    (row.response = .accept → row'.response = .accept)

section Standing
variable {i : String} {db db' db'' : Db} {op : Op} {landing : Landing} {act : Act}

theorem Stands.refl (cancelled : IsCancelled i db) : Stands i db db :=
  ⟨cancelled,fun _ row found => ⟨row,found,id⟩⟩

theorem Stands.trans (first : Stands i db db') (second : Stands i db' db'') : Stands i db db'' where
  cancelled := second.cancelled
  parties a row found := by
    obtain ⟨row',found',accepts⟩ := second.parties a row found
    obtain ⟨row'',found'',accepts'⟩ := first.parties a row' found'
    exact ⟨row'',found'',accepts' ∘ accepts⟩

theorem Stands.after (cancelled : IsCancelled i db) (spares : Spares i act) : Stands i db (db.after landing act) where
  cancelled := by
    obtain ⟨intent,found,status⟩ := cancelled
    obtain ⟨intent',found',_,same | ⟨filter,change,rfl,admitted,same⟩⟩ := @after_intent _ landing act _ _ found
    · exact ⟨intent',found',by rw [same,status]⟩
    · refine ⟨intent',found',?_⟩
      rw [same]
      exact spares intent (Table.row_key found) admitted
  parties a row found := by
    rcases after_response found with ⟨row',found',same | ⟨filter,change,rfl,admitted,same⟩⟩ | ⟨chapter,rfl⟩
    · exact ⟨row',found',by rw [same]; exact id⟩
    · refine ⟨row',found',fun accepts => ?_⟩
      have key : row'.key = (i,a) := Table.row_key found'
      rw [same] at accepts
      exact absurd accepts (spares row' (congrArg Prod.fst key) admitted)
    · exact absurd rfl spares

theorem Reaches.back (stands : Stands i db db') : Reaches i db' op → Reaches i db op := by
  have party : ∀ {a : String}, (∃ row, db'.responses.row (i,a) = some row) → ∃ row, db.responses.row (i,a) =
      some row := by
    rintro a ⟨row,found⟩
    obtain ⟨row',found',_⟩ := stands.parties a row found
    exact ⟨row',found'⟩
  cases op with
  | respondToIntent intentId responderAgentId response counterText now =>
    exact fun reaches => ⟨reaches.1,reaches.2.1,party reaches.2.2⟩
  | respondToIntentEndpoint intentId responderAgentId response counterText now =>
    exact fun reaches => ⟨reaches.1,reaches.2.1,party reaches.2.2⟩
  | getIntroductions agentId =>
    rintro (⟨row,found,accepts⟩ | ⟨intent,found,_,fulfilled⟩)
    · obtain ⟨row',found',back⟩ := stands.parties agentId row found
      exact Or.inl ⟨row',found',back accepts⟩
    · obtain ⟨intent',found',cancelled⟩ := stands.cancelled
      rw [found'] at found
      cases found
      rw [fulfilled] at cancelled
      cases cancelled
  | _ => exact id

theorem Reaches.may (reaches : Reaches i db op) : MayReach i db op := by
  cases op with
  | getIntroductions agentId =>
    rcases reaches with ⟨row,found,_⟩ | ⟨intent,found,requester,_⟩
    · exact Or.inl ⟨row,found⟩
    · exact Or.inr ⟨intent,found,requester⟩
  | _ => exact reaches

theorem MayReach.after (reaches : MayReach i db op) : MayReach i (db.after landing act) op := by
  cases op with
  | respondToIntent intentId responderAgentId response counterText now =>
    obtain ⟨same,accepts,row,found⟩ := reaches
    exact ⟨same,accepts,after_response_kept found⟩
  | respondToIntentEndpoint intentId responderAgentId response counterText now =>
    obtain ⟨same,accepts,row,found⟩ := reaches
    exact ⟨same,accepts,after_response_kept found⟩
  | getIntroductions agentId =>
    rcases reaches with ⟨row,found⟩ | ⟨intent,found,requester⟩
    · exact Or.inl (after_response_kept found)
    · obtain ⟨intent',found',same,_⟩ := after_intent found
      exact Or.inr ⟨intent',found',same.trans requester⟩
  | _ => exact reaches

end Standing

abbrev Desk := Pool Op Act Act.Answer Result Db

def Desk.opened (db : Db) : Desk := ⟨db,∅,[]⟩

def cancelledIn : Moment Op Act Result → Option String
  | .returned (.cancelIntent intentId _ _) (.cancelled (.ok ())) => some intentId
  | _ => none

def Cancels (i : String) (moment : Moment Op Act Result) : Prop := cancelledIn moment = some i

def Touches (i : String) : Moment Op Act Result → Prop
  | .did (.track activity) => activity.intentId = i
  | .returned _ result => ∃ x ∈ introductionsIn result, x.intentId = i
  | _ => False

def Desk.Cancelled (i : String) (desk : Desk) : Prop := ∃ moment ∈ desk.past, Cancels i moment

/-- Once cancelled, the intent is cancelled, and nobody is credited for it or introduced. -/
structure Desk.Final (i : String) (desk : Desk) : Prop where
  stays : desk.Cancelled i → IsCancelled i desk.store
  quiet : desk.past.Pairwise fun later earlier => Cancels i earlier → ¬ Touches i later

def Undisputed (desk : Desk) : Turn Op Landing → Prop
  | .start _ op => ∀ i, desk.Cancelled i → ¬ Reaches i desk.store op
  | .advance id landing => ∀ i requesterAgentId now filter change resume,
      desk.live.lookup id = some ⟨.cancelIntent i requesterAgentId now,.call (.patchIntents filter change) resume⟩ →
      ¬ desk.Cancelled i → landing.works = true ∧
        ∀ other task, other ≠ id → desk.live.lookup other = some task → ¬ MayReach i desk.store task.op

def cancelling (intentId now : String) : Program Result :=
  .call (.patchIntents { id := some intentId } { status := .cancelled, updatedAt := some now }) fun _ =>
    .done (.cancelled (.ok ()))

def Shaped (chapter : String) (db : Db) (task : Task Op Act Act.Answer Result) : Prop :=
  ∀ i requesterAgentId now, task.op = .cancelIntent i requesterAgentId now →
    task.rest = program chapter task.op ∨ (task.rest = cancelling i now ∧ ∃ intent, db.intents.row i = some intent) ∨
      ∃ result, task.rest = .done result

def Restrained (i : String) (desk : Desk) (task : Task Op Act Act.Answer Result) : Prop :=
  (desk.Cancelled i → Spared i (Stands i desk.store) (Unintroduced i) task.rest) ∧
    (¬ desk.Cancelled i → MayReach i desk.store task.op ∨
      Spared i (fun db => ¬ Reaches i db task.op) (Unintroduced i) task.rest)

structure Desk.Guarded (chapter i : String) (desk : Desk) : Prop extends desk.Final i where
  shaped : ∀ id task, desk.live.lookup id = some task → Shaped chapter desk.store task
  restrained : ∀ id task, desk.live.lookup id = some task → Restrained i desk task

section Runs
variable {chapter i : String} {desk desk' : Desk} {db : Db} {landing : Landing} {act : Act} {op : Op}
  {task : Task Op Act Act.Answer Result} {resume : act.Answer → Program Result}

theorem cancel_turn {requesterAgentId now : String}
    (shaped : Shaped chapter db ⟨.cancelIntent i requesterAgentId now,.call act resume⟩) :
    (∃ error, resume (db.reply landing act) = .done (.cancelled (.error error))) ∨
      (resume (db.reply landing act) = cancelling i now ∧ db.after landing act = db ∧
        ∃ intent, db.intents.row i = some intent) ∨
      act = .patchIntents { id := some i } { status := .cancelled, updatedAt := some now } ∧
        resume (db.reply landing act) = .done (.cancelled (.ok ())) ∧ ∃ intent, db.intents.row i = some intent := by
  rcases shaped i requesterAgentId now rfl with whole | ⟨rest,known⟩ | ⟨result,ended⟩
  · change Proc.call act resume = .call _ _ at whole
    cases whole
    cases found : db.reply landing (.getIntents { id := some i, requesterAgentId := some requesterAgentId }) with
    | nil => exact Or.inl ⟨_,rfl⟩
    | cons intent rest =>
      refine Or.inr (Or.inl ⟨rfl,rfl,intent,?_⟩)
      have listed : landing.answer (db.intents.select
          (IntentFilter.admits { id := some i, requesterAgentId := some requesterAgentId })) = intent :: rest := found
      have member : intent ∈ intent :: rest := List.mem_cons_self
      rw [← listed] at member
      obtain ⟨row,admitted⟩ := Table.mem_select.mp (mem_answer member)
      have asked : i = intent.id ∧ requesterAgentId = intent.requesterAgentId := by
        simpa [IntentFilter.admits,meets] using admitted
      rwa [← asked.1] at row
  · cases rest
    exact Or.inr (Or.inr ⟨rfl,rfl,known⟩)
  · cases ended

theorem Shaped.after (shaped : Shaped chapter db task) : Shaped chapter (db.after landing act) task := by
  intro i requesterAgentId now same
  rcases shaped i requesterAgentId now same with whole | ⟨rest,intent,found⟩ | ended
  · exact Or.inl whole
  · obtain ⟨intent',found',_⟩ := @after_intent _ landing act _ _ found
    exact Or.inr (Or.inl ⟨rest,intent',found'⟩)
  · exact Or.inr (Or.inr ended)

theorem Shaped.goOn (shaped : Shaped chapter db ⟨op,.call act resume⟩) :
    Shaped chapter (db.after landing act) ⟨op,resume (db.reply landing act)⟩ := by
  intro i requesterAgentId now same
  obtain rfl : op = .cancelIntent i requesterAgentId now := same
  rcases @cancel_turn _ _ _ landing _ _ _ _ shaped with ⟨error,ended⟩ | ⟨rest,kept,known⟩ | ⟨_,ended,_⟩
  · exact Or.inr (Or.inr ⟨_,ended⟩)
  · refine Or.inr (Or.inl ⟨rest,?_⟩)
    rwa [kept]
  · exact Or.inr (Or.inr ⟨_,ended⟩)

theorem cancelled_by {b : Result} (shaped : Shaped chapter db ⟨op,.call act resume⟩)
    (ended : resume (db.reply landing act) = .done b) (cancels : Cancels i (.returned op b)) :
    ∃ requesterAgentId now, op = .cancelIntent i requesterAgentId now ∧
      act = .patchIntents { id := some i } { status := .cancelled, updatedAt := some now } ∧
      ∃ intent, db.intents.row i = some intent := by
  cases op with
  | cancelIntent intentId requesterAgentId now =>
    rcases @cancel_turn _ _ _ landing _ _ _ _ shaped with ⟨error,failed⟩ | ⟨rest,_,_⟩ | ⟨same,_,known⟩
    · rw [failed] at ended
      cases ended
      cases cancels
    · rw [rest] at ended
      cases ended
    · have here : intentId = i := by
        cases b with
        | cancelled result =>
          cases result with
          | ok _ => exact Option.some.inj cancels
          | error _ => cases cancels
        | _ => cases cancels
      rw [← here]
      exact ⟨requesterAgentId,now,rfl,same,known⟩
  | _ => cases cancels

theorem cancels_once {now : String} {intent : Intent} (works : landing.works = true)
    (known : db.intents.row i = some intent) : IsCancelled i (db.after landing
      (.patchIntents { id := some i } { status := .cancelled, updatedAt := some now })) := by
  have admitted : IntentFilter.admits { id := some i } intent = true := by
    simp [IntentFilter.admits,meets,Table.row_key known]
  refine ⟨IntentChange.apply { status := .cancelled, updatedAt := some now } intent,?_,rfl⟩
  rw [Db.after,if_pos works,Db.patchIntents,Table.row_update,known,Option.map_some,if_pos admitted]

theorem settle_cancelled {id : Nat} {p : Program Result}
    (known : ∀ b, p = .done b → Cancels i (.returned op b) → desk.Cancelled i) :
    Desk.Cancelled i (desk.settle id op p) ↔ desk.Cancelled i := by
  rcases Pool.settle_past id op p with same | ⟨b,ended,same⟩
  · rw [Desk.Cancelled,same,Desk.Cancelled]
  · rw [Desk.Cancelled,same,List.exists_mem_cons_iff]
    exact ⟨fun either => either.elim (known b ended) fun before => before,Or.inr⟩

theorem Restrained.transfer (restrained : Restrained i desk task) (same : desk'.Cancelled i ↔ desk.Cancelled i)
    (store : desk'.store = desk.store) : Restrained i desk' task := by
  rw [Restrained,same,store]
  exact restrained

theorem guarded_settle {id : Nat} {p : Program Result} (final : desk.Final i)
    (others : ∀ other task, other ≠ id → desk.live.lookup other = some task →
      Shaped chapter desk.store task ∧ Restrained i desk task)
    (shaped : Shaped chapter desk.store ⟨op,p⟩) (restrained : Restrained i desk ⟨op,p⟩)
    (known : ∀ b, p = .done b → Cancels i (.returned op b) → desk.Cancelled i) :
    Desk.Guarded chapter i (desk.settle id op p) := by
  have same := @settle_cancelled i desk op id p known
  have store : (desk.settle id op p).store = desk.store := Pool.settle_store id op p
  refine ⟨⟨?_,?_⟩,?_,?_⟩
  · rw [same,store]
    exact final.stays
  · rcases Pool.settle_past id op p with past | ⟨b,ended,past⟩
    · rw [past]
      exact final.quiet
    · rw [past,List.pairwise_cons]
      refine ⟨fun moment member cancels touches => ?_,final.quiet⟩
      have spared := restrained.1 ⟨moment,member,cancels⟩
      rw [ended] at spared
      obtain ⟨x,inside,here⟩ := touches
      exact spared x inside here
  · rw [store]
    exact Pool.settle_live (fun other task apart found => (others other task apart found).1) shaped
  · apply Pool.settle_live
    · exact fun other task apart found => (others other task apart found).2.transfer same store
    · exact restrained.transfer same store

theorem guarded_start (guarded : desk.Guarded chapter i) {id : Nat}
    (ok : Undisputed desk (.start id op)) : Desk.Guarded chapter i (desk.settle id op (program chapter op)) := by
  have fresh : Shaped chapter desk.store ⟨op,program chapter op⟩ := fun _ _ _ _ => Or.inl rfl
  apply guarded_settle guarded.toFinal (fun other task _ found => ⟨guarded.shaped other task found,
    guarded.restrained other task found⟩) fresh
  · constructor
    · intro cancelled
      apply spared_program chapter
      intro db stands reaches
      exact ok i cancelled (reaches.back stands)
    · exact fun _ => Or.inr (spared_program chapter fun _ unreached => unreached)
  · intro b ended cancels
    cases op with
    | cancelIntent intentId requesterAgentId now => cases ended
    | _ => cases cancels

theorem Restrained.after (restrained : Restrained i desk task) (cancelled : desk.Cancelled i → IsCancelled i desk.store)
    (spares : desk.Cancelled i → Spares i act) : Restrained i (Pool.after exec desk landing act) task := by
  have same : Desk.Cancelled i (Pool.after exec desk landing act) ↔ desk.Cancelled i := by
    rw [Desk.Cancelled,Pool.after,List.exists_mem_cons_iff]
    exact or_iff_right nofun
  rw [Restrained,same]
  constructor
  · intro before
    have stands : Stands i desk.store (desk.store.after landing act) := .after (cancelled before) (spares before)
    exact (restrained.1 before).mono (fun _ => id) (fun _ => stands.trans) fun _ => id
  · intro before
    exact (restrained.2 before).imp_left MayReach.after

theorem after_cancelled : Desk.Cancelled i (Pool.after exec desk landing act) ↔ desk.Cancelled i := by
  rw [Desk.Cancelled,Pool.after,List.exists_mem_cons_iff]
  exact or_iff_right nofun

theorem Desk.Final.after (final : desk.Final i) (spares : desk.Cancelled i → Spares i act) :
    Desk.Final i (Pool.after exec desk landing act) where
  stays cancelled := by
    rw [after_cancelled] at cancelled
    exact (Stands.after (final.stays cancelled) (spares cancelled)).cancelled
  quiet := by
    rw [Pool.after,List.pairwise_cons]
    refine ⟨fun moment member cancels touches => ?_,final.quiet⟩
    have spared := spares ⟨moment,member,cancels⟩
    cases act with
    | track activity => exact spared touches
    | _ => exact touches

theorem guarded_cancel {requesterAgentId now : String} {filter : IntentFilter} {change : IntentChange} {id : Nat}
    {b : Result}
    {p : Program Result} (guarded : desk.Guarded chapter i) (fresh : ¬ desk.Cancelled i) (ended : p = .done b)
    (cancels : Cancels i (.returned (.cancelIntent i requesterAgentId now) b))
    (cancelled : IsCancelled i (desk.store.after landing (.patchIntents filter change)))
    (others : ∀ other task, other ≠ id → desk.live.lookup other = some task → ¬ MayReach i desk.store task.op) :
    Desk.Guarded chapter i ((Pool.after exec desk landing (.patchIntents filter change)).settle id
      (.cancelIntent i requesterAgentId now) p) := by
  have stands : Stands i desk.store (desk.store.after landing (.patchIntents filter change)) := by
    refine ⟨cancelled,fun a row found => ?_⟩
    rcases after_response found with ⟨row',found',same | ⟨_,_,other,_⟩⟩ | ⟨_,other⟩
    · exact ⟨row',found',by rw [same]; exact fun accepts => accepts⟩
    · cases other
    · cases other
  rw [ended]
  refine ⟨⟨fun _ => cancelled,?_⟩,?_,?_⟩
  · refine List.pairwise_cons.mpr ⟨?_,List.pairwise_cons.mpr ⟨?_,guarded.quiet⟩⟩
    · intro moment member earlier
      rcases List.mem_cons.mp member with rfl | member
      · cases earlier
      · exact absurd ⟨moment,member,earlier⟩ fresh
    · exact fun moment member earlier => absurd ⟨moment,member,earlier⟩ fresh
  · apply Pool.settle_live
    · exact fun other task _ found => (guarded.shaped other task found).after
    · exact fun _ _ _ _ => Or.inr (Or.inr ⟨b,rfl⟩)
  · apply Pool.settle_live
    · intro other task apart found
      refine ⟨fun _ => ?_,fun fresh' => absurd ⟨_,List.mem_cons_self,cancels⟩ fresh'⟩
      rcases (guarded.restrained other task found).2 fresh with reaches | spared
      · exact absurd reaches (others other task apart found)
      · apply spared.mono (fun _ allowed => allowed) ?_ fun _ apart => apart
        intro db later reaches
        exact others other task apart found (reaches.back (stands.trans later)).may
    · refine ⟨fun _ x member => ?_,fun fresh' => absurd ⟨_,List.mem_cons_self,cancels⟩ fresh'⟩
      cases b with
      | cancelled result => cases member
      | _ => cases cancels

theorem guarded_advance (guarded : desk.Guarded chapter i) {id : Nat}
    (found : desk.live.lookup id = some ⟨op,.call act resume⟩) (ok : Undisputed desk (.advance id landing)) :
    Desk.Guarded chapter i
      ((Pool.after exec desk landing act).settle id op (resume (desk.store.reply landing act))) := by
  have own := guarded.restrained id _ found
  have shaped := guarded.shaped id _ found
  by_cases first : ¬ desk.Cancelled i ∧
      ∃ b, resume (desk.store.reply landing act) = .done b ∧ Cancels i (.returned op b)
  · obtain ⟨fresh,b,ended,cancels⟩ := first
    obtain ⟨requesterAgentId,now,rfl,rfl,intent,known⟩ := cancelled_by shaped ended cancels
    obtain ⟨works,others⟩ := ok i requesterAgentId now _ _ resume found fresh
    exact guarded_cancel guarded fresh ended cancels (cancels_once works known) others
  · have spares : desk.Cancelled i → Spares i act := fun cancelled => (own.1 cancelled).1
    have same := @after_cancelled i desk landing act
    apply guarded_settle (guarded.toFinal.after spares)
    · intro other task apart found'
      exact ⟨(guarded.shaped other task found').after,(guarded.restrained other task found').after guarded.stays spares⟩
    · exact shaped.goOn
    · rw [Restrained,same]
      constructor
      · intro cancelled
        have now_ := Stands.refl (guarded.stays cancelled)
        have later : Stands i desk.store (desk.store.after landing act) :=
          .after (guarded.stays cancelled) (spares cancelled)
        exact ((own.1 cancelled).2 landing desk.store now_).mono (fun _ allowed => allowed) (fun _ => later.trans)
          fun _ apart => apart
      · intro fresh
        rcases own.2 fresh with reaches | spared
        · exact Or.inl reaches.after
        · by_cases reaches : Reaches i desk.store op
          · exact Or.inl reaches.may.after
          · exact Or.inr (spared.2 landing desk.store reaches)
    · intro b ended cancels
      rw [same]
      by_contra fresh
      exact first ⟨fresh,b,ended,cancels⟩

theorem guarded_step (guarded : desk.Guarded chapter i) (turn : Turn Op Landing) (ok : Undisputed desk turn)
    (stepped : desk.step exec (program chapter) turn = some desk') : Desk.Guarded chapter i desk' := by
  cases turn with
  | start id op =>
    rw [Pool.step_start stepped]
    exact guarded_start guarded ok
  | advance id landing =>
    obtain ⟨op,act,resume,found,rfl⟩ := Pool.step_advance stepped
    exact guarded_advance guarded found ok

end Runs

/-- In every order of the calls on the store, a cancelled intent stays cancelled and
nobody is credited for it or introduced, if no cancellation is disputed. -/
theorem cancelled_final (chapter : String) (db : Db) {desk : Desk}
    (run : Runs.Reached (Pool.step exec (program chapter)) Undisputed (Desk.opened db) desk) (i : String) :
    desk.Final i := by
  have opened : (Desk.opened db).Guarded chapter i := by
    refine ⟨⟨?_,List.Pairwise.nil⟩,?_,?_⟩
    · rintro ⟨moment,member,_⟩
      cases member
    · exact fun id task found => by cases found
    · exact fun id task found => by cases found
  exact (run.invariant opened fun desk turn desk' guarded => guarded_step guarded turn).toFinal

def matchedAndCancelled : List (Turn Op Landing) :=
  [.start 0 (.createIntent "i" "ann" "someone who knows Lean" ["lean"]),.advance 0 carriedOut,
    .start 0 (.matchIntent "i" [⟨"bob","chapter",1,["lean"]⟩] "now"),.advance 0 carriedOut,.advance 0 carriedOut,
    .advance 0 carriedOut,.start 0 (.cancelIntent "i" "ann" "now"),.advance 0 carriedOut,.advance 0 carriedOut]

def inTurn (desk : Desk) : Turn Op Landing → Bool
  | .start _ (.respondToIntentEndpoint _ _ response _ _) =>
    parseReply response ≠ some .accept || desk.past.all fun moment => (cancelledIn moment).isNone
  | .start _ _ => desk.past.all fun moment => (cancelledIn moment).isNone
  | .advance id landing => landing.works && desk.live.keys.all fun other => other = id

theorem inTurn_undisputed (desk : Desk) (turn : Turn Op Landing) (orderly : inTurn desk turn = true) :
    Undisputed desk turn := by
  have fresh : (desk.past.all fun moment => (cancelledIn moment).isNone) = true → ∀ i, ¬ desk.Cancelled i := by
    rintro none_ i ⟨moment,member,cancels⟩
    have quiet := List.all_eq_true.mp none_ moment member
    rw [show cancelledIn moment = some i from cancels] at quiet
    cases quiet
  cases turn with
  | start id op =>
    intro i cancelled
    cases op with
    | respondToIntentEndpoint intentId responderAgentId response counterText now =>
      rcases Bool.or_eq_true_iff.mp orderly with declines | none_
      · exact fun reaches => of_decide_eq_true declines reaches.2.1
      · exact absurd cancelled (fresh none_ i)
    | _ => exact absurd cancelled (fresh orderly i)
  | advance id landing =>
    obtain ⟨works,alone⟩ := Bool.and_eq_true_iff.mp orderly
    intro i requesterAgentId now filter change resume _ _
    refine ⟨works,fun other task apart found => ?_⟩
    have listed : other ∈ desk.live.keys := AList.lookup_isSome.mp (by rw [found]; rfl)
    exact absurd (of_decide_eq_true (List.all_eq_true.mp alone other listed)) apart

theorem declined_final : ∃ desk : Desk, desk.Cancelled "i" ∧ desk.Final "i" := by
  have walked : ((Runs.walk (Pool.step exec (program "chapter")) inTurn (matchedAndCancelled ++
      [.start 0 (.respondToIntentEndpoint "i" "bob" "decline" "" "now"),.advance 0 carriedOut,.advance 0 carriedOut])
      (Desk.opened annAndBob)).map fun desk => desk.past.any fun moment => cancelledIn moment = some "i") =
        some true := by
    decide +kernel
  obtain ⟨desk,walked,cancelled⟩ := Option.map_eq_some_iff.mp walked
  obtain ⟨moment,member,cancels⟩ := List.any_eq_true.mp cancelled
  exact ⟨desk,⟨moment,member,by simpa [Cancels] using cancels⟩,
    cancelled_final "chapter" annAndBob (Runs.reached_walk inTurn_undisputed _ .start walked) "i"⟩

/-- Bob accepts the intent after it was cancelled, and is introduced. -/
theorem accepted_after_cancellation : ∃ desk : Desk,
    Runs.Reached (Pool.step exec (program "chapter")) Runs.Free (Desk.opened annAndBob) desk ∧ ¬ desk.Final "i" := by
  have walked : ((Runs.walk (Pool.step exec (program "chapter")) (fun _ _ => true) (matchedAndCancelled ++
      [.start 0 (.respondToIntentEndpoint "i" "bob" "accept" "" "now")] ++ List.replicate 8 (.advance 0 carriedOut))
      (Desk.opened annAndBob)).map fun desk => (desk.past.any fun moment => cancelledIn moment = some "i",
        (desk.store.intents.row "i").map Intent.status)) = some (true,some .fulfilled) := by
    decide +kernel
  obtain ⟨desk,walked,seen⟩ := Option.map_eq_some_iff.mp walked
  obtain ⟨cancelled,status⟩ := Prod.mk.inj seen
  obtain ⟨moment,member,cancels⟩ := List.any_eq_true.mp cancelled
  refine ⟨desk,Runs.reached_walk (fun _ _ _ => trivial) _ .start walked,fun final => ?_⟩
  obtain ⟨intent,found,still⟩ := final.stays ⟨moment,member,by simpa [Cancels] using cancels⟩
  rw [found,Option.map_some,still] at status
  cases status

end Orrery.Intents
