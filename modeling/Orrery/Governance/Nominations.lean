import Orrery.Governance.SingleUse

/-! Who decides a nomination: every order of the calls that resolve it, and every pattern of
their failures. -/
namespace Orrery.Governance
open Foundation

def roleOf : Option (List Agent) → String
  | some (row :: _) => if row.chapterRole = "" then "member" else row.chapterRole
  | _ => "member"

section Stages
variable (id : String)

def afterNomination (resolverAgentId resolverRole note : String) (status : NominationStatus)
    (rows : Option (List Nomination)) :
    Program Result :=
  Result.nomination <$> match rows with
    | some (nom :: _) => resolveRead id resolverAgentId resolverRole note status nom
    | _ => return .refused "not_found"

def afterRole (resolverAgentId note : String) (status : NominationStatus) (resolverRole : String) : Program Result :=
  if resolverRole ∉ ["admin","leader"] then .done (.nomination (.refused "not_authorized"))
  else .call (.getNomination id) (afterNomination id resolverAgentId resolverRole note status)

def afterWrite (nom : Nomination) (body : NominationChange) : Program Result :=
  if body.status = .approved then .call (.promote nom) fun _ => .done (.nomination (.resolved (body.apply nom)))
  else .done (.nomination (.resolved (body.apply nom)))

def resolution (resolverAgentId note : String) (status : NominationStatus) (now : Moment) : NominationChange :=
  { status := status, resolvedBy := some resolverAgentId, resolvedAt := some now,
    resolutionNote := some (clipped 500 note) }

inductive Deciding : Program Result → Prop
  | dating {resume : Moment → Program Result} {nom : Nomination} (same : nom.id = id) (body : Moment → NominationChange)
      (decision : ∀ now, (body now).status = .approved ∨ (body now).status = .rejected)
      (further : ∀ now, resume now = .call (.patchNominations { id := some id } (body now)) fun _ =>
        afterWrite nom (body now)) :
      Deciding (.call .utcNow resume)
  | writing {nom : Nomination} (same : nom.id = id) (body : NominationChange)
      (decision : body.status = .approved ∨ body.status = .rejected) :
      Deciding (.call (.patchNominations { id := some id } body) fun _ => afterWrite nom body)

inductive Promoting : Program Result → Prop
  | intro {nom : Nomination} (same : nom.id = id) (body : NominationChange) :
      Promoting (.call (.promote nom) fun _ => .done (.nomination (.resolved (body.apply nom))))

def Resolves (p : Program Result) : Prop := Deciding id p ∨ Promoting id p

def succeeds : Foundation.Moment Op Act Result → Bool
  | .returned _ (.nomination (.resolved nom)) => nom.id = id
  | _ => false

def Elsewhere : Act → Prop
  | .patchNominations filter change => filter.id = none ∧ filter.status = some .pending ∧ change.status = .expired ∨
      ∃ other, filter.id = some other ∧ other ≠ id
  | .promote nom => nom.id ≠ id
  | _ => True

def Unresolved (result : Result) : Prop := ∀ nom, result = .nomination (.resolved nom) → nom.id ≠ id

abbrev Apart {β : Type} (post : β → Prop) (p : Program β) : Prop := p.Along exec (Elsewhere id) (fun _ => True) post

inductive Waiting : Program Result → Prop
  | role (resolverAgentId note : String) (status : NominationStatus) (decision : status = .approved ∨ status =
      .rejected) :
      Waiting (.call (.getAgent resolverAgentId) fun rows => afterRole id resolverAgentId note status (roleOf rows))
  | read (resolverAgentId resolverRole note : String) (status : NominationStatus)
      (decision : status = .approved ∨ status = .rejected) :
      Waiting (.call (.getNomination id) (afterNomination id resolverAgentId resolverRole note status))
  | apart {p : Program Result} (never : Apart id (Unresolved id) p) : Waiting p

end Stages

section Programs
variable {id : String} {β : Type}

theorem apart_call (act : Act) (elsewhere : Elsewhere id act) : Apart id (fun _ => True) (.call act .done) :=
  ⟨elsewhere,fun _ _ _ => trivial⟩

theorem apart_done {post : β → Prop} {b : β} (meets : post b) : Apart id post (pure b) := meets

theorem apart_getChapterRole (agentId : String) : Apart id (fun _ => True) (getChapterRole agentId) := by
  unfold getChapterRole
  split
  · exact trivial
  apply Proc.Along.bind (apart_call (.getAgent agentId) trivial)
  rintro (_ | ⟨_ | ⟨row,rows⟩⟩) _
  · exact trivial
  · exact trivial
  · exact apart_done trivial

theorem apart_propose (chapter kind proposerAgentId : String) (payload : Dict)
    (targetAgentId peerChapterId : Option String)
    (confidence : ℚ) (ttl : Option Moment) : Apart id (fun _ => True)
      (propose chapter kind proposerAgentId payload targetAgentId peerChapterId confidence ttl) := by
  unfold propose
  split
  · exact trivial
  apply Proc.Along.bind (apart_call .utcNow trivial)
  intro now _
  apply Proc.Along.bind (apart_call (.postApproval _) trivial)
  rintro (_ | ⟨_ | ⟨row,rows⟩⟩) _
  · exact trivial
  · exact trivial
  · exact trivial

theorem apart_recordDecision (status : ApprovalStatus) (approvalId approverAgentId : String) (reason : Option String) :
    Apart id (fun _ => True) (recordDecision status approvalId approverAgentId reason) := by
  apply Proc.Along.bind (apart_call .utcNow trivial)
  intro approvedAt _
  apply Proc.Along.bind (apart_call .utcNow trivial)
  intro bar _
  apply Proc.Along.bind (apart_call (.patchApprovals ..) trivial)
  rintro (_ | ⟨_ | ⟨row,rows⟩⟩) _
  · exact trivial
  · exact trivial
  · exact trivial

theorem apart_authorized (approverAgentId : String) (preAuthorized : Bool) :
    Apart id (fun _ => True) (authorized approverAgentId preAuthorized) := by
  unfold authorized
  split
  · exact trivial
  · exact Proc.Along.bind (apart_getChapterRole approverAgentId) fun _ _ => trivial

theorem apart_approve (approvalId approverAgentId : String) (preAuthorized : Bool) :
    Apart id (fun _ => True) (approve approvalId approverAgentId preAuthorized) := by
  apply Proc.Along.bind (apart_authorized approverAgentId preAuthorized)
  intro allowed _
  split
  · apply apart_recordDecision
  · exact trivial

theorem apart_reject (approvalId approverAgentId reason : String) (preAuthorized : Bool) :
    Apart id (fun _ => True) (reject approvalId approverAgentId reason preAuthorized) := by
  apply Proc.Along.bind (apart_authorized approverAgentId preAuthorized)
  intro allowed _
  split
  · apply apart_recordDecision
  · exact trivial

theorem apart_markExecuted (approvalId : String) : Apart id (fun _ => True) (markExecuted approvalId) := by
  apply Proc.Along.bind (apart_call .utcNow trivial)
  intro executedAt _
  exact Proc.Along.bind (apart_call (.patchApprovals ..) trivial) fun _ _ => trivial

theorem apart_otherwise (chapter kind actorAgentId actionKey : String) (payload : Dict) (ttl : Option Moment) :
    Apart id (fun _ => True) (otherwise chapter kind actorAgentId actionKey payload ttl) := by
  apply Proc.Along.bind (apart_call (.spendBounded ..) trivial)
  intro spend _
  split
  · exact trivial
  apply Proc.Along.bind (apart_call (.getApprovals ..) trivial)
  intro pending _
  split
  · exact trivial
  apply Proc.Along.bind (apart_propose ..)
  rintro (reason | row) _
  · exact trivial
  · exact trivial

theorem apart_consume (chapter kind actorAgentId actionKey : String) (payload : Dict) (ttl : Option Moment) :
    Apart id (fun _ => True) (consumeOperationalApproval chapter kind actorAgentId actionKey payload ttl) := by
  unfold consumeOperationalApproval
  split
  · exact trivial
  split
  · exact trivial
  apply Proc.Along.bind (apart_call (.getApprovals ..) trivial)
  intro rows _
  split
  · exact Proc.Along.bind (apart_markExecuted _) fun _ _ => trivial
  · apply apart_otherwise

theorem apart_sweepExpired : Apart id (fun _ => True) sweepExpired := by
  apply Proc.Along.bind (apart_call .utcNow trivial)
  intro now _
  apply Proc.Along.bind (apart_call (.patchApprovals ..) trivial)
  intro rows _
  exact Proc.Along.bind (apart_call _ (.inl ⟨rfl,rfl,rfl⟩)) fun _ _ => trivial

theorem apart_carryOutEach (rows : List Approval) : Apart id (fun _ => True) (carryOutEach rows) := by
  induction rows with
  | nil => exact trivial
  | cons row rows ih =>
    unfold carryOutEach
    split
    · apply Proc.Along.bind (apart_call (.carryOut row) trivial)
      rintro (_ | _ | _) _
      · exact Proc.Along.bind (apart_markExecuted row.id) fun _ _ => ih
      · exact ih
      · exact trivial
    · exact ih

theorem apart_thinkApprovalsSweep (chapter : String) : Apart id (fun _ => True) (thinkApprovalsSweep chapter) := by
  apply Proc.Along.bind apart_sweepExpired
  intro _ _
  apply Proc.Along.bind (apart_call (.getApprovals ..) trivial)
  exact fun approved _ => apart_carryOutEach _

theorem apart_resolveRead {other : String} (apart : other ≠ id) (resolverAgentId resolverRole note : String)
    (status : NominationStatus) {nom : Nomination} (named : nom.id = other) :
    Apart id (fun result => ∀ nom', result = .resolved nom' → nom'.id ≠ id)
      (resolveRead other resolverAgentId resolverRole note status nom) := by
  unfold resolveRead
  split
  · exact fun _ => nofun
  split
  · exact fun _ => nofun
  apply Proc.Along.bind (apart_call .utcNow trivial)
  intro now _
  apply Proc.Along.bind (apart_call (.patchNominations ..) (.inr ⟨other,rfl,apart⟩))
  intro _ _
  have elsewhere : nom.id ≠ id := named ▸ apart
  split
  · apply Proc.Along.bind (apart_call (.promote nom) elsewhere)
    rintro _ _ nom' ⟨⟩
    exact elsewhere
  · rintro nom' ⟨⟩
    exact elsewhere

theorem apart_resolveNomination {other : String} (apart : other ≠ id) (resolverAgentId decision note : String) :
    Apart id (fun result => ∀ nom, result = .resolved nom → nom.id ≠ id)
      (resolveNomination other resolverAgentId decision note) := by
  unfold resolveNomination
  split
  · intro nom same
    cases same
  next status _ =>
    apply Proc.Along.bind (apart_getChapterRole resolverAgentId)
    intro role _
    split
    · intro nom same
      cases same
    refine ⟨trivial,?_⟩
    intro landing db _
    have read : ∀ nom rest, (exec landing (.getNomination other) db).1 = some (nom :: rest) → nom.id = other := by
      intro nom rest answered
      simp only [exec,Db.answer,Landing.answered] at answered
      split at answered
      · have listed : nom ∈ ((db.tick landing.waited).nominations.row other).toList := by
          rw [Option.some.inj answered]
          exact List.mem_cons_self
        exact Table.row_key (Option.mem_toList.mp listed)
      · cases answered
    generalize (exec landing (.getNomination other) db).1 = answer at read
    obtain _ | ⟨_ | ⟨nom,rows⟩⟩ := answer
    · intro nom same
      cases same
    · intro nom same
      cases same
    · exact apart_resolveRead apart resolverAgentId role note status (read nom rows rfl)

theorem apart_other {f : β → Result} (other : ∀ b nom, f b ≠ .nomination (.resolved nom)) {p : Program β}
    (apart : Apart id (fun _ => True) p) : Apart id (Unresolved id) (f <$> p) :=
  Proc.Along.bind apart fun b _ nom same => absurd same (other b nom)

theorem decisionOf_cases {decision : String} {status : NominationStatus} (decided : decisionOf decision = some status) :
    status = .approved ∨ status = .rejected := by
  unfold decisionOf at decided
  split at decided
  · exact .inl (Option.some.inj decided).symm
  · exact .inr (Option.some.inj decided).symm
  · cases decided

theorem known_role (id resolverAgentId note resolverRole : String) (status : NominationStatus) :
    Proc.bind (if resolverRole ∉ ["admin","leader"] then return Resolution.refused "not_authorized" else do
      let rows ← getNomination id
      match rows with
      | some (nom :: _) => resolveRead id resolverAgentId resolverRole note status nom
      | _ => return .refused "not_found") (Proc.done ∘ Result.nomination) =
        afterRole id resolverAgentId note status resolverRole := by
  rw [afterRole]
  split
  · rfl
  · rfl

theorem waiting_resolveNomination (resolverAgentId decision note : String) :
    Waiting id (Result.nomination <$> resolveNomination id resolverAgentId decision note) := by
  cases decided : decisionOf decision with
  | none =>
    rw [resolveNomination,decided]
    exact .apart fun nom => nofun
  | some status =>
    by_cases named : resolverAgentId = ""
    · have refused : Result.nomination <$> resolveNomination id resolverAgentId decision note =
          .done (.nomination (.refused "not_authorized")) := by
        simp only [resolveNomination,decided,getChapterRole,if_pos named]
        rfl
      rw [refused]
      exact .apart fun nom => nofun
    · have asks : Result.nomination <$> resolveNomination id resolverAgentId decision note =
          .call (.getAgent resolverAgentId) fun rows => afterRole id resolverAgentId note status (roleOf rows) := by
        simp only [resolveNomination,decided,getChapterRole,if_neg named]
        refine congrArg (Proc.call _) (funext ?_)
        rintro (_ | ⟨_ | ⟨row,rows⟩⟩)
        · exact known_role id resolverAgentId note (roleOf none) status
        · exact known_role id resolverAgentId note (roleOf (some [])) status
        · exact known_role id resolverAgentId note (roleOf (some (row :: rows))) status
      rw [asks]
      exact .role resolverAgentId note status (decisionOf_cases decided)

theorem waiting_program (chapter : String) (op : Op) : Waiting id (program chapter op) := by
  cases op with
  | propose kind proposerAgentId payload targetAgentId peerChapterId confidence ttl =>
    exact .apart (apart_other (f := Result.proposed) (fun _ _ => nofun) (apart_propose ..))
  | approve approvalId approverAgentId preAuthorized =>
    exact .apart (apart_other (f := Result.decided) (fun _ _ => nofun) (apart_approve ..))
  | reject approvalId approverAgentId reason preAuthorized =>
    exact .apart (apart_other (f := Result.decided) (fun _ _ => nofun) (apart_reject ..))
  | consume kind actorAgentId actionKey payload ttl =>
    exact .apart (apart_other (f := Result.consumed) (fun _ _ => nofun) (apart_consume ..))
  | sweepExpired => exact .apart (apart_other (f := Result.swept) (fun _ _ => nofun) apart_sweepExpired)
  | thinkApprovalsSweep =>
    exact .apart (apart_other (f := fun _ => .carriedOut) (fun _ _ => nofun) (apart_thinkApprovalsSweep chapter))
  | resolveNomination other resolverAgentId decision note =>
    by_cases here : other = id
    · subst here
      apply waiting_resolveNomination
    · apply Waiting.apart
      apply Proc.Along.bind (apart_resolveNomination here resolverAgentId decision note)
      rintro result elsewhere nom ⟨⟩
      exact elsewhere nom rfl

theorem waiting_outside {p : Program Result} (waiting : Waiting id p) : ¬ Resolves id p := by
  rintro (deciding | promoting)
  · cases deciding with
    | dating same body decision further =>
      cases waiting with
      | apart never =>
        have next := never.2 (carried 0) emptyDb trivial
        rw [further (exec (carried 0) .utcNow emptyDb).1] at next
        obtain ⟨none_,_⟩ | ⟨other,same,apart⟩ := next.1
        · cases none_
        · exact apart (Option.some.inj same).symm
    | writing same body decision =>
      cases waiting with
      | apart never =>
        obtain ⟨none_,_⟩ | ⟨other,same,apart⟩ := never.1
        · cases none_
        · exact apart (Option.some.inj same).symm
  · cases promoting with
    | intro same body =>
      cases waiting with
      | apart never => exact never.1 same

theorem waiting_uncounted {op : Op} {p : Program Result} (waiting : Waiting id p) (result : Result)
    (done : p = .done result) :
    succeeds id (.returned op result) = false := by
  subst done
  cases waiting with
  | apart never =>
    unfold succeeds
    split
    next nom same => exact decide_eq_false (never nom (Foundation.Moment.returned.inj same).2)
    next => rfl

theorem waiting_afterRole (resolverAgentId note role : String) {status : NominationStatus}
    (decision : status = .approved ∨ status = .rejected) :
      Waiting id (afterRole id resolverAgentId note status role) := by
  unfold afterRole
  split
  · exact .apart fun nom => nofun
  · exact .read resolverAgentId role note status decision

theorem written (id : String) (nom : Nomination) (body : NominationChange) :
    Result.nomination <$> writeResolution id nom body =
    .call (.patchNominations { id := some id } body) fun _ => afterWrite nom body := by
  refine congrArg (Proc.call _) (funext fun _ => ?_)
  change Proc.bind (if body.status = .approved then do
    let _ ← promote nom
    return Resolution.resolved (body.apply nom)
  else return .resolved (body.apply nom)) _ = _
  rw [afterWrite]
  split
  · rfl
  · rfl

theorem afterNomination_cases (resolverAgentId role note : String) {status : NominationStatus}
    (decision : status = .approved ∨ status = .rejected) {rows : Option (List Nomination)}
    (read : ∀ nom rest, rows = some (nom :: rest) → nom.id = id) :
    ((∃ nom rest, rows = some (nom :: rest) ∧ nom.status = .pending ∧ (nom.targetRole = "leader" → role = "admin")) ∧
      Deciding id (afterNomination id resolverAgentId role note status rows)) ∨
    Waiting id (afterNomination id resolverAgentId role note status rows) := by
  obtain _ | ⟨_ | ⟨nom,rest⟩⟩ := rows
  · exact .inr (.apart fun nom => nofun)
  · exact .inr (.apart fun nom => nofun)
  · by_cases pending : nom.status = .pending
    · by_cases barred : (nom.targetRole = "leader" && role ≠ "admin") = true
      · right
        rw [afterNomination]
        simp only [resolveRead,if_neg (not_not.mpr pending),if_pos barred]
        exact .apart fun nom => nofun
      · left
        have allowed : nom.targetRole = "leader" → role = "admin" := by simpa using barred
        refine ⟨⟨nom,rest,rfl,pending,allowed⟩,?_⟩
        rw [afterNomination]
        simp only [resolveRead,if_neg (not_not.mpr pending),if_neg barred]
        exact .dating (read nom rest rfl) (resolution resolverAgentId note status) (fun _ => decision)
          fun now => written id nom (resolution resolverAgentId note status now)
    · right
      rw [afterNomination]
      simp only [resolveRead,if_pos pending]
      exact .apart fun nom => nofun

end Programs

section Effects
variable (db : Db) (id : String)

def Db.standing : Option NominationStatus := (db.nominations.row id).map Nomination.status

/-- The nominee has the role of the nomination just if it is approved. -/
def Db.Coherent : Prop := id ∈ db.promotions ↔ db.standing id = some .approved

def Db.Undecided : Prop := id ∉ db.promotions ∧ ∃ status, db.standing id = some status ∧ status ≠ .approved

def Db.Due : Prop := id ∉ db.promotions ∧ db.standing id = some .approved

variable {db : Db} {id : String} {landing : Landing} {act : Act}

theorem exec_elsewhere (elsewhere : Elsewhere id act) :
    (id ∈ (exec landing act db).2.promotions ↔ id ∈ db.promotions) ∧
      ((exec landing act db).2.standing id = db.standing id ∨
        db.standing id = some .pending ∧ (exec landing act db).2.standing id = some .expired) := by
  unfold exec
  split
  · cases act with
    | patchNominations filter change =>
      refine ⟨Iff.rfl,?_⟩
      change ((db.nominations.update filter.admits change.apply change.apply_id).row id).map _ = _ ∨ _ ∧
        ((db.nominations.update filter.admits change.apply change.apply_id).row id).map _ = _
      rw [Table.row_update,Db.standing]
      cases found : db.nominations.row id with
      | none => exact .inl rfl
      | some row =>
        rw [Option.map_some,Option.map_some,Option.map_some]
        by_cases admitted : filter.admits row = true
        · right
          rw [if_pos admitted]
          obtain ⟨_,asked,expires⟩ | ⟨other,named,apart⟩ := elsewhere
          · simp [NominationFilter.admits,meets,asked] at admitted
            exact ⟨congrArg some admitted.1.2.symm,congrArg some expires⟩
          · simp [NominationFilter.admits,meets,named,Table.row_key found] at admitted
            exact absurd admitted.1.1 apart
        · left
          rw [if_neg admitted]
    | promote nom =>
      refine ⟨?_,.inl rfl⟩
      change id ∈ (if (db.agents.row nom.nomineeAgentId).isSome then nom.id :: db.promotions else db.promotions) ↔ _
      split
      · rw [List.mem_cons,or_iff_right (Ne.symm elsewhere)]
      · exact Iff.rfl
    | _ => exact ⟨Iff.rfl,.inl rfl⟩
  · exact ⟨Iff.rfl,.inl rfl⟩

theorem exec_decision {body : NominationChange} (lands : landing.lands = true) (undecided : db.Undecided id) :
    id ∉ (exec landing (.patchNominations { id := some id } body) db).2.promotions ∧
      (exec landing (.patchNominations { id := some id } body) db).2.standing id = some body.status := by
  rw [exec,if_pos lands]
  refine ⟨undecided.1,?_⟩
  change ((db.nominations.update (NominationFilter.admits { id := some id }) body.apply body.apply_id).row id).map _ = _
  obtain ⟨_,status,standing,_⟩ := undecided
  obtain ⟨row,found,_⟩ := Option.map_eq_some_iff.mp standing
  have same : row.id = id := Table.row_key found
  rw [Table.row_update,found,Option.map_some,Option.map_some,if_pos]
  · rfl
  · simp [NominationFilter.admits,meets,same]

theorem exec_promotion {nom : Nomination} (lands : landing.lands = true)
    (there : (db.agents.row nom.nomineeAgentId).isSome) :
    nom.id ∈ (exec landing (.promote nom) db).2.promotions ∧
      (exec landing (.promote nom) db).2.standing id = db.standing id := by
  rw [exec,if_pos lands]
  refine ⟨?_,rfl⟩
  change nom.id ∈ (if (db.agents.row nom.nomineeAgentId).isSome then nom.id :: db.promotions else db.promotions)
  rw [if_pos there]
  exact List.mem_cons_self

end Effects

section Houses
variable (house : House) (id : String)

def House.FindsPending (task : ℕ) (landing : Landing) : Prop :=
  ∃ op resolverAgentId role note status nom rest, house.live.lookup task =
      some ⟨op,.call (.getNomination id) (afterNomination id resolverAgentId role note status)⟩ ∧
    ((house.store.tick landing.waited).answer landing (.getNomination id) : Option (List Nomination)) =
      some (nom :: rest) ∧
    nom.status = .pending ∧ (nom.targetRole = "leader" → role = "admin")

def House.Writes (task : ℕ) : Prop :=
  ∃ op body resume, house.live.lookup task = some ⟨op,.call (.patchNominations { id := some id } body) resume⟩

def House.Promotes (task : ℕ) (nom : Nomination) : Prop :=
  nom.id = id ∧ ∃ op resume, house.live.lookup task = some ⟨op,.call (.promote nom) resume⟩

def Heedful (house : House) : Turn Op Landing → Prop
  | .start .. => True
  | .advance task landing => (house.FindsPending id task landing → ∀ other, ¬ house.Inside (Deciding id) other) ∧
      (house.Writes id task → landing.lands = true) ∧
      ∀ nom, house.Promotes id task nom → landing.lands = true ∧ (house.store.agents.row nom.nomineeAgentId).isSome

structure House.Resolving : Prop where
  stages : ∀ task found, house.live.lookup task = some found → Waiting id found.rest ∨ Resolves id found.rest
  exclusive : house.Exclusive (Resolves id) (succeeds id)
  deciding : ∀ task, house.Inside (Deciding id) task → house.store.Undecided id
  promoting : ∀ task, house.Inside (Promoting id) task → house.store.Due id
  settled : 0 < house.count (succeeds id) → house.store.standing id ≠ some .pending
  coherent : (∀ task, ¬ house.Inside (Resolves id) task) → house.store.Coherent id

end Houses

section Turns
variable {id : String} {house : House} {task : ℕ} {op : Op} {p : Program Result} {landing : Landing} {act : Act}

theorem not_deciding_promoting (deciding : Deciding id p) : ¬ Promoting id p := by
  intro promoting
  cases deciding with
  | dating => cases promoting
  | writing => cases promoting

theorem House.Resolving.elsewhere (resolving : house.Resolving id) (elsewhere : Elsewhere id act) :
    House.Resolving (house.after exec landing act) id := by
  obtain ⟨promoted,moved⟩ := @exec_elsewhere house.store id landing act elsewhere
  constructor
  · exact resolving.stages
  · exact resolving.exclusive.after fun _ => rfl
  · intro task inside
    obtain ⟨unpromoted,status,standing,unapproved⟩ := resolving.deciding task inside
    refine ⟨fun listed => unpromoted (promoted.mp listed),?_⟩
    obtain same | ⟨_,expired⟩ := moved
    · exact ⟨status,same.trans standing,unapproved⟩
    · exact ⟨.expired,expired,nofun⟩
  · intro task inside
    obtain ⟨unpromoted,approved⟩ := resolving.promoting task inside
    refine ⟨fun listed => unpromoted (promoted.mp listed),?_⟩
    obtain same | ⟨pending,_⟩ := moved
    · exact same.trans approved
    · cases approved.symm.trans pending
  · intro counted pending
    rw [Pool.count_after fun _ => rfl] at counted
    obtain same | ⟨_,expired⟩ := moved
    · exact resolving.settled counted (same.symm.trans pending)
    · cases expired.symm.trans pending
  · intro vacant
    have coherent := resolving.coherent vacant
    refine promoted.trans (coherent.trans ?_)
    obtain same | ⟨pending,expired⟩ := moved
    · exact iff_of_eq (congrArg (· = _) same.symm)
    · refine ⟨fun approved => ?_,fun approved => ?_⟩
      · cases approved.symm.trans pending
      · cases approved.symm.trans expired

theorem House.Resolving.waits (resolving : house.Resolving id) (outside : ¬ house.Inside (Resolves id) task)
    (waiting : Waiting id p) : House.Resolving (house.settle task op p) id := by
  have outer := waiting_outside waiting
  constructor
  · exact Pool.settle_live (fun other found _ live => resolving.stages other found live) (.inl waiting)
  · exact resolving.exclusive.outside outer (waiting_uncounted waiting)
  · intro other inside
    rw [Pool.settle_store]
    obtain ⟨_,before⟩ | ⟨_,deciding⟩ := inside.settled
    · exact resolving.deciding other before
    · exact absurd (.inl deciding) outer
  · intro other inside
    rw [Pool.settle_store]
    obtain ⟨_,before⟩ | ⟨_,promoting⟩ := inside.settled
    · exact resolving.promoting other before
    · exact absurd (.inr promoting) outer
  · intro counted
    rw [Pool.count_uncounted (waiting_uncounted waiting)] at counted
    rw [Pool.settle_store]
    exact resolving.settled counted
  · intro vacant
    rw [Pool.settle_store]
    apply resolving.coherent
    intro other inside
    by_cases here : other = task
    · exact outside (here ▸ inside)
    · exact vacant other (inside.other here)

theorem House.resolving_within (exclusive : house.Exclusive (Resolves id) (succeeds id))
    (stages : ∀ task found, house.live.lookup task = some found → Waiting id found.rest ∨ Resolves id found.rest)
    (free : ∀ other, house.Inside (Resolves id) other → other = task)
    (vacant : house.count (succeeds id) = 0)
    (outcome : Deciding id p ∧ house.store.Undecided id ∨ Promoting id p ∧ house.store.Due id) :
    House.Resolving (house.settle task op p) id := by
  have resolves : Resolves id p := outcome.imp And.left And.left
  obtain ⟨act,resume,rfl⟩ : ∃ act resume, p = .call act resume := by
    obtain ⟨deciding,_⟩ | ⟨promoting,_⟩ := outcome
    · cases deciding with
      | dating => exact ⟨_,_,rfl⟩
      | writing => exact ⟨_,_,rfl⟩
    · cases promoting with
      | intro => exact ⟨_,_,rfl⟩
  constructor
  · exact Pool.settle_live (fun other found _ live => stages other found live) (.inr resolves)
  · exact exclusive.within free vacant fun result => nofun
  · intro other inside
    rw [Pool.settle_store]
    obtain ⟨apart,task',live,deciding⟩ | ⟨_,deciding⟩ := inside.settled
    · exact absurd (free other ⟨task',live,.inl deciding⟩) apart
    · obtain ⟨_,undecided⟩ | ⟨promoting,_⟩ := outcome
      · exact undecided
      · exact absurd promoting (not_deciding_promoting deciding)
  · intro other inside
    rw [Pool.settle_store]
    obtain ⟨apart,task',live,promoting⟩ | ⟨_,promoting⟩ := inside.settled
    · exact absurd (free other ⟨task',live,.inr promoting⟩) apart
    · obtain ⟨deciding,_⟩ | ⟨_,due⟩ := outcome
      · exact absurd promoting (not_deciding_promoting deciding)
      · exact due
  · intro counted
    rw [Pool.count_call,vacant] at counted
    cases counted
  · exact fun none_ => absurd (Pool.Inside.own resolves) (none_ task)

theorem House.resolving_returned (exclusive : house.Exclusive (Resolves id) (succeeds id))
    (stages : ∀ task found, house.live.lookup task = some found → Waiting id found.rest ∨ Resolves id found.rest)
    (inside : house.Inside (Resolves id) task)
    (coherent : house.store.Coherent id) (settled : house.store.standing id ≠ some .pending) {result : Result} :
    House.Resolving (house.settle task op (.done result)) id := by
  have outside (other : ℕ) : ¬ Pool.Inside (house.settle task op (.done result)) (Resolves id) other := by
    intro held
    obtain ⟨apart,before⟩ := held.returned
    exact apart (exclusive.sole inside other before)
  constructor
  · intro other found live
    by_cases here : other = task
    · rw [Pool.settle,here] at live
      simp at live
    · rw [Pool.settle,AList.lookup_erase_ne here] at live
      exact stages other found live
  · exact exclusive.leave inside
  · rintro other ⟨found,live,deciding⟩
    exact absurd ⟨found,live,.inl deciding⟩ (outside other)
  · rintro other ⟨found,live,promoting⟩
    exact absurd ⟨found,live,.inr promoting⟩ (outside other)
  · exact fun _ => settled
  · exact fun _ => coherent

theorem read_nomination {db : Db} {nom : Nomination} {rest : List Nomination}
    (answered : (exec landing (.getNomination id) db).1 = some (nom :: rest)) :
    nom.id = id ∧ (exec landing (.getNomination id) db).2.standing id = some nom.status := by
  have listed : nom ∈ ((db.tick landing.waited).nominations.row id).toList := by
    simp only [exec,Db.answer,Landing.answered] at answered
    split at answered
    · rw [Option.some.inj answered]
      exact List.mem_cons_self
    · cases answered
  have found : db.nominations.row id = some nom := Option.mem_toList.mp listed
  refine ⟨Table.row_key found,?_⟩
  unfold exec
  split
  · exact congrArg (Option.map Nomination.status) found
  · exact congrArg (Option.map Nomination.status) found

theorem House.Resolving.pending (resolving : house.Resolving id) (pending : house.store.standing id = some .pending)
    (free : ∀ other, ¬ house.Inside (Deciding id) other) : (∀ other, ¬ house.Inside (Resolves id) other) ∧
      house.count (succeeds id) = 0 ∧ house.store.Undecided id := by
  have vacant : ∀ other, ¬ house.Inside (Resolves id) other := by
    rintro other ⟨found,live,deciding | promoting⟩
    · exact free other ⟨found,live,deciding⟩
    · cases pending.symm.trans (resolving.promoting other ⟨found,live,promoting⟩).2
  refine ⟨vacant,?_,?_,.pending,pending,nofun⟩
  · by_contra counted
    exact resolving.settled (Nat.pos_of_ne_zero counted) pending
  · intro promoted
    cases pending.symm.trans ((resolving.coherent vacant).mp promoted)

theorem House.Resolving.waiting (resolving : house.Resolving id) {resume : act.Answer → Program Result}
    (live : house.live.lookup task = some ⟨op,.call act resume⟩) (waiting : Waiting id (.call act resume))
    (heedful : Heedful id house (.advance task landing)) :
    House.Resolving ((house.after exec landing act).settle task op (resume (exec landing act house.store).1)) id := by
  have outside : ¬ Pool.Inside (house.after exec landing act) (Resolves id) task := by
    rintro ⟨found,here,resolves⟩
    obtain rfl := Option.some.inj (live.symm.trans here)
    exact waiting_outside waiting resolves
  cases waiting with
  | role resolverAgentId note status decision =>
    have after : House.Resolving (house.after exec landing (.getAgent resolverAgentId)) id :=
      resolving.elsewhere trivial
    exact after.waits outside (waiting_afterRole resolverAgentId note _ decision)
  | read resolverAgentId role note status decision =>
    have after : House.Resolving (house.after exec landing (.getNomination id)) id := resolving.elsewhere trivial
    obtain ⟨⟨nom,rest,answered,pending,allowed⟩,deciding⟩ | waits := afterNomination_cases resolverAgentId role note
      decision (fun nom rest answered => (@read_nomination id landing house.store nom rest answered).1)
    · have free := heedful.1 ⟨op,resolverAgentId,role,note,status,nom,rest,live,answered,pending,allowed⟩
      obtain ⟨vacant,zero,undecided⟩ := after.pending ((read_nomination answered).2.trans (congrArg some pending)) free
      exact House.resolving_within after.exclusive after.stages (fun other inside => absurd inside (vacant other)) zero
        (.inl ⟨deciding,undecided⟩)
    · exact after.waits outside waits
  | apart never => exact (resolving.elsewhere never.1).waits outside (.apart (never.2 landing house.store trivial))

theorem House.Resolving.resolves (resolving : house.Resolving id) {resume : act.Answer → Program Result}
    (live : house.live.lookup task = some ⟨op,.call act resume⟩) (resolves : Resolves id (.call act resume))
    (heedful : Heedful id house (.advance task landing)) :
    House.Resolving ((house.after exec landing act).settle task op (resume (exec landing act house.store).1)) id := by
  have inside : house.Inside (Resolves id) task := ⟨_,live,resolves⟩
  have exclusive : Pool.Exclusive (house.after exec landing act) (Resolves id) (succeeds id) :=
    resolving.exclusive.after fun _ => rfl
  obtain deciding | promoting := resolves
  · have undecided : house.store.Undecided id := resolving.deciding task ⟨_,live,deciding⟩
    cases deciding with
    | dating same body decision further =>
      rw [further (exec landing .utcNow house.store).1]
      have after : House.Resolving (house.after exec landing .utcNow) id := resolving.elsewhere trivial
      exact House.resolving_within exclusive after.stages (exclusive.sole inside) (exclusive.vacant inside)
        (.inl ⟨.writing same _ (decision _),after.deciding task ⟨_,live,.dating same body decision further⟩⟩)
    | writing same body decision =>
      obtain ⟨unpromoted,standing⟩ :=
        @exec_decision house.store id landing body (heedful.2.1 ⟨op,body,_,live⟩) undecided
      rw [afterWrite]
      split
      next approved =>
        exact House.resolving_within exclusive resolving.stages (exclusive.sole inside) (exclusive.vacant inside)
          (.inr ⟨.intro same body,unpromoted,standing.trans (congrArg some approved)⟩)
      next unapproved =>
        have rejected : body.status = .rejected := decision.resolve_left unapproved
        apply House.resolving_returned exclusive resolving.stages inside
        · refine ⟨fun promoted => absurd promoted unpromoted,fun approved => ?_⟩
          exact absurd (Option.some.inj (standing.symm.trans approved)) unapproved
        · intro pending
          cases rejected.symm.trans (Option.some.inj (standing.symm.trans pending))
  · have due : house.store.Due id := resolving.promoting task ⟨_,live,promoting⟩
    cases promoting with
    | @intro nom same body =>
      obtain ⟨lands,there⟩ := heedful.2.2 nom ⟨same,op,_,live⟩
      obtain ⟨promoted,standing⟩ := @exec_promotion house.store id landing nom lands there
      apply House.resolving_returned exclusive resolving.stages inside
      · exact ⟨fun _ => standing.trans due.2,fun _ => same ▸ promoted⟩
      · intro pending
        cases due.2.symm.trans (standing.symm.trans pending)

theorem House.Resolving.step {chapter : String} {house' : House} {turn : Turn Op Landing}
    (resolving : house.Resolving id)
    (heedful : Heedful id house turn) (stepped : House.step chapter house turn = some house') :
      house'.Resolving id := by
  cases turn with
  | start task op =>
    have fresh : house.live.lookup task = none := Pool.step_fresh stepped
    obtain rfl := Pool.step_start stepped
    refine resolving.waits ?_ (waiting_program chapter op)
    rintro ⟨found,live,_⟩
    cases fresh.symm.trans live
  | advance task landing =>
    obtain ⟨op,act,resume,live,rfl⟩ := Pool.step_advance stepped
    obtain waiting | resolves := resolving.stages task _ live
    · exact resolving.waiting live waiting heedful
    · exact resolving.resolves live resolves heedful

theorem House.opened_resolving {db : Db} (coherent : db.Coherent id) : (House.opened db).Resolving id where
  stages _ _ found := by cases found
  exclusive := Pool.Exclusive.opened
  deciding _ inside := by
    obtain ⟨_,found,_⟩ := inside
    cases found
  promoting _ inside := by
    obtain ⟨_,found,_⟩ := inside
    cases found
  settled counted := by cases counted
  coherent _ := coherent

end Turns

/-- Where the nomination is not found pending while another call that found it so still has
to write, and the writes are carried out, one call at most succeeds, and once all calls have
returned the nominee has the role by this nomination just if it is approved. -/
theorem nomination_final (chapter id : String) {db : Db} (coherent : db.Coherent id) {house : House}
    (run : Runs.Reached (House.step chapter) (Heedful id) (House.opened db) house) :
    house.count (succeeds id) ≤ 1 ∧ (house.live = ∅ → (id ∈ house.store.promotions ↔
      ∃ row, house.store.nominations.row id = some row ∧ row.status = .approved)) := by
  have resolving : house.Resolving id := by
    induction run with
    | start => exact House.opened_resolving coherent
    | step _ heedful stepped ih => exact ih.step heedful stepped
  refine ⟨resolving.exclusive.once,fun quiet => ?_⟩
  have vacant : ∀ task, ¬ house.Inside (Resolves id) task := by
    rintro task ⟨found,live,_⟩
    rw [quiet] at live
    cases live
  exact (resolving.coherent vacant).trans Option.map_eq_some_iff

def nominatedDb : Db where
  approvals := .empty
  nominations := Table.empty.insert ⟨"n1","ann","lea","acme","advisor","",.pending,none,none,none,10⟩
  agents := ((Table.empty.insert ⟨"ann","member"⟩).insert ⟨"ada","admin"⟩).insert ⟨"bea","admin"⟩
  clock := 0
  promotions := []

def adaApproves : Op := .resolveNomination "n1" "ada" "approved" ""
def beaRejects : Op := .resolveNomination "n1" "bea" "rejected" ""

def inTurn (house : House) : Turn Op Landing → Bool
  | .start .. => true
  | .advance task landing => oneByOne house (.advance task landing) &&
      match house.live.lookup task with
      | some ⟨_,.call (.promote nom) _⟩ => (house.store.agents.row nom.nomineeAgentId).isSome
      | _ => true

theorem inTurn_heedful (id : String) (house : House) (turn : Turn Op Landing) (checked : inTurn house turn = true) :
    Heedful id house turn := by
  cases turn with
  | start task op => trivial
  | advance task landing =>
    simp only [inTurn,oneByOne,Bool.and_eq_true,decide_eq_true_eq] at checked
    obtain ⟨⟨lands,alone⟩,there⟩ := checked
    refine ⟨?_,fun _ => lands,?_⟩
    · rintro ⟨op,resolverAgentId,role,note,status,nom,rest,live,_⟩ other ⟨found,theirs,deciding⟩
      have listed : other ∈ house.live := AList.lookup_isSome.mp (Option.isSome_iff_exists.mpr ⟨_,theirs⟩)
      rw [AList.mem_keys,alone,List.mem_singleton] at listed
      rw [listed,live] at theirs
      obtain rfl := Option.some.inj theirs
      cases deciding
    · rintro nom ⟨_,op,resume,live⟩
      rw [live] at there
      exact ⟨lands,there⟩

theorem approved_then_refused : ∃ house : House, house.live = ∅ ∧ house.count (succeeds "n1") ≤ 1 ∧
    ("n1" ∈ house.store.promotions ↔ ∃ row, house.store.nominations.row "n1" = some row ∧ row.status = .approved) := by
  have walked : ((Runs.walk (House.step "acme") inTurn [.start 0 adaApproves,.advance 0 (carried 0),
    .advance 0 (carried 0),
      .advance 0 (carried 0),.advance 0 (carried 0),.advance 0 (carried 0),.start 0 beaRejects,.advance 0 (carried 0),
      .advance 0 (carried 0)] (House.opened nominatedDb)).map fun house => house.live.keys) = some [] := by
    decide +kernel
  obtain ⟨house,walked,seen⟩ := Option.map_eq_some_iff.mp walked
  have quiet : house.live = ∅ := AList.ext (List.map_eq_nil_iff.mp seen)
  have coherent : nominatedDb.Coherent "n1" := ⟨nofun,by decide⟩
  obtain ⟨once,final⟩ := nomination_final "acme" "n1" coherent
    (Runs.reached_walk (inTurn_heedful "n1") _ .start walked)
  exact ⟨house,quiet,once,final quiet⟩

/-- Both admins find the nomination pending: both succeed, it is rejected, and Ann is promoted. -/
theorem decided_twice : ∃ house : House, Runs.Reached (House.step "acme") Runs.Free (House.opened nominatedDb) house ∧
    house.count (succeeds "n1") = 2 ∧ house.live = ∅ ∧ "n1" ∈ house.store.promotions ∧
    house.store.standing "n1" = some .rejected := by
  have walked : ((Runs.walk (House.step "acme") (fun _ _ => true) [.start 0 adaApproves,.start 1 beaRejects,
      .advance 0 (carried 0),.advance 0 (carried 0),.advance 1 (carried 0),.advance 1 (carried 0),.advance 0
        (carried 0),
      .advance 0 (carried 0),.advance 1 (carried 0),.advance 1 (carried 0),.advance 0 (carried 0)]
      (House.opened nominatedDb)).map fun house => (house.count (succeeds "n1"),house.live.keys,house.store.promotions,
        house.store.standing "n1")) = some (2,[],["n1"],some .rejected) := by
    decide +kernel
  obtain ⟨house,walked,seen⟩ := Option.map_eq_some_iff.mp walked
  obtain ⟨twice,seen⟩ := Prod.mk.inj seen
  obtain ⟨quiet,seen⟩ := Prod.mk.inj seen
  obtain ⟨promoted,rejected⟩ := Prod.mk.inj seen
  exact ⟨house,Runs.reached_walk (fun _ _ _ => trivial) _ .start walked,twice,
    AList.ext (List.map_eq_nil_iff.mp quiet),promoted ▸ List.mem_singleton_self _,rejected⟩

end Orrery.Governance
