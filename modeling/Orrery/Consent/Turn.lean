import Orrery.Consent.Executor
import Orrery.Consent.ClaimLog

/-! What one turn of the executor does: which rows it writes, what it leaves alone, and
on which path an approval came about. -/
namespace Orrery.Consent
open Foundation Json

def Fields.live (fields : Fields) : Bool :=
  fields.action == "consent.approved" && (Json.get fields.detail "expires_at").isSome

def Inert (fields : Fields) : Prop := fields.live = false ∧ fields.action ≠ "consent.consumed"

def synthesized : List String := ["graduated","trust_threshold"]

def Automatic (fields : Fields) : Prop :=
  fields.action ≠ "consent.consumed" ∧ (fields.live = true → ∃ prompt ∈ synthesized,
    Json.get fields.detail "prompt_event_sha256" = some (.str prompt))

theorem Inert.automatic {fields : Fields} (inert : Inert fields) : Automatic fields := by
  refine ⟨inert.2,?_⟩
  intro live
  rw [inert.1] at live
  cases live

theorem decisionFields_inert (req : ActionRequest) (decision : ConsentDecision) (chapterId : String)
    (actorAgentId : Option String) : Inert (decisionFields req decision chapterId actorAgentId) := by
  constructor
  · simp [Fields.live,decisionFields,requestDetail,Json.get]
  · cases state : decision.state <;> simp [decisionFields,state,DecisionState.text]

theorem Inert.of_action {fields : Fields} (approval : fields.action ≠ "consent.approved")
    (tombstone : fields.action ≠ "consent.consumed") : Inert fields :=
  ⟨by simp [Fields.live,approval],tombstone⟩

theorem approvalFields_automatic (env : Env) (req : ActionRequest) (chapterId : String)
    (actorAgentId : Option String) (expiresAt : Nat) {prompt : String} (auto : prompt ∈ synthesized) :
    Automatic (approvalFields env req chapterId prompt actorAgentId expiresAt) := by
  refine ⟨by simp [approvalFields],?_⟩
  intro _
  exact ⟨prompt,auto,by simp [approvalFields,requestDetail,Json.get]⟩

section Gate
variable (env : Env)

theorem recordDecision_logged (req : ActionRequest) (decision : ConsentDecision) (chapterId : String)
    (actorAgentId : Option String) :
    Effect.Keeps (Logged env Inert) (recordDecision env req decision chapterId actorAgentId) :=
  Effect.keeps_bind (record_logged env (decisionFields_inert _ _ _ _)) fun _ => Effect.keeps_pure _

theorem checkAndRecord_logged (req : ActionRequest) (chapterId : String) (actorAgentId : Option String) :
    Effect.Keeps (Logged env Inert) (checkAndRecord env req chapterId actorAgentId) :=
  Effect.keeps_bind (recordDecision_logged env _ _ _ _) fun _ => Effect.keeps_pure _

theorem evaluate_state (req : ActionRequest) (denied : List String) : (evaluate req denied).state ≠ .approved := by
  unfold evaluate
  split
  next => simp
  next =>
    split
    next => simp
    next => split <;> simp

theorem checkAndRecord_state {req : ActionRequest} {chapterId : String} {actorAgentId : Option String} {w w' : World}
    {decision : ConsentDecision} (run : checkAndRecord env req chapterId actorAgentId w = .ok decision w') :
    decision.state ≠ .approved := by
  obtain ⟨hash,v,_,rest⟩ := (Effect.bind_ok _ _ _ _ _).mp run
  cases rest
  exact evaluate_state req env.denied

theorem approve_logged {allowed : Fields → Prop} (req : ActionRequest) (chapterId prompt : String)
    (actorAgentId : Option String)
    (ok : ∀ expiresAt, allowed (approvalFields env req chapterId prompt actorAgentId expiresAt)) :
    Effect.Keeps (Logged env allowed) (approve env req chapterId prompt actorAgentId) := by
  refine Effect.keeps_bind (now_logged env) ?_
  intro time
  exact Effect.keeps_bind (record_logged env (ok _)) fun _ => Effect.keeps_pure _

theorem approve_cases (req : ActionRequest) (chapterId prompt : String) (actorAgentId : Option String) (w : World) :
    let u := { w with reads := w.reads+1 }
    let fields := approvalFields env req chapterId prompt actorAgentId (env.clock w.reads+approvalTtl)
    (∃ e v, approve env req chapterId prompt actorAgentId w = .error e v ∧ Logged env (fun _ => False) w v) ∨
    (u.holds (u.nextRow env fields).eventSha256 = false ∧ approve env req chapterId prompt actorAgentId w =
      .ok (u.nextRow env fields).eventSha256 (u.insert env (u.nextRow env fields))) := by
  intro u fields
  have read : Writes env (fun _ => False) w u := .single (.tick w)
  have reading : approve env req chapterId prompt actorAgentId w =
      (do let event ← record env fields; return event.eventSha256 : Agent String) u := rfl
  rw [reading,Effect.bind_apply]
  rcases record_cases env fields u with ⟨e,run⟩ | ⟨e,run⟩ | ⟨fresh,run⟩
  · rw [run]
    exact Or.inl ⟨_,_,rfl,read,rfl⟩
  · rw [run]
    exact Or.inl ⟨_,_,rfl,read.tail (.tick u),rfl⟩
  · rw [run]
    exact Or.inr ⟨fresh,rfl⟩

theorem approve_plain (req : ActionRequest) (chapterId prompt : String) (actorAgentId : Option String) :
    Effect.Raises Raised.Plain (approve env req chapterId prompt actorAgentId) := by
  refine Effect.raises_bind (now_plain env) ?_
  intro time
  exact Effect.raises_bind (record_plain env _) fun _ => Effect.raises_pure _

theorem scanApprovals_some {env : Env} {w : World} {req : ActionRequest} {chapterId : String} {time : Nat}
    {consumed : List String} {row : Row} (candidates : List Row)
    (found : w.scanApprovals env req chapterId time consumed candidates = .ok (some row)) :
    ∃ front back, candidates = front ++ row :: back ∧ w.examine env req chapterId time consumed row = .ok true ∧
      ∀ other ∈ front, w.examine env req chapterId time consumed other = .ok false := by
  induction candidates with
  | nil => cases found
  | cons head rest ih =>
    simp only [World.scanApprovals,bind,Except.bind] at found
    cases examined : w.examine env req chapterId time consumed head with
    | error e =>
      rw [examined] at found
      cases found
    | ok hit =>
      rw [examined] at found
      cases hit with
      | false =>
        obtain ⟨front,back,split,passed,skipped⟩ := ih found
        refine ⟨head :: front,back,by rw [split,List.cons_append],passed,?_⟩
        intro other member
        rcases List.mem_cons.mp member with rfl | member
        · exact examined
        · exact skipped other member
      | true =>
        cases found
        exact ⟨[],rest,rfl,examined,by simp⟩

theorem attemptMark_cases (sha chapterId : String) (actorAgentId : Option String) (attempts : Nat) :
    ∀ (w : World) (last : Raised), (attempts = 0 → last.Plain) →
      (∃ e v, attemptMark env sha chapterId actorAgentId attempts last w = .error (.exception e) v ∧
        Logged env (fun _ => False) w v) ∨
      ∃ v, let fields := tombstone sha chapterId actorAgentId "unknown"
        Logged env (fun _ => False) w v ∧ v.holds (v.nextRow env fields).eventSha256 = false ∧
        attemptMark env sha chapterId actorAgentId attempts last w = .ok () (v.insert env (v.nextRow env fields)) := by
  induction attempts with
  | zero =>
    intro w last plain
    cases last with
    | interrupt => exact absurd (plain rfl) id
    | exception e => exact Or.inl ⟨e,w,rfl,.refl,rfl⟩
  | succ attempts ih =>
    intro w last _
    rw [attemptMark_succ]
    rcases record_cases env (tombstone sha chapterId actorAgentId "unknown") w with ⟨e,run⟩ | ⟨e,run⟩ | ⟨fresh,run⟩
    · rw [run]
      exact ih w (.exception e) fun _ => trivial
    · rw [run]
      have tick : Logged env (fun _ => False) w { w with reads := w.reads+1 } := ⟨.single (.tick w),rfl⟩
      rcases ih { w with reads := w.reads+1 } (.exception e) (fun _ => trivial) with ⟨e,v,ran,logged⟩ | ⟨v,logged,rest⟩
      · exact Or.inl ⟨e,v,ran,trans_of _ tick logged⟩
      · exact Or.inr ⟨v,trans_of _ tick logged,rest⟩
    · rw [run]
      exact Or.inr ⟨w,⟨.refl,rfl⟩,fresh,rfl⟩

structure Claimed (req : ActionRequest) (chapterId : String) (actorAgentId : Option String) (w : World) (row : Row)
    (v : World) : Prop where
  found : findValidApproval env req chapterId w = .ok (some row) { w with reads := w.reads+1 }
  free : row.eventSha256 ∉ w.inFlight
  marked : ∃ u, let fields := tombstone row.eventSha256 chapterId actorAgentId "unknown"
    Logged env (fun _ => False) w u ∧ u.holds (u.nextRow env fields).eventSha256 = false ∧
      v = (u.insert env (u.nextRow env fields)).enter row.eventSha256

def World.honours (w : World) (req : ActionRequest) (chapterId : String) (row : Row) : Prop :=
  w.examine env req chapterId (env.clock w.reads) (w.consumedApprovalShas env) row = .ok true

theorem found_first {req : ActionRequest} {chapterId : String} {w v : World} {row : Row}
    (found : findValidApproval env req chapterId w = .ok (some row) v) : ∃ front back,
    w.listEvents env "consent.approved" 50 = front ++ row :: back ∧ w.honours env req chapterId row ∧
      ∀ other ∈ front, ¬ w.honours env req chapterId other := by
  rw [findValidApproval_eq] at found
  dsimp only at found
  split at found
  next scanned =>
    cases found
    obtain ⟨front,back,split,passed,skipped⟩ := scanApprovals_some _ scanned
    refine ⟨front,back,split,passed,?_⟩
    intro other member passed
    cases passed.symm.trans (skipped other member)
  next => cases found

theorem found_examined {req : ActionRequest} {chapterId : String} {w v : World} {row : Row}
    (found : findValidApproval env req chapterId w = .ok (some row) v) :
    row ∈ World.listEvents { w with reads := w.reads+1 } env "consent.approved" 50 ∧
      World.examine env { w with reads := w.reads+1 } req chapterId (env.clock w.reads)
        (World.consumedApprovalShas env { w with reads := w.reads+1 }) row = .ok true := by
  obtain ⟨front,back,split,passed,_⟩ := found_first env found
  refine ⟨?_,passed⟩
  have member : row ∈ front ++ row :: back := by simp
  exact split ▸ member

theorem claimApproval_cases (req : ActionRequest) (chapterId : String) (actorAgentId : Option String) (w : World) :
    (∃ v, claimApproval env req chapterId actorAgentId w = .ok none v ∧ Logged env (fun _ => False) w v) ∨
    (∃ e v, claimApproval env req chapterId actorAgentId w = .error (.exception e) v ∧
      Logged env (fun _ => False) w v) ∨
    ∃ row v, claimApproval env req chapterId actorAgentId w = .ok (some row) v ∧
      Claimed env req chapterId actorAgentId w row v := by
  have tick : Logged env (fun _ => False) w { w with reads := w.reads+1 } := ⟨.single (.tick w),rfl⟩
  rw [claimApproval_eq,findValidApproval_eq]
  dsimp only
  cases scanned : World.scanApprovals env { w with reads := w.reads+1 } req chapterId (env.clock w.reads)
      (World.consumedApprovalShas env { w with reads := w.reads+1 })
      (World.listEvents { w with reads := w.reads+1 } env "consent.approved" 50) with
  | error e => exact Or.inr (Or.inl ⟨e,_,rfl,tick⟩)
  | ok found =>
    cases found with
    | none => exact Or.inl ⟨_,rfl,tick⟩
    | some row =>
      have found : findValidApproval env req chapterId w = .ok (some row) { w with reads := w.reads+1 } := by
        rw [findValidApproval_eq]
        dsimp only
        rw [scanned]
      by_cases held : row.eventSha256 ∈ w.inFlight
      · simp only [held,if_true]
        exact Or.inl ⟨_,rfl,tick⟩
      · simp only [held,if_false,consume_eq]
        rcases attemptMark_cases env row.eventSha256 chapterId actorAgentId 3 { w with reads := w.reads+1 } .interrupt
          (by simp) with ⟨e,v,ran,logged⟩ | ⟨u,logged,fresh,ran⟩
        · rw [ran]
          exact Or.inr (Or.inl ⟨e,v,rfl,trans_of _ tick logged⟩)
        · rw [ran]
          exact Or.inr (Or.inr ⟨row,_,rfl,found,held,u,trans_of _ tick logged,fresh,rfl⟩)

end Gate

structure Prepared (env : Env) (w w' : World) : Prop where
  writes : Writes env Automatic w w'
  rest : w' = { w with reads := w'.reads, rows := w'.rows, checkpoint := w'.checkpoint, graduations := w'.graduations }

instance (env : Env) : IsPreorder World (Prepared env) where
  refl _ := ⟨.refl,rfl⟩
  trans _ _ _ first second := by
    refine ⟨first.writes.trans second.writes,?_⟩
    rw [second.rest,first.rest]

theorem Logged.prepared {env : Env} {w w' : World} (logged : Logged env Automatic w w') : Prepared env w w' := by
  refine ⟨logged.1,?_⟩
  have same := logged.2
  unfold Untouched at same
  rw [same]

section Paths
variable (env : Env) (call : Call) (proposal : ActionRequest)

def SelfApproves (w : World) (promptEventSha256 : String) (audit : String → Fields) : Prop :=
  ∃ hash v, approve env proposal call.chapterId promptEventSha256 call.actorAgentId w = .ok hash v ∧
    ∃ row v', record env (audit hash) v = .ok row v'

def GraduatedOpen (w : World) : Prop := ∃ deviceDid, call.graduationStore = some deviceDid ∧
  proposal.capability ∉ noAutoApprove ∧ call.habitModel = true ∧ call.context ≠ "" ∧
  missingKeyPart deviceDid (call.bucket proposal) = none ∧ w.status deviceDid (call.bucket proposal) = .graduated ∧
  SelfApproves env call proposal (w.graduate env deviceDid (call.bucket proposal)) "graduated"
    (graduatedFields env proposal call.context call.chapterId call.actorAgentId (w.habits (call.bucket proposal)))

def TrustOpen (w : World) : Prop := proposal.capability ∉ noAutoApprove ∧
  (call.localTrust ≠ none ∨ call.chapterTrust ≠ none) ∧ proposal.provenance ≠ "untrusted" ∧
  autoApproveThreshold ≤ effectiveTrust (call.localTrust.getD 0) (call.chapterTrust.getD 0) ∧
  SelfApproves env call proposal w "trust_threshold"
    (trustedFields proposal call.chapterId call.actorAgentId (call.localTrust.getD 0) (call.chapterTrust.getD 0))

def Takes (w : World) (row : Row) : Prop := ∃ v,
  findValidApproval env proposal call.chapterId w = .ok (some row) v ∧ row.eventSha256 ∉ v.inFlight ∧
  ∃ v', attemptMark env row.eventSha256 call.chapterId call.actorAgentId 3 .interrupt v = .ok () v'

theorem selfApprove_prepared (prompt : String) (auto : prompt ∈ synthesized) (audit : String → Fields)
    (inert : ∀ hash, Inert (audit hash)) :
    Effect.Keeps (Prepared env) (selfApprove env proposal call.chapterId prompt call.actorAgentId audit) := by
  intro w
  apply Logged.prepared
  revert w
  refine Effect.keeps_bind (approve_logged env _ _ _ _ fun _ => approvalFields_automatic env _ _ _ _ auto) ?_
  intro hash
  exact Effect.keeps_bind (record_logged env (inert hash).automatic) fun _ => Effect.keeps_pure _

theorem selfApprove_plain (prompt : String) (audit : String → Fields) :
    Effect.Raises Raised.Plain (selfApprove env proposal call.chapterId prompt call.actorAgentId audit) := by
  refine Effect.raises_bind (approve_plain env _ _ _ _) ?_
  intro hash
  exact Effect.raises_bind (record_plain env _) fun _ => Effect.raises_pure _

theorem selfApprove_some (prompt : String) (audit : String → Fields) (w v : World) (o : Option String)
    (run : suppress (selfApprove env proposal call.chapterId prompt call.actorAgentId audit) w = .ok o v) :
    o ≠ none ↔ SelfApproves env call proposal w prompt audit := by
  rw [suppress_eq (selfApprove_plain env call proposal prompt audit)] at run
  unfold SelfApproves
  simp only [selfApprove,Effect.bind_apply] at run
  cases approved : approve env proposal call.chapterId prompt call.actorAgentId w with
  | error e u =>
    rw [approved] at run
    cases run
    simp
  | ok hash u =>
    rw [approved] at run
    dsimp only at run
    cases audited : record env (audit hash) u with
    | error e t =>
      rw [audited] at run
      cases run
      simp [audited]
    | ok row t =>
      rw [audited] at run
      cases run
      simp [audited]

theorem autoApproveIfGraduated_eq (deviceDid : String) (w : World) :
    autoApproveIfGraduated env proposal call.context call.chapterId deviceDid call.actorAgentId w =
      if call.context = "" then .ok none w
      else match missingKeyPart deviceDid (call.bucket proposal) with
      | some name => .error (.exception (.valueError s!"{name} is required for graduation key")) w
      | none =>
        if w.status deviceDid (call.bucket proposal) ≠ .graduated then .ok none w
        else selfApprove env proposal call.chapterId "graduated" call.actorAgentId
          (graduatedFields env proposal call.context call.chapterId call.actorAgentId
            (w.habits (call.bucket proposal))) (w.graduate env deviceDid (call.bucket proposal)) := by
  have bucket : (⟨proposal.capability,proposal.scope,call.context⟩ : Bucket) = call.bucket proposal := rfl
  unfold autoApproveIfGraduated
  by_cases empty : call.context = ""
  · simp [empty]
  · simp only [empty,if_false,bucket,Effect.bind_apply,Effect.get_apply]
    unfold recordGraduation makeGraduationKey
    cases part : missingKeyPart deviceDid (call.bucket proposal) with
    | some name => rfl
    | none =>
      by_cases graduated : w.status deviceDid (call.bucket proposal) = .graduated
      · simp [graduated,Effect.bind_apply]
      · simp [graduated]

theorem graduate_prepared (deviceDid : String) (bucket : Bucket) (w : World) :
    Prepared env w (w.graduate env deviceDid bucket) := by
  have read : Write env Automatic w { w with reads := w.reads+1 } := .tick w
  exact ⟨(Relation.ReflTransGen.single read).tail (.aside _ _ rfl rfl),rfl⟩

theorem autoApproveIfGraduated_prepared (deviceDid : String) : Effect.Keeps (Prepared env)
    (autoApproveIfGraduated env proposal call.context call.chapterId deviceDid call.actorAgentId) := by
  intro w
  rw [autoApproveIfGraduated_eq]
  split
  next => exact refl_of _ w
  next =>
    split
    next => exact refl_of _ w
    next =>
      split
      next => exact refl_of _ w
      next =>
        refine trans_of _ (graduate_prepared env deviceDid (call.bucket proposal) w) ?_
        exact selfApprove_prepared env call proposal "graduated" (by decide) _
          (fun _ => Inert.of_action (by simp [graduatedFields]) (by simp [graduatedFields])) _

theorem autoApproveIfGraduated_plain (deviceDid : String) : Effect.Raises Raised.Plain
    (autoApproveIfGraduated env proposal call.context call.chapterId deviceDid call.actorAgentId) := by
  intro w e v run
  rw [autoApproveIfGraduated_eq] at run
  split at run
  next => cases run
  next =>
    split at run
    next =>
      cases run
      trivial
    next =>
      split at run
      next => cases run
      next => exact selfApprove_plain env call proposal "graduated" _ _ _ _ run

theorem autoApproveIfTrusted_prepared (own chapter : Int) : Effect.Keeps (Prepared env)
    (autoApproveIfTrusted env proposal call.chapterId own chapter call.actorAgentId) := by
  unfold autoApproveIfTrusted
  split
  next => exact Effect.keeps_pure _
  next =>
    split
    next => exact Effect.keeps_pure _
    next =>
      exact selfApprove_prepared env call proposal "trust_threshold" (by decide) _
        fun _ => Inert.of_action (by simp [trustedFields]) (by simp [trustedFields])

theorem autoApproveIfTrusted_plain (own chapter : Int) : Effect.Raises Raised.Plain
    (autoApproveIfTrusted env proposal call.chapterId own chapter call.actorAgentId) := by
  unfold autoApproveIfTrusted
  split
  next => exact Effect.raises_pure _
  next =>
    split
    next => exact Effect.raises_pure _
    next => exact selfApprove_plain env call proposal "trust_threshold" _

structure Decides (path : Agent (Option ConsentDecision)) (opened : Prop) (reason : String) (w : World)
    (o : Option ConsentDecision) (v : World) : Prop where
  run : path w = .ok o v
  prepared : Prepared env w v
  exactly : o ≠ none ↔ opened
  approves : ∀ d, o = some d → ∃ hash, d = ⟨.approved,reason,some hash⟩

theorem decides_closed {path : Agent (Option ConsentDecision)} {opened : Prop} {w : World} (reason : String)
    (run : path w = .ok none w) (shut : ¬ opened) : ∃ o v, Decides env path opened reason w o v :=
  ⟨none,w,run,refl_of _ w,by simp [shut],by simp⟩

theorem decides_suppressed {m : Agent (Option String)} {opened : Prop} {w : World} (reason : String)
    (plain : Effect.Raises Raised.Plain m) (prepared : Effect.Keeps (Prepared env) m)
    (exactly : ∀ o v, suppress m w = .ok o v → (o ≠ none ↔ opened)) :
    ∃ o v, Decides env (do
      let hash ← suppress m
      return hash.map fun hash => (⟨.approved,reason,some hash⟩ : ConsentDecision)) opened reason w o v := by
  obtain ⟨o,v,run,step⟩ := suppress_total plain prepared w
  refine ⟨o.map fun hash => ⟨.approved,reason,some hash⟩,v,?_,step,?_,?_⟩
  · simp [Effect.bind_apply,run]
  · rw [← exactly o v run]
    simp
  · intro d same
    obtain ⟨hash,_,made⟩ := Option.map_eq_some_iff.mp same
    exact ⟨hash,made.symm⟩

theorem graduatedPath_decides (w : World) :
    ∃ o v, Decides env (graduatedPath env call proposal) (GraduatedOpen env call proposal w) "graduated" w o v := by
  unfold graduatedPath
  cases store : call.graduationStore with
  | none => exact decides_closed env _ rfl (by simp [GraduatedOpen,store])
  | some deviceDid =>
    by_cases barred : proposal.capability ∈ noAutoApprove ∨ call.habitModel = false ∨ call.context = ""
    · simp only [barred,if_true]
      apply decides_closed env _ rfl
      intro premise
      obtain ⟨_,_,auto,model,context,_⟩ := premise
      simp [auto,model,context] at barred
    · simp only [barred,if_false]
      refine decides_suppressed env "graduated" (autoApproveIfGraduated_plain env call proposal deviceDid)
        (autoApproveIfGraduated_prepared env call proposal deviceDid) ?_
      intro o v run
      obtain ⟨auto,model,context⟩ : proposal.capability ∉ noAutoApprove ∧ call.habitModel = true ∧ call.context ≠ "" := by
        simpa [not_or] using barred
      have opened : GraduatedOpen env call proposal w ↔
          missingKeyPart deviceDid (call.bucket proposal) = none ∧
            w.status deviceDid (call.bucket proposal) = .graduated ∧
            SelfApproves env call proposal (w.graduate env deviceDid (call.bucket proposal)) "graduated"
              (graduatedFields env proposal call.context call.chapterId call.actorAgentId
                (w.habits (call.bucket proposal))) := by
        simp [GraduatedOpen,store,auto,model,context]
      rw [opened]
      have equation := autoApproveIfGraduated_eq env call proposal deviceDid w
      rw [suppress_eq (autoApproveIfGraduated_plain env call proposal deviceDid),equation] at run
      simp only [context,if_false] at run
      cases part : missingKeyPart deviceDid (call.bucket proposal) with
      | some name =>
        rw [part] at run
        cases run
        simp
      | none =>
        rw [part] at run
        by_cases graduated : w.status deviceDid (call.bucket proposal) = .graduated
        · simp only [graduated,ne_eq,not_true_eq_false,if_false] at run
          rw [← suppress_eq (selfApprove_plain env call proposal "graduated" _)] at run
          simp only [true_and,graduated]
          exact selfApprove_some env call proposal "graduated" _ _ _ o run
        · simp only [graduated,ne_eq,not_false_eq_true,if_true] at run
          cases run
          simp [graduated]

theorem trustPath_decides (w : World) :
    ∃ o v, Decides env (trustPath env call proposal) (TrustOpen env call proposal w) "trust_threshold" w o v := by
  unfold trustPath
  by_cases barred : proposal.capability ∈ noAutoApprove ∨ (call.localTrust = none ∧ call.chapterTrust = none)
  · simp only [barred,if_true]
    apply decides_closed env _ rfl
    intro premise
    obtain ⟨auto,given,_⟩ := premise
    rcases barred with never | ⟨own,chapter⟩
    · exact auto never
    · simp [own,chapter] at given
  · simp only [barred,if_false]
    refine decides_suppressed env "trust_threshold" (autoApproveIfTrusted_plain env call proposal _ _)
      (autoApproveIfTrusted_prepared env call proposal _ _) ?_
    intro o v run
    obtain ⟨auto,given⟩ := not_or.mp barred
    have given : call.localTrust ≠ none ∨ call.chapterTrust ≠ none := by
      rw [← not_and_or]
      exact given
    unfold TrustOpen
    simp only [auto,given,not_false_eq_true,true_and]
    unfold autoApproveIfTrusted at run
    by_cases untrusted : proposal.provenance = "untrusted"
    · simp only [untrusted,if_true] at run
      rw [suppress_eq (Effect.raises_pure _)] at run
      cases run
      simp [untrusted]
    · by_cases low : effectiveTrust (call.localTrust.getD 0) (call.chapterTrust.getD 0) < autoApproveThreshold
      · simp only [untrusted,low,if_false,if_true] at run
        rw [suppress_eq (Effect.raises_pure _)] at run
        cases run
        simp [low]
      · simp only [untrusted,low,if_false] at run
        rw [selfApprove_some env call proposal "trust_threshold" _ _ _ o run]
        simp [untrusted,not_lt.mp low]

theorem graduatedPath_shut {w : World}
    (standing : ∀ deviceDid, call.graduationStore = some deviceDid →
      w.status deviceDid (call.bucket proposal) ≠ .graduated) : graduatedPath env call proposal w = .ok none w := by
  unfold graduatedPath
  cases store : call.graduationStore with
  | none => rfl
  | some deviceDid =>
    dsimp only
    split
    next => rfl
    next barred =>
      obtain ⟨_,_,context⟩ := not_or.mp barred |>.imp_right not_or.mp
      rw [Effect.bind_apply,suppress_eq (autoApproveIfGraduated_plain env call proposal deviceDid),
        autoApproveIfGraduated_eq,if_neg context]
      cases missingKeyPart deviceDid (call.bucket proposal) with
      | some name => rfl
      | none =>
        dsimp only
        rw [if_pos (standing deviceDid store)]
        rfl

theorem trustPath_shut (w : World)
    (low : effectiveTrust (call.localTrust.getD 0) (call.chapterTrust.getD 0) < autoApproveThreshold) :
    trustPath env call proposal w = .ok none w := by
  unfold trustPath
  split
  next => rfl
  next =>
    have nothing : autoApproveIfTrusted env proposal call.chapterId (call.localTrust.getD 0)
        (call.chapterTrust.getD 0) call.actorAgentId = pure none := by
      unfold autoApproveIfTrusted
      rw [if_pos low]
      split <;> rfl
    rw [nothing]
    rfl

theorem takes_iff (w : World) (row : Row) : Takes env call proposal w row ↔
    ∃ v, claimApproval env proposal call.chapterId call.actorAgentId w = .ok (some row) v := by
  rw [claimApproval_eq]
  unfold Takes
  cases findValidApproval env proposal call.chapterId w with
  | error e u => simp
  | ok found u =>
    cases found with
    | none => simp
    | some other =>
      by_cases held : other.eventSha256 ∈ u.inFlight
      · simp only [held,if_true]
        constructor
        · intro premise
          obtain ⟨v,same,free,_⟩ := premise
          cases same
          exact absurd held free
        · intro premise
          obtain ⟨v,same⟩ := premise
          cases same
      · simp only [held,if_false,consume_eq]
        constructor
        · intro premise
          obtain ⟨v,same,_,v',marked⟩ := premise
          cases same
          exact ⟨_,by rw [marked]⟩
        · intro premise
          obtain ⟨v,taken⟩ := premise
          cases marked : attemptMark env other.eventSha256 call.chapterId call.actorAgentId 3 .interrupt u with
          | error e t =>
            rw [marked] at taken
            cases taken
          | ok _ t =>
            rw [marked] at taken
            cases taken
            exact ⟨u,rfl,held,t,marked⟩

theorem claimPath_cases (w : World) :
    ((∀ row, ¬ Takes env call proposal w row) ∧ ∃ v, claimPath env call proposal w = .ok none v ∧
      Logged env (fun _ => False) w v) ∨
    ∃ row v, Takes env call proposal w row ∧
      claimPath env call proposal w = .ok (some ⟨.approved,"user_approved",some row.eventSha256⟩) v ∧
      Claimed env proposal call.chapterId call.actorAgentId w row v := by
  simp only [takes_iff,claimPath,suppress,Effect.handle,Effect.attempt,Effect.bind_apply]
  rcases claimApproval_cases env proposal call.chapterId call.actorAgentId w with
    ⟨v,run,logged⟩ | ⟨e,v,run,logged⟩ | ⟨row,v,run,claimed⟩
  · rw [run]
    exact Or.inl ⟨by simp,v,rfl,logged⟩
  · rw [run]
    exact Or.inl ⟨by simp,v,rfl,logged⟩
  · rw [run]
    exact Or.inr ⟨row,v,⟨v,rfl⟩,rfl,claimed⟩

def beforeTrust (w : World) : World := Effect.final (graduatedPath env call proposal w)

def beforeClaim (w : World) : World := Effect.final (trustPath env call proposal (beforeTrust env call proposal w))

def Eligible (w : World) : Prop := GraduatedOpen env call proposal w ∨
  TrustOpen env call proposal (beforeTrust env call proposal w) ∨
  ∃ row, Takes env call proposal (beforeClaim env call proposal w) row

inductive Approval (w : World) : ConsentDecision → World → Prop
  | graduated (hash : String) (v : World) (opened : GraduatedOpen env call proposal w) (prepared : Prepared env w v) :
      Approval w ⟨.approved,"graduated",some hash⟩ v
  | trusted (hash : String) (v : World) (shut : ¬ GraduatedOpen env call proposal w)
      (opened : TrustOpen env call proposal (beforeTrust env call proposal w)) (prepared : Prepared env w v) :
      Approval w ⟨.approved,"trust_threshold",some hash⟩ v
  | claimed (row : Row) (v : World) (shut : ¬ GraduatedOpen env call proposal w)
      (low : ¬ TrustOpen env call proposal (beforeTrust env call proposal w))
      (prepared : Prepared env w (beforeClaim env call proposal w))
      (takes : Takes env call proposal (beforeClaim env call proposal w) row)
      (claimed : Claimed env proposal call.chapterId call.actorAgentId (beforeClaim env call proposal w) row v) :
      Approval w ⟨.approved,"user_approved",some row.eventSha256⟩ v

def beforeRecord (w : World) : World := Effect.final (claimPath env call proposal (beforeClaim env call proposal w))

theorem settle_split (w : World) :
    (Eligible env call proposal w ∧ ∃ d v, settle env call proposal w = .ok d v ∧ Approval env call proposal w d v) ∨
    (¬ Eligible env call proposal w ∧ Prepared env w (beforeRecord env call proposal w) ∧
      settle env call proposal w =
        checkAndRecord env proposal call.chapterId call.actorAgentId (beforeRecord env call proposal w)) := by
  obtain ⟨o,u,graduated⟩ := graduatedPath_decides env call proposal w
  have first : beforeTrust env call proposal w = u := by rw [beforeTrust,graduated.run]; rfl
  obtain ⟨o',t,trusted⟩ := trustPath_decides env call proposal u
  have second : beforeClaim env call proposal w = t := by rw [beforeClaim,first,trusted.run]; rfl
  simp only [settle,orElse,Effect.bind_apply,graduated.run]
  cases o with
  | some d =>
    obtain ⟨hash,rfl⟩ := graduated.approves d rfl
    have opened := graduated.exactly.mp (by simp)
    exact Or.inl ⟨Or.inl opened,_,u,rfl,.graduated hash u opened graduated.prepared⟩
  | none =>
    have shut : ¬ GraduatedOpen env call proposal w := fun opened => graduated.exactly.mpr opened rfl
    simp only [Effect.bind_apply,trusted.run]
    cases o' with
    | some d =>
      obtain ⟨hash,rfl⟩ := trusted.approves d rfl
      have opened : TrustOpen env call proposal (beforeTrust env call proposal w) := by
        rw [first]
        exact trusted.exactly.mp (by simp)
      exact Or.inl ⟨Or.inr (Or.inl opened),_,t,rfl,
        .trusted hash t shut opened (trans_of _ graduated.prepared trusted.prepared)⟩
    | none =>
      have low : ¬ TrustOpen env call proposal (beforeTrust env call proposal w) := by
        rw [first]
        exact fun opened => trusted.exactly.mpr opened rfl
      have prepared : Prepared env w t := trans_of _ graduated.prepared trusted.prepared
      dsimp only
      rcases claimPath_cases env call proposal t with ⟨unclaimable,v,run,logged⟩ | ⟨row,v,takes,run,claimed⟩
      · have third : beforeRecord env call proposal w = v := by rw [beforeRecord,second,run]; rfl
        rw [run,third]
        refine Or.inr ⟨?_,?_,rfl⟩
        · intro premise
          rcases premise with opened | opened | ⟨row,takes⟩
          · exact shut opened
          · exact low opened
          · exact unclaimable row (second ▸ takes)
        · have idle : Logged env Automatic t v := logged.mono fun _ => False.elim
          exact trans_of _ prepared idle.prepared
      · rw [run]
        refine Or.inl ⟨Or.inr (Or.inr ⟨row,second ▸ takes⟩),_,v,rfl,.claimed row v shut low ?_ (second ▸ takes) ?_⟩
        · rw [second]
          exact prepared
        · rw [second]
          exact claimed

theorem settle_cases (w : World) :
    (Eligible env call proposal w ∧ ∃ d v, settle env call proposal w = .ok d v ∧ Approval env call proposal w d v) ∨
    (¬ Eligible env call proposal w ∧ Prepared env w (Effect.final (settle env call proposal w)) ∧
      ∀ d v, settle env call proposal w = .ok d v → d.state ≠ .approved) := by
  rcases settle_split env call proposal w with approved | ⟨ineligible,prepared,run⟩
  · exact Or.inl approved
  · have fallback := ((checkAndRecord_logged env proposal call.chapterId call.actorAgentId
      (beforeRecord env call proposal w)).mono fun _ => Inert.automatic).prepared
    rw [run]
    refine Or.inr ⟨ineligible,trans_of _ prepared fallback,?_⟩
    intro d v recorded
    exact checkAndRecord_state env recorded

end Paths

def World.observed (w : World) (call : Call) (proposal : ActionRequest) (decision : UserDecision) : World :=
  if call.habitModel = false ∨ call.context = "" then w
  else if proposal.capability = "" ∨ proposal.scope = "" then { w with reads := w.reads+1 }
  else World.count { w with reads := w.reads+1 } (call.bucket proposal) decision

def World.released (w : World) (decision : ConsentDecision) : World :=
  match claimedSha decision with
  | none => w
  | some sha => if sha = "" then w else w.discard sha

section Turns
variable (env : Env) (call : Call) (proposal : ActionRequest)

theorem observeSafe_eq (decision : UserDecision) (w : World) :
    observeSafe env call proposal decision w = .ok () (w.observed call proposal decision) := by
  unfold observeSafe World.observed
  by_cases off : call.habitModel = false ∨ call.context = ""
  · simp [off]
  · obtain ⟨_,context⟩ := not_or.mp off
    rw [if_neg off,if_neg off]
    simp only [Effect.handle,Effect.attempt,Effect.bind_apply,now,observe,Call.bucket,context,or_false]
    by_cases empty : proposal.capability = "" ∨ proposal.scope = ""
    · simp [empty,raise]
    · simp [empty]

theorem World.observed_writes (allowed : Fields → Prop) (decision : UserDecision) (w : World) :
    Writes env allowed w (w.observed call proposal decision) := by
  have read : Write env allowed w { w with reads := w.reads+1 } := .tick w
  unfold World.observed
  split
  next => exact .refl
  next =>
    split
    next => exact .single read
    next => exact (Relation.ReflTransGen.single read).tail (.aside _ _ rfl rfl)

theorem World.observed_rest (decision : UserDecision) (w : World) : w.observed call proposal decision =
    { w with reads := (w.observed call proposal decision).reads, habits := (w.observed call proposal decision).habits } := by
  unfold World.observed
  split
  next => rfl
  next => split <;> rfl

theorem runnerCalls_logged (calls : List RunnerCall) : Effect.Keeps (Logged env Inert) (runnerCalls env calls) := by
  induction calls with
  | nil => exact Effect.keeps_pure _
  | cons first rest ih =>
    cases first with
    | clock => exact Effect.keeps_bind (now_logged env) fun _ => ih
    | decision => exact Effect.keeps_bind (recordDecision_logged env _ _ _ _) fun _ => ih

theorem invoke_logged (runner : Runner) : Effect.Keeps (Logged env Inert) (invoke env proposal runner) := by
  refine Effect.keeps_bind Effect.keeps_get ?_
  intro w
  refine Effect.keeps_bind (runnerCalls_logged env _) ?_
  intro _
  cases (runner proposal w).2 with
  | returned output => exact Effect.keeps_pure _
  | raised e => exact Effect.keeps_raise _
  | interrupted => exact Effect.keeps_raise _

theorem release_logged (decision : ConsentDecision) (execution : String) (error : Option String) (w : World) :
    ∃ v, release env call decision execution error w = .ok () v ∧ Logged env Inert (w.released decision) v := by
  unfold release World.released
  cases claimedSha decision with
  | none => exact ⟨w,rfl,refl_of _ w⟩
  | some sha =>
    by_cases empty : sha = ""
    · simp only [empty,if_true]
      exact ⟨w,rfl,refl_of _ w⟩
    · simp only [empty,if_false,releaseExecution,Effect.bind_apply,Effect.modify_apply]
      have inert : Inert (executedFields sha call.chapterId execution call.actorAgentId error) :=
        Inert.of_action (by simp [executedFields]) (by simp [executedFields])
      have plain := Effect.raises_bind (record_plain env (executedFields sha call.chapterId execution call.actorAgentId error))
        fun event => Effect.raises_pure (some event.eventSha256)
      have logged := Effect.keeps_bind (record_logged env inert) fun event => Effect.keeps_pure (some event.eventSha256)
      obtain ⟨o,v,run,step⟩ := suppress_total plain logged (w.discard sha)
      rw [run]
      exact ⟨v,rfl,step⟩

theorem World.released_rest (w : World) (decision : ConsentDecision) :
    w.released decision = { w with inFlight := (w.released decision).inFlight } := by
  unfold World.released
  split
  next => rfl
  next => split <;> rfl

theorem World.released_inFlight {u w : World} (decision : ConsentDecision) (same : u.inFlight = w.inFlight) :
    (u.released decision).inFlight = (w.released decision).inFlight := by
  unfold World.released
  split
  next => exact same
  next =>
    split
    next => exact same
    next => simp [World.discard,same]

/-- What an approval leaves: inert rows, one observation, the log, and the approval
out of flight. -/
structure CarriedOut (decision : ConsentDecision) (ran : List Activity) (w v : World) : Prop where
  writes : Writes env Inert w v
  activity : v.activity = w.activity ++ ran
  inFlight : v.inFlight = (w.released decision).inFlight
  habits : v.habits = (w.observed call proposal .approved).habits

theorem carriedOut_of_logged (decision : ConsentDecision) (ran : List Activity) {w u v : World}
    (run : Logged env Inert { w.observed call proposal .approved with activity := w.activity ++ ran } u)
    (released : Logged env Inert (u.released decision) v) : CarriedOut env call proposal decision ran w v := by
  have rest := World.observed_rest call proposal .approved w
  have kept := run.2
  have last := released.2
  unfold Untouched at kept last
  have flight : u.inFlight = w.inFlight := by rw [kept,rest]
  refine ⟨?_,?_,?_,?_⟩
  · have start : Writes env Inert w { w.observed call proposal .approved with activity := w.activity ++ ran } :=
      (World.observed_writes env call proposal Inert .approved w).tail (.aside _ _ rfl rfl)
    have aside : Write env Inert u (u.released decision) := by
      rw [World.released_rest]
      exact .aside _ _ rfl rfl
    exact ((start.trans run.1).tail aside).trans released.1
  · rw [last,World.released_rest,kept]
  · rw [last]
    exact World.released_inFlight decision flight
  · rw [last,World.released_rest,kept]

def ranLog (decision : ConsentDecision) : List Activity :=
  .approved proposal call.context decision ::
    match call.runners proposal.capability with
    | none => []
    | some _ => [.invoked proposal call.context decision]

theorem carryOut_spec (decision : ConsentDecision) (w : World) :
    CarriedOut env call proposal decision (ranLog call proposal decision) w
      (Effect.final (carryOut env call proposal decision w)) := by
  have rest := World.observed_rest call proposal .approved w
  have before : (w.observed call proposal .approved).activity = w.activity := by rw [rest]
  unfold carryOut ranLog
  simp only [Effect.bind_apply,observeSafe_eq,log,Effect.modify_apply,before]
  cases call.runners proposal.capability with
  | none =>
    simp only [Effect.bind_apply]
    obtain ⟨v,run,released⟩ := release_logged env call decision "error"
      (some ("no runner registered for capability " ++ env.repr (.str proposal.capability)))
      { w.observed call proposal .approved with activity := w.activity ++ [.approved proposal call.context decision] }
    rw [run]
    exact carriedOut_of_logged env call proposal decision _ (refl_of _ _) released
  | some runner =>
    simp only [Effect.bind_apply,Effect.modify_apply,List.append_assoc,List.cons_append,List.nil_append,Effect.attempt]
    have invoked := invoke_logged env proposal runner { w.observed call proposal .approved with
      activity := w.activity ++ [.approved proposal call.context decision,.invoked proposal call.context decision] }
    cases reported : invoke env proposal runner { w.observed call proposal .approved with
        activity := w.activity ++ [.approved proposal call.context decision,.invoked proposal call.context decision] } with
    | ok output u =>
      rw [reported] at invoked
      obtain ⟨v,run,released⟩ := release_logged env call decision output.outcome none u
      simp only [run]
      exact carriedOut_of_logged env call proposal decision _ invoked released
    | error e u =>
      rw [reported] at invoked
      cases e with
      | exception e =>
        obtain ⟨v,run,released⟩ := release_logged env call decision "error" (some (e.kind ++ ": " ++ e.text)) u
        simp only [Effect.bind_apply,run]
        exact carriedOut_of_logged env call proposal decision _ invoked released
      | interrupt =>
        obtain ⟨v,run,released⟩ := release_logged env call decision "error"
          (some "runner interrupted before reporting") u
        simp only [Effect.bind_apply,run]
        exact carriedOut_of_logged env call proposal decision _ invoked released

structure Admitted (w : World) : Prop where
  known : proposal.capability ∈ knownCapabilities
  undenied : ({ w with reads := w.reads+1 }.listEvents env "consent.denied" 50).find?
    ({ w with reads := w.reads+1 }.suppresses env proposal call.chapterId (env.clock w.reads)) = none
  trusted : proposal.provenance ≠ "untrusted"

theorem suppress_denial (w : World) : suppress (findRecentDenial env proposal call.chapterId) w =
    let w' := { w with reads := w.reads+1 }
    .ok ((w'.listEvents env "consent.denied" 50).find? (w'.suppresses env proposal call.chapterId (env.clock w.reads)))
      w' := rfl

theorem executeProposal_admitted {w : World} (admitted : Admitted env call proposal w) :
    executeProposal env call proposal w =
      match settle env call proposal { w with reads := w.reads+1 } with
      | .ok decision v => conclude env call proposal decision v
      | .error e v => .error e v := by
  unfold executeProposal
  simp only [admitted.known,not_true_eq_false,if_false,Effect.bind_apply,suppress_denial]
  rw [admitted.undenied]
  dsimp only
  rw [if_neg admitted.trusted,Effect.bind_apply]
  cases settle env call proposal { w with reads := w.reads+1 } <;> rfl

theorem conclude_final (decision : ConsentDecision) (state : decision.state ≠ .approved) (v : World) :
    Effect.final (conclude env call proposal decision v) = v ∨
      Effect.final (conclude env call proposal decision v) = v.observed call proposal .denied := by
  unfold conclude
  cases ruled : decision.state with
  | approved => exact absurd ruled state
  | prompt => exact Or.inl rfl
  | reject =>
    simp only [Effect.bind_apply,observeSafe_eq]
    exact Or.inr rfl

theorem turn_refused {R : World → World → Prop} [IsPreorder World R] (logs : ∀ u v, Logged env Inert u v → R u v)
    (w : World) (settled : Admitted env call proposal w →
      R { w with reads := w.reads+1 } (Effect.final (settle env call proposal { w with reads := w.reads+1 })) ∧
      ∀ d v, settle env call proposal { w with reads := w.reads+1 } = .ok d v → d.state ≠ .approved) :
    ∃ v, R w v ∧ (Effect.final (executeProposal env call proposal w) = v ∨
      Effect.final (executeProposal env call proposal w) = v.observed call proposal .denied) := by
  have read : R w { w with reads := w.reads+1 } := logs _ _ ⟨.single (.tick w),rfl⟩
  by_cases admitted : Admitted env call proposal w
  · obtain ⟨kept,state⟩ := settled admitted
    rw [executeProposal_admitted env call proposal admitted]
    cases run : settle env call proposal { w with reads := w.reads+1 } with
    | error e v =>
      rw [run] at kept
      exact ⟨v,trans_of _ read kept,Or.inl rfl⟩
    | ok d v =>
      rw [run] at kept
      exact ⟨v,trans_of _ read kept,conclude_final env call proposal d (state d v run) v⟩
  · unfold executeProposal
    by_cases known : proposal.capability ∈ knownCapabilities
    · simp only [known,not_true_eq_false,if_false,Effect.bind_apply,suppress_denial]
      cases denial : List.find? (World.suppresses env { w with reads := w.reads+1 } proposal call.chapterId
          (env.clock w.reads)) (World.listEvents { w with reads := w.reads+1 } env "consent.denied" 50) with
      | some row => exact ⟨_,read,Or.inl rfl⟩
      | none =>
        have untrusted : proposal.provenance = "untrusted" := by
          by_contra trusted
          exact admitted ⟨known,denial,trusted⟩
        dsimp only
        rw [if_pos untrusted,Effect.bind_apply]
        have logged := checkAndRecord_logged env proposal call.chapterId call.actorAgentId { w with reads := w.reads+1 }
        cases run : checkAndRecord env proposal call.chapterId call.actorAgentId { w with reads := w.reads+1 } with
        | error e v =>
          rw [run] at logged
          exact ⟨v,trans_of _ read (logs _ _ logged),Or.inl rfl⟩
        | ok reject v =>
          rw [run] at logged
          refine ⟨v,trans_of _ read (logs _ _ logged),Or.inr ?_⟩
          simp only [Effect.bind_apply,observeSafe_eq]
          rfl
    · simp only [known,not_false_eq_true,if_true]
      have logged := Effect.keeps_bind (recordDecision_logged env proposal ⟨.reject,"unknown_capability",none⟩
        call.chapterId call.actorAgentId) (fun hash => Effect.keeps_pure
          (⟨proposal,⟨.reject,"unknown_capability",some hash⟩,none,none⟩ : ExecutionResult)) w
      exact ⟨_,logs _ _ logged,Or.inl rfl⟩

structure Idle (w v : World) : Prop where
  writes : Writes env Automatic w v
  activity : v.activity = w.activity
  inFlight : v.inFlight = w.inFlight
  approvals : ∀ bucket, (v.habits bucket).approvals = (w.habits bucket).approvals

theorem Prepared.idle {w v : World} (prepared : Prepared env w v) : Idle env w v := by
  have rest := prepared.rest
  refine ⟨prepared.writes,?_,?_,?_⟩
  · rw [rest]
  · rw [rest]
  · intro bucket
    rw [rest]

theorem World.observed_denied (w : World) (bucket : Bucket) :
    ((w.observed call proposal .denied).habits bucket).approvals = (w.habits bucket).approvals ∧
      (w.habits bucket).denials ≤ ((w.observed call proposal .denied).habits bucket).denials := by
  unfold World.observed
  split
  next => exact ⟨rfl,Nat.le_refl _⟩
  next =>
    split
    next => exact ⟨rfl,Nat.le_refl _⟩
    next =>
      by_cases same : bucket = call.bucket proposal
      · simp [World.count,same,Counts.add]
      · simp [World.count,same]

theorem Idle.observed {w v : World} (idle : Idle env w v) : Idle env w (v.observed call proposal .denied) := by
  have rest := World.observed_rest call proposal .denied v
  refine ⟨idle.writes.trans (World.observed_writes env call proposal _ _ v),?_,?_,?_⟩
  · rw [rest]
    exact idle.activity
  · rw [rest]
    exact idle.inFlight
  · intro bucket
    rw [← idle.approvals bucket]
    exact (World.observed_denied call proposal v bucket).1

theorem turn_cases (w : World) :
    (Admitted env call proposal w ∧ Eligible env call proposal { w with reads := w.reads+1 } ∧ ∃ d v,
      Approval env call proposal { w with reads := w.reads+1 } d v ∧
      executeProposal env call proposal w = carryOut env call proposal d v) ∨
    (¬ (Admitted env call proposal w ∧ Eligible env call proposal { w with reads := w.reads+1 }) ∧
      Idle env w (Effect.final (executeProposal env call proposal w))) := by
  by_cases approved : Admitted env call proposal w ∧ Eligible env call proposal { w with reads := w.reads+1 }
  · rcases settle_cases env call proposal { w with reads := w.reads+1 } with
      ⟨eligible,d,v,run,approval⟩ | ⟨ineligible,_⟩
    · refine Or.inl ⟨approved.1,eligible,d,v,approval,?_⟩
      rw [executeProposal_admitted env call proposal approved.1,run]
      cases approval <;> rfl
    · exact absurd approved.2 ineligible
  · refine Or.inr ⟨approved,?_⟩
    have logs : ∀ u v, Logged env Inert u v → Prepared env u v := fun u v logged =>
      (logged.mono fun _ => Inert.automatic).prepared
    obtain ⟨v,prepared,same | same⟩ := turn_refused env call proposal logs w (by
      intro admitted
      rcases settle_cases env call proposal { w with reads := w.reads+1 } with ⟨eligible,_⟩ | ⟨_,settled⟩
      · exact absurd ⟨admitted,eligible⟩ approved
      · exact settled)
    · rw [same]
      exact prepared.idle env
    · rw [same]
      exact (prepared.idle env).observed env call proposal

theorem executePlan_final (rest : List ActionRequest) (w : World) :
    Effect.final (executePlan env call (proposal :: rest) w) =
      match executeProposal env call proposal w with
      | .ok _ v => Effect.final (executePlan env call rest v)
      | .error _ v => v := by
  simp only [executePlan,Effect.bind_apply]
  cases executeProposal env call proposal w with
  | error e v => rfl
  | ok result v =>
    dsimp only
    cases executePlan env call rest v <;> rfl

def AtEachTurn (P : ActionRequest → World → Prop) (plan : List ActionRequest) (w : World) : Prop :=
  ∀ before proposal after results v, plan = before ++ proposal :: after →
    executePlan env call before w = .ok results v → P proposal v

theorem atEachTurn_cons (P : ActionRequest → World → Prop) (rest : List ActionRequest) (w : World) :
    AtEachTurn env call P (proposal :: rest) w ↔ P proposal w ∧
      ∀ result v, executeProposal env call proposal w = .ok result v → AtEachTurn env call P rest v := by
  constructor
  · intro all
    refine ⟨all [] proposal rest [] w rfl rfl,?_⟩
    intro result v turn before other after results u split run
    apply all (proposal :: before) other after (result :: results) u (by rw [split]; rfl)
    simp only [executePlan,Effect.bind_apply,turn,run,Effect.pure_apply]
  · intro both before other after results v split run
    cases before with
    | nil =>
      cases split
      cases run
      exact both.1
    | cons head before =>
      cases split
      obtain ⟨result,u,turn,rest⟩ := (Effect.bind_ok _ _ _ _ _).mp run
      obtain ⟨results',t,ran,last⟩ := (Effect.bind_ok _ _ _ _ _).mp rest
      cases last
      exact both.2 result u turn before other after results' v rfl ran

end Turns
end Orrery.Consent
