import Orrery.Consent.Denylist

/-! Runs of the agent: proposals taken up by the executor one at a time, approvals
clicked by the user between them, graduations revoked, trust changed, other rows
written, and restarts. Two things are asked of them: that what runs as approved by
the user was clicked, once for each run, and that a bucket graduates by clicks. -/
namespace Orrery.Consent
open Foundation Json

structure Session where
  world : World
  clicks : List String

def Row.live (row : Row) : Bool :=
  row.action == "consent.approved" && (Json.get row.detail "expires_at").isSome

def Row.synthetic (row : Row) : Bool :=
  match Json.get row.detail "prompt_event_sha256" with
  | some (.str prompt) => decide (prompt ∈ synthesized)
  | _ => false

def World.clicks (w : World) : List String :=
  (w.rows.filter fun row => row.live && !row.synthetic).map Row.eventSha256

def World.prompted (w : World) (promptEventSha256 : String) : Bool :=
  w.rows.any fun row => row.action == "consent.prompt" && row.eventSha256 == promptEventSha256

def hashOf : EStateM.Result Raised World String → List String
  | .ok hash _ => [hash]
  | .error _ _ => []

inductive Lives (env : Env) (allowed : Call → ActionRequest → World → Prop) (w : World) : Session → Prop
  | start : Lives env allowed w ⟨w,w.clicks⟩
  | turn {s : Session} (before : Lives env allowed w s) (call : Call) (proposal : ActionRequest)
      (ok : allowed call proposal s.world) :
      Lives env allowed w { s with world := Effect.final (executeProposal env call proposal s.world) }
  | click {s : Session} (before : Lives env allowed w s) (req : ActionRequest) (chapterId promptEventSha256 : String)
      (actorAgentId : Option String) (prompted : s.world.prompted promptEventSha256 = true) :
      Lives env allowed w ⟨Effect.final (approve env req chapterId promptEventSha256 actorAgentId s.world),
        s.clicks ++ hashOf (approve env req chapterId promptEventSha256 actorAgentId s.world)⟩
  | record {s : Session} (before : Lives env allowed w s) (fields : Fields) (inert : Inert fields) :
      Lives env allowed w { s with world := Effect.final (record env fields s.world) }
  | revoke {s : Session} (before : Lives env allowed w s) (deviceDid : String) (bucket : Bucket) :
      Lives env allowed w { s with world := Effect.final (revoke env deviceDid bucket s.world) }
  | revokeAll {s : Session} (before : Lives env allowed w s) (deviceDid : String) :
      Lives env allowed w { s with world := Effect.final (revokeAll env deviceDid s.world) }
  | trust {s : Session} (before : Lives env allowed w s) (localTrust chapterTrust : TrustFile) :
      Lives env allowed w { s with world := { s.world with localTrust := localTrust, chapterTrust := chapterTrust } }
  | restart {s : Session} (before : Lives env allowed w s) (signingKey : Option String) :
      Lives env allowed w { s with world := { s.world with inFlight := [], signingKey := signingKey } }

theorem executePlan_lives {env : Env} {allowed : Call → ActionRequest → World → Prop} {w : World} (call : Call)
    (plan : List ActionRequest) : ∀ {s : Session}, Lives env allowed w s →
    AtEachTurn env call (allowed call) plan s.world →
    Lives env allowed w { s with world := Effect.final (executePlan env call plan s.world) } := by
  induction plan with
  | nil =>
    intro s before _
    exact before
  | cons proposal rest ih =>
    intro s before ok
    obtain ⟨here,later⟩ := (atEachTurn_cons env call proposal _ rest _).mp ok
    have turned := before.turn call proposal here
    rw [executePlan_final]
    cases run : executeProposal env call proposal s.world with
    | error e v =>
      rw [run] at turned
      exact turned
    | ok result v =>
      rw [run] at turned
      exact ih turned (later result v run)

def userRuns (activity : List Activity) : List (Option String) :=
  activity.filterMap fun
    | .invoked _ _ decision => if decision.reason = "user_approved" then some decision.eventSha256 else none
    | .approved .. => none

@[simp] theorem userRuns_append (first second : List Activity) :
    userRuns (first ++ second) = userRuns first ++ userRuns second := List.filterMap_append ..

def Genuine (s : Session) : Prop :=
  ∀ row ∈ s.world.rows, row.live = true → row.synthetic = true ∨ row.eventSha256 ∈ s.clicks

theorem genuine_start (w : World) : Genuine ⟨w,w.clicks⟩ := by
  intro row member live
  by_cases auto : row.synthetic = true
  · exact Or.inl auto
  · refine Or.inr (List.mem_map.mpr ⟨row,List.mem_filter.mpr ⟨member,?_⟩,rfl⟩)
    simp [live,auto]

theorem Genuine.writes {env : Env} {s : Session} (genuine : Genuine s) {v : World}
    (run : Writes env Automatic s.world v) : Genuine { s with world := v } := by
  obtain ⟨new,rows,made⟩ := run.rows
  intro row member live
  rw [rows] at member
  rcases List.mem_append.mp member with old | fresh
  · exact genuine row old live
  · obtain ⟨u,fields,automatic,rfl⟩ := made row fresh
    obtain ⟨prompt,auto,named⟩ := automatic.2 live
    exact Or.inl (by simp [Row.synthetic,World.nextRow,named,auto])

theorem Genuine.found {env : Env} {s : Session} (genuine : Genuine s) {req : ActionRequest} {chapterId : String}
    {row : Row} {v : World} (found : findValidApproval env req chapterId s.world = .ok (some row) v)
    (click : row.synthetic = false) : row ∈ s.world.rows ∧ row.eventSha256 ∈ s.clicks := by
  obtain ⟨candidate,examined⟩ := found_examined env found
  obtain ⟨_,_,_,_,unexpired⟩ := examine_true examined
  obtain ⟨listed,approval⟩ := listEvents_subset candidate
  have live : row.live = true := by
    unfold Consent.unexpired at unexpired
    cases expiry : Json.get row.detail "expires_at" with
    | none => simp [expiry] at unexpired
    | some value => simp [Row.live,expiry,approval]
  refine ⟨listed,?_⟩
  rcases genuine row listed live with auto | clicked
  · rw [click] at auto
    cases auto
  · exact clicked

structure Sound (env : Env) (s : Session) (marks : List (Ranking.Marked Row)) : Prop where
  claims : Claims env s.world marks
  tombs : ∀ row ∈ s.world.rows, isTombstone row = true → row ∈ marks.map Ranking.Marked.mark
  genuine : Genuine s

theorem Sound.writes {env : Env} (steady : Monotone env.clock) {s : Session} {marks : List (Ranking.Marked Row)}
    (sound : Sound env s marks) {v : World} (run : Writes env Automatic s.world v) :
    Sound env { s with world := v } marks := by
  refine ⟨run.claims steady sound.claims,?_,sound.genuine.writes run⟩
  obtain ⟨new,rows,made⟩ := run.rows
  intro row member tomb
  rw [rows] at member
  rcases List.mem_append.mp member with old | fresh
  · exact sound.tombs row old tomb
  · obtain ⟨u,fields,automatic,rfl⟩ := made row fresh
    exact absurd (by simpa [isTombstone,World.nextRow] using tomb) automatic.1

theorem Sound.foreign_none {env : Env} {s : Session} {marks : List (Ranking.Marked Row)} (sound : Sound env s marks) :
    foreign env s.world marks = 0 := by
  apply List.countP_eq_zero.mpr
  intro row listed
  obtain ⟨member,_⟩ := (sound.claims.ordered.mem_listEvents "consent.consumed" 200 rfl row).mp listed
  obtain ⟨inside,tomb⟩ := List.mem_filter.mp member
  obtain ⟨x,marked,same⟩ := List.mem_map.mp (sound.tombs row inside tomb)
  simp only [Ranking.unmarked,List.all_eq_true,bne_iff_ne,ne_eq,not_forall,not_not]
  exact ⟨x,marked,by rw [same]⟩

theorem rows_of_false {env : Env} {w v : World} (run : Writes env (fun _ => False) w v) : v.rows = w.rows := by
  obtain ⟨new,rows,made⟩ := run.rows
  cases new with
  | nil => simpa using rows
  | cons row rest =>
    obtain ⟨_,_,impossible,_⟩ := made row (List.mem_cons_self ..)
    exact absurd impossible id

theorem Sound.claim {env : Env} (steady : Monotone env.clock) {s : Session} {marks : List (Ranking.Marked Row)}
    (sound : Sound env s marks) (grounded : s.world.inFlight = []) {req : ActionRequest} {chapterId : String}
    {actorAgentId : Option String} {row : Row} {v : World}
    (claimed : Claimed env req chapterId actorAgentId s.world row v) :
    ∃ x, x.target = row ∧ Sound env { s with world := v } (marks ++ [x]) ∧
      row ∉ marks.map Ranking.Marked.target ∧ v.inFlight = [row.eventSha256] ∧ v.activity = s.world.activity := by
  obtain ⟨candidate,examined⟩ := found_examined env claimed.found
  obtain ⟨_,named,admitted,_⟩ := examine_true examined
  let w : World := { s.world with reads := s.world.reads+1 }
  have ticked : Sound env { s with world := w } marks := sound.writes steady (.single (.tick _))
  have spent := ticked.claims.spent (by rw [ticked.foreign_none]; exact Nat.zero_le _)
  obtain ⟨shown,few⟩ := shown_of_listed ticked.claims.ordered row candidate
  have new : row ∉ marks.map Ranking.Marked.target := by
    intro again
    obtain ⟨x,member,same⟩ := List.mem_map.mp again
    have consumed := spent x member (by rw [same]; exact few)
    rw [same] at consumed
    have held := admitted consumed
    simp [grounded] at held
  obtain ⟨u,logged,fresh,entered⟩ := claimed.marked
  have rows : u.rows = s.world.rows := rows_of_false logged.1
  have quiet : Sound env { s with world := u } marks := sound.writes steady (logged.1.mono fun _ => False.elim)
  have still : Shown env u s.world.rows.length row := by
    obtain ⟨listed,approval,early,bound,few⟩ := shown
    refine ⟨?_,approval,early,?_,?_⟩ <;> rw [rows]
    · exact listed
    · exact few
  have after : ∀ x ∈ marks, x.mark.id ≤ s.world.rows.length := fun x member =>
    sound.claims.ordered.ids _ (sound.claims.marking.within x member).2
  have made := quiet.claims.claim steady still after new named chapterId actorAgentId "unknown" fresh
  have kept := logged.2
  unfold Untouched at kept
  let mark := u.nextRow env (tombstone row.eventSha256 chapterId actorAgentId "unknown")
  refine ⟨⟨row,mark,s.world.rows.length⟩,rfl,⟨?_,?_,?_⟩,new,?_,?_⟩
  · rw [entered]
    exact made.congr rfl rfl
  · intro other member tomb
    rw [entered] at member
    rw [List.map_append]
    rcases List.mem_append.mp member with old | single
    · exact List.mem_append_left _ (quiet.tombs other old tomb)
    · exact List.mem_append_right _ (by simpa using single)
  · intro other member live
    rw [entered] at member
    rcases List.mem_append.mp member with old | single
    · exact quiet.genuine other old live
    · cases List.mem_singleton.mp single
      simp [Row.live,World.nextRow,tombstone] at live
  · rw [entered,kept]
    simp [World.enter,World.insert,grounded]
  · rw [entered,kept]
    rfl

def ClicksFirst (env : Env) (call : Call) (proposal : ActionRequest) (w : World) : Prop :=
  ∀ front row back, w.listEvents env "consent.approved" 50 = front ++ row :: back → row.synthetic = true →
    w.honours env proposal call.chapterId row →
    ∃ click ∈ front, click.synthetic = false ∧ w.honours env proposal call.chapterId click

theorem ClicksFirst.takes {env : Env} {call : Call} {proposal : ActionRequest} {w : World}
    (first : ClicksFirst env call proposal w) {row : Row} (takes : Takes env call proposal w row) :
    row.synthetic = false := by
  obtain ⟨v,found,_⟩ := takes
  obtain ⟨front,back,split,honoured,skipped⟩ := found_first env found
  by_contra auto
  obtain ⟨click,ahead,_,live⟩ := first front row back split (by simpa using auto) honoured
  exact skipped click ahead live

/-- Where this turn comes to the claim with a runner to run, clicks come first. -/
def ClaimsClick (env : Env) (call : Call) (proposal : ActionRequest) (w : World) : Prop :=
  let w' := { w with reads := w.reads+1 }
  Admitted env call proposal w → (call.runners proposal.capability).isSome →
    ¬ GraduatedOpen env call proposal w' → ¬ TrustOpen env call proposal (beforeTrust env call proposal w') →
    ClicksFirst env call proposal (beforeClaim env call proposal w')

structure Backed (env : Env) (s : Session) (marks : List (Ranking.Marked Row)) : Prop where
  sound : Sound env s marks
  grounded : s.world.inFlight = []
  once : (userRuns s.world.activity).Nodup
  claimed : ∀ sha ∈ userRuns s.world.activity, ∃ x ∈ marks, sha = some x.target.eventSha256
  clicked : ∀ sha ∈ userRuns s.world.activity, ∃ click ∈ s.clicks, sha = some click

theorem Backed.writes {env : Env} (steady : Monotone env.clock) {s : Session} {marks : List (Ranking.Marked Row)}
    (backed : Backed env s marks) {v : World} (run : Writes env Automatic s.world v) (grounded : v.inFlight = [])
    (runs : userRuns v.activity = userRuns s.world.activity) : Backed env { s with world := v } marks := by
  refine ⟨backed.sound.writes steady run,grounded,?_,?_,?_⟩
  · rw [runs]
    exact backed.once
  · rw [runs]
    exact backed.claimed
  · rw [runs]
    exact backed.clicked

theorem userRuns_other (call : Call) (proposal : ActionRequest) {decision : ConsentDecision}
    (reason : decision.reason ≠ "user_approved") : userRuns (ranLog call proposal decision) = [] := by
  unfold ranLog userRuns
  cases call.runners proposal.capability <;> simp [reason]

theorem userRuns_claimed (call : Call) (proposal : ActionRequest) (sha : Option String) :
    userRuns (ranLog call proposal ⟨.approved,"user_approved",sha⟩) =
      if (call.runners proposal.capability).isSome then [sha] else [] := by
  unfold ranLog userRuns
  cases call.runners proposal.capability <;> simp

theorem Backed.automatic {env : Env} (steady : Monotone env.clock) {s : Session} {marks : List (Ranking.Marked Row)}
    (backed : Backed env s marks) (call : Call) (proposal : ActionRequest) {decision : ConsentDecision}
    (reason : decision.reason ≠ "user_approved") {v : World} (prepared : Prepared env s.world v) :
    Backed env { s with world := Effect.final (carryOut env call proposal decision v) } marks := by
  have spec := carryOut_spec env call proposal decision v
  have rest := prepared.rest
  apply backed.writes steady (prepared.writes.trans (spec.writes.mono fun _ => Inert.automatic))
  · rw [spec.inFlight,World.released,claimedSha,if_neg reason]
    change v.inFlight = []
    rw [rest]
    exact backed.grounded
  · rw [spec.activity,userRuns_append,userRuns_other call proposal reason,List.append_nil,rest]

theorem Backed.claim {env : Env} (steady : Monotone env.clock) {s : Session} {marks : List (Ranking.Marked Row)}
    (backed : Backed env s marks) (call : Call) (proposal : ActionRequest) {row : Row} {u v : World}
    (prepared : Prepared env s.world u) (claimed : Claimed env proposal call.chapterId call.actorAgentId u row v)
    (click : (call.runners proposal.capability).isSome → row.synthetic = false) : ∃ marks', Backed env { s with
      world := Effect.final (carryOut env call proposal ⟨.approved,"user_approved",some row.eventSha256⟩ v) }
        marks' := by
  have rest := prepared.rest
  have sound : Sound env { s with world := u } marks := backed.sound.writes steady prepared.writes
  have grounded : u.inFlight = [] := by
    rw [rest]
    exact backed.grounded
  obtain ⟨x,target,marked,new,flight,activity⟩ := sound.claim steady grounded claimed
  obtain ⟨candidate,examined⟩ := found_examined env claimed.found
  obtain ⟨_,named,_⟩ := examine_true examined
  have listed : row ∈ u.rows := (listEvents_subset candidate).1
  have spec := carryOut_spec env call proposal ⟨.approved,"user_approved",some row.eventSha256⟩ v
  have before : v.activity = s.world.activity := by rw [activity,rest]
  -- the row is new to the claims, so its hash is new to the runs
  have fresh : some row.eventSha256 ∉ userRuns s.world.activity := by
    intro again
    obtain ⟨y,claimed,same⟩ := backed.claimed _ again
    have within := (sound.claims.marking.within y claimed).1
    exact new (List.mem_map.mpr ⟨y,claimed,(sound.claims.ordered.sha_inj listed within (Option.some.inj same)).symm⟩)
  have runs := userRuns_claimed call proposal (some row.eventSha256)
  refine ⟨marks ++ [x],marked.writes steady (spec.writes.mono fun _ => Inert.automatic),?_,?_,?_,?_⟩
  · rw [spec.inFlight]
    simp [World.released,claimedSha,named,World.discard,flight]
  · rw [spec.activity,userRuns_append,before,runs]
    split
    next =>
      rw [List.nodup_append]
      refine ⟨backed.once,List.nodup_singleton _,?_⟩
      intro a old b single same
      cases List.mem_singleton.mp single
      exact fresh (same ▸ old)
    next =>
      rw [List.append_nil]
      exact backed.once
  · intro sha member
    rw [spec.activity,userRuns_append,before,runs] at member
    rcases List.mem_append.mp member with old | last
    · obtain ⟨y,claimed,same⟩ := backed.claimed sha old
      exact ⟨y,List.mem_append_left _ claimed,same⟩
    · refine ⟨x,List.mem_append_right _ (List.mem_singleton_self _),?_⟩
      split at last
      next => rw [List.mem_singleton.mp last,target]
      next => cases last
  · intro sha member
    rw [spec.activity,userRuns_append,before,runs] at member
    rcases List.mem_append.mp member with old | last
    · exact backed.clicked sha old
    · split at last
      next runner => exact ⟨row.eventSha256,(sound.genuine.found claimed.found (click runner)).2,
        List.mem_singleton.mp last⟩
      next => cases last

theorem Backed.turn {env : Env} (steady : Monotone env.clock) {s : Session} {marks : List (Ranking.Marked Row)}
    (backed : Backed env s marks) (call : Call) (proposal : ActionRequest)
    (careful : ClaimsClick env call proposal s.world) :
    ∃ marks', Backed env { s with world := Effect.final (executeProposal env call proposal s.world) } marks' := by
  have read : Prepared env s.world { s.world with reads := s.world.reads+1 } := ⟨.single (.tick _),rfl⟩
  rcases turn_cases env call proposal s.world with ⟨admitted,_,d,v,approval,run⟩ | ⟨_,idle⟩
  · rw [run]
    cases approval with
    | graduated hash v opened prepared =>
      exact ⟨marks,backed.automatic steady call proposal (by simp) (trans_of _ read prepared)⟩
    | trusted hash v shut opened prepared =>
      exact ⟨marks,backed.automatic steady call proposal (by simp) (trans_of _ read prepared)⟩
    | claimed row v shut low prepared takes claimed =>
      exact backed.claim steady call proposal (trans_of _ read prepared) claimed fun runner =>
        (careful admitted runner shut low).takes takes
  · refine ⟨marks,backed.writes steady idle.writes ?_ ?_⟩
    · rw [idle.inFlight]
      exact backed.grounded
    · rw [idle.activity]

theorem Genuine.click {env : Env} {s : Session} (genuine : Genuine s) {v : World} (rows : v.rows = s.world.rows)
    (fields : Fields) : Genuine ⟨v.insert env (v.nextRow env fields),
      s.clicks ++ [(v.nextRow env fields).eventSha256]⟩ := by
  intro row member live
  rcases List.mem_append.mp member with old | single
  · rw [rows] at old
    rcases genuine row old live with auto | clicked
    · exact Or.inl auto
    · exact Or.inr (List.mem_append_left _ clicked)
  · cases List.mem_singleton.mp single
    exact Or.inr (List.mem_append_right _ (List.mem_singleton_self _))

theorem revoke_prepared (env : Env) (deviceDid : String) (bucket : Bucket) :
    Effect.Keeps (Prepared env) (revoke env deviceDid bucket) := by
  apply Effect.keeps_bind
  · unfold makeGraduationKey
    cases missingKeyPart deviceDid bucket with
    | some name => exact Effect.keeps_raise _
    | none => exact Effect.keeps_pure _
  · intro _
    apply Effect.keeps_bind
    · intro w
      exact ⟨.single (.tick w),rfl⟩
    · intro time w
      exact ⟨.single (.aside _ _ rfl rfl),rfl⟩

theorem revokeAll_prepared (env : Env) (deviceDid : String) :
    Effect.Keeps (Prepared env) (revokeAll env deviceDid) := by
  intro w
  have read : Write env Automatic w { w with reads := w.reads+1 } := .tick w
  exact ⟨(Relation.ReflTransGen.single read).tail (.aside _ _ rfl rfl),rfl⟩

theorem Backed.prepared {env : Env} (steady : Monotone env.clock) {s : Session} {marks : List (Ranking.Marked Row)}
    (backed : Backed env s marks) {v : World} (prepared : Prepared env s.world v) :
    Backed env { s with world := v } marks := by
  have rest := prepared.rest
  apply backed.writes steady prepared.writes
  · rw [rest]
    exact backed.grounded
  · rw [rest]

theorem Backed.click {env : Env} (steady : Monotone env.clock) {s : Session} {marks : List (Ranking.Marked Row)}
    (backed : Backed env s marks) (req : ActionRequest) (chapterId prompt : String) (actorAgentId : Option String) :
    Backed env ⟨Effect.final (approve env req chapterId prompt actorAgentId s.world),
      s.clicks ++ hashOf (approve env req chapterId prompt actorAgentId s.world)⟩ marks := by
  rcases approve_cases env req chapterId prompt actorAgentId s.world with ⟨e,v,run,logged⟩ | ⟨fresh,run⟩
  · rw [run]
    have kept : Logged env Automatic s.world v := logged.mono fun _ => False.elim
    simpa [hashOf] using backed.prepared steady kept.prepared
  · rw [run]
    have ticked := backed.sound.claims.tick steady
    refine ⟨⟨ticked.append steady _ fresh,?_,?_⟩,backed.grounded,backed.once,backed.claimed,?_⟩
    · intro row member tomb
      rcases List.mem_append.mp member with old | single
      · exact backed.sound.tombs row old tomb
      · cases List.mem_singleton.mp single
        simp [isTombstone,World.nextRow,approvalFields] at tomb
    · exact backed.sound.genuine.click (v := { s.world with reads := s.world.reads+1 }) rfl _
    · intro sha member
      obtain ⟨click,clicked,same⟩ := backed.clicked sha member
      exact ⟨click,List.mem_append_left _ clicked,same⟩

theorem backed_lives {env : Env} (steady : Monotone env.clock) {w : World} (empty : w.rows = [])
    (grounded : w.inFlight = []) (unused : w.activity = []) {s : Session} (run : Lives env (ClaimsClick env) w s) :
    ∃ marks, Backed env s marks := by
  induction run with
  | start =>
    refine ⟨[],⟨.start env w empty,?_,genuine_start w⟩,grounded,?_,?_,?_⟩
    · simp [empty]
    · simp [unused,userRuns]
    · simp [unused,userRuns]
    · simp [unused,userRuns]
  | turn before call proposal ok ih =>
    obtain ⟨marks,backed⟩ := ih
    exact backed.turn steady call proposal ok
  | click before req chapterId prompt actorAgentId prompted ih =>
    obtain ⟨marks,backed⟩ := ih
    exact ⟨marks,backed.click steady req chapterId prompt actorAgentId⟩
  | @record s before fields inert ih =>
    obtain ⟨marks,backed⟩ := ih
    exact ⟨marks,backed.prepared steady ((record_logged env inert s.world).mono fun _ => Inert.automatic).prepared⟩
  | revoke before deviceDid bucket ih =>
    obtain ⟨marks,backed⟩ := ih
    exact ⟨marks,backed.prepared steady (revoke_prepared env deviceDid bucket _)⟩
  | revokeAll before deviceDid ih =>
    obtain ⟨marks,backed⟩ := ih
    exact ⟨marks,backed.prepared steady (revokeAll_prepared env deviceDid _)⟩
  | trust before localTrust chapterTrust ih =>
    obtain ⟨marks,backed⟩ := ih
    exact ⟨marks,backed.writes steady (.single (.aside _ _ rfl rfl)) backed.grounded rfl⟩
  | restart before signingKey ih =>
    obtain ⟨marks,backed⟩ := ih
    exact ⟨marks,backed.writes steady (.single (.aside _ _ rfl rfl)) rfl rfl⟩

/-- Where each claim meets its clicks first, there are no more runs as approved by the
user than clicks, and each is on a clicked approval. -/
theorem user_runs_clicked (env : Env) (steady : Monotone env.clock) (w : World) (empty : w.rows = [])
    (grounded : w.inFlight = []) (unused : w.activity = []) (s : Session) (run : Lives env (ClaimsClick env) w s) :
    (userRuns s.world.activity).length ≤ s.clicks.length ∧
      ∀ sha ∈ userRuns s.world.activity, ∃ click ∈ s.clicks, sha = some click := by
  obtain ⟨marks,backed⟩ := backed_lives steady empty grounded unused run
  refine ⟨?_,backed.clicked⟩
  have within : userRuns s.world.activity ⊆ s.clicks.map some := by
    intro sha member
    obtain ⟨click,clicked,same⟩ := backed.clicked sha member
    exact List.mem_map.mpr ⟨click,clicked,same.symm⟩
  simpa using backed.once.length_le_of_subset within

/-- An approval by trust, claimed in the next call, when the trust is gone. -/
theorem user_run_unclicked : ∃ s, Lives (sampleEnv []) (fun _ _ _ => True) World.fresh s ∧ s.clicks = [] ∧
    (userRuns s.world.activity).length = 1 := by
  refine ⟨_,(Lives.start.turn (sampleCall 100) sampleClick trivial).turn (sampleCall 0) sampleClick trivial,rfl,?_⟩
  decide +kernel

def meetsSynthetic (env : Env) (call : Call) (proposal : ActionRequest) (w : World) : Bool :=
  match graduatedPath env call proposal { w with reads := w.reads+1 } with
  | .ok (some _) _ => false
  | _ => (beforeClaim env call proposal { w with reads := w.reads+1 }).rows.any Row.synthetic

theorem meetsSynthetic_false {env : Env} {call : Call} {proposal : ActionRequest} {w : World}
    (not : meetsSynthetic env call proposal w = false)
    (shut : ¬ GraduatedOpen env call proposal { w with reads := w.reads+1 }) :
    ClicksFirst env call proposal (beforeClaim env call proposal { w with reads := w.reads+1 }) := by
  intro front row back split auto _
  obtain ⟨o,u,graduated⟩ := graduatedPath_decides env call proposal { w with reads := w.reads+1 }
  unfold meetsSynthetic at not
  rw [graduated.run] at not
  cases o with
  | none =>
    have candidate : row ∈ front ++ row :: back := by simp
    rw [← split] at candidate
    have other := List.any_eq_false.mp not row (listEvents_subset candidate).1
    exact absurd auto other
  | some d => exact absurd (graduated.exactly.mp (by simp)) shut

theorem user_runs_clicked_sample : ∃ s, Lives (sampleEnv []) (ClaimsClick (sampleEnv [])) World.fresh s ∧
    s.clicks = ["aa"] ∧ userRuns s.world.activity = [some "aa"] ∧
    (userRuns s.world.activity).length ≤ s.clicks.length := by
  have first := (@Lives.start (sampleEnv []) (ClaimsClick (sampleEnv [])) World.fresh).turn (sampleCall 0) sampleClick
    fun _ _ shut _ => meetsSynthetic_false (by decide +kernel) shut
  have second := first.click sampleClick "l" "a" none (by decide +kernel)
  have third := second.turn (sampleCall 0) sampleClick fun _ _ shut _ => meetsSynthetic_false (by decide +kernel) shut
  exact ⟨_,third,by decide +kernel,by decide +kernel,
    (user_runs_clicked (sampleEnv []) (sampleEnv_steady []) World.fresh rfl rfl rfl _ third).1⟩

def clickRun (clicks : List String) (bucket : Bucket) : Activity → Bool
  | .invoked proposal context decision =>
    decide ((⟨proposal.capability,proposal.scope,context⟩ : Bucket) = bucket) &&
      decide (decision.reason = "user_approved") && decide (∃ click ∈ clicks, decision.eventSha256 = some click)
  | .approved .. => false

def clickRuns (clicks : List String) (bucket : Bucket) (activity : List Activity) : Nat :=
  activity.countP (clickRun clicks bucket)

theorem clickRuns_append (clicks : List String) (bucket : Bucket) (first second : List Activity) :
    clickRuns clicks bucket (first ++ second) = clickRuns clicks bucket first + clickRuns clicks bucket second :=
  List.countP_append ..

theorem clickRuns_mono {clicks more : List String} (grown : clicks ⊆ more) (bucket : Bucket)
    (activity : List Activity) : clickRuns clicks bucket activity ≤ clickRuns more bucket activity := by
  apply List.countP_mono_left
  intro x _ counted
  cases x with
  | approved => exact counted
  | invoked proposal context decision =>
    simp only [clickRun,Bool.and_eq_true,decide_eq_true_eq] at counted ⊢
    obtain ⟨both,click,member,same⟩ := counted
    exact ⟨both,click,grown member,same⟩

/-- An approval this turn counts is a graduated one, or a run on a click. -/
def CountsClicks (env : Env) (call : Call) (proposal : ActionRequest) (w : World) : Prop :=
  let w' := { w with reads := w.reads+1 }
  Admitted env call proposal w → call.habitModel = true → call.context ≠ "" → proposal.scope ≠ "" →
    ¬ GraduatedOpen env call proposal w' →
    ¬ TrustOpen env call proposal (beforeTrust env call proposal w') ∧
    ClicksFirst env call proposal (beforeClaim env call proposal w') ∧
    ∀ row, Takes env call proposal (beforeClaim env call proposal w') row → (call.runners proposal.capability).isSome

def Graduations (clicks : List String) (activity : List Activity) : Prop :=
  ∀ before proposal context decision after,
    activity = before ++ .approved proposal context decision :: after → decision.reason = "graduated" →
    graduationMinApprovals ≤ clickRuns clicks ⟨proposal.capability,proposal.scope,context⟩ before

structure Earned (s : Session) : Prop where
  genuine : Genuine s
  covered : ∀ bucket, (s.world.habits bucket).approvals ≤ clickRuns s.clicks bucket s.world.activity ∨
    graduationMinApprovals ≤ clickRuns s.clicks bucket s.world.activity
  graduations : Graduations s.clicks s.world.activity

theorem Graduations.append {clicks : List String} {activity : List Activity} (old : Graduations clicks activity)
    (call : Call) (proposal : ActionRequest) (decision : ConsentDecision)
    (new : decision.reason = "graduated" →
      graduationMinApprovals ≤ clickRuns clicks (call.bucket proposal) activity) :
    Graduations clicks (activity ++ ranLog call proposal decision) := by
  intro before other context ruling after split reason
  rcases List.append_eq_append_iff.mp split.symm with ⟨middle,left,right⟩ | ⟨middle,left,right⟩
  · cases middle with
    | nil =>
      simp only [List.append_nil,List.nil_append] at left right
      simp only [ranLog,List.cons.injEq,Activity.approved.injEq] at right
      obtain ⟨⟨rfl,rfl,rfl⟩,_⟩ := right
      rw [← left]
      exact new reason
    | cons head rest =>
      obtain ⟨rfl,_⟩ := List.cons.inj right
      exact old before other context ruling rest left reason
  · -- past the first entry of the turn there is only the call of the runner
    cases middle with
    | nil =>
      simp only [List.append_nil,List.nil_append] at left right
      simp only [ranLog,List.cons.injEq,Activity.approved.injEq] at right
      obtain ⟨⟨rfl,rfl,rfl⟩,_⟩ := right
      rw [left]
      exact new reason
    | cons head rest =>
      simp only [ranLog,List.cons_append,List.cons.injEq] at right
      have member : Activity.approved other context ruling ∈ rest ++ Activity.approved other context ruling ::
          after := by
        simp
      rw [← right.2] at member
      cases runner : call.runners proposal.capability <;> simp [runner] at member

theorem Earned.writes {env : Env} {s : Session} (earned : Earned s) {v : World}
    (run : Writes env Automatic s.world v) (activity : v.activity = s.world.activity)
    (approvals : ∀ bucket, (v.habits bucket).approvals = (s.world.habits bucket).approvals) :
    Earned { s with world := v } := by
  refine ⟨earned.genuine.writes run,?_,?_⟩
  · intro bucket
    rw [activity,approvals]
    exact earned.covered bucket
  · rw [activity]
    exact earned.graduations

theorem Earned.idle {env : Env} {s : Session} (earned : Earned s) {v : World} (idle : Idle env s.world v) :
    Earned { s with world := v } := earned.writes idle.writes idle.activity idle.approvals

theorem observed_approved (call : Call) (proposal : ActionRequest) (v : World) (bucket : Bucket) :
    ((v.observed call proposal .approved).habits bucket).approvals = (v.habits bucket).approvals ∨
    (call.habitModel = true ∧ call.context ≠ "" ∧ proposal.scope ≠ "" ∧ bucket = call.bucket proposal ∧
      ((v.observed call proposal .approved).habits bucket).approvals = (v.habits bucket).approvals+1) := by
  unfold World.observed
  by_cases off : call.habitModel = false ∨ call.context = ""
  · rw [if_pos off]
    exact Or.inl rfl
  · rw [if_neg off]
    by_cases empty : proposal.capability = "" ∨ proposal.scope = ""
    · rw [if_pos empty]
      exact Or.inl rfl
    · rw [if_neg empty]
      by_cases same : bucket = call.bucket proposal
      · obtain ⟨model,context⟩ := not_or.mp off
        obtain ⟨_,scope⟩ := not_or.mp empty
        refine Or.inr ⟨by simpa using model,context,scope,same,?_⟩
        simp [World.count,same,Counts.add]
      · exact Or.inl (by simp [World.count,same])

theorem Earned.carryOut {env : Env} {s : Session} (earned : Earned s) (call : Call) (proposal : ActionRequest)
    (decision : ConsentDecision) {v : World} (genuine : Genuine { s with world := v })
    (activity : v.activity = s.world.activity) (habits : v.habits = s.world.habits)
    (graduated : decision.reason = "graduated" →
      graduationMinApprovals ≤ clickRuns s.clicks (call.bucket proposal) s.world.activity)
    (counted : call.habitModel = true → call.context ≠ "" → proposal.scope ≠ "" →
      graduationMinApprovals ≤ clickRuns s.clicks (call.bucket proposal) s.world.activity ∨
      1 ≤ clickRuns s.clicks (call.bucket proposal) (ranLog call proposal decision)) :
    Earned { s with world := Effect.final (carryOut env call proposal decision v) } := by
  have spec := carryOut_spec env call proposal decision v
  refine ⟨genuine.writes (spec.writes.mono fun _ => Inert.automatic),?_,?_⟩
  · intro bucket
    rw [spec.activity,activity,clickRuns_append,spec.habits]
    rcases earned.covered bucket with covered | enough
    · rcases observed_approved call proposal v bucket with same | ⟨model,context,scope,rfl,more⟩
      · rw [same,habits]
        exact Or.inl (Nat.le_trans covered (Nat.le_add_right _ _))
      · rw [more,habits]
        rcases counted model context scope with enough | one
        · exact Or.inr (Nat.le_trans enough (Nat.le_add_right _ _))
        · exact Or.inl (Nat.add_le_add covered one)
    · exact Or.inr (Nat.le_trans enough (Nat.le_add_right _ _))
  · rw [spec.activity,activity]
    exact earned.graduations.append call proposal decision graduated

theorem Earned.turn {env : Env} {s : Session} (earned : Earned s) (call : Call) (proposal : ActionRequest)
    (careful : CountsClicks env call proposal s.world) :
    Earned { s with world := Effect.final (executeProposal env call proposal s.world) } := by
  have read : Prepared env s.world { s.world with reads := s.world.reads+1 } := ⟨.single (.tick _),rfl⟩
  rcases turn_cases env call proposal s.world with ⟨admitted,_,d,v,approval,run⟩ | ⟨_,idle⟩
  · rw [run]
    cases approval with
    | graduated hash v opened prepared =>
      have whole := trans_of _ read prepared
      obtain ⟨deviceDid,_,_,_,_,_,status,_⟩ := opened
      -- a graduated bucket has five approvals counted, so it has five runs on clicks
      have enough : graduationMinApprovals ≤ clickRuns s.clicks (call.bucket proposal) s.world.activity := by
        have clears : (s.world.habits (call.bucket proposal)).clearsBar = true := by
          by_contra low
          have low : (s.world.habits (call.bucket proposal)).clearsBar = false := by simpa using low
          unfold World.status at status
          simp only [low] at status
          split at status <;> cases status
        have five : graduationMinApprovals ≤ (s.world.habits (call.bucket proposal)).approvals := by
          simp only [Counts.clearsBar,Bool.and_eq_true,decide_eq_true_eq] at clears
          exact clears.1
        rcases earned.covered (call.bucket proposal) with covered | enough
        · exact Nat.le_trans five covered
        · exact enough
      exact earned.carryOut call proposal _ (earned.genuine.writes whole.writes) (by rw [whole.rest])
        (by rw [whole.rest])
        (fun _ => enough) fun _ _ _ => Or.inl enough
    | trusted hash v shut opened prepared =>
      have whole := trans_of _ read prepared
      refine earned.carryOut call proposal _ (earned.genuine.writes whole.writes) (by rw [whole.rest])
        (by rw [whole.rest])
        (by simp) ?_
      intro model context scope
      exact absurd opened (careful admitted model context scope shut).1
    | claimed row v shut low prepared takes claimed =>
      have whole := trans_of _ read prepared
      obtain ⟨u,logged,fresh,entered⟩ := claimed.marked
      have rows : u.rows = (beforeClaim env call proposal { s.world with reads := s.world.reads+1 }).rows :=
        rows_of_false logged.1
      have kept := logged.2
      unfold Untouched at kept
      have genuine := earned.genuine.writes whole.writes
      have marked : Genuine { s with world := v } := by
        intro other member live
        rw [entered] at member
        rcases List.mem_append.mp member with old | single
        · rw [rows] at old
          exact genuine other old live
        · cases List.mem_singleton.mp single
          simp [Row.live,World.nextRow,tombstone] at live
      have activity : v.activity = s.world.activity := by
        rw [entered,kept,whole.rest]
        rfl
      have habits : v.habits = s.world.habits := by
        rw [entered,kept,whole.rest]
        rfl
      refine earned.carryOut call proposal _ marked activity habits (by simp) ?_
      intro model context scope
      obtain ⟨_,first,runner⟩ := careful admitted model context scope shut
      obtain ⟨r,runner⟩ := Option.isSome_iff_exists.mp (runner row takes)
      obtain ⟨_,clicked⟩ := genuine.found claimed.found (first.takes takes)
      refine Or.inr ?_
      simp [clickRuns,ranLog,runner,clickRun,Call.bucket,clicked]
  · exact earned.idle idle

theorem Earned.click {env : Env} {s : Session} (earned : Earned s) (req : ActionRequest) (chapterId prompt : String)
    (actorAgentId : Option String) :
    Earned ⟨Effect.final (approve env req chapterId prompt actorAgentId s.world),
      s.clicks ++ hashOf (approve env req chapterId prompt actorAgentId s.world)⟩ := by
  rcases approve_cases env req chapterId prompt actorAgentId s.world with ⟨e,v,run,logged⟩ | ⟨fresh,run⟩
  · rw [run]
    have kept : Logged env Automatic s.world v := logged.mono fun _ => False.elim
    simpa [hashOf] using earned.idle (kept.prepared.idle env)
  · rw [run]
    have more : s.clicks ⊆ s.clicks ++ hashOf (.ok (World.nextRow { s.world with reads := s.world.reads+1 } env
        (approvalFields env req chapterId prompt actorAgentId (env.clock s.world.reads+approvalTtl))).eventSha256
        s.world) := List.subset_append_left _ _
    refine ⟨?_,?_,?_⟩
    · exact earned.genuine.click (v := { s.world with reads := s.world.reads+1 }) rfl _
    · intro bucket
      rcases earned.covered bucket with covered | enough
      · exact Or.inl (Nat.le_trans covered (clickRuns_mono more _ _))
      · exact Or.inr (Nat.le_trans enough (clickRuns_mono more _ _))
    · intro before proposal context decision after split reason
      exact Nat.le_trans (earned.graduations before proposal context decision after split reason)
        (clickRuns_mono more _ _)

theorem earned_lives {env : Env} {w : World} (blank : ∀ bucket, (w.habits bucket).approvals = 0)
    (unused : w.activity = []) {s : Session} (run : Lives env (CountsClicks env) w s) : Earned s := by
  induction run with
  | start =>
    refine ⟨genuine_start w,?_,?_⟩
    · intro bucket
      exact Or.inl (by rw [blank]; exact Nat.zero_le _)
    · intro before proposal context decision after split
      simp [unused] at split
  | turn before call proposal ok ih => exact ih.turn call proposal ok
  | click before req chapterId prompt actorAgentId prompted ih => exact ih.click req chapterId prompt actorAgentId
  | @record s before fields inert ih =>
    exact ih.idle (((record_logged env inert s.world).mono fun _ => Inert.automatic).prepared.idle env)
  | revoke before deviceDid bucket ih => exact ih.idle ((revoke_prepared env deviceDid bucket _).idle env)
  | revokeAll before deviceDid ih => exact ih.idle ((revokeAll_prepared env deviceDid _).idle env)
  | @trust s before localTrust chapterTrust ih =>
    have aside : Write env Automatic s.world { s.world with localTrust := localTrust, chapterTrust := chapterTrust } :=
      .aside _ _ rfl rfl
    exact ih.writes (.single aside) rfl fun _ => rfl
  | @restart s before signingKey ih =>
    have aside : Write env Automatic s.world { s.world with inFlight := [], signingKey := signingKey } :=
      .aside _ _ rfl rfl
    exact ih.writes (.single aside) rfl fun _ => rfl

/-- Where nothing but graduated approvals and runs on clicks is counted, a bucket is
auto-approved as graduated only after five runs on clicks. -/
theorem graduated_by_clicks (env : Env) (w : World) (blank : ∀ bucket, (w.habits bucket).approvals = 0)
    (unused : w.activity = []) (s : Session) (run : Lives env (CountsClicks env) w s)
    (before : List Activity) (proposal : ActionRequest) (context : String) (decision : ConsentDecision)
    (after : List Activity) (split : s.world.activity = before ++ .approved proposal context decision :: after)
    (graduated : decision.reason = "graduated") :
    5 ≤ clickRuns s.clicks ⟨proposal.capability,proposal.scope,context⟩ before :=
  (earned_lives blank unused run).graduations before proposal context decision after split graduated

theorem clickRuns_nil (bucket : Bucket) (activity : List Activity) : clickRuns [] bucket activity = 0 := by
  apply List.countP_eq_zero.mpr
  intro x _
  cases x <;> simp [clickRun]

def graduatedEntry : Activity → Bool
  | .approved _ _ decision => decision.reason == "graduated"
  | .invoked .. => false

theorem graduatedEntry_split {activity : List Activity} (logged : activity.any graduatedEntry = true) :
    ∃ before proposal context decision after, activity = before ++ .approved proposal context decision :: after ∧
      decision.reason = "graduated" := by
  obtain ⟨x,member,entry⟩ := List.any_eq_true.mp logged
  obtain ⟨before,after,split⟩ := List.append_of_mem member
  cases x with
  | invoked => cases entry
  | approved proposal context decision =>
    exact ⟨before,proposal,context,decision,after,split,beq_iff_eq.mp entry⟩

/-- Six proposals in one call at full trust: the sixth runs as graduated, and nobody clicked. -/
theorem graduated_without_clicks : ∃ s, Lives (sampleEnv []) (fun _ _ _ => True) World.fresh s ∧ s.clicks = [] ∧
    ∃ before proposal context decision after,
      s.world.activity = before ++ .approved proposal context decision :: after ∧ decision.reason = "graduated" ∧
      clickRuns s.clicks ⟨proposal.capability,proposal.scope,context⟩ before = 0 := by
  have logged : (Effect.final (executePlan (sampleEnv []) (sampleCall 100) (List.replicate 6 sampleClick)
      World.fresh)).activity.any graduatedEntry = true := by decide +kernel
  obtain ⟨before,proposal,context,decision,after,split,reason⟩ := graduatedEntry_split logged
  refine ⟨_,executePlan_lives (sampleCall 100) (List.replicate 6 sampleClick) .start ?_,rfl,before,proposal,context,
    decision,after,split,reason,clickRuns_nil _ _⟩
  intro _ _ _ _ _ _ _
  trivial

def clickedRow (n : Nat) : Row where
  id := n
  chapterId := "l"
  actorAgentId := none
  action := "consent.approved"
  targetType := some "capability"
  targetId := some "desktop.click"
  outcome := "ok"
  detail := requestDetail sampleClick ++
    [("prompt_event_sha256",.str "p"),("expires_at",.str "300000009"),("extra",.obj [])]
  occurredAt := n
  prevSha256 := some (String.ofList (List.replicate (n-1) 'a'))
  eventSha256 := String.ofList (List.replicate n 'a')
  signatureB64 := none

def clickedLedger : World := { World.fresh with reads := 6, rows := [1,2,3,4,5].map clickedRow }

def rehearse (env : Env) (call : Call) (proposal : ActionRequest) : Nat → World → Option World
  | 0, w => some w
  | n+1, w =>
    if meetsSynthetic env call proposal w then none
    else rehearse env call proposal n (Effect.final (executeProposal env call proposal w))

theorem rehearse_lives {env : Env} {call : Call} {proposal : ActionRequest}
    (low : effectiveTrust (call.localTrust.getD 0) (call.chapterTrust.getD 0) < autoApproveThreshold)
    (runner : (call.runners proposal.capability).isSome) {w₀ : World} (clicks : List String)
    (n : Nat) : ∀ {w v : World},
    rehearse env call proposal n w = some v → Lives env (CountsClicks env) w₀ ⟨w,clicks⟩ →
    Lives env (CountsClicks env) w₀ ⟨v,clicks⟩ := by
  induction n with
  | zero =>
    intro w v ran before
    cases ran
    exact before
  | succ n ih =>
    intro w v ran before
    unfold rehearse at ran
    split at ran
    next => cases ran
    next not =>
      have not : meetsSynthetic env call proposal w = false := by simpa using not
      refine ih ran (before.turn call proposal ?_)
      intro _ _ _ _ shut
      exact ⟨fun opened => absurd opened.2.2.2.1 (not_le.mpr low),meetsSynthetic_false not shut,fun _ _ => runner⟩

theorem graduated_by_clicks_sample : ∃ s, Lives (sampleEnv []) (CountsClicks (sampleEnv [])) clickedLedger s ∧
    ∃ before proposal context decision after,
      s.world.activity = before ++ .approved proposal context decision :: after ∧ decision.reason = "graduated" ∧
      5 ≤ clickRuns s.clicks ⟨proposal.capability,proposal.scope,context⟩ before := by
  have ran : ((rehearse (sampleEnv []) (sampleCall 0) sampleClick 6 clickedLedger).map fun v =>
      v.activity.any graduatedEntry) = some true := by decide +kernel
  obtain ⟨v,ran,logged⟩ := Option.map_eq_some_iff.mp ran
  have run := rehearse_lives (by decide) rfl clickedLedger.clicks 6 ran .start
  obtain ⟨before,proposal,context,decision,after,split,reason⟩ := graduatedEntry_split logged
  exact ⟨_,run,before,proposal,context,decision,after,split,reason,
    graduated_by_clicks (sampleEnv []) clickedLedger (fun _ => rfl) rfl _ run before proposal context decision after
      split reason⟩

end Orrery.Consent
