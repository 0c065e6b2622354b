import Mathlib.Algebra.Order.Field.Rat
import Mathlib.Algebra.Order.Field.Basic
import Mathlib.Data.Nat.Cast.Order.Ring
import Mathlib.Tactic.Positivity
import Mathlib.Tactic.Linarith
import Orrery.Consent.UserApprovals

/-! The panic path (panic.py): graduations revoked, live approvals tombstoned, the trust
files put back, and a row that says so. After it no approval written before is
found and no bucket has graduated, provided every bucket over the bar had a row to
revoke, nothing was in flight, and the tombstones fit into the window they are read
through. -/
namespace Orrery.Consent
open Foundation Json

section Operations
variable (env : Env)

/-- Whether the loop spends this approval: an expiry it cannot read does not save it. -/
def spendable (time : Nat) (consumed : List String) (row : Row) : Except Exc Bool :=
  if row.eventSha256 = "" ∨ row.eventSha256 ∈ consumed then .ok false
  else match Json.get row.detail "expires_at" with
  | none => .ok true
  | some (.str text) =>
    match env.fromisoformat text with
    | .invalid => .ok true
    | .naive => .error (.typeError "can't compare offset-naive and offset-aware datetimes")
    | .aware expiry => .ok (decide (time < expiry))
  | some _ => .error (.typeError "fromisoformat: argument must be str")

end Operations

section Spending
variable (env : Env)

def spends (time : Nat) (consumed : List String) (row : Row) : Bool :=
  match spendable env time consumed row with
  | .ok spent => spent
  | .error _ => false

end Spending

structure Quenched (env : Env) (deviceDid : String) (w : World) : Prop where
  ordered : Ordered env w
  grounded : w.inFlight = []
  revoked : ∀ bucket, (w.habits bucket).clearsBar = true →
    (w.graduationRow deviceDid bucket).map (·.state) = some .revoked
  low : ∀ own chapter, loadLocalTrust env w.localTrust = .ok own → loadChapterTrust env w.chapterTrust = .ok chapter →
    effectiveTrust own chapter < autoApproveThreshold
  spent : ∀ row ∈ w.rows.filter isApproval, (w.rows.filter isApproval).countP ((ranking env).before · row) < 50 →
    row.eventSha256 ≠ "" → ∀ time, env.clock w.reads ≤ time → unexpired env row.detail time = .ok true →
    row.eventSha256 ∈ w.consumedApprovalShas env

theorem Quenched.status {env : Env} {deviceDid : String} {w : World} (quenched : Quenched env deviceDid w)
    (bucket : Bucket) : w.status deviceDid bucket ≠ .graduated := by
  unfold World.status
  split
  next => simp
  next standing =>
    split
    next clears => exact absurd (quenched.revoked bucket clears) standing
    next => simp

theorem Quenched.finds_none {env : Env} {deviceDid : String} {w : World} (quenched : Quenched env deviceDid w)
    (req : ActionRequest) (chapterId : String) (row : Row) (v : World) :
    findValidApproval env req chapterId w ≠ .ok (some row) v := by
  intro found
  obtain ⟨candidate,examined⟩ := found_examined env found
  obtain ⟨_,named,admitted,_,unexpired⟩ := examine_true examined
  have listed : row ∈ w.listEvents env "consent.approved" 50 := candidate
  obtain ⟨member,few⟩ := (quenched.ordered.mem_listEvents "consent.approved" 50 rfl row).mp listed
  have held := admitted (quenched.spent row member few named _ (Nat.le_refl _) unexpired)
  change row.eventSha256 ∈ w.inFlight at held
  simp [quenched.grounded] at held

def World.stripped (w : World) (env : Env) (deviceDid : String) : World := { w with
  reads := w.reads+2
  graduations := w.graduations.map fun row => row.revokedAll deviceDid (env.clock w.reads) }

theorem filter_append_none {kind : Row → Bool} {old new : List Row} (none : ∀ row ∈ new, kind row = false) :
    (old ++ new).filter kind = old.filter kind := by
  have nothing : new.filter kind = [] := by
    apply List.filter_eq_nil_iff.mpr
    intro row member
    simp [none row member]
  rw [List.filter_append,nothing,List.append_nil]

section Quench
variable {env : Env} {deviceDid : String} {w v : World} {new : List Row}

end Quench

theorem clearsBar_of_denials {few many : Counts} (approvals : many.approvals = few.approvals)
    (denials : few.denials ≤ many.denials) (clears : many.clearsBar = true) : few.clearsBar = true := by
  simp only [Counts.clearsBar,Bool.and_eq_true,decide_eq_true_eq] at clears ⊢
  refine ⟨approvals ▸ clears.1,clears.2.trans_le ?_⟩
  unfold Counts.posteriorMean
  rw [approvals]
  have more : (few.denials : ℚ) ≤ many.denials := Nat.cast_le.mpr denials
  apply div_le_div_of_nonneg_left
  · positivity
  · positivity
  · linarith

theorem Quenched.logged {env : Env} (steady : Monotone env.clock) {deviceDid : String} {w v : World}
    (quenched : Quenched env deviceDid w) (logged : Logged env Inert w v) : Quenched env deviceDid v := by
  obtain ⟨new,rows,made⟩ := logged.1.rows
  have kept := logged.2
  unfold Untouched at kept
  have tombs : v.rows.filter isTombstone = w.rows.filter isTombstone := by
    rw [rows]
    apply filter_append_none
    intro row member
    obtain ⟨u,fields,inert,rfl⟩ := made row member
    simp [isTombstone,World.nextRow,inert.2]
  have consumed : v.consumedApprovalShas env = w.consumedApprovalShas env := by
    unfold World.consumedApprovalShas World.listEvents
    change ((ranking env).newest _ (v.rows.filter isTombstone)).filterMap _ = _
    rw [tombs]
    rfl
  refine ⟨logged.1.ordered steady quenched.ordered,?_,?_,?_,?_⟩
  · rw [kept]
    exact quenched.grounded
  · intro bucket clears
    rw [kept] at clears ⊢
    exact quenched.revoked bucket clears
  · rw [kept]
    exact quenched.low
  · intro row member few named time now alive
    rw [consumed]
    obtain ⟨inside,approval⟩ := List.mem_filter.mp member
    rw [rows] at inside
    rcases List.mem_append.mp inside with old | young
    · refine quenched.spent row (List.mem_filter.mpr ⟨old,approval⟩) ?_ named time ?_ alive
      · rw [rows,List.filter_append,List.countP_append] at few
        omega
      · exact (steady logged.1.reads).trans now
    · -- an inert approval has no expiry, so it is never found
      obtain ⟨u,fields,inert,rfl⟩ := made row young
      have dead := inert.1
      simp only [isApproval,World.nextRow,beq_iff_eq] at approval
      simp only [Fields.live,approval,beq_self_eq_true,Bool.true_and,Option.isSome_eq_false_iff,
        Option.isNone_iff_eq_none] at dead
      simp [unexpired,World.nextRow,dead] at alive

theorem Quenched.observed {env : Env} (steady : Monotone env.clock) {deviceDid : String} {w : World}
    (quenched : Quenched env deviceDid w) (call : Call) (proposal : ActionRequest) :
    Quenched env deviceDid (w.observed call proposal .denied) := by
  have rest := World.observed_rest call proposal .denied w
  have writes := World.observed_writes env call proposal Inert .denied w
  refine ⟨writes.ordered steady quenched.ordered,?_,?_,?_,?_⟩
  · rw [rest]
    exact quenched.grounded
  · intro bucket clears
    obtain ⟨approvals,denials⟩ := World.observed_denied call proposal w bucket
    have before := quenched.revoked bucket (clearsBar_of_denials approvals denials clears)
    rw [rest]
    exact before
  · rw [rest]
    exact quenched.low
  · intro row member few named time now alive
    have elapsed := steady writes.reads
    rw [rest] at member few ⊢
    exact quenched.spent row member few named time (elapsed.trans now) alive

/-- The trust a call is given was read from the files, or could not be read. -/
def Rereads (env : Env) (call : Call) (w : World) : Prop :=
  (call.localTrust = none ∧ call.chapterTrust = none) ∨
  ∃ own chapter, loadLocalTrust env w.localTrust = .ok own ∧ loadChapterTrust env w.chapterTrust = .ok chapter ∧
    call.localTrust = some own ∧ call.chapterTrust = some chapter

theorem Quenched.settle {env : Env} {deviceDid : String} {w : World} (quenched : Quenched env deviceDid w) {call : Call}
    (store : call.graduationStore = none ∨ call.graduationStore = some deviceDid) (rereads : Rereads env call w)
    (proposal : ActionRequest) : Logged env Inert w (Effect.final (settle env call proposal w)) ∧
      ∀ d v, settle env call proposal w = .ok d v → d.state ≠ .approved := by
  have standing : ∀ other, call.graduationStore = some other → w.status other (call.bucket proposal) ≠ .graduated := by
    intro other given
    rcases store with none | own
    · rw [none] at given
      cases given
    · rw [own] at given
      cases given
      exact quenched.status _
  have low : effectiveTrust (call.localTrust.getD 0) (call.chapterTrust.getD 0) < autoApproveThreshold := by
    rcases rereads with ⟨own,chapter⟩ | ⟨own,chapter,first,second,given,also⟩
    · rw [own,chapter]
      decide
    · rw [given,also]
      exact quenched.low own chapter first second
  have graduated := graduatedPath_shut env call proposal standing
  have trusted := trustPath_shut env call proposal w low
  rcases claimPath_cases env call proposal w with ⟨_,u,claim,quiet⟩ | ⟨row,u,⟨t,found,_⟩,_⟩
  · simp only [Consent.settle,orElse,Effect.bind_apply,graduated,trusted,claim]
    have fallback := checkAndRecord_logged env proposal call.chapterId call.actorAgentId u
    refine ⟨trans_of _ (quiet.mono fun _ => False.elim) fallback,?_⟩
    intro d v run
    exact checkAndRecord_state env run
  · exact absurd found (quenched.finds_none _ _ row t)

theorem Quenched.turn {env : Env} (steady : Monotone env.clock) {deviceDid : String} {w : World}
    (quenched : Quenched env deviceDid w) {call : Call}
    (store : call.graduationStore = none ∨ call.graduationStore = some deviceDid) (rereads : Rereads env call w)
    (proposal : ActionRequest) : let v := Effect.final (executeProposal env call proposal w)
    Quenched env deviceDid v ∧ Rereads env call v ∧ v.activity = w.activity := by
  intro v
  have read : Logged env Inert w { w with reads := w.reads+1 } := ⟨.single (.tick w),rfl⟩
  have settled := (quenched.logged steady read).settle store rereads proposal
  obtain ⟨u,logged,same⟩ := turn_refused env call proposal (fun _ _ => id) w fun _ => settled
  have kept := logged.2
  unfold Untouched at kept
  have activity : u.activity = w.activity := by rw [kept]
  have rereads : Rereads env call u := by
    rw [kept]
    exact rereads
  have quenched := quenched.logged steady logged
  rcases same with same | same
  · change v = u at same
    rw [same]
    exact ⟨quenched,rereads,activity⟩
  · change v = _ at same
    have rest := World.observed_rest call proposal .denied u
    refine ⟨same ▸ quenched.observed steady call proposal,?_,?_⟩
    · rw [same,rest]
      exact rereads
    · rw [same,rest]
      exact activity

theorem Quenched.plan {env : Env} (steady : Monotone env.clock) {deviceDid : String} {call : Call}
    (store : call.graduationStore = none ∨ call.graduationStore = some deviceDid) (plan : List ActionRequest) :
    ∀ {w : World}, Quenched env deviceDid w → Rereads env call w →
    Quenched env deviceDid (Effect.final (executePlan env call plan w)) ∧
      (Effect.final (executePlan env call plan w)).activity = w.activity := by
  induction plan with
  | nil =>
    intro w quenched _
    exact ⟨quenched,rfl⟩
  | cons proposal rest ih =>
    intro w quenched rereads
    obtain ⟨after,again,activity⟩ := quenched.turn steady store rereads proposal
    rw [executePlan_final]
    cases run : executeProposal env call proposal w with
    | error e v =>
      rw [run] at after activity
      exact ⟨after,activity⟩
    | ok result v =>
      rw [run] at after again activity
      obtain ⟨last,unchanged⟩ := ih after again
      exact ⟨last,unchanged.trans activity⟩

end Orrery.Consent
