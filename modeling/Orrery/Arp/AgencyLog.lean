import Orrery.Foundation.Json
import Orrery.Foundation.Runs

/-! The attempts of the Agency Log (community_member/arp.py): a row is written before
an action is tried and resolved after it. The rows are in the order of their rowid;
the detail column is kept decoded. -/
namespace Orrery.Arp
open Foundation

inductive AttemptState
  | pending | succeeded | failed | unknown
deriving DecidableEq

def AttemptState.text : AttemptState → String
  | .pending => "pending"
  | .succeeded => "succeeded"
  | .failed => "failed"
  | .unknown => "unknown"

def finalState (text : String) : Option AttemptState :=
  if text = "succeeded" then some .succeeded
  else if text = "failed" then some .failed
  else if text = "unknown" then some .unknown
  else none

structure Attempt where
  attemptId : String
  actionRef : Option String
  issuerDid : String
  category : String
  summary : String
  counterpartyDid : Option String
  counterpartyLabel : Option String
  state : AttemptState
  startedAt : String
  finalizedAt : Option String
  receiptId : Option String
  processToken : String
  detail : Dict

abbrev Attempts := List Attempt

structure Intent where
  issuerDid : String
  category : String
  summary : String
  counterpartyDid : Option String
  counterpartyLabel : Option String
  actionRef : Option String
  detail : Option Dict

def getAttempt (log : Attempts) (attemptId : String) : Option Attempt :=
  log.find? fun a => a.attemptId == attemptId

def latestAttempt (log : Attempts) (actionRef : String) : Option Attempt :=
  log.reverse.find? fun a => a.actionRef == some actionRef

def orphanedActions (log : Attempts) (token : String) : Attempts :=
  log.filter fun a => a.state == .pending && a.processToken != token

def update (merged detail : Dict) : Dict :=
  detail.foldl (fun d field => Json.setItem d field.1 field.2) merged

section Operations
variable (repr : String → String)

def duplicateAction (actionRef : String) (attempt : Attempt) : Exc :=
  .other "DuplicateActionError" (s!"action_ref {repr actionRef} already has an attempt in state " ++
    s!"{repr attempt.state.text} (attempt {attempt.attemptId}); a retry would perform it again. " ++
    "Resolve the earlier attempt first.")

def refuseDuplicate (log : Attempts) : Option String → Except Exc Unit
  | none => .ok ()
  | some actionRef =>
    match latestAttempt log actionRef with
    | none => .ok ()
    | some latest => if latest.state = .failed then .ok () else .error (duplicateAction repr actionRef latest)

def Intent.attempt (intent : Intent) (attemptId startedAt token : String) : Attempt where
  attemptId := attemptId
  actionRef := intent.actionRef
  issuerDid := intent.issuerDid
  category := intent.category
  summary := intent.summary
  counterpartyDid := intent.counterpartyDid
  counterpartyLabel := intent.counterpartyLabel
  state := .pending
  startedAt := startedAt
  finalizedAt := none
  receiptId := none
  processToken := token
  detail := intent.detail.getD []

def insertAttempt (log : Attempts) (attempt : Attempt) : Except Exc Attempts :=
  if (getAttempt log attempt.attemptId).isSome then
    .error (.other "IntegrityError" "UNIQUE constraint failed: action_attempts.attempt_id")
  else .ok (log ++ [attempt])

def beginAction (log : Attempts) (intent : Intent) (uuid time token : String) : Except Exc Attempts := do
  refuseDuplicate repr log intent.actionRef
  insertAttempt log (intent.attempt uuid time token)

def Attempt.finalized (a : Attempt) (state : AttemptState) (receiptId : Option String) (detail : Option Dict)
    (time : String) : Attempt :=
  { a with state := state, finalizedAt := some time, receiptId := receiptId, detail := update a.detail (detail.getD []) }

def finalizeAction (log : Attempts) (attemptId state : String) (receiptId : Option String) (detail : Option Dict)
    (time : String) : Except Exc Attempts :=
  match finalState state with
  | none => .error (.valueError s!"state must be one of succeeded/failed/unknown, got {repr state}")
  | some state =>
    if (getAttempt log attemptId).isSome then
      .ok (log.map fun a => if a.attemptId == attemptId then a.finalized state receiptId detail time else a)
    else .error (.keyError s!"no attempt {repr attemptId}")

def finalizeOrphans (now : String → String) : Attempts → Attempts → Except Exc Attempts
  | log, [] => .ok log
  | log, a :: orphans => do
    let log ← finalizeAction repr log a.attemptId "unknown" none
      (some [("unknown_reason",.str "process_died_before_finalize"),("orphaned_process_token",.str a.processToken)])
      (now a.attemptId)
    finalizeOrphans now log orphans

def reconcileOrphans (log : Attempts) (token : String) (now : String → String) : Except Exc (Attempts × Attempts) := do
  let orphans := orphanedActions log token
  let log ← finalizeOrphans repr now log orphans
  return (log,orphans.map fun a => (getAttempt log a.attemptId).getD a)

inductive Op
  | begin (intent : Intent) (uuid time token : String)
  | finalize (attemptId state : String) (receiptId : Option String) (detail : Option Dict) (time : String)
  | reconcile (token : String) (now : String → String)

def perform (log : Attempts) : Op → Except Exc Attempts
  | .begin intent uuid time token => beginAction repr log intent uuid time token
  | .finalize attemptId state receiptId detail time => finalizeAction repr log attemptId state receiptId detail time
  | .reconcile token now => (reconcileOrphans repr log token now).map Prod.fst

structure History where
  attempts : Attempts
  won : List String

def succeededIds (log : Attempts) : List String :=
  (log.filter fun a => a.state == .succeeded).map (·.attemptId)

def History.step (h : History) (op : Op) : Option History :=
  match perform repr h.attempts op with
  | .ok log => some ⟨log,h.won ++ succeededIds log⟩
  | .error _ => some h

def History.empty : History := ⟨[],[]⟩

structure OneLive (h : History) : Prop where
  single : ∀ actionRef,
    (h.attempts.filter fun a => a.actionRef == some actionRef && a.state != .failed).length ≤ 1
  refused : ∀ a ∈ h.attempts, a.attemptId ∈ h.won → ∀ actionRef, a.actionRef = some actionRef →
    ∀ intent uuid time token, intent.actionRef = some actionRef →
      ∃ latest, beginAction repr h.attempts intent uuid time token = .error (duplicateAction repr actionRef latest)

end Operations

def MayBecome (h : History) (a : Attempt) (final : Option AttemptState) : Prop :=
  (final = some .failed → a.attemptId ∉ h.won) ∧
  (a.state = .failed → final ≠ some .failed → ∀ actionRef ∈ a.actionRef,
    (latestAttempt h.attempts actionRef).map Attempt.attemptId = some a.attemptId)

instance (h : History) (a : Attempt) (final : Option AttemptState) : Decidable (MayBecome h a final) :=
  inferInstanceAs (Decidable (_ ∧ _))

def Careful (h : History) : Op → Prop
  | .finalize attemptId state _ _ _ => ∀ a ∈ h.attempts, a.attemptId = attemptId → MayBecome h a (finalState state)
  | _ => True

instance (h : History) : (op : Op) → Decidable (Careful h op)
  | .finalize attemptId state _ _ _ => inferInstanceAs (Decidable (∀ a ∈ h.attempts, a.attemptId = attemptId →
      MayBecome h a (finalState state)))
  | .begin .. => inferInstanceAs (Decidable True)
  | .reconcile .. => inferInstanceAs (Decidable True)

/-! What a careful run keeps: an attempt that another one of the same action follows is
failed. -/

def Yields (a b : Attempt) : Prop := a.actionRef ≠ none → a.actionRef = b.actionRef → a.state = .failed

structure Settled (h : History) : Prop where
  ordered : h.attempts.Pairwise Yields
  named : (h.attempts.map (·.attemptId)).Nodup
  kept : ∀ a ∈ h.attempts, a.attemptId ∈ h.won → a.state ≠ .failed
  logged : h.won ⊆ h.attempts.map (·.attemptId)

theorem latestAttempt_split {log : Attempts} {actionRef : String} {latest : Attempt}
    (found : latestAttempt log actionRef = some latest) : ∃ before after, log = before ++ latest :: after ∧
      latest.actionRef = some actionRef ∧ ∀ b ∈ after, b.actionRef ≠ some actionRef := by
  obtain ⟨own,after,before,split,later⟩ := List.find?_eq_some_iff_append.mp found
  refine ⟨before.reverse,after.reverse,?_,by simpa using own,?_⟩
  · rw [← List.reverse_reverse log,split]
    simp
  · intro b member
    simpa using later b (List.mem_reverse.mp member)

theorem latestAttempt_isSome {log : Attempts} {actionRef : String} {a : Attempt} (member : a ∈ log)
    (own : a.actionRef = some actionRef) : ∃ latest, latestAttempt log actionRef = some latest := by
  rw [← Option.isSome_iff_exists,latestAttempt,List.find?_isSome]
  exact ⟨a,by simpa using member,by simpa using own⟩

theorem latestAttempt_after (before : Attempts) (a : Attempt) {after : Attempts} {b : Attempt} {actionRef : String}
    (later : b ∈ after) (own : b.actionRef = some actionRef) :
    ∃ c ∈ after, latestAttempt (before ++ a :: after) actionRef = some c := by
  obtain ⟨c,found⟩ := latestAttempt_isSome later own
  refine ⟨c,List.mem_reverse.mp (List.mem_of_find?_eq_some found),?_⟩
  rw [latestAttempt] at found
  rw [latestAttempt,List.reverse_append,List.reverse_cons,List.append_assoc,List.find?_append,found]
  rfl

theorem Settled.latest {h : History} (settled : Settled h) {a : Attempt} (member : a ∈ h.attempts)
    (live : a.state ≠ .failed) {actionRef : String} (own : a.actionRef = some actionRef) :
    latestAttempt h.attempts actionRef = some a := by
  obtain ⟨latest,found⟩ := latestAttempt_isSome member own
  obtain ⟨before,after,split,ref,later⟩ := latestAttempt_split found
  have ordered := settled.ordered
  rw [split] at member ordered
  rcases List.mem_append.mp member with earlier | rest
  · have yields := (List.pairwise_append.mp ordered).2.2 a earlier latest (List.mem_cons_self ..)
    exact absurd (yields (by simp [own]) (own.trans ref.symm)) live
  · rcases List.mem_cons.mp rest with rfl | rest
    · exact found
    · exact absurd own (later a rest)

theorem Settled.oneLive {repr : String → String} {h : History} (settled : Settled h) : OneLive repr h := by
  constructor
  · intro actionRef
    have apart : (h.attempts.filter fun a => a.actionRef == some actionRef && a.state != .failed).Pairwise
        fun _ _ => False := by
      refine List.Pairwise.imp_of_mem ?_ (settled.ordered.filter _)
      intro a b first second yields
      simp only [List.mem_filter,Bool.and_eq_true,beq_iff_eq,bne_iff_ne] at first second
      exact first.2.2 (yields (by simp [first.2.1]) (first.2.1.trans second.2.1.symm))
    generalize h.attempts.filter (fun a => a.actionRef == some actionRef && a.state != .failed) = live at apart ⊢
    match live, apart with
    | [], _ => simp
    | [_], _ => simp
    | a :: b :: rest, apart => exact absurd ((List.pairwise_cons.mp apart).1 b (List.mem_cons_self ..)) id
  · intro a member won actionRef own intent uuid time token asked
    have live := settled.kept a member won
    refine ⟨a,?_⟩
    rw [beginAction,asked,refuseDuplicate,settled.latest member live own]
    simp only [live,if_false]
    rfl

theorem getAttempt_none {log : Attempts} {attemptId : String} (absent : (getAttempt log attemptId).isSome = false) :
    attemptId ∉ log.map (·.attemptId) := by
  intro member
  obtain ⟨a,among,rfl⟩ := List.mem_map.mp member
  rw [getAttempt,Option.isSome_eq_false_iff,Option.isNone_iff_eq_none,List.find?_eq_none] at absent
  exact absent a among (by simp)

theorem Settled.observe {log : Attempts} {won : List String} (ordered : log.Pairwise Yields)
    (named : (log.map (·.attemptId)).Nodup) (kept : ∀ a ∈ log, a.attemptId ∈ won → a.state ≠ .failed)
    (logged : won ⊆ log.map (·.attemptId)) : Settled ⟨log,won ++ succeededIds log⟩ := by
  refine ⟨ordered,named,?_,?_⟩
  · intro a member won
    rcases List.mem_append.mp won with before | now
    · exact kept a member before
    · obtain ⟨b,succeeded,same⟩ := List.mem_map.mp now
      simp only [List.mem_filter,beq_iff_eq] at succeeded
      rw [List.inj_on_of_nodup_map named member succeeded.1 same.symm,succeeded.2]
      decide
  · refine List.append_subset.mpr ⟨logged,?_⟩
    exact List.map_subset _ (List.filter_subset_self log)

theorem Settled.begin {repr : String → String} {h : History} (settled : Settled h) {intent : Intent}
    {uuid time token : String} {log : Attempts} (begun : beginAction repr h.attempts intent uuid time token = .ok log) :
    Settled ⟨log,h.won ++ succeededIds log⟩ := by
  obtain ⟨_,admitted,inserted⟩ := bind_success _ _ _ begun
  unfold insertAttempt at inserted
  split at inserted
  next => cases inserted
  next fresh =>
    cases inserted
    have absent := getAttempt_none (by simpa using fresh)
    refine .observe ?_ ?_ ?_ ?_
    · refine List.pairwise_append.mpr ⟨settled.ordered,List.pairwise_singleton _ _,?_⟩
      intro a member b single reffed same
      obtain rfl := List.mem_singleton.mp single
      by_contra live
      obtain ⟨actionRef,own⟩ := Option.ne_none_iff_exists'.mp reffed
      have asked : intent.actionRef = some actionRef := same.symm.trans own
      rw [asked,refuseDuplicate,settled.latest member live own] at admitted
      simp [live] at admitted
    · rw [List.map_append,List.nodup_append]
      refine ⟨settled.named,by simp,?_⟩
      intro x among y single same
      obtain rfl : y = uuid := List.mem_singleton.mp single
      exact absent (same ▸ among)
    · intro a member won
      rcases List.mem_append.mp member with before | single
      · exact settled.kept a before won
      · obtain rfl := List.mem_singleton.mp single
        exact absurd (settled.logged won) absent
    · rw [List.map_append]
      exact List.subset_append_of_subset_left _ settled.logged

theorem finalizeAction_split {repr : String → String} {log log' : Attempts} {attemptId state : String}
    {receiptId : Option String} {detail : Option Dict} {time : String} (named : (log.map (·.attemptId)).Nodup)
    (done : finalizeAction repr log attemptId state receiptId detail time = .ok log') :
    ∃ final before a after, finalState state = some final ∧ a.attemptId = attemptId ∧ log = before ++ a :: after ∧
      log' = before ++ a.finalized final receiptId detail time :: after := by
  unfold finalizeAction at done
  split at done
  next => cases done
  next final valid =>
    split at done
    next present =>
      cases done
      obtain ⟨a,found⟩ := Option.isSome_iff_exists.mp present
      obtain ⟨own,before,after,split,_⟩ := List.find?_eq_some_iff_append.mp found
      have own : a.attemptId = attemptId := by simpa using own
      rw [split,List.map_append,List.map_cons,List.nodup_append,List.nodup_cons] at named
      obtain ⟨_,⟨unique,_⟩,apart⟩ := named
      refine ⟨final,before,a,after,valid,own,split,?_⟩
      have untouched : ∀ rows : Attempts, (∀ b ∈ rows, b.attemptId ≠ attemptId) →
          rows.map (fun b => if b.attemptId == attemptId then b.finalized final receiptId detail time else b) = rows := by
        intro rows others
        have same : ∀ b ∈ rows,
            (if b.attemptId == attemptId then b.finalized final receiptId detail time else b) = id b := by
          intro b member
          simp [others b member]
        rw [List.map_congr_left same,List.map_id]
      rw [split,List.map_append,List.map_cons,if_pos (by simpa using own),untouched before ?_,untouched after ?_]
      · intro b member same
        exact unique (List.mem_map.mpr ⟨b,member,same.trans own.symm⟩)
      · intro b member same
        exact apart _ (List.mem_map_of_mem member) _ (List.mem_cons_self ..) (same.trans own.symm)
    next => cases done

theorem Settled.finalize {repr : String → String} {h : History} (settled : Settled h) {attemptId state : String}
    {receiptId : Option String} {detail : Option Dict} {time : String} {log : Attempts}
    (done : finalizeAction repr h.attempts attemptId state receiptId detail time = .ok log)
    (careful : Careful h (.finalize attemptId state receiptId detail time)) : Settled ⟨log,h.won ++ succeededIds log⟩ := by
  obtain ⟨final,before,a,after,valid,own,split,rfl⟩ := finalizeAction_split settled.named done
  have member : a ∈ h.attempts := by rw [split]; simp
  obtain ⟨unwon,current⟩ := careful a member own
  have ordered := settled.ordered
  have named := settled.named
  have ids : (before ++ a.finalized final receiptId detail time :: after).map (·.attemptId) =
      h.attempts.map (·.attemptId) := by
    rw [split]
    simp [Attempt.finalized]
  rw [split,List.pairwise_append,List.pairwise_cons] at ordered
  obtain ⟨first,⟨onward,second⟩,across⟩ := ordered
  refine .observe ?_ (by rw [ids]; exact named) ?_ (by rw [ids]; exact settled.logged)
  · refine List.pairwise_append.mpr ⟨first,List.pairwise_cons.mpr ⟨?_,second⟩,?_⟩
    · -- a later attempt of the action is there only if this one had failed
      intro b later reffed same
      by_contra live
      have failed : a.state = .failed := onward b later reffed same
      obtain ⟨actionRef,reference⟩ := Option.ne_none_iff_exists'.mp reffed
      have latest := current failed (by rw [valid]; simpa [Attempt.finalized] using live) actionRef reference
      obtain ⟨c,among,found⟩ := latestAttempt_after before a later (same.symm.trans reference)
      rw [split,found,Option.map_some,Option.some.injEq] at latest
      rw [split,List.map_append,List.map_cons,List.nodup_append,List.nodup_cons] at named
      exact named.2.1.1 (latest ▸ List.mem_map_of_mem among)
    · intro b earlier c rest
      rcases List.mem_cons.mp rest with rfl | rest
      · exact across b earlier a (List.mem_cons_self ..)
      · exact across b earlier c (List.mem_cons_of_mem _ rest)
  · intro b among won
    rcases List.mem_append.mp among with earlier | rest
    · exact settled.kept b (by rw [split]; exact List.mem_append_left _ earlier) won
    · rcases List.mem_cons.mp rest with rfl | later
      · intro failed
        exact unwon (valid.trans (congrArg some failed)) won
      · exact settled.kept b (by rw [split]; exact List.mem_append_right _ (List.mem_cons_of_mem _ later)) won

theorem Careful.unknown {h : History} (settled : Settled h) {attemptId : String} {a : Attempt} (member : a ∈ h.attempts)
    (own : a.attemptId = attemptId) (live : a.state ≠ .failed) (receiptId : Option String) (detail : Option Dict)
    (time : String) : Careful h (.finalize attemptId "unknown" receiptId detail time) := by
  intro b among same
  obtain rfl := List.inj_on_of_nodup_map settled.named member among (own.trans same.symm)
  refine ⟨?_,fun failed => absurd failed live⟩
  intro impossible
  simp [finalState] at impossible

theorem finalizeAction_present (repr : String → String) {log : Attempts} {a : Attempt} (member : a ∈ log) (state : String)
    {final : AttemptState} (valid : finalState state = some final) (receiptId : Option String) (detail : Option Dict)
    (time : String) : ∃ log', finalizeAction repr log a.attemptId state receiptId detail time = .ok log' ∧
      ∀ b ∈ log, b.state ≠ .failed ∨ b.attemptId = a.attemptId → final ≠ .failed → ∃ b' ∈ log',
        b'.attemptId = b.attemptId ∧ b'.state ≠ .failed := by
  have found : (getAttempt log a.attemptId).isSome = true := by
    rw [getAttempt,List.find?_isSome]
    exact ⟨a,member,by simp⟩
  rw [finalizeAction,valid]
  simp only [found,if_true]
  refine ⟨_,rfl,?_⟩
  intro b among live final
  refine ⟨_,List.mem_map_of_mem among,?_,?_⟩
  · split <;> rfl
  · split
    next => exact final
    next other =>
      rcases live with live | same
      · exact live
      · exact absurd (by simpa using same) other

theorem Settled.orphans (repr : String → String) (now : String → String) (orphans : Attempts) : ∀ h : History,
    Settled h → (∀ o ∈ orphans, ∃ a ∈ h.attempts, a.attemptId = o.attemptId ∧ a.state ≠ .failed) →
    ∃ log won, finalizeOrphans repr now h.attempts orphans = .ok log ∧ h.won ⊆ won ∧ Settled ⟨log,won⟩ := by
  induction orphans with
  | nil => intro h settled _; exact ⟨h.attempts,h.won,rfl,List.Subset.refl _,settled⟩
  | cons o orphans ih =>
    intro h settled present
    obtain ⟨a,member,same,live⟩ := present o (List.mem_cons_self ..)
    obtain ⟨log,done,still⟩ := finalizeAction_present repr member "unknown" rfl none
      (some [("unknown_reason",.str "process_died_before_finalize"),("orphaned_process_token",.str o.processToken)])
      (now o.attemptId)
    rw [same] at done
    have next := settled.finalize done (.unknown settled member same live none _ _)
    obtain ⟨final,won,rest,grown,ends⟩ := ih _ next (by
      intro o' later
      obtain ⟨b,among,sameId,alive⟩ := present o' (List.mem_cons_of_mem _ later)
      obtain ⟨b',among',named,alive'⟩ := still b among (Or.inl alive) (by decide)
      exact ⟨b',among',named.trans sameId,alive'⟩)
    refine ⟨final,won,?_,List.Subset.trans (List.subset_append_left _ _) grown,ends⟩
    rw [finalizeOrphans,done]
    exact rest

theorem Settled.reconcile {repr : String → String} {h : History} (settled : Settled h) {token : String}
    {now : String → String} {log returned : Attempts}
    (done : reconcileOrphans repr h.attempts token now = .ok (log,returned)) :
    Settled ⟨log,h.won ++ succeededIds log⟩ := by
  obtain ⟨final,won,resolved,grown,ends⟩ := Settled.orphans repr now (orphanedActions h.attempts token) h settled
    (by
      intro o member
      simp only [orphanedActions,List.mem_filter,Bool.and_eq_true,beq_iff_eq] at member
      exact ⟨o,member.1,rfl,by rw [member.2.1]; decide⟩)
  rw [reconcileOrphans,resolved] at done
  cases done
  exact .observe ends.ordered ends.named (fun a member before => ends.kept a member (grown before))
    (List.Subset.trans grown ends.logged)

theorem Settled.step {repr : String → String} {h h' : History} (settled : Settled h) {op : Op} (careful : Careful h op)
    (stepped : h.step repr op = some h') : Settled h' := by
  unfold History.step at stepped
  split at stepped
  next log done =>
    obtain rfl := Option.some.inj stepped
    cases op with
    | begin intent uuid time token => exact settled.begin done
    | finalize attemptId state receiptId detail time => exact settled.finalize done careful
    | reconcile token now =>
      rw [perform] at done
      cases resolved : reconcileOrphans repr h.attempts token now with
      | error e => rw [resolved] at done; cases done
      | ok result =>
        rw [resolved] at done
        cases done
        exact settled.reconcile resolved
  next =>
    obtain rfl := Option.some.inj stepped
    exact settled

/-- In every run in which no attempt is brought back after another one replaced it, nor
failed after it succeeded, an action has one live attempt at most. -/
theorem oneLive_reached (repr : String → String) (h : History)
    (run : Runs.Reached (History.step repr) Careful .empty h) : OneLive repr h := by
  have settled : Settled h := by
    refine run.invariant ⟨List.Pairwise.nil,List.nodup_nil,by simp [History.empty],List.nil_subset _⟩ ?_
    intro h op h' settled careful stepped
    exact settled.step careful stepped
  exact settled.oneLive

def sampleIntent : Intent := ⟨"did:key:zi","message_sent","Called A (ping).",some "did:key:za",some "A",some "t1",none⟩

def retrying : List Op :=
  [.begin sampleIntent "a1" "0" "p",.finalize "a1" "failed" none none "1",.begin sampleIntent "a2" "2" "p",
    .finalize "a2" "succeeded" (some "r1") none "3"]

theorem oneLive_retrying : ∃ h, Runs.Reached (History.step id) Careful .empty h ∧
    h.attempts.map (·.state) = [.failed,.succeeded] ∧ h.won = ["a2"] ∧ OneLive id h := by
  have walked : (Runs.walk (History.step id) (fun h op => decide (Careful h op)) retrying .empty).map (fun h =>
      (h.attempts.map (·.state),h.won)) = some ([.failed,.succeeded],["a2"]) := by decide +kernel
  obtain ⟨h,ended,seen⟩ := Option.map_eq_some_iff.mp walked
  have run : Runs.Reached (History.step id) Careful .empty h :=
    Runs.reached_walk (fun _ _ => of_decide_eq_true) retrying .start ended
  obtain ⟨states,won⟩ := Prod.mk.inj seen
  exact ⟨h,run,states,won,oneLive_reached id h run⟩

def reviving : List Op :=
  [.begin sampleIntent "a1" "0" "p",.finalize "a1" "failed" none none "1",.begin sampleIntent "a2" "2" "p",
    .finalize "a1" "succeeded" none none "3"]

theorem revived_two_live :
    ∃ h, Runs.Reached (History.step id) Runs.Free .empty h ∧ ¬ OneLive id h := by
  have walked : (Runs.walk (History.step id) (fun _ _ => true) reviving .empty).isSome = true := by decide +kernel
  obtain ⟨h,ended⟩ := Option.isSome_iff_exists.mp walked
  refine ⟨h,Runs.reached_walk (fun _ _ _ => trivial) reviving .start ended,?_⟩
  intro holds
  have two : ((Runs.walk (History.step id) (fun _ _ => true) reviving .empty).map fun h =>
      (h.attempts.filter fun a => a.actionRef == some "t1" && a.state != .failed).length) = some 2 := by decide +kernel
  rw [ended,Option.map_some,Option.some.injEq] at two
  have one := holds.single "t1"
  omega

end Orrery.Arp
