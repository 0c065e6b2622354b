import Orrery.Arp.AgencyLog

/-! Callers of `send_task_recorded` (a2a_client_v2.py) on one Agency Log, in threads or
in processes. The SELECT and the INSERT of `begin_action` are two steps, and any
number of others may lie between them. -/
namespace Orrery.Arp
open Foundation

inductive SendFailure
  | clientError | connectError | connectTimeout | unsupportedProtocol | invalidURL | other
deriving DecidableEq

def classifySendFailure : SendFailure → String
  | .clientError => "failed"
  | .connectError | .connectTimeout | .unsupportedProtocol | .invalidURL => "failed"
  | .other => "unknown"

structure SendCall where
  tool : String
  counterpartyDid : String
  counterpartyLabel : String
  issuerDid : String
  category : String
  taskId : Option String
  baseUrl : String
  processToken : String

def SendCall.intent (call : SendCall) : Intent where
  issuerDid := call.issuerDid
  category := call.category
  summary := s!"Called {call.counterpartyLabel} ({call.tool})."
  counterpartyDid := some call.counterpartyDid
  counterpartyLabel := some call.counterpartyLabel
  actionRef := call.taskId
  detail := some [("tool",.str call.tool),("base_url",.str call.baseUrl)]

/-- Where a caller stands: `logged` is after the INSERT, `sending` inside `send_task`,
`returned` after it, `finished` when the attempt is finalized. -/
inductive Phase
  | starting | admitted | refused
  | logged (attemptId : String)
  | sending (attemptId : String)
  | returned (attemptId : String)
  | finished (attemptId : String)
deriving DecidableEq

def Phase.attemptId : Phase → Option String
  | .logged id | .sending id | .returned id | .finished id => some id
  | _ => none

def Phase.sent : Phase → Option String
  | .sending id | .returned id | .finished id => some id
  | _ => none

structure Caller where
  call : SendCall
  phase : Phase

structure Sends where
  log : Attempts
  callers : List Caller

def Sends.empty : Sends := ⟨[],[]⟩

inductive SendMove
  | call (call : SendCall)
  | select (i : Nat)
  | insert (i : Nat) (uuid time : String)
  | send (i : Nat)
  | raised (i : Nat) (failure : SendFailure) (error time : String)
  | returned (i : Nat)
  | receipt (i : Nat) (receiptId time : String)
  | unreceipted (i : Nat) (error time : String)

def Sends.turn (s : Sends) (i : Nat) (call : SendCall) (phase : Phase) : Sends :=
  { s with callers := s.callers.set i ⟨call,phase⟩ }

section Step
variable (repr : String → String)

def Sends.close (s : Sends) (i : Nat) (call : SendCall) (id state : String) (receiptId : Option String)
    (detail : Option Dict) (time : String) : Option Sends :=
  match finalizeAction repr s.log id state receiptId detail time with
  | .ok log => some (Sends.turn ⟨log,s.callers⟩ i call (.finished id))
  | .error _ => some (s.turn i call (.finished id))

def Sends.step (s : Sends) : SendMove → Option Sends
  | .call call => some { s with callers := s.callers ++ [⟨call,.starting⟩] }
  | .select i =>
    match s.callers[i]? with
    | some ⟨call,.starting⟩ =>
      match refuseDuplicate repr s.log call.taskId with
      | .ok _ => some (s.turn i call .admitted)
      | .error _ => some (s.turn i call .refused)
    | _ => none
  | .insert i uuid time =>
    match s.callers[i]? with
    | some ⟨call,.admitted⟩ =>
      match insertAttempt s.log (call.intent.attempt uuid time call.processToken) with
      | .ok log => some (Sends.turn ⟨log,s.callers⟩ i call (.logged uuid))
      | .error _ => some (s.turn i call .refused)
    | _ => none
  | .send i =>
    match s.callers[i]? with
    | some ⟨call,.logged id⟩ => some (s.turn i call (.sending id))
    | _ => none
  | .raised i failure error time =>
    match s.callers[i]? with
    | some ⟨call,.sending id⟩ => s.close repr i call id (classifySendFailure failure) none (some [("error",.str error)]) time
    | _ => none
  | .returned i =>
    match s.callers[i]? with
    | some ⟨call,.sending id⟩ => some (s.turn i call (.returned id))
    | _ => none
  | .receipt i receiptId time =>
    match s.callers[i]? with
    | some ⟨call,.returned id⟩ => s.close repr i call id "succeeded" (some receiptId) none time
    | _ => none
  | .unreceipted i error time =>
    match s.callers[i]? with
    | some ⟨call,.returned id⟩ => s.close repr i call id "succeeded" none (some [("receipt_error",.str error)]) time
    | _ => none

end Step

def Failed (log : Attempts) (id : String) : Prop := ∃ a ∈ log, a.attemptId = id ∧ a.state = .failed

def NoDoubleSend (s : Sends) : Prop :=
  ∀ (i j : Nat) (c d : Caller), i ≠ j → s.callers[i]? = some c → s.callers[j]? = some d → ∀ task, c.call.taskId = some task →
    d.call.taskId = some task → ∀ a b, c.phase.sent = some a → d.phase.sent = some b → Failed s.log a ∨ Failed s.log b

def Undisturbed (s : Sends) : SendMove → Prop
  | .select i => ∀ c ∈ s.callers[i]?, ∀ task ∈ c.call.taskId, ∀ d ∈ s.callers, d.phase = .admitted →
    d.call.taskId ≠ some task
  | _ => True

instance (s : Sends) : (move : SendMove) → Decidable (Undisturbed s move)
  | .select i => inferInstanceAs (Decidable (∀ c ∈ s.callers[i]?, ∀ task ∈ c.call.taskId, ∀ d ∈ s.callers,
      d.phase = .admitted → d.call.taskId ≠ some task))
  | .call _ | .insert .. | .send _ | .raised .. | .returned _ | .receipt .. | .unreceipted .. =>
    inferInstanceAs (Decidable True)

def Phase.busy : Phase → Option String
  | .logged id | .sending id | .returned id => some id
  | _ => none

inductive Changes (repr : String → String) (s : Sends) (move : SendMove) : Sends → Prop
  | arrive (call : SendCall) : Changes repr s move { s with callers := s.callers ++ [⟨call,.starting⟩] }
  | select (i : Nat) (call : SendCall) (stands : s.callers[i]? = some ⟨call,.starting⟩) (asked : move = .select i)
      (ok : refuseDuplicate repr s.log call.taskId = .ok ()) : Changes repr s move (s.turn i call .admitted)
  | pass (i : Nat) (call : SendCall) (p q : Phase) (stands : s.callers[i]? = some ⟨call,p⟩)
      (same : q.attemptId = p.attemptId) (past : q ≠ .admitted) (busy : q.busy = none ∨ q.busy = p.busy) :
      Changes repr s move (s.turn i call q)
  | insert (i : Nat) (call : SendCall) (uuid time : String) (log : Attempts)
      (stands : s.callers[i]? = some ⟨call,.admitted⟩)
      (inserted : insertAttempt s.log (call.intent.attempt uuid time call.processToken) = .ok log) :
      Changes repr s move (Sends.turn ⟨log,s.callers⟩ i call (.logged uuid))
  | close (i : Nat) (call : SendCall) (p : Phase) (id state : String) (receiptId : Option String) (detail : Option Dict)
      (time : String) (log : Attempts) (stands : s.callers[i]? = some ⟨call,p⟩) (own : p.attemptId = some id)
      (due : p.busy = some id) (done : finalizeAction repr s.log id state receiptId detail time = .ok log) :
      Changes repr s move (Sends.turn ⟨log,s.callers⟩ i call (.finished id))

theorem close_changes {repr : String → String} {s s' : Sends} {move : SendMove} {i : Nat} {call : SendCall} {p : Phase}
    {id state : String} {receiptId : Option String} {detail : Option Dict} {time : String}
    (stands : s.callers[i]? = some ⟨call,p⟩) (own : p.attemptId = some id) (due : p.busy = some id)
    (closed : s.close repr i call id state receiptId detail time = some s') : Changes repr s move s' := by
  unfold Sends.close at closed
  split at closed
  next log done =>
    obtain rfl := Option.some.inj closed
    exact .close i call p id state receiptId detail time log stands own due done
  next =>
    obtain rfl := Option.some.inj closed
    exact .pass i call p (.finished id) stands own.symm (by simp) (Or.inl rfl)

theorem step_changes {repr : String → String} {s s' : Sends} {move : SendMove} (stepped : s.step repr move = some s') :
    Changes repr s move s' := by
  cases move with
  | call call =>
    obtain rfl := Option.some.inj stepped
    exact .arrive call
  | select i =>
    simp only [Sends.step] at stepped
    split at stepped
    next call stands =>
      split at stepped
      next ok =>
        obtain rfl := Option.some.inj stepped
        exact .select i call stands rfl ok
      next =>
        obtain rfl := Option.some.inj stepped
        exact .pass i call .starting .refused stands rfl (by simp) (Or.inl rfl)
    next => cases stepped
  | insert i uuid time =>
    simp only [Sends.step] at stepped
    split at stepped
    next call stands =>
      split at stepped
      next log inserted =>
        obtain rfl := Option.some.inj stepped
        exact .insert i call uuid time log stands inserted
      next =>
        obtain rfl := Option.some.inj stepped
        exact .pass i call .admitted .refused stands rfl (by simp) (Or.inl rfl)
    next => cases stepped
  | send i =>
    simp only [Sends.step] at stepped
    split at stepped
    next call id stands =>
      obtain rfl := Option.some.inj stepped
      exact .pass i call (.logged id) (.sending id) stands rfl (by simp) (Or.inr rfl)
    next => cases stepped
  | returned i =>
    simp only [Sends.step] at stepped
    split at stepped
    next call id stands =>
      obtain rfl := Option.some.inj stepped
      exact .pass i call (.sending id) (.returned id) stands rfl (by simp) (Or.inr rfl)
    next => cases stepped
  | raised i failure error time =>
    simp only [Sends.step] at stepped
    split at stepped
    next call id stands => exact close_changes stands rfl rfl stepped
    next => cases stepped
  | receipt i receiptId time =>
    simp only [Sends.step] at stepped
    split at stepped
    next call id stands => exact close_changes stands rfl rfl stepped
    next => cases stepped
  | unreceipted i error time =>
    simp only [Sends.step] at stepped
    split at stepped
    next call id stands => exact close_changes stands rfl rfl stepped
    next => cases stepped

structure Stands (log : Attempts) (c : Caller) : Prop where
  owned : ∀ id, c.phase.attemptId = some id →
    ∃ a ∈ log, a.attemptId = id ∧ a.actionRef = c.call.taskId ∧ (c.phase.busy = some id → a.state = .pending)
  clear : c.phase = .admitted → ∀ task, c.call.taskId = some task → ∀ a ∈ log, a.actionRef = some task →
    a.state = .failed

structure Distinct (c d : Caller) : Prop where
  ids : ∀ id, c.phase.attemptId = some id → d.phase.attemptId ≠ some id
  tasks : c.phase = .admitted → d.phase = .admitted → ∀ task, c.call.taskId = some task → d.call.taskId ≠ some task

theorem Distinct.symm {c d : Caller} (distinct : Distinct c d) : Distinct d c :=
  ⟨fun id own other => distinct.ids id other own,fun first second task own other =>
    distinct.tasks second first task other own⟩

structure Guarded (s : Sends) : Prop where
  settled : Settled ⟨s.log,[]⟩
  stands : ∀ (i : Nat) c, s.callers[i]? = some c → Stands s.log c
  distinct : ∀ (i j : Nat) c d, i ≠ j → s.callers[i]? = some c → s.callers[j]? = some d → Distinct c d

theorem Settled.forget {log : Attempts} {won : List String} (settled : Settled ⟨log,won⟩) : Settled ⟨log,[]⟩ :=
  ⟨settled.ordered,settled.named,fun _ _ none => absurd none List.not_mem_nil,List.nil_subset _⟩

theorem Guarded.turned {s : Sends} {log : Attempts} {i : Nat} {c : Caller} (guarded : Guarded s)
    (settled : Settled ⟨log,[]⟩) (own : Stands log c)
    (others : ∀ (j : Nat) d, j ≠ i → s.callers[j]? = some d → Stands log d ∧ Distinct c d) :
    Guarded ⟨log,s.callers.set i c⟩ := by
  have lookup : ∀ (j : Nat) d, (s.callers.set i c)[j]? = some d → (j = i ∧ d = c) ∨ (j ≠ i ∧ s.callers[j]? = some d) := by
    intro j d found
    by_cases same : j = i
    · subst same
      rw [List.getElem?_set] at found
      simp only [if_true] at found
      split at found
      next => exact Or.inl ⟨rfl,(Option.some.inj found).symm⟩
      next => cases found
    · rw [List.getElem?_set_ne (Ne.symm same)] at found
      exact Or.inr ⟨same,found⟩
  refine ⟨settled,?_,?_⟩
  · intro j d found
    rcases lookup j d found with ⟨rfl,rfl⟩ | ⟨other,found⟩
    · exact own
    · exact (others j d other found).1
  · intro j k d e apart first second
    rcases lookup j d first with ⟨rfl,rfl⟩ | ⟨other,left⟩ <;> rcases lookup k e second with ⟨rfl,rfl⟩ | ⟨other',right⟩
    · exact absurd rfl apart
    · exact (others k e other' right).2
    · exact (others j d other left).2.symm
    · exact guarded.distinct j k d e apart left right

theorem Guarded.arrive {s : Sends} (guarded : Guarded s) (call : SendCall) :
    Guarded { s with callers := s.callers ++ [⟨call,.starting⟩] } := by
  have lookup : ∀ (j : Nat) d, (s.callers ++ [⟨call,.starting⟩])[j]? = some d →
      s.callers[j]? = some d ∨ (j = s.callers.length ∧ d = ⟨call,.starting⟩) := by
    intro j d found
    rw [List.getElem?_append] at found
    split at found
    next => exact Or.inl found
    next bound =>
      right
      rw [List.getElem?_singleton] at found
      split at found
      next zero => exact ⟨by omega,(Option.some.inj found).symm⟩
      next => cases found
  have starting : Stands s.log ⟨call,.starting⟩ := ⟨fun _ => nofun,nofun⟩
  have first : ∀ d, Distinct ⟨call,.starting⟩ d := fun _ => ⟨fun _ => nofun,nofun⟩
  refine ⟨guarded.settled,?_,?_⟩
  · intro j d found
    rcases lookup j d found with found | ⟨_,rfl⟩
    · exact guarded.stands j d found
    · exact starting
  · intro j k d e apart left right
    rcases lookup j d left with left | ⟨rfl,rfl⟩
    · rcases lookup k e right with right | ⟨rfl,rfl⟩
      · exact guarded.distinct j k d e apart left right
      · exact (first d).symm
    · exact first e

theorem Guarded.pass {s : Sends} (guarded : Guarded s) {i : Nat} {call : SendCall} {p q : Phase}
    (stands : s.callers[i]? = some ⟨call,p⟩) (same : q.attemptId = p.attemptId) (past : q ≠ .admitted)
    (busy : q.busy = none ∨ q.busy = p.busy) : Guarded (s.turn i call q) := by
  have before := guarded.stands i _ stands
  refine guarded.turned guarded.settled ⟨?_,fun admitted => absurd admitted past⟩ ?_
  · intro id own
    obtain ⟨a,member,named,task,pending⟩ := before.owned id (same ▸ own)
    refine ⟨a,member,named,task,?_⟩
    intro due
    rcases busy with none | kept
    · exact absurd (none.symm.trans due) (by simp)
    · exact pending (kept.symm.trans due)
  · intro j d other found
    have distinct := guarded.distinct i j _ d (Ne.symm other) stands found
    exact ⟨guarded.stands j d found,fun id own => distinct.ids id (same ▸ own),fun admitted => absurd admitted past⟩

theorem Settled.clear {repr : String → String} {h : History} (settled : Settled h) {task : String}
    (ok : refuseDuplicate repr h.attempts (some task) = .ok ()) {a : Attempt} (member : a ∈ h.attempts)
    (own : a.actionRef = some task) : a.state = .failed := by
  by_contra live
  rw [refuseDuplicate,settled.latest member live own] at ok
  simp [live] at ok

theorem Guarded.admitted {repr : String → String} {s : Sends} (guarded : Guarded s) {i : Nat} {call : SendCall}
    (stands : s.callers[i]? = some ⟨call,.starting⟩) (ok : refuseDuplicate repr s.log call.taskId = .ok ())
    (undisturbed : Undisturbed s (.select i)) : Guarded (s.turn i call .admitted) := by
  refine guarded.turned guarded.settled ⟨fun _ => nofun,?_⟩ ?_
  · intro _ task own a member same
    have own : call.taskId = some task := own
    rw [own] at ok
    exact guarded.settled.clear ok member same
  · intro j d other found
    refine ⟨guarded.stands j d found,fun _ => nofun,?_⟩
    intro _ admitted task own
    exact undisturbed _ stands task own d (List.mem_of_getElem? found) admitted

theorem refuseDuplicate_clear {repr : String → String} {log : Attempts} {ref : Option String}
    (clear : ∀ task, ref = some task → ∀ a ∈ log, a.actionRef = some task → a.state = .failed) :
    refuseDuplicate repr log ref = .ok () := by
  cases ref with
  | none => rfl
  | some task =>
    rw [refuseDuplicate]
    split
    next => rfl
    next latest found =>
      obtain ⟨before,after,split,own,_⟩ := latestAttempt_split found
      have failed := clear task rfl latest (by rw [split]; simp) own
      rw [if_pos failed]

theorem Guarded.inserted {s : Sends} (guarded : Guarded s) {i : Nat} {call : SendCall} {uuid time : String}
    {log : Attempts} (stands : s.callers[i]? = some ⟨call,.admitted⟩)
    (inserted : insertAttempt s.log (call.intent.attempt uuid time call.processToken) = .ok log) :
    Guarded (Sends.turn ⟨log,s.callers⟩ i call (.logged uuid)) := by
  have before := guarded.stands i _ stands
  have begun : beginAction id s.log call.intent uuid time call.processToken = .ok log := by
    have ok : refuseDuplicate id s.log call.intent.actionRef = .ok () := refuseDuplicate_clear (before.clear rfl)
    rw [beginAction,ok]
    exact inserted
  have settled := (guarded.settled.begin begun).forget
  unfold insertAttempt at inserted
  split at inserted
  next => cases inserted
  next fresh =>
    cases inserted
    have absent := getAttempt_none (by simpa using fresh)
    refine guarded.turned (s := s) settled ⟨?_,?_⟩ ?_
    · intro id own
      obtain rfl := Option.some.inj own
      exact ⟨_,List.mem_append_right _ (List.mem_singleton_self _),rfl,rfl,fun _ => rfl⟩
    · intro admitted
      cases admitted
    · intro j d other found
      have distinct := guarded.distinct i j _ d (Ne.symm other) stands found
      have standing := guarded.stands j d found
      refine ⟨⟨?_,?_⟩,?_,?_⟩
      · intro id own
        obtain ⟨a,member,rest⟩ := standing.owned id own
        exact ⟨a,List.mem_append_left _ member,rest⟩
      · intro admitted task own a member same
        rcases List.mem_append.mp member with member | single
        · exact standing.clear admitted task own a member same
        · obtain rfl := List.mem_singleton.mp single
          exact absurd own (distinct.tasks rfl admitted task same)
      · intro id own
        obtain rfl := Option.some.inj own
        intro taken
        obtain ⟨a,member,named,_⟩ := standing.owned uuid taken
        exact absent (List.mem_map.mpr ⟨a,member,named⟩)
      · intro admitted
        cases admitted

theorem Guarded.closed {repr : String → String} {s : Sends} (guarded : Guarded s) {i : Nat} {call : SendCall} {p : Phase}
    {id state : String} {receiptId : Option String} {detail : Option Dict} {time : String} {log : Attempts}
    (stands : s.callers[i]? = some ⟨call,p⟩) (own : p.attemptId = some id) (due : p.busy = some id)
    (done : finalizeAction repr s.log id state receiptId detail time = .ok log) :
    Guarded (Sends.turn ⟨log,s.callers⟩ i call (.finished id)) := by
  obtain ⟨a,member,named,task,pending⟩ := (guarded.stands i _ stands).owned id own
  have pending := pending due
  have careful : Careful ⟨s.log,[]⟩ (.finalize id state receiptId detail time) := by
    intro b among same
    obtain rfl := List.inj_on_of_nodup_map guarded.settled.named member among (named.trans same.symm)
    refine ⟨fun _ => List.not_mem_nil,fun failed => ?_⟩
    rw [pending] at failed
    cases failed
  have settled := (guarded.settled.finalize done careful).forget
  obtain ⟨final,before,b,after,_,same,split,rfl⟩ := finalizeAction_split guarded.settled.named done
  have split : s.log = before ++ b :: after := split
  obtain rfl : a = b := List.inj_on_of_nodup_map guarded.settled.named member (by rw [split]; simp)
    (named.trans same.symm)
  refine guarded.turned (s := s) settled ⟨?_,nofun⟩ ?_
  · intro other mine
    obtain rfl := Option.some.inj mine
    exact ⟨a.finalized final receiptId detail time,by simp,named,task,nofun⟩
  · intro j d other found
    have distinct := guarded.distinct i j _ d (Ne.symm other) stands found
    have standing := guarded.stands j d found
    have kept : ∀ b ∈ s.log, b.attemptId ≠ id →
        b ∈ before ++ a.finalized final receiptId detail time :: after := by
      intro b among elsewhere
      rw [split] at among
      simp only [List.mem_append,List.mem_cons] at among ⊢
      rcases among with among | rfl | among
      · exact Or.inl among
      · exact absurd named elsewhere
      · exact Or.inr (Or.inr among)
    refine ⟨⟨?_,?_⟩,?_,nofun⟩
    · intro theirs own'
      obtain ⟨b,among,named',rest⟩ := standing.owned theirs own'
      refine ⟨b,kept b among ?_,named',rest⟩
      intro same'
      exact distinct.ids id own (by rw [own',← named',same'])
    · intro admitted task' own' b among ref
      have clear := standing.clear admitted task' own'
      simp only [List.mem_append,List.mem_cons] at among
      rcases among with among | rfl | among
      · exact clear b (by rw [split]; simp [among]) ref
      · -- the pending attempt is not one of that task
        have failed := clear a member ref
        rw [pending] at failed
        cases failed
      · exact clear b (by rw [split]; simp [among]) ref
    · intro theirs mine
      obtain rfl := Option.some.inj mine
      exact distinct.ids id own

theorem Guarded.noDoubleSend {s : Sends} (guarded : Guarded s) : NoDoubleSend s := by
  intro i j c d apart first second task ofC ofD a b sentC sentD
  have attempt : ∀ {p : Phase} {id : String}, p.sent = some id → p.attemptId = some id := by
    intro p id sent
    cases p <;> simp_all [Phase.sent,Phase.attemptId]
  obtain ⟨x,inLog,named,ref,_⟩ := (guarded.stands i c first).owned a (attempt sentC)
  obtain ⟨y,inLog',named',ref',_⟩ := (guarded.stands j d second).owned b (attempt sentD)
  by_cases failed : x.state = .failed
  · exact Or.inl ⟨x,inLog,named,failed⟩
  · by_cases failed' : y.state = .failed
    · exact Or.inr ⟨y,inLog',named',failed'⟩
    · -- both would be the latest attempt of the task
      have latest := guarded.settled.latest inLog failed (ref.trans ofC)
      have latest' := guarded.settled.latest inLog' failed' (ref'.trans ofD)
      rw [latest,Option.some.injEq] at latest'
      have distinct := (guarded.distinct i j c d apart first second).ids a (attempt sentC)
      rw [attempt sentD,← named,← named',latest'] at distinct
      exact absurd rfl distinct

/-- In every interleaving in which no reading falls between the reading and the INSERT
of another caller of the task, nothing is sent twice. -/
theorem noDoubleSend_reached (repr : String → String) (s : Sends)
    (run : Runs.Reached (Sends.step repr) Undisturbed .empty s) : NoDoubleSend s := by
  have guarded : Guarded s := by
    refine run.invariant ?_ ?_
    · refine ⟨⟨List.Pairwise.nil,List.nodup_nil,by simp,List.nil_subset _⟩,?_,?_⟩ <;> simp [Sends.empty]
    · intro s move s' guarded undisturbed stepped
      cases step_changes stepped with
      | arrive call => exact guarded.arrive call
      | select i call stands asked ok => exact guarded.admitted stands ok (asked ▸ undisturbed)
      | pass i call p q stands same past busy => exact guarded.pass stands same past busy
      | insert i call uuid time log stands inserted => exact guarded.inserted stands inserted
      | close i call p id state receiptId detail time log stands own due done =>
        exact guarded.closed stands own due done
  exact guarded.noDoubleSend

def sampleSend : SendCall := ⟨"ping","did:key:za","A","did:key:zi","message_sent",some "t1","http://a","p"⟩

def oneAfterTheOther : List SendMove :=
  [.call sampleSend,.call sampleSend,.select 0,.insert 0 "a1" "0",.send 0,.raised 0 .clientError "declined" "1",
    .select 1,.insert 1 "a2" "2",.send 1]

theorem noDoubleSend_oneAfterTheOther : ∃ s, Runs.Reached (Sends.step id) Undisturbed .empty s ∧
    s.callers.map (·.phase) = [.finished "a1",.sending "a2"] ∧ NoDoubleSend s := by
  have walked : (Runs.walk (Sends.step id) (fun s move => decide (Undisturbed s move)) oneAfterTheOther .empty).map
      (fun s => s.callers.map (·.phase)) = some [.finished "a1",.sending "a2"] := by decide +kernel
  obtain ⟨s,ended,phases⟩ := Option.map_eq_some_iff.mp walked
  have run : Runs.Reached (Sends.step id) Undisturbed .empty s :=
    Runs.reached_walk (fun _ _ => of_decide_eq_true) oneAfterTheOther .start ended
  exact ⟨s,run,phases,noDoubleSend_reached id s run⟩

def bothAtOnce : List SendMove :=
  [.call sampleSend,.call sampleSend,.select 0,.select 1,.insert 0 "a1" "0",.insert 1 "a2" "0",.send 0,.send 1]

theorem bothAtOnce_sent_twice : ∃ s, Runs.Reached (Sends.step id) Runs.Free .empty s ∧ ¬ NoDoubleSend s := by
  have walked : (Runs.walk (Sends.step id) (fun _ _ => true) bothAtOnce .empty).map
      (fun s => (s.callers[0]?.map fun c => (c.phase,c.call.taskId),s.callers[1]?.map fun c => (c.phase,c.call.taskId),
        s.log.map (·.state))) =
      some (some (.sending "a1",some "t1"),some (.sending "a2",some "t1"),[.pending,.pending]) := by decide +kernel
  obtain ⟨s,ended,seen⟩ := Option.map_eq_some_iff.mp walked
  refine ⟨s,Runs.reached_walk (fun _ _ _ => trivial) bothAtOnce .start ended,?_⟩
  simp only [Prod.mk.injEq,Option.map_eq_some_iff] at seen
  obtain ⟨⟨c,first,sending,task⟩,⟨d,second,sending',task'⟩,states⟩ := seen
  intro holds
  have live : ∀ id, ¬ Failed s.log id := by
    rintro id ⟨a,member,_,failed⟩
    have state := List.mem_map_of_mem (f := Attempt.state) member
    rw [states,failed] at state
    simp at state
  rcases holds 0 1 c d (by decide) first second "t1" task task' "a1" "a2" (by rw [sending]; rfl)
    (by rw [sending']; rfl) with failed | failed
  · exact live _ failed
  · exact live _ failed

end Orrery.Arp
