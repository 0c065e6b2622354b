import Mathlib.Data.List.AList
import Orrery.Foundation.Json
import Orrery.Foundation.Runs

/-! Broadcasts that peer chapters push (server/broadcast.py): calls of
`receive_broadcast` that run side by side, each statement of the store a step, and
one call by itself. What was ingested is remembered in a ring of ids, which a restart
empties, and in a table of origins and ids. -/
namespace Orrery.Federation
open Foundation Json

structure ChapterBroadcastPayload where
  eventId : Option Int
  occurredAt : Option String
  broadcastId : String
  originChapterId : String
  senderAgentId : String
  title : String
  body : String
  tags : List String
  audience : String
deriving DecidableEq

def ChapterBroadcastPayload.key (payload : ChapterBroadcastPayload) : String × String :=
  (payload.originChapterId,payload.broadcastId)

structure Receiving where
  chapterId : String
  initialized : Bool
  laxInt : Json → Option Int

def asText : Json → Option String
  | .str s => some s
  | _ => none

def optionalField {α : Type} (read : Json → Option α) (d : Dict) (key : String) : Option (Option α) :=
  match get d key with
  | none | some .null => some none
  | some value => (read value).map some

def boundedText (d : Dict) (key : String) (longest : Nat) : Option String := do
  let s ← asText (← get d key)
  if 1 ≤ s.length ∧ s.length ≤ longest then return s
  else none

def tagsField (d : Dict) : Option (List String) :=
  match get d "tags" with
  | none => some []
  | some (.arr items) => if items.length ≤ 20 then items.mapM asText else none
  | some _ => none

def audienceField (d : Dict) : Option String :=
  match get d "audience" with
  | none => some "all"
  | some value => (asText value).filter (· ∈ ["local","federation","all"])

inductive Reply
  | refused (reason : String)
  | mismatch (detail : String)
  | duplicate (broadcastId : String)
  | accepted (broadcastId : String) (eventId : Nat) (originChapterId : String)
deriving DecidableEq

def Reply.ok : Reply → Bool
  | .accepted _ _ _ => true
  | _ => false

/-- The ring, the rows of the table, and the event log; the number of an event is its
place in the log. -/
structure Inbound where
  ring : List String
  seen : List (String × String)
  eventLog : List ChapterBroadcastPayload
deriving DecidableEq

@[irreducible] def dedupWindow : Nat := 1000

def Inbound.remember (inbound : Inbound) (broadcastId : String) : Inbound :=
  let ids := inbound.ring ++ [broadcastId]
  { inbound with ring := ids.drop (ids.length-dedupWindow) }

@[simp] theorem remember_eventLog (inbound : Inbound) (broadcastId : String) :
    (inbound.remember broadcastId).eventLog = inbound.eventLog := by
  unfold Inbound.remember
  rfl

@[simp] theorem remember_seen (inbound : Inbound) (broadcastId : String) :
    (inbound.remember broadcastId).seen = inbound.seen := by
  unfold Inbound.remember
  rfl

def Inbound.recordSeen (inbound : Inbound) (key : String × String) : Inbound :=
  if key ∈ inbound.seen then inbound else { inbound with seen := inbound.seen ++ [key] }

def Inbound.publish (inbound : Inbound) (payload : ChapterBroadcastPayload) : Inbound :=
  { inbound with eventLog := inbound.eventLog ++ [payload] }

section Model
variable (receiving : Receiving)

def modelValidate (d : Dict) : Option ChapterBroadcastPayload := do
  let eventId ← optionalField receiving.laxInt d "event_id"
  let occurredAt ← optionalField asText d "occurred_at"
  let broadcastId ← asText (← get d "broadcast_id")
  let originChapterId ← asText (← get d "origin_chapter_id")
  let senderAgentId ← asText (← get d "sender_agent_id")
  let title ← boundedText d "title" 200
  let body ← boundedText d "body" 8000
  let tags ← tagsField d
  let audience ← audienceField d
  return ⟨eventId,occurredAt,broadcastId,originChapterId,senderAgentId,title,body,tags,audience⟩

def screen (ring : List String) (payloadDict : Dict) (senderChapterId : String) :
    Except Reply ChapterBroadcastPayload :=
  if receiving.initialized then
    match modelValidate receiving payloadDict with
    | none => .error (.refused "invalid_payload")
    | some payload =>
      if payload.originChapterId = receiving.chapterId then .error (.refused "self_origin_via_federation")
      else if payload.originChapterId ≠ senderChapterId then
        .error (.mismatch s!"origin={payload.originChapterId} sender={senderChapterId}")
      else if payload.broadcastId ∈ ring then .error (.duplicate payload.broadcastId)
      else .ok payload
  else .error (.refused "uninitialized")

/-- A delivery, and whether the store takes the event when it is published. -/
structure Delivery where
  payloadDict : Dict
  senderChapterId : String
  stored : Bool

def receiveBroadcast (inbound : Inbound) (delivery : Delivery) : Reply × Inbound :=
  match screen receiving inbound.ring delivery.payloadDict delivery.senderChapterId with
  | .error reply => (reply,inbound)
  | .ok payload =>
    if payload.key ∈ inbound.seen then (.duplicate payload.broadcastId,inbound.remember payload.broadcastId)
    else if delivery.stored then
      let published := (inbound.publish payload).remember payload.broadcastId
      (.accepted payload.broadcastId published.eventLog.length payload.originChapterId,published.recordSeen payload.key)
    else (.refused "local_publish_failed",inbound)

/-- Where a call stands: its statement is on the way to the store, or has been answered. -/
inductive Phase
  | asking
  | asked (seen : Bool)
  | publishing
  | published (row : Option Nat)
  | recording (event : Nat)
deriving DecidableEq

structure Call where
  payload : ChapterBroadcastPayload
  phase : Phase
deriving DecidableEq

/-- The next step of a call that was not refused at once, with the state it leaves: it
goes on, or replies. -/
def Call.advance (call : Call) (stored : Bool) (inbound : Inbound) : (Reply ⊕ Call) × Inbound :=
  match call.phase with
  | .asking => (.inr ⟨call.payload,.asked (decide (call.payload.key ∈ inbound.seen))⟩,inbound)
  | .asked true => (.inl (.duplicate call.payload.broadcastId),inbound.remember call.payload.broadcastId)
  | .asked false => (.inr ⟨call.payload,.publishing⟩,inbound)
  | .publishing =>
    if stored then (.inr ⟨call.payload,.published (some (inbound.publish call.payload).eventLog.length)⟩,
      inbound.publish call.payload)
    else (.inr ⟨call.payload,.published none⟩,inbound)
  | .published none => (.inl (.refused "local_publish_failed"),inbound)
  | .published (some event) => (.inr ⟨call.payload,.recording event⟩,inbound.remember call.payload.broadcastId)
  | .recording event =>
    (.inl (.accepted call.payload.broadcastId event call.payload.originChapterId),inbound.recordSeen call.payload.key)

structure Ingress where
  inbound : Inbound
  calls : AList (fun _ : Nat => Call)

def Ingress.fresh : Ingress := ⟨⟨[],[],[]⟩,∅⟩

/-- A call comes in under a new number, a call makes its next step, or the process starts
anew, without its calls and its ring. -/
inductive Event
  | deliver (id : Nat) (payloadDict : Dict) (senderChapterId : String)
  | advance (id : Nat) (stored : Bool)
  | restart

def Ingress.step (s : Ingress) : Event → Option Ingress
  | .deliver id payloadDict senderChapterId =>
    match s.calls.lookup id with
    | some _ => none
    | none =>
      match screen receiving s.inbound.ring payloadDict senderChapterId with
      | .error _ => some s
      | .ok payload => some { s with calls := s.calls.insert id ⟨payload,.asking⟩ }
  | .advance id stored =>
    match s.calls.lookup id with
    | none => none
    | some call =>
      match call.advance stored s.inbound with
      | (.inl _,inbound) => some ⟨inbound,s.calls.erase id⟩
      | (.inr call,inbound) => some ⟨inbound,s.calls.insert id call⟩
  | .restart => some ⟨{ s.inbound with ring := [] },∅⟩

end Model

def Phase.checked : Phase → Bool
  | .asked seen => !seen
  | .publishing => true
  | _ => false

def Phase.unrecorded : Phase → Bool
  | .published row => row.isSome
  | .recording _ => true
  | _ => false

def Call.key (call : Call) : String × String := call.payload.key

def Call.isOpen (call : Call) : Bool := call.phase.checked || call.phase.unrecorded

def Undisturbed (s : Ingress) : Event → Prop
  | .deliver _ _ _ => True
  | .advance id _ => ∀ call, s.calls.lookup id = some call → call.phase = .asking → call.key ∉ s.inbound.seen →
      ∀ other call', s.calls.lookup other = some call' → call'.key = call.key → call'.isOpen = false
  | .restart => ∀ id call, s.calls.lookup id = some call → call.phase.unrecorded = true → call.key ∈ s.inbound.seen

structure Ingested (s : Ingress) : Prop where
  once : (s.inbound.eventLog.map ChapterBroadcastPayload.key).Nodup
  recorded : ∀ key ∈ s.inbound.eventLog.map ChapterBroadcastPayload.key, key ∈ s.inbound.seen ∨
    ∃ id call, s.calls.lookup id = some call ∧ call.phase.unrecorded = true ∧ call.key = key
  fresh : ∀ id call, s.calls.lookup id = some call → call.phase.checked = true →
    call.key ∉ s.inbound.eventLog.map ChapterBroadcastPayload.key
  single : ∀ id other call call', s.calls.lookup id = some call → s.calls.lookup other = some call' →
    call.isOpen = true → call'.isOpen = true → call.key = call'.key → id = other

theorem ingested_fresh : Ingested .fresh where
  once := List.nodup_nil
  recorded _ inside := by cases inside
  fresh _ _ found := by cases found
  single _ _ _ _ found := by cases found

section Ingestion
variable {receiving : Receiving} {s s' : Ingress} {id : Nat} {call : Call}

structure Framed (s s' : Ingress) (id : Nat) (next : Option Call) : Prop where
  at_id : s'.calls.lookup id = next
  others : ∀ other, other ≠ id → s'.calls.lookup other = s.calls.lookup other

theorem framed_insert (s : Ingress) (id : Nat) (call : Call) (inbound : Inbound) :
    Framed s ⟨inbound,s.calls.insert id call⟩ id (some call) :=
  ⟨AList.lookup_insert _,fun _ apart => AList.lookup_insert_ne apart⟩

theorem framed_erase (s : Ingress) (id : Nat) (inbound : Inbound) : Framed s ⟨inbound,s.calls.erase id⟩ id none :=
  ⟨AList.lookup_erase _ _,fun _ apart => AList.lookup_erase_ne apart⟩

theorem Framed.opened {next : Option Call} (framed : Framed s s' id next)
    (opens : ∀ call', next = some call' → call'.isOpen = true →
      ∃ call, s.calls.lookup id = some call ∧ call.isOpen = true ∧ call.key = call'.key) :
    ∀ other call', s'.calls.lookup other = some call' → call'.isOpen = true →
      ∃ call, s.calls.lookup other = some call ∧ call.isOpen = true ∧ call.key = call'.key := by
  intro other call' found live
  by_cases here : other = id
  · rw [here,framed.at_id] at found
    rw [here]
    exact opens call' found live
  · rw [framed.others other here] at found
    exact ⟨call',found,live,rfl⟩

theorem Ingested.single_of (ingested : Ingested s)
    (opened : ∀ other call', s'.calls.lookup other = some call' → call'.isOpen = true →
      ∃ call, s.calls.lookup other = some call ∧ call.isOpen = true ∧ call.key = call'.key) :
    ∀ id other call call', s'.calls.lookup id = some call → s'.calls.lookup other = some call' →
      call.isOpen = true → call'.isOpen = true → call.key = call'.key → id = other := by
  intro one two call call' found found' live live' same
  obtain ⟨first,at_one,open_one,key_one⟩ := opened one call found live
  obtain ⟨second,at_two,open_two,key_two⟩ := opened two call' found' live'
  exact ingested.single one two first second at_one at_two open_one open_two (by rw [key_one,key_two,same])

theorem Ingested.quiet (ingested : Ingested s) {next : Option Call} (framed : Framed s s' id next)
    (log : s'.inbound.eventLog = s.inbound.eventLog) (table : ∀ key ∈ s.inbound.seen, key ∈ s'.inbound.seen)
    (checks : ∀ call', next = some call' → call'.phase.checked = true →
      call'.key ∉ s.inbound.eventLog.map ChapterBroadcastPayload.key)
    (opens : ∀ call', next = some call' → call'.isOpen = true →
      ∃ call, s.calls.lookup id = some call ∧ call.isOpen = true ∧ call.key = call'.key)
    (keeps : ∀ call, s.calls.lookup id = some call → call.phase.unrecorded = true →
      call.key ∈ s'.inbound.seen ∨ ∃ call', next = some call' ∧ call'.phase.unrecorded = true ∧ call'.key = call.key) :
    Ingested s' where
  once := by
    rw [log]
    exact ingested.once
  recorded := by
    rw [log]
    intro key inside
    rcases ingested.recorded key inside with known | ⟨other,call,found,pending,rfl⟩
    · exact Or.inl (table key known)
    · by_cases here : other = id
      · rw [here] at found
        rcases keeps call found pending with known | ⟨call',next_,pending',same⟩
        · exact Or.inl known
        · exact Or.inr ⟨id,call',by rw [framed.at_id,next_],pending',same⟩
      · exact Or.inr ⟨other,call,by rw [framed.others other here,found],pending,rfl⟩
  fresh := by
    rw [log]
    intro other call' found checked
    by_cases here : other = id
    · rw [here,framed.at_id] at found
      exact checks call' found checked
    · rw [framed.others other here] at found
      exact ingested.fresh other call' found checked
  single := ingested.single_of (framed.opened opens)

theorem Ingested.opens (ingested : Ingested s) {next : Call} (framed : Framed s s' id (some next))
    (same : s'.inbound = s.inbound) (absent : next.key ∉ s.inbound.seen)
    (was : ∀ call, s.calls.lookup id = some call → call.phase = .asking)
    (alone : ∀ other call', s.calls.lookup other = some call' → call'.key = next.key → call'.isOpen = false) :
    Ingested s' := by
  have elsewhere : ∀ other call', other ≠ id → s'.calls.lookup other = some call' → s.calls.lookup other =
      some call' := by
    intro other call' apart found
    rwa [framed.others other apart] at found
  constructor
  · rw [same]
    exact ingested.once
  · rw [same]
    intro key inside
    rcases ingested.recorded key inside with known | ⟨other,call,found,pending,rfl⟩
    · exact Or.inl known
    · by_cases here : other = id
      · rw [here] at found
        rw [was call found] at pending
        cases pending
      · exact Or.inr ⟨other,call,by rw [framed.others other here,found],pending,rfl⟩
  · rw [same]
    intro other call' found checked
    by_cases here : other = id
    · rw [here,framed.at_id] at found
      cases found
      intro logged
      rcases ingested.recorded _ logged with known | ⟨other,call,found,pending,key⟩
      · exact absent known
      · have closed := alone other call found key
        rw [Call.isOpen,pending,Bool.or_true] at closed
        cases closed
    · exact ingested.fresh other call' (elsewhere other call' here found) checked
  · intro one two call call' found found' live live' key
    by_cases first : one = id
    · by_cases second : two = id
      · rw [first,second]
      · rw [first,framed.at_id] at found
        cases found
        have closed := alone two call' (elsewhere two call' second found') key.symm
        exact absurd (closed.symm.trans live') (by decide)
    · by_cases second : two = id
      · rw [second,framed.at_id] at found'
        cases found'
        have closed := alone one call (elsewhere one call first found) key
        exact absurd (closed.symm.trans live) (by decide)
      · exact ingested.single one two call call' (elsewhere one call first found) (elsewhere two call' second found')
          live live' key

theorem Ingested.publishes (ingested : Ingested s) {next : Call} (framed : Framed s s' id (some next))
    (was : s.calls.lookup id = some call) (checked : call.phase.checked = true) (payload : next.payload = call.payload)
    (pending : next.phase.unrecorded = true) (unchecked : next.phase.checked = false)
    (published : s'.inbound = s.inbound.publish call.payload) : Ingested s' := by
  have open_ : call.isOpen = true := by rw [Call.isOpen,checked,Bool.true_or]
  have key : next.key = call.key := by rw [Call.key,payload]; rfl
  have log : s'.inbound.eventLog.map ChapterBroadcastPayload.key =
      s.inbound.eventLog.map ChapterBroadcastPayload.key ++ [call.key] := by
    rw [published,Inbound.publish,List.map_append]
    rfl
  have table : s'.inbound.seen = s.inbound.seen := by rw [published]; rfl
  have apart : ∀ other call', other ≠ id → s.calls.lookup other = some call' → call'.isOpen = true →
      call'.key ≠ call.key :=
    fun other call' away found live same => away (ingested.single other id call' call found was live open_ same)
  constructor
  · rw [log,List.nodup_append]
    refine ⟨ingested.once,List.nodup_singleton _,?_⟩
    intro one inside two there same
    rw [List.mem_singleton.mp there] at same
    rw [same] at inside
    exact ingested.fresh id call was checked inside
  · rw [log,table]
    intro k inside
    rcases List.mem_append.mp inside with old | new
    · rcases ingested.recorded k old with known | ⟨other,call',found,pending',rfl⟩
      · exact Or.inl known
      · by_cases here : other = id
        · rw [here,was] at found
          cases found
          exact Or.inr ⟨id,next,framed.at_id,pending,key⟩
        · exact Or.inr ⟨other,call',by rw [framed.others other here,found],pending',rfl⟩
    · rw [List.mem_singleton.mp new]
      exact Or.inr ⟨id,next,framed.at_id,pending,key⟩
  · rw [log]
    intro other call' found checked'
    by_cases here : other = id
    · rw [here,framed.at_id] at found
      cases found
      rw [unchecked] at checked'
      cases checked'
    · rw [framed.others other here] at found
      intro inside
      rcases List.mem_append.mp inside with old | new
      · exact ingested.fresh other call' found checked' old
      · have live : call'.isOpen = true := by rw [Call.isOpen,checked',Bool.true_or]
        exact apart other call' here found live (List.mem_singleton.mp new)
  · apply ingested.single_of (framed.opened _)
    intro call' same _
    cases same
    exact ⟨call,was,open_,key.symm⟩

theorem mem_recordSeen (inbound : Inbound) (key k : String × String) :
    k ∈ (inbound.recordSeen key).seen ↔ k ∈ inbound.seen ∨ k = key := by
  unfold Inbound.recordSeen
  split
  next known => exact ⟨Or.inl,fun either => either.elim id fun same => same ▸ known⟩
  next => rw [List.mem_append,List.mem_singleton]

theorem Ingested.advances (ingested : Ingested s) {stored : Bool} (undisturbed : Undisturbed s (.advance id stored))
    (found : s.calls.lookup id = some call) (stepped : s.step receiving (.advance id stored) = some s') :
      Ingested s' := by
  rw [Ingress.step,found] at stepped
  obtain ⟨payload,phase⟩ := call
  -- a step after which the call is no more open than before, and nothing is published
  have quiet {next : Option Call} (framed : Framed s s' id next) (log : s'.inbound.eventLog = s.inbound.eventLog)
      (table : ∀ key ∈ s.inbound.seen, key ∈ s'.inbound.seen)
      (kept : ∀ call', next = some call' → call'.payload = payload)
      (checks : ∀ call', next = some call' → call'.phase.checked = true → phase.checked = true)
      (opens : ∀ call', next = some call' → call'.phase.unrecorded = true → phase.unrecorded = true)
      (keeps : phase.unrecorded = true → payload.key ∈ s'.inbound.seen ∨
        ∃ call', next = some call' ∧ call'.phase.unrecorded = true) : Ingested s' := by
    apply ingested.quiet framed log table
    · intro call' same checked
      rw [Call.key,kept call' same]
      exact ingested.fresh id ⟨payload,phase⟩ found (checks call' same checked)
    · intro call' same live
      refine ⟨⟨payload,phase⟩,found,?_,by rw [Call.key,Call.key,kept call' same]⟩
      rw [Call.isOpen,Bool.or_eq_true] at live ⊢
      exact live.imp (checks call' same) (opens call' same)
    · intro call was pending
      rw [found] at was
      cases was
      exact (keeps pending).imp_right fun ⟨call',same,pending'⟩ =>
        ⟨call',same,pending',by rw [Call.key,Call.key,kept call' same]⟩
  cases phase with
  | asking =>
    cases stepped
    have framed := framed_insert s id ⟨payload,.asked (decide (payload.key ∈ s.inbound.seen))⟩ s.inbound
    by_cases seen : payload.key ∈ s.inbound.seen
    · exact quiet framed rfl (fun _ inside => inside) (by simp) (by simp [Phase.checked,seen])
        (by simp [Phase.unrecorded]) (by simp [Phase.unrecorded])
    · apply ingested.opens framed rfl seen
      · intro call was
        rw [found] at was
        cases was
        rfl
      · exact undisturbed ⟨payload,.asking⟩ found rfl seen
  | asked seen =>
    cases seen with
    | true =>
      obtain rfl : ⟨s.inbound.remember payload.broadcastId,s.calls.erase id⟩ = s' := Option.some.inj stepped
      exact quiet (framed_erase s id _) (remember_eventLog _ _) (by simp) (by simp) (by simp) (by simp)
        (by simp [Phase.unrecorded])
    | false =>
      cases stepped
      exact quiet (framed_insert s id ⟨payload,.publishing⟩ s.inbound) rfl (fun _ inside => inside) (by simp)
        (by simp [Phase.checked]) (by simp [Phase.unrecorded]) (by simp [Phase.unrecorded])
  | publishing =>
    cases stored with
    | true =>
      cases stepped
      exact ingested.publishes (framed_insert s id ⟨payload,.published _⟩ _) found rfl rfl rfl rfl rfl
    | false =>
      cases stepped
      exact quiet (framed_insert s id ⟨payload,.published none⟩ s.inbound) rfl (fun _ inside => inside) (by simp)
        (by simp [Phase.checked]) (by simp [Phase.unrecorded]) (by simp [Phase.unrecorded])
  | published row =>
    cases row with
    | none =>
      cases stepped
      exact quiet (framed_erase s id _) rfl (fun _ inside => inside) (by simp) (by simp) (by simp)
        (by simp [Phase.unrecorded])
    | some event =>
      obtain rfl : ⟨s.inbound.remember payload.broadcastId,s.calls.insert id ⟨payload,.recording event⟩⟩ = s' :=
        Option.some.inj stepped
      exact quiet (framed_insert s id ⟨payload,.recording event⟩ _) (remember_eventLog _ _) (by simp) (by simp)
        (by simp [Phase.checked]) (by simp [Phase.unrecorded]) (by simp [Phase.unrecorded])
  | recording event =>
    cases stepped
    refine quiet (framed_erase s id _) ?_ ?_ (by simp) (by simp) (by simp) ?_
    · dsimp only
      unfold Inbound.recordSeen
      split <;> rfl
    · exact fun key inside => (mem_recordSeen _ _ _).mpr (Or.inl inside)
    · exact fun _ => Or.inl ((mem_recordSeen _ _ _).mpr (Or.inr rfl))

theorem Ingested.step (ingested : Ingested s) {event : Event} (undisturbed : Undisturbed s event)
    (stepped : s.step receiving event = some s') : Ingested s' := by
  cases event with
  | deliver id payloadDict senderChapterId =>
    rw [Ingress.step] at stepped
    split at stepped
    next => cases stepped
    next new =>
      split at stepped
      next =>
        cases stepped
        exact ingested
      next payload _ =>
        cases stepped
        have absent : ∀ call, s.calls.lookup id ≠ some call := fun call found => nomatch new.symm.trans found
        apply ingested.quiet (framed_insert s id ⟨payload,.asking⟩ s.inbound) rfl (fun _ inside => inside)
        · intro call' same checked
          cases same
          cases checked
        · intro call' same live
          cases same
          cases live
        · exact fun call found => absurd found (absent call)
  | advance id stored =>
    cases found : s.calls.lookup id with
    | none =>
      rw [Ingress.step,found] at stepped
      cases stepped
    | some call => exact ingested.advances undisturbed found stepped
  | restart =>
    cases stepped
    constructor
    · exact ingested.once
    · intro key inside
      rcases ingested.recorded key inside with known | ⟨id,call,found,pending,rfl⟩
      · exact Or.inl known
      · exact Or.inl (undisturbed id call found pending)
    · intro id call found
      cases found
    · intro id other call call' found
      cases found

/-- In every run whose checks and restarts are undisturbed, a broadcast is in the event
log at most once. -/
theorem broadcast_ingested_once (receiving : Receiving) {s : Ingress}
    (run : Runs.Reached (Ingress.step receiving) Undisturbed .fresh s) (key : String × String) :
    (s.inbound.eventLog.map ChapterBroadcastPayload.key).count key ≤ 1 := by
  have ingested : Ingested s := run.invariant ingested_fresh fun _ _ _ before undisturbed stepped =>
    before.step undisturbed stepped
  exact List.nodup_iff_count_le_one.mp ingested.once key

end Ingestion

def calm (s : Ingress) : Event → Bool
  | .deliver _ _ _ => true
  | .advance id _ =>
    (s.calls.lookup id).any (fun call => call.phase != .asking) || s.calls.entries.all fun entry => !entry.2.isOpen
  | .restart => s.calls.entries.isEmpty

theorem calm_undisturbed (s : Ingress) (event : Event) (quiet : calm s event = true) : Undisturbed s event := by
  have listed : ∀ other call', s.calls.lookup other = some call' →
      (⟨other,call'⟩ : Σ _ : Nat, Call) ∈ s.calls.entries :=
    fun other call' found => AList.mem_lookup_iff.mp found
  cases event with
  | deliver id payloadDict senderChapterId => trivial
  | advance id stored =>
    intro call found asking _ other call' found' _
    rcases Bool.or_eq_true_iff.mp quiet with busy | closed
    · rw [found,Option.any_some,asking] at busy
      cases busy
    · simpa using List.all_eq_true.mp closed _ (listed other call' found')
  | restart =>
    intro id call found
    have member := listed id call found
    rw [List.isEmpty_iff.mp quiet] at member
    cases member

def oakBroadcast : Dict :=
  [("broadcast_id",.str "b1"),("origin_chapter_id",.str "oak"),("sender_agent_id",.str "oak-agent"),
    ("title",.str "News"),
    ("body",.str "Rain")]

def elm : Receiving := ⟨"elm",true,fun _ => none⟩

theorem oak_ingested_once : ∃ s : Ingress, s.inbound.eventLog.length = 1 ∧
    (s.inbound.eventLog.map ChapterBroadcastPayload.key).count ("oak","b1") ≤ 1 := by
  have walked : ((Runs.walk (Ingress.step elm) calm ([.deliver 0 oakBroadcast "oak",.advance 0 true,.advance 0 true,
      .advance 0 true,.advance 0 true,.advance 0 true,.restart,.deliver 1 oakBroadcast "oak",.advance 1 true,
      .advance 1 true] : List Event) .fresh).map fun s => s.inbound.eventLog.length) = some 1 := by decide +kernel
  obtain ⟨s,walked,one⟩ := Option.map_eq_some_iff.mp walked
  exact ⟨s,one,broadcast_ingested_once elm (Runs.reached_walk calm_undisturbed _ .start walked) ("oak","b1")⟩

/-- Two deliveries side by side find the table empty, and both publish. -/
theorem concurrent_deliveries_publish_twice : ∃ s : Ingress, Runs.Reached (Ingress.step elm) Runs.Free .fresh s ∧
    ¬ (s.inbound.eventLog.map ChapterBroadcastPayload.key).count ("oak","b1") ≤ 1 := by
  have walked : ((Runs.walk (Ingress.step elm) (fun _ _ => true) ([.deliver 0 oakBroadcast "oak",
      .deliver 1 oakBroadcast "oak",.advance 0 true,.advance 1 true,.advance 0 true,.advance 1 true,.advance 0 true,
      .advance 1 true] : List Event) .fresh).map fun s =>
        (s.inbound.eventLog.map ChapterBroadcastPayload.key).count ("oak","b1")) = some 2 := by decide +kernel
  obtain ⟨s,walked,two⟩ := Option.map_eq_some_iff.mp walked
  refine ⟨s,Runs.reached_walk (fun _ _ _ => trivial) _ .start walked,?_⟩
  rw [two]
  decide

end Orrery.Federation
