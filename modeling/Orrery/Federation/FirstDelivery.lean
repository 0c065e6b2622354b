import Orrery.Federation.Broadcast

/-! What other peers can do to the first delivery of a broadcast: the table keeps origins
apart, the ring in front of it does not. -/
namespace Orrery.Federation
open Foundation Json

def ingest (receiving : Receiving) (inbound : Inbound) (history : List Delivery) : Inbound :=
  history.foldl (fun inbound delivery => (receiveBroadcast receiving inbound delivery).2) inbound

def own (chapterId : String) (history : List Delivery) : List Delivery :=
  history.filter fun delivery => delivery.senderChapterId = chapterId

def Carries (receiving : Receiving) (delivery : Delivery) (payload : ChapterBroadcastPayload) : Prop :=
  modelValidate receiving delivery.payloadDict = some payload ∧ payload.originChapterId = delivery.senderChapterId

/-- A valid broadcast of a peer, which neither the history nor the table has from it yet. -/
structure First (receiving : Receiving) (seen : List (String × String)) (history : List Delivery) (delivery : Delivery)
    (payload : ChapterBroadcastPayload) : Prop where
  initialized : receiving.initialized = true
  carries : Carries receiving delivery payload
  foreign : payload.originChapterId ≠ receiving.chapterId
  unsent : ∀ other ∈ history, ∀ payload', Carries receiving other payload' → payload'.key ≠ payload.key
  new : payload.key ∉ seen

variable {receiving : Receiving} {inbound : Inbound} {history : List Delivery} {delivery : Delivery}
  {payload : ChapterBroadcastPayload}

theorem screen_ok {ring : List String} {sender : String} {payloadDict : Dict} :
    screen receiving ring payloadDict sender = .ok payload ↔
      receiving.initialized = true ∧ modelValidate receiving payloadDict = some payload ∧
        payload.originChapterId ≠ receiving.chapterId ∧ payload.originChapterId = sender ∧
          payload.broadcastId ∉ ring := by
  unfold screen
  split
  next started =>
    rw [and_iff_right started]
    split
    next invalid =>
      rw [invalid]
      exact iff_of_false nofun nofun
    next found valid =>
      rw [valid,Option.some.injEq]
      constructor
      · intro passed
        split at passed
        next => cases passed
        next foreign =>
          split at passed
          next => cases passed
          next sent =>
            split at passed
            next => cases passed
            next fresh =>
              cases passed
              exact ⟨rfl,foreign,not_not.mp sent,fresh⟩
      · rintro ⟨rfl,foreign,sent,fresh⟩
        rw [if_neg foreign,if_neg (not_not.mpr sent),if_neg fresh]
  next stopped => exact iff_of_false nofun fun premise => stopped premise.1

theorem screen_error {ring : List String} {sender : String} {payloadDict : Dict} {reply : Reply}
    (stopped : screen receiving ring payloadDict sender = .error reply) : reply.ok = false := by
  unfold screen at stopped
  split at stopped
  next =>
    split at stopped
    next =>
      cases stopped
      rfl
    next =>
      split at stopped
      next =>
        cases stopped
        rfl
      next =>
        split at stopped
        next =>
          cases stopped
          rfl
        next =>
          split at stopped
          next =>
            cases stopped
            rfl
          next => cases stopped
  next =>
    cases stopped
    rfl

theorem mem_remember (inbound : Inbound) (broadcastId : String) :
    ∀ id ∈ (inbound.remember broadcastId).ring, id ∈ inbound.ring ∨ id = broadcastId := by
  intro id inside
  have further : id ∈ inbound.ring ++ [broadcastId] := List.mem_of_mem_drop inside
  rwa [List.mem_append,List.mem_singleton] at further

theorem receiveBroadcast_leaves (receiving : Receiving) (inbound : Inbound) (delivery : Delivery) :
    (receiveBroadcast receiving inbound delivery).2 = inbound ∨
      ∃ payload, Carries receiving delivery payload ∧
        (∀ id ∈ (receiveBroadcast receiving inbound delivery).2.ring, id ∈ inbound.ring ∨ id = payload.broadcastId) ∧
        ∀ key ∈ (receiveBroadcast receiving inbound delivery).2.seen, key ∈ inbound.seen ∨ key = payload.key := by
  unfold receiveBroadcast
  split
  next => exact Or.inl rfl
  next payload passed =>
    obtain ⟨_,valid,_,sent,_⟩ := screen_ok.mp passed
    split
    next => exact Or.inr ⟨payload,⟨valid,sent⟩,mem_remember _ _,fun key inside => Or.inl (by simpa using inside)⟩
    next =>
      split
      next =>
        refine Or.inr ⟨payload,⟨valid,sent⟩,?_,?_⟩
        · intro id inside
          dsimp only [Inbound.recordSeen] at inside
          split at inside <;> exact mem_remember _ _ id inside
        · intro key inside
          rw [mem_recordSeen,remember_seen] at inside
          exact inside
      next => exact Or.inl rfl

theorem ingest_leaves (receiving : Receiving) (history : List Delivery) : ∀ inbound : Inbound,
    (∀ id ∈ (ingest receiving inbound history).ring, id ∈ inbound.ring ∨
      ∃ delivery ∈ history, ∃ payload, Carries receiving delivery payload ∧ id = payload.broadcastId) ∧
    ∀ key ∈ (ingest receiving inbound history).seen, key ∈ inbound.seen ∨
      ∃ delivery ∈ history, ∃ payload, Carries receiving delivery payload ∧ key = payload.key := by
  induction history with
  | nil => exact fun _ => ⟨fun _ => Or.inl,fun _ => Or.inl⟩
  | cons first rest ih =>
    intro inbound
    obtain ⟨ring,seen⟩ := ih (receiveBroadcast receiving inbound first).2
    have step := receiveBroadcast_leaves receiving inbound first
    constructor
    · intro id inside
      rcases ring id inside with old | ⟨delivery,member,found⟩
      · rcases step with same | ⟨payload,carries,ids,_⟩
        · exact Or.inl (same ▸ old)
        · exact (ids id old).imp_right fun same => ⟨first,List.mem_cons_self,payload,carries,same⟩
      · exact Or.inr ⟨delivery,List.mem_cons_of_mem _ member,found⟩
    · intro key inside
      rcases seen key inside with old | ⟨delivery,member,found⟩
      · rcases step with same | ⟨payload,carries,_,keys⟩
        · exact Or.inl (same ▸ old)
        · exact (keys key old).imp_right fun same => ⟨first,List.mem_cons_self,payload,carries,same⟩
      · exact Or.inr ⟨delivery,List.mem_cons_of_mem _ member,found⟩

theorem First.accepted {seen : List (String × String)} {log : List ChapterBroadcastPayload}
    (first : First receiving seen history delivery payload) :
    (receiveBroadcast receiving (ingest receiving ⟨[],seen,log⟩ history) delivery).1.ok = true ↔
      delivery.stored = true ∧ payload.broadcastId ∉ (ingest receiving ⟨[],seen,log⟩ history).ring := by
  have unseen : payload.key ∉ (ingest receiving ⟨[],seen,log⟩ history).seen := by
    intro inside
    rcases (ingest_leaves receiving history ⟨[],seen,log⟩).2 _ inside with old | ⟨other,member,payload',carries,same⟩
    · exact first.new old
    · exact first.unsent other member payload' carries same.symm
  by_cases fresh : payload.broadcastId ∉ (ingest receiving ⟨[],seen,log⟩ history).ring
  · have passed := screen_ok.mpr ⟨first.initialized,first.carries.1,first.foreign,first.carries.2,fresh⟩
    unfold receiveBroadcast
    rw [passed]
    dsimp only
    rw [if_neg unseen]
    split
    next stored => exact iff_of_true rfl ⟨stored,fresh⟩
    next lost => exact iff_of_false nofun fun premise => lost premise.1
  · refine iff_of_false ?_ fun premise => fresh premise.2
    unfold receiveBroadcast
    split
    next reply stopped =>
      rw [screen_error stopped]
      decide
    next payload' passed =>
      obtain ⟨_,valid,_,_,fresh'⟩ := screen_ok.mp passed
      rw [first.carries.1] at valid
      cases valid
      exact absurd fresh' fresh

theorem First.own {seen : List (String × String)} (first : First receiving seen history delivery payload)
    (chapterId : String) : First receiving seen (own chapterId history) delivery payload where
  initialized := first.initialized
  carries := first.carries
  foreign := first.foreign
  unsent other member := first.unsent other (List.mem_of_mem_filter member)
  new := first.new

theorem First.suppressor {seen : List (String × String)} {log : List ChapterBroadcastPayload}
    (first : First receiving seen history delivery payload)
    (remembered : payload.broadcastId ∈ (ingest receiving ⟨[],seen,log⟩ history).ring) :
    ∃ other ∈ history, other.senderChapterId ≠ delivery.senderChapterId ∧
      ∃ payload', Carries receiving other payload' ∧ payload'.broadcastId = payload.broadcastId := by
  rcases (ingest_leaves receiving history ⟨[],seen,log⟩).1 _ remembered with old | ⟨other,member,payload',carries,same⟩
  · cases old
  · refine ⟨other,member,?_,payload',carries,same.symm⟩
    intro sender
    apply first.unsent other member payload' carries
    have origin : payload'.originChapterId = payload.originChapterId := by rw [carries.2,first.carries.2,sender]
    rw [ChapterBroadcastPayload.key,ChapterBroadcastPayload.key,origin,same]

/-- The other peers make no difference to the acceptance of a first delivery exactly when
its id is not among those that the ring remembers. -/
theorem first_delivery_independent_iff {seen : List (String × String)} (log : List ChapterBroadcastPayload)
    (first : First receiving seen history delivery payload) :
    (receiveBroadcast receiving (ingest receiving ⟨[],seen,log⟩ history) delivery).1.ok =
        (receiveBroadcast receiving (ingest receiving ⟨[],seen,log⟩ (own delivery.senderChapterId history))
          delivery).1.ok ↔
      (delivery.stored = true → payload.broadcastId ∉ (ingest receiving ⟨[],seen,log⟩ history).ring) := by
  have alone : (receiveBroadcast receiving (ingest receiving ⟨[],seen,log⟩ (own delivery.senderChapterId history))
      delivery).1.ok = true ↔ delivery.stored = true := by
    rw [(first.own _).accepted]
    refine and_iff_left ?_
    intro remembered
    obtain ⟨other,member,foreign,_⟩ := (first.own _).suppressor remembered
    exact foreign (of_decide_eq_true (List.mem_filter.mp member).2)
  rw [Bool.eq_iff_iff,first.accepted,alone]
  constructor
  · exact fun same stored => (same.mpr stored).2
  · exact fun fresh => ⟨fun accepted => accepted.1,fun stored => ⟨stored,fresh stored⟩⟩

def ashBroadcast : Dict :=
  [("broadcast_id",.str "b1"),("origin_chapter_id",.str "ash"),("sender_agent_id",.str "ash-agent"),
    ("title",.str "News"),
    ("body",.str "Rain")]

theorem oak_first (history : List Delivery) (others : ∀ other ∈ history, other.senderChapterId ≠ "oak") :
    First elm [] history ⟨oakBroadcast,"oak",true⟩
      ⟨none,none,"b1","oak","oak-agent","News","Rain",[],"all"⟩ where
  initialized := rfl
  carries := ⟨by decide +kernel,rfl⟩
  foreign := by decide
  unsent other member payload' carries same := by
    apply others other member
    rw [← carries.2]
    exact congrArg Prod.fst same
  new := List.not_mem_nil

theorem oak_independent :
    (receiveBroadcast elm (ingest elm ⟨[],[],[]⟩ []) ⟨oakBroadcast,"oak",true⟩).1.ok =
        (receiveBroadcast elm (ingest elm ⟨[],[],[]⟩ (own "oak" [])) ⟨oakBroadcast,"oak",true⟩).1.ok ↔
      (true = true → "b1" ∉ (ingest elm ⟨[],[],[]⟩ []).ring) :=
  first_delivery_independent_iff [] (oak_first [] nofun)

/-- A peer that sends the id first has the other's broadcast refused as a duplicate. -/
theorem ash_suppresses_oak : First elm [] [⟨ashBroadcast,"ash",true⟩] ⟨oakBroadcast,"oak",true⟩
      ⟨none,none,"b1","oak","oak-agent","News","Rain",[],"all"⟩ ∧
    (receiveBroadcast elm (ingest elm ⟨[],[],[]⟩ [⟨ashBroadcast,"ash",true⟩]) ⟨oakBroadcast,"oak",true⟩).1.ok ≠
      (receiveBroadcast elm (ingest elm ⟨[],[],[]⟩ (own "oak" [⟨ashBroadcast,"ash",true⟩]))
        ⟨oakBroadcast,"oak",true⟩).1.ok := by
  refine ⟨oak_first _ ?_,by decide +kernel⟩
  intro other member
  rw [List.mem_singleton.mp member]
  decide

end Orrery.Federation
