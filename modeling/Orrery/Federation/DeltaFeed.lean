import Mathlib.Data.List.AList
import Orrery.Foundation.ChangeFeed
import Orrery.Foundation.Json
import Orrery.Foundation.Runs

/-! The delta feed of a chapter's listed members (server/sm_bridge_adapter.py) and a
consumer that follows it over restarts, which leave the feed with nothing but upserts of
the members there are. -/
namespace Orrery.Federation
open Foundation Json ChangeFeed

structure Member where
  fields : Dict
  unnamed : get fields "agent_id" = none

/-- The mounted converter: the host of its public URL, and whether the models of
sm-bridge take what `to_sm` makes of an agent. -/
structure Converter where
  host : String
  accepts : Dict → Bool

def consentOf (member : Dict) : Option Dict :=
  match get member "listing" with
  | some (.obj raw) =>
    match get raw "listed" with
    | some (.bool true) => some raw
    | _ => none
  | _ => none

def discoverable (memberId : String) (member : Dict) : Bool :=
  if "TEST-".toList.isPrefixOf memberId.toList || ((get member "is_demo").getD .null).truthy then false
  else (consentOf member).isSome

def agentOf (memberId : String) (member : Dict) : Dict :=
  member.foldl (fun d field => setItem d field.1 field.2) [("agent_id",.str memberId)]

def agentDid (host mid : String) : String :=
  if mid = "" then "did:web:" ++ host else "did:web:" ++ host ++ ":agents:" ++ mid

def Converter.toSm (converter : Converter) (agent : Dict) : Option String :=
  let mid := match get agent "agent_id" with
    | some (.str mid) => mid
    | _ => ""
  if converter.accepts agent then some (agentDid converter.host mid) else none

structure Feed where
  members : AList (fun _ : String => Member)
  store : Store String
  reader : Reader String

def Feed.founded : Feed := ⟨∅,⟨0,[]⟩,⟨0,[]⟩⟩

def Member.withListing (member : Member) (terms : Dict) (listed : Bool) : Member where
  fields := setItem member.fields "listing" (if listed then .obj (setItem terms "listed" (.bool true)) else .null)
  unnamed := by rw [get_setItem_other _ _ _ _ (by decide),member.unnamed]

/-- A registration or an update, a consent, a removal, each with its delta; a restart,
whose base is `ahead` beyond the number after the last; the consumer reading up to `n` entries. -/
inductive Change
  | register (memberId : String) (member : Member)
  | consent (memberId : String) (terms : Dict) (listed : Bool)
  | remove (memberId : String)
  | restart (ahead : Nat)
  | read (n : Nat)

section Model
variable (converter : Converter)

def deliver (action : Action) (memberId : String) (member : Member) (store : Store String) : Store String :=
  match converter.toSm (agentOf memberId member.fields) with
  | some did => store.add action did
  | none => store

def recordMemberDelta (action : Action) (memberId : String) (member : Member) (store : Store String) : Store String :=
  if action = .upsert ∧ ¬ discoverable memberId member.fields then store
  else deliver converter action memberId member store

def seedMembers (store : Store String) (members : List (Σ _ : String, Member)) : Store String :=
  members.foldl (fun store entry =>
    if discoverable entry.1 entry.2.fields then deliver converter .upsert entry.1 entry.2 store else store) store

def seedDeltaStore (members : AList (fun _ : String => Member)) (baseSeq : Nat) (store : Store String) : Store String :=
  seedMembers converter ⟨max baseSeq store.seq,store.deltas⟩ members.entries

def Feed.step (s : Feed) : Change → Feed
  | .register memberId member =>
    { s with members := s.members.insert memberId member
             store := recordMemberDelta converter .upsert memberId member s.store }
  | .consent memberId terms listed =>
    match s.members.lookup memberId with
    | none => s
    | some member =>
      let member := member.withListing terms listed
      { s with members := s.members.insert memberId member
               store := recordMemberDelta converter (if listed then .upsert else .delete) memberId member s.store }
  | .remove memberId =>
    match s.members.lookup memberId with
    | none => s
    | some member =>
      { s with members := s.members.erase memberId
               store := recordMemberDelta converter .delete memberId member s.store }
  | .restart ahead => { s with store := seedDeltaStore converter s.members (s.store.seq+1+ahead) ⟨0,[]⟩ }
  | .read n => { s with reader := s.reader.read s.store n }

def Feed.discovered (s : Feed) : Set String :=
  {did | ∃ memberId member, s.members.lookup memberId = some member ∧ discoverable memberId member.fields ∧
    did = agentDid converter.host memberId}

/-- However the consumer reads on, when nothing is left to read it holds the members
that may be shown. -/
def Feed.Converges (s : Feed) : Prop :=
  ∀ n, s.store.since (s.reader.read s.store n).cursor = [] →
    {did | did ∈ (s.reader.read s.store n).held} = s.discovered converter

end Model

section Ids
variable {converter : Converter}

theorem agentDid_injective (host : String) : Function.Injective (agentDid host) := by
  intro a b same
  unfold agentDid at same
  have tail (c : String) (filled : c ≠ "") : "did:web:" ++ host ≠ "did:web:" ++ host ++ ":agents:" ++ c := by
    intro equal
    have lengths := congrArg String.length equal
    have marker : ":agents:".length = 8 := rfl
    simp only [String.length_append] at lengths
    omega
  split at same
  next empty =>
    split at same
    next also => rw [empty,also]
    next filled => exact absurd same (tail b filled)
  next filled =>
    split at same
    next empty => exact absurd same.symm (tail a filled)
    next => simpa using same

theorem get_fold_absent {key : String} (fields : Dict) : ∀ d : Dict, get fields key = none →
    get (fields.foldl (fun d field => setItem d field.1 field.2) d) key = get d key := by
  induction fields with
  | nil => exact fun _ _ => rfl
  | cons field rest ih =>
    intro d absent
    rw [get_cons] at absent
    split at absent
    next => cases absent
    next other =>
      have apart : key ≠ field.1 := by
        intro same
        rw [same,beq_self_eq_true] at other
        exact other rfl
      rw [List.foldl_cons,ih _ absent,get_setItem_other _ _ _ _ apart]

theorem toSm_agent (memberId : String) (member : Member) : converter.toSm (agentOf memberId member.fields) =
    if converter.accepts (agentOf memberId member.fields) then some (agentDid converter.host memberId) else none := by
  have named : get (agentOf memberId member.fields) "agent_id" = some (.str memberId) := by
    rw [agentOf,get_fold_absent _ _ member.unnamed]
    rfl
  rw [Converter.toSm,named]

theorem withdrawn (memberId : String) (member : Member) (terms : Dict) :
    discoverable memberId (member.withListing terms false).fields = false := by
  have none : consentOf (member.withListing terms false).fields = none := by
    rw [consentOf,Member.withListing,get_setItem_self]
    rfl
  rw [discoverable,none]
  split
  · rfl
  · rfl

end Ids

section Effects
variable {converter : Converter} {reader : Reader String} {store : Store String}

theorem Store.Numbered.deliver (numbered : store.Numbered) (action : Action) (memberId : String) (member : Member) :
    (deliver converter action memberId member store).Numbered := by
  unfold Federation.deliver
  split
  · exact numbered.add _ _
  · exact numbered

theorem seq_deliver (action : Action) (memberId : String) (member : Member) :
    store.seq ≤ (deliver converter action memberId member store).seq := by
  unfold deliver
  split
  · exact Nat.le_succ _
  · exact Nat.le_refl _

theorem outcome_deliver (behind : reader.cursor ≤ store.seq) (action : Action) (memberId : String) (member : Member) :
    {did | did ∈ reader.outcome (deliver converter action memberId member store)} =
      if converter.accepts (agentOf memberId member.fields) then
        action.on (agentDid converter.host memberId) {did | did ∈ reader.outcome store}
      else {did | did ∈ reader.outcome store} := by
  rw [deliver,toSm_agent]
  split
  next accepted =>
    split at accepted
    next holds =>
      cases accepted
      rw [if_pos holds]
      exact reader.outcome_add behind action _
    next => cases accepted
  next refused =>
    split at refused
    next => cases refused
    next fails => rw [if_neg fails]

end Effects

section Discovery
variable {converter : Converter} {s : Feed}

def Feed.Shows (s : Feed) (memberId : String) : Prop :=
  ∃ member, s.members.lookup memberId = some member ∧ discoverable memberId member.fields

theorem discovered_image : s.discovered converter = agentDid converter.host '' {memberId | s.Shows memberId} := by
  ext did
  constructor
  · rintro ⟨memberId,member,found,shown,rfl⟩
    exact ⟨memberId,⟨member,found,shown⟩,rfl⟩
  · rintro ⟨memberId,⟨member,found,shown⟩,rfl⟩
    exact ⟨memberId,member,found,shown,rfl⟩

theorem mem_discovered (memberId : String) :
    agentDid converter.host memberId ∈ s.discovered converter ↔ s.Shows memberId := by
  rw [discovered_image,(agentDid_injective converter.host).mem_set_image]
  rfl

theorem discovered_changed (s s' : Feed) (memberId : String)
    (others : ∀ other, other ≠ memberId → s'.members.lookup other = s.members.lookup other)
    [Decidable (s'.Shows memberId)] :
    s'.discovered converter = if s'.Shows memberId then insert (agentDid converter.host memberId)
    (s.discovered converter)
      else s.discovered converter \ {agentDid converter.host memberId} := by
  have frame : ∀ other, other ≠ memberId → (s'.Shows other ↔ s.Shows other) := by
    intro other apart
    rw [Feed.Shows,Feed.Shows,others other apart]
  rw [discovered_image,discovered_image]
  split
  next shown =>
    rw [← Set.image_insert_eq]
    congr 1
    ext other
    by_cases same : other = memberId
    · simpa [same] using shown
    · simpa [same] using frame other same
  next hidden =>
    rw [← Set.image_singleton,← Set.image_sdiff (agentDid_injective converter.host)]
    congr 1
    ext other
    by_cases same : other = memberId
    · simpa [same] using hidden
    · simpa [same] using frame other same

theorem discovered_insert (memberId : String) (member : Member) (store : Store String) :
    ({ s with members := s.members.insert memberId member, store := store } : Feed).discovered converter =
      if discoverable memberId member.fields then insert (agentDid converter.host memberId) (s.discovered converter)
      else s.discovered converter \ {agentDid converter.host memberId} := by
  classical
  rw [discovered_changed s _ memberId fun other apart => AList.lookup_insert_ne apart]
  simp [Feed.Shows]

theorem discovered_erase (memberId : String) (store : Store String) :
    ({ s with members := s.members.erase memberId, store := store } : Feed).discovered converter =
      s.discovered converter \ {agentDid converter.host memberId} := by
  classical
  rw [discovered_changed s _ memberId fun other apart => AList.lookup_erase_ne apart]
  simp [Feed.Shows]

end Discovery

section Seeding
variable {converter : Converter} {reader : Reader String}

theorem seedMembers_numbered (members : List (Σ _ : String, Member)) : ∀ {store : Store String}, store.Numbered →
    (seedMembers converter store members).Numbered ∧ store.seq ≤ (seedMembers converter store members).seq := by
  induction members with
  | nil => exact fun numbered => ⟨numbered,Nat.le_refl _⟩
  | cons entry members ih =>
    intro store numbered
    rw [seedMembers,List.foldl_cons]
    split
    · obtain ⟨further,later⟩ := ih (Store.Numbered.deliver numbered .upsert entry.1 entry.2)
      exact ⟨further,(seq_deliver .upsert entry.1 entry.2).trans later⟩
    · exact ih numbered

theorem outcome_seedMembers (members : List (Σ _ : String, Member)) : ∀ {store : Store String},
    reader.cursor ≤ store.seq → {did | did ∈ reader.outcome (seedMembers converter store members)} =
      {did | did ∈ reader.outcome store} ∪ {did | ∃ entry ∈ members, discoverable entry.1 entry.2.fields ∧
        converter.accepts (agentOf entry.1 entry.2.fields) ∧ did = agentDid converter.host entry.1} := by
  induction members with
  | nil =>
    intro store _
    simp [seedMembers]
  | cons entry members ih =>
    intro store behind
    rw [seedMembers,List.foldl_cons]
    have delivered := @outcome_deliver converter _ _ behind .upsert entry.1 entry.2
    split
    next shown =>
      rw [← seedMembers,ih (behind.trans (seq_deliver .upsert entry.1 entry.2)),delivered]
      ext did
      by_cases accepted : converter.accepts (agentOf entry.1 entry.2.fields) = true
      · simp [shown,accepted,Action.on,or_assoc,or_left_comm]
      · simp [accepted]
    next hidden =>
      rw [← seedMembers,ih behind]
      ext did
      simp [hidden]

end Seeding

section Convergence
variable {converter : Converter} {s : Feed}

structure Feed.Numbered (s : Feed) : Prop where
  store : s.store.Numbered
  behind : s.reader.cursor ≤ s.store.seq

theorem Feed.converges_iff (numbered : s.Numbered) :
    s.Converges converter ↔ {did | did ∈ s.reader.outcome s.store} = s.discovered converter := by
  constructor
  · intro converges
    have left := @since_taken _ _ s.reader s.store numbered.store (s.store.since s.reader.cursor).length
    rw [List.drop_length] at left
    rw [← Reader.outcome_read numbered.store (s.store.since s.reader.cursor).length,Reader.outcome_behind left]
    exact converges _ left
  · intro same n left
    rw [← same,← Reader.outcome_read numbered.store n,Reader.outcome_behind left]

def UpsertKept (converter : Converter) (s : Feed) (memberId : String) (member : Member) : Prop :=
  if discoverable memberId member.fields then
    converter.accepts (agentOf memberId member.fields) ∨ s.Shows memberId
  else ¬ s.Shows memberId

def DeleteKept (converter : Converter) (s : Feed) (memberId : String) (member : Member) : Prop :=
  converter.accepts (agentOf memberId member.fields) ∨ ¬ s.Shows memberId

/-- When a change keeps the feed true: an update of a member who was shown leaves it
shown, and at a restart the consumer holds no member who is not shown any more. -/
def Change.Kept (converter : Converter) (s : Feed) : Change → Prop
  | .register memberId member => UpsertKept converter s memberId member
  | .consent memberId terms listed => ∀ member, s.members.lookup memberId = some member →
      if listed then UpsertKept converter s memberId (member.withListing terms listed)
      else DeleteKept converter s memberId (member.withListing terms listed)
  | .remove memberId => ∀ member, s.members.lookup memberId = some member → DeleteKept converter s memberId member
  | .restart _ => (∀ did ∈ s.reader.held, did ∈ s.discovered converter) ∧
      ∀ memberId member, s.members.lookup memberId = some member → discoverable memberId member.fields →
        converter.accepts (agentOf memberId member.fields) ∨ agentDid converter.host memberId ∈ s.reader.held
  | .read _ => True

theorem Feed.Numbered.upsert (numbered : s.Numbered) (memberId : String) (member : Member)
    (converges : {did | did ∈ s.reader.outcome s.store} = s.discovered converter) :
    {did | did ∈ s.reader.outcome (recordMemberDelta converter .upsert memberId member s.store)} =
      (if discoverable memberId member.fields then insert (agentDid converter.host memberId) (s.discovered converter)
        else s.discovered converter \ {agentDid converter.host memberId}) ↔ UpsertKept converter s memberId member := by
  rw [recordMemberDelta,UpsertKept,← @mem_discovered converter]
  by_cases shown : discoverable memberId member.fields = true
  · rw [if_neg (by simp [shown]),outcome_deliver numbered.behind,converges,if_pos shown,if_pos shown]
    by_cases accepted : converter.accepts (agentOf memberId member.fields) = true
    · simp [accepted,Action.on]
    · rw [if_neg accepted,eq_comm,Set.insert_eq_self]
      simp [accepted]
  · rw [if_pos (by simp [shown]),converges,if_neg shown,if_neg shown,eq_comm,sdiff_eq_left,Set.disjoint_singleton_right]

theorem Feed.Numbered.delete (numbered : s.Numbered) (memberId : String) (member : Member)
    (converges : {did | did ∈ s.reader.outcome s.store} = s.discovered converter) :
    {did | did ∈ s.reader.outcome (recordMemberDelta converter .delete memberId member s.store)} =
      s.discovered converter \ {agentDid converter.host memberId} ↔ DeleteKept converter s memberId member := by
  rw [recordMemberDelta,DeleteKept,← @mem_discovered converter,if_neg (by simp),
    outcome_deliver numbered.behind,converges]
  by_cases accepted : converter.accepts (agentOf memberId member.fields) = true
  · simp [accepted,Action.on]
  · rw [if_neg accepted,eq_comm,sdiff_eq_left,Set.disjoint_singleton_right]
    simp [accepted]

theorem Feed.Numbered.restart (numbered : s.Numbered) (ahead : Nat) :
    {did | did ∈ s.reader.outcome (seedDeltaStore converter s.members (s.store.seq+1+ahead) ⟨0,[]⟩)} =
      s.discovered converter ↔ (Change.restart ahead).Kept converter s := by
  have behind : s.reader.cursor ≤ max (s.store.seq+1+ahead) 0 := by
    have := numbered.behind
    omega
  have fresh : s.reader.outcome ⟨max (s.store.seq+1+ahead) 0,[]⟩ = s.reader.held := rfl
  rw [seedDeltaStore,outcome_seedMembers _ behind,fresh]
  constructor
  · intro same
    constructor
    · intro did held
      rw [← same]
      exact Or.inl held
    · intro memberId member found shown
      have inside : agentDid converter.host memberId ∈ s.discovered converter := ⟨memberId,member,found,shown,rfl⟩
      rw [← same] at inside
      rcases inside with held | ⟨⟨other,member'⟩,entry,_,accepted,equal⟩
      · exact Or.inr held
      · obtain rfl := agentDid_injective _ equal
        have again := AList.mem_lookup_iff.mpr entry
        rw [found] at again
        obtain rfl := Option.some.inj again
        exact Or.inl accepted
  · rintro ⟨only,all⟩
    ext did
    constructor
    · rintro (held | ⟨⟨memberId,member⟩,entry,shown,_,rfl⟩)
      · exact only did held
      · exact ⟨memberId,member,AList.mem_lookup_iff.mpr entry,shown,rfl⟩
    · rintro ⟨memberId,member,found,shown,rfl⟩
      rcases all memberId member found shown with accepted | held
      · exact Or.inr ⟨⟨memberId,member⟩,AList.mem_lookup_iff.mp found,shown,accepted,rfl⟩
      · exact Or.inl held

theorem recorded_numbered (numbered : s.Numbered) (action : Action) (memberId : String) (member : Member) :
    (recordMemberDelta converter action memberId member s.store).Numbered ∧
      s.reader.cursor ≤ (recordMemberDelta converter action memberId member s.store).seq := by
  unfold recordMemberDelta
  split
  · exact ⟨numbered.store,numbered.behind⟩
  · exact ⟨Store.Numbered.deliver numbered.store _ _ _,numbered.behind.trans (seq_deliver _ _ _)⟩

theorem Feed.Numbered.step (s : Feed) (change : Change) (numbered : s.Numbered) :
    (s.step converter change).Numbered := by
  cases change with
  | register memberId member =>
    obtain ⟨store,behind⟩ := recorded_numbered numbered .upsert memberId member
    exact ⟨store,behind⟩
  | consent memberId terms listed =>
    rw [Feed.step]
    split
    · exact numbered
    next member _ =>
      obtain ⟨store,behind⟩ := recorded_numbered numbered _ memberId (member.withListing terms listed)
      exact ⟨store,behind⟩
  | remove memberId =>
    rw [Feed.step]
    split
    · exact numbered
    next member _ =>
      obtain ⟨store,behind⟩ := recorded_numbered numbered .delete memberId member
      exact ⟨store,behind⟩
  | restart ahead =>
    obtain ⟨store,later⟩ := @seedMembers_numbered converter s.members.entries _
      (Store.numbered_empty (max (s.store.seq+1+ahead) 0))
    refine ⟨store,le_trans ?_ later⟩
    have := numbered.behind
    change s.reader.cursor ≤ max (s.store.seq+1+ahead) 0
    omega
  | read n => exact ⟨numbered.store,Reader.read_cursor numbered.store numbered.behind n⟩

theorem converges_step (s : Feed) (change : Change) (numbered : s.Numbered) (converges : s.Converges converter) :
    (s.step converter change).Converges converter ↔ change.Kept converter s := by
  have outcome := (Feed.converges_iff numbered).mp converges
  rw [Feed.converges_iff (Feed.Numbered.step s change numbered)]
  cases change with
  | register memberId member =>
    rw [Feed.step,discovered_insert]
    exact numbered.upsert memberId member outcome
  | consent memberId terms listed =>
    rw [Feed.step,Change.Kept]
    split
    next absent =>
      refine iff_of_true outcome ?_
      intro member found
      rw [absent] at found
      cases found
    next member found =>
      rw [discovered_insert]
      have single : (∀ other, s.members.lookup memberId = some other →
          if listed then UpsertKept converter s memberId (other.withListing terms listed)
          else DeleteKept converter s memberId (other.withListing terms listed)) ↔
          if listed then UpsertKept converter s memberId (member.withListing terms listed)
          else DeleteKept converter s memberId (member.withListing terms listed) := by
        rw [found]
        simp
      rw [single]
      cases listed with
      | true => exact numbered.upsert memberId _ outcome
      | false =>
        rw [withdrawn,if_neg Bool.false_ne_true,if_neg Bool.false_ne_true,if_neg Bool.false_ne_true]
        exact numbered.delete memberId _ outcome
  | remove memberId =>
    rw [Feed.step,Change.Kept]
    split
    next absent =>
      refine iff_of_true outcome ?_
      intro member found
      rw [absent] at found
      cases found
    next member found =>
      rw [discovered_erase,found]
      simpa using numbered.delete memberId member outcome
  | restart ahead => exact numbered.restart ahead
  | read n =>
    refine iff_of_true ?_ trivial
    rw [Feed.step,Reader.outcome_read numbered.store]
    exact outcome

/-- The consumer converges after every change of a run exactly when no update hides a
member who was shown and no restart comes before the consumer has dropped who is gone. -/
theorem feed_converges_iff (converter : Converter) (changes : List Change) :
    (∀ k, ((changes.take k).foldl (Feed.step converter) .founded).Converges converter) ↔
      ∀ (k : Nat) change, changes[k]? = some change →
        change.Kept converter ((changes.take k).foldl (Feed.step converter) .founded) := by
  have numbered : Feed.founded.Numbered := ⟨Store.numbered_empty 0,Nat.le_refl _⟩
  have converges : Feed.founded.Converges converter := by
    rw [Feed.converges_iff numbered]
    ext did
    simp [Feed.founded,Feed.discovered,Reader.outcome,Store.since]
  exact Runs.always_iff Feed.Numbered.step converges_step changes _ numbered converges

end Convergence

def listedMember : Member where
  fields := [("name",.str "Alice"),("listing",.obj [("listed",.bool true),("agent_url",.str "https://alice.example")])]
  unnamed := by decide

def forgottenRemoval : List Change :=
  [.register "alice" listedMember,.read 1,.remove "alice",.restart 0,.read 1]

theorem forgottenRemoval_stays_listed :
    let s := forgottenRemoval.foldl (Feed.step ⟨"chapter.example",fun _ => true⟩) .founded
    s.store.since s.reader.cursor = [] ∧
      {did | did ∈ s.reader.held} ≠ s.discovered ⟨"chapter.example",fun _ => true⟩ := by
  intro s
  have held : s.reader.held = ["did:web:chapter.example:agents:alice"] := by decide
  have gone : ∀ memberId, s.members.lookup memberId = none := by
    intro memberId
    have members : s.members = (AList.insert "alice" listedMember ∅).erase "alice" := rfl
    rw [members]
    by_cases same : memberId = "alice"
    · rw [same,AList.lookup_erase]
    · rw [AList.lookup_erase_ne same,AList.lookup_insert_ne same,AList.lookup_empty]
  refine ⟨by decide,?_⟩
  intro same
  have inside : "did:web:chapter.example:agents:alice" ∈ s.discovered ⟨"chapter.example",fun _ => true⟩ := by
    rw [← same,held]
    exact List.mem_singleton_self _
  obtain ⟨memberId,member,found,_⟩ := inside
  rw [gone memberId] at found
  cases found

end Orrery.Federation
