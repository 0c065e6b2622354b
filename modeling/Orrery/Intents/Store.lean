import Mathlib.Data.Rat.Defs
import Orrery.Foundation.Tables
import Orrery.Foundation.Procs

/-! The tables of the intents and of the responses to them, and the calls that are made
on them. -/
namespace Orrery.Intents
open Foundation

inductive Status
  | active
  | matched
  | fulfilled
  | expired
  | cancelled
deriving DecidableEq

inductive Reply
  | accept
  | decline
  | counter
  | pending
deriving DecidableEq

inductive MatchDetail
  | projected (chapter : String) (score : ℚ) (skills : List String)
  | remote (chapter : String) (matchCount : Int) (skills : List String)
deriving DecidableEq

structure Intent where
  id : String
  chapterAgentId : String
  requesterAgentId : String
  intentText : String
  intentTags : List String
  status : Status
  matchesFound : Int
  matchDetails : List MatchDetail
  createdAt : String
  updatedAt : String
deriving DecidableEq

structure IntentResponse where
  id : String
  intentId : String
  responderAgentId : String
  responderChapterId : String
  response : Reply
  counterText : Option String
  consentedAt : Option String
  createdAt : String
deriving DecidableEq

def IntentResponse.key (r : IntentResponse) : String × String := (r.intentId,r.responderAgentId)

structure Agent where
  agentId : String
  name : String
  skills : List String
  profileType : String
deriving DecidableEq

structure Db where
  intents : Table Intent String Intent.id
  responses : Table IntentResponse (String × String) IntentResponse.key
  agents : Table Agent String Agent.agentId

def meets {α : Type} [DecidableEq α] (asked : Option α) (value : α) : Bool := asked.all fun a => a = value

structure IntentFilter where
  id : Option String := none
  requesterAgentId : Option String := none
  status : Option Status := none

def IntentFilter.admits (filter : IntentFilter) (row : Intent) : Bool :=
  meets filter.id row.id && meets filter.requesterAgentId row.requesterAgentId && meets filter.status row.status

structure ResponseFilter where
  intentId : Option String := none
  responderAgentId : Option String := none
  response : Option Reply := none

def ResponseFilter.admits (filter : ResponseFilter) (row : IntentResponse) : Bool :=
  meets filter.intentId row.intentId && meets filter.responderAgentId row.responderAgentId &&
    meets filter.response row.response

structure IntentChange where
  status : Status
  matchesFound : Option Int := none
  matchDetails : Option (List MatchDetail) := none
  updatedAt : Option String := none

def IntentChange.apply (change : IntentChange) (row : Intent) : Intent :=
  { row with
    status := change.status
    matchesFound := change.matchesFound.getD row.matchesFound
    matchDetails := change.matchDetails.getD row.matchDetails
    updatedAt := change.updatedAt.getD row.updatedAt }

theorem IntentChange.apply_id (change : IntentChange) (row : Intent) : (change.apply row).id = row.id := rfl

structure ResponseChange where
  response : Reply
  counterText : Option String
  consentedAt : Option String := none

def ResponseChange.apply (change : ResponseChange) (row : IntentResponse) : IntentResponse :=
  { row with
    response := change.response
    counterText := change.counterText
    consentedAt := change.consentedAt.or row.consentedAt }

theorem ResponseChange.apply_key (change : ResponseChange) (row : IntentResponse) : (change.apply row).key =
    row.key := rfl

structure Activity where
  agentId : String
  activityType : String
  partner : String
  intent : String
  intentId : String
deriving DecidableEq

inductive Act
  | getIntents (filter : IntentFilter)
  | patchIntents (filter : IntentFilter) (change : IntentChange)
  | postIntent (id chapterAgentId requesterAgentId intentText : String) (intentTags : List String)
  | getResponses (filter : ResponseFilter)
  | patchResponses (filter : ResponseFilter) (change : ResponseChange)
  | postResponse (intentId responderAgentId responderChapterId : String)
  | getAgents (agentId : String)
  | track (activity : Activity)

def Act.Answer : Act → Type
  | .getIntents _ => List Intent
  | .getResponses _ => List IntentResponse
  | .getAgents _ => List Agent
  | _ => Unit

/-- Whether the store carries the call out, and the values of its defaults. -/
structure Landing where
  works : Bool
  newId : String
  now : String

def Landing.answer {α : Type} (landing : Landing) (rows : List α) : List α := if landing.works then rows else []

section Changes
variable (db : Db)

def Db.patchIntents (filter : IntentFilter) (change : IntentChange) : Db :=
  { db with intents := db.intents.update filter.admits change.apply change.apply_id }

def Db.patchResponses (filter : ResponseFilter) (change : ResponseChange) : Db :=
  { db with responses := db.responses.update filter.admits change.apply change.apply_key }

def Db.addIntent (row : Intent) : Db := { db with intents := db.intents.insert row }

def Db.addResponse (row : IntentResponse) : Db := { db with responses := db.responses.insert row }

end Changes

def Db.after (db : Db) (landing : Landing) : Act → Db
  | .patchIntents filter change => if landing.works then db.patchIntents filter change else db
  | .postIntent id chapterAgentId requesterAgentId intentText intentTags =>
    if landing.works then db.addIntent ⟨id,chapterAgentId,requesterAgentId,intentText,intentTags,.active,0,[],
      landing.now,
      landing.now⟩ else db
  | .patchResponses filter change => if landing.works then db.patchResponses filter change else db
  | .postResponse intentId responderAgentId responderChapterId =>
    if landing.works then db.addResponse ⟨landing.newId,intentId,responderAgentId,responderChapterId,.pending,none,none,
      landing.now⟩ else db
  | _ => db

def Db.reply (db : Db) (landing : Landing) : (act : Act) → act.Answer
  | .getIntents filter => landing.answer (db.intents.select filter.admits)
  | .getResponses filter => landing.answer (db.responses.select filter.admits)
  | .getAgents agentId => landing.answer (db.agents.select fun agent => agent.agentId = agentId)
  | .patchIntents _ _ => ()
  | .postIntent _ _ _ _ _ => ()
  | .patchResponses _ _ => ()
  | .postResponse _ _ _ => ()
  | .track _ => ()

def exec (landing : Landing) (act : Act) (db : Db) : act.Answer × Db := (db.reply landing act,db.after landing act)

abbrev Program := Proc Act Act.Answer

def getIntents (filter : IntentFilter) : Program (List Intent) := .call (.getIntents filter) .done

def patchIntents (filter : IntentFilter) (change : IntentChange) : Program Unit :=
  .call (.patchIntents filter change) .done

def postIntent (id chapterAgentId requesterAgentId intentText : String) (intentTags : List String) : Program Unit :=
  .call (.postIntent id chapterAgentId requesterAgentId intentText intentTags) .done

def getResponses (filter : ResponseFilter) : Program (List IntentResponse) := .call (.getResponses filter) .done

def patchResponses (filter : ResponseFilter) (change : ResponseChange) : Program Unit :=
  .call (.patchResponses filter change) .done

def postResponse (intentId responderAgentId responderChapterId : String) : Program Unit :=
  .call (.postResponse intentId responderAgentId responderChapterId) .done

def getAgents (agentId : String) : Program (List Agent) := .call (.getAgents agentId) .done

def track (activity : Activity) : Program Unit := .call (.track activity) .done

section Effects
variable {db : Db} {landing : Landing} {act : Act}

theorem mem_answer {α : Type} {rows : List α} {row : α} (member : row ∈ landing.answer rows) : row ∈ rows := by
  rw [Landing.answer] at member
  split at member
  next => exact member
  next => cases member

theorem after_intent {k : String} {intent : Intent} (found : db.intents.row k = some intent) :
    ∃ intent', (db.after landing act).intents.row k = some intent' ∧
      intent'.requesterAgentId = intent.requesterAgentId ∧
      (intent' = intent ∨ ∃ filter change, act = .patchIntents filter change ∧ filter.admits intent = true ∧
        intent' = change.apply intent) := by
  cases act with
  | patchIntents filter change =>
    cases works : landing.works with
    | false => exact ⟨intent,by simp [Db.after,works,found],rfl,Or.inl rfl⟩
    | true =>
      have patched : (db.after landing (.patchIntents filter change)).intents.row k =
          some (if filter.admits intent then change.apply intent else intent) := by
        rw [Db.after,works,if_pos rfl,Db.patchIntents,Table.row_update,found]
        rfl
      by_cases asked : filter.admits intent = true
      · rw [if_pos asked] at patched
        exact ⟨_,patched,rfl,Or.inr ⟨filter,change,rfl,asked,rfl⟩⟩
      · rw [if_neg asked] at patched
        exact ⟨_,patched,rfl,Or.inl rfl⟩
  | postIntent id chapterAgentId requesterAgentId intentText intentTags =>
    refine ⟨intent,?_,rfl,Or.inl rfl⟩
    rw [Db.after]
    split
    next => rw [Db.addIntent,Table.row_insert,found,Option.some_or]
    next => exact found
  | patchResponses filter change =>
    refine ⟨intent,?_,rfl,Or.inl rfl⟩
    rw [Db.after]
    split <;> exact found
  | postResponse intentId responderAgentId responderChapterId =>
    refine ⟨intent,?_,rfl,Or.inl rfl⟩
    rw [Db.after]
    split <;> exact found
  | _ => exact ⟨intent,found,rfl,Or.inl rfl⟩

theorem after_response {k : String × String} {row : IntentResponse}
    (found : (db.after landing act).responses.row k = some row) :
    (∃ row', db.responses.row k = some row' ∧ (row = row' ∨ ∃ filter change, act = .patchResponses filter change ∧
      filter.admits row' = true ∧ row = change.apply row')) ∨
      ∃ chapter, act = .postResponse k.1 k.2 chapter := by
  cases act with
  | patchResponses filter change =>
    cases works : landing.works with
    | false =>
      rw [Db.after,works,if_neg (by simp)] at found
      exact Or.inl ⟨row,found,Or.inl rfl⟩
    | true =>
      rw [Db.after,works,if_pos rfl,Db.patchResponses,Table.row_update] at found
      obtain ⟨row',found',same⟩ := Option.map_eq_some_iff.mp found
      refine Or.inl ⟨row',found',?_⟩
      split at same
      next asked => exact Or.inr ⟨filter,change,rfl,asked,same.symm⟩
      next => exact Or.inl same.symm
  | postResponse intentId responderAgentId responderChapterId =>
    rw [Db.after] at found
    split at found
    next =>
      rw [Db.addResponse,Table.row_insert,Option.or_eq_some_iff] at found
      rcases found with found | ⟨_,found⟩
      · exact Or.inl ⟨row,found,Or.inl rfl⟩
      · split at found
        next same =>
          right
          exact ⟨responderChapterId,by rw [← same]; rfl⟩
        next => cases found
    next => exact Or.inl ⟨row,found,Or.inl rfl⟩
  | patchIntents filter change =>
    rw [Db.after] at found
    split at found <;> exact Or.inl ⟨row,found,Or.inl rfl⟩
  | postIntent id chapterAgentId requesterAgentId intentText intentTags =>
    rw [Db.after] at found
    split at found <;> exact Or.inl ⟨row,found,Or.inl rfl⟩
  | _ => exact Or.inl ⟨row,found,Or.inl rfl⟩

theorem after_response_kept {k : String × String} {row : IntentResponse} (found : db.responses.row k = some row) :
    ∃ row', (db.after landing act).responses.row k = some row' := by
  cases act with
  | patchResponses filter change =>
    rw [Db.after]
    split
    next => exact ⟨_,by rw [Db.patchResponses,Table.row_update,found]; rfl⟩
    next => exact ⟨row,found⟩
  | postResponse intentId responderAgentId responderChapterId =>
    refine ⟨row,?_⟩
    rw [Db.after]
    split
    next => rw [Db.addResponse,Table.row_insert,found,Option.some_or]
    next => exact found
  | patchIntents filter change =>
    refine ⟨row,?_⟩
    rw [Db.after]
    split <;> exact found
  | postIntent id chapterAgentId requesterAgentId intentText intentTags =>
    refine ⟨row,?_⟩
    rw [Db.after]
    split <;> exact found
  | _ => exact ⟨row,found⟩

end Effects

section Asking
variable {ok : Act → Prop} {rely : Db → Prop}

theorem along_getIntents {filter : IntentFilter} (allowed : ok (.getIntents filter)) :
    (getIntents filter).Along exec ok rely fun data => ∀ row ∈ data, filter.admits row = true ∧
      ∃ db, rely db ∧ db.intents.row row.id = some row := by
  refine ⟨allowed,?_⟩
  intro landing db inside row member
  obtain ⟨found,admitted⟩ := Table.mem_select.mp (mem_answer member)
  exact ⟨admitted,db,inside,found⟩

theorem along_getResponses {filter : ResponseFilter} (allowed : ok (.getResponses filter)) :
    (getResponses filter).Along exec ok rely fun data => ∀ row ∈ data, filter.admits row = true ∧
      ∃ db, rely db ∧ db.responses.row row.key = some row := by
  refine ⟨allowed,?_⟩
  intro landing db inside row member
  obtain ⟨found,admitted⟩ := Table.mem_select.mp (mem_answer member)
  exact ⟨admitted,db,inside,found⟩

theorem along_getAgents {agentId : String} (allowed : ok (.getAgents agentId)) :
    (getAgents agentId).Along exec ok rely fun _ => True := ⟨allowed,fun _ _ _ => trivial⟩

theorem along_patchIntents {filter : IntentFilter} {change : IntentChange}
    (allowed : ok (.patchIntents filter change)) :
    (patchIntents filter change).Along exec ok rely fun _ => True := ⟨allowed,fun _ _ _ => trivial⟩

end Asking

end Orrery.Intents
