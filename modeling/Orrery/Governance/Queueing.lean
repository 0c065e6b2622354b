import Mathlib.Data.Set.Finite.Basic
import Orrery.Foundation.FirstRows
import Orrery.Foundation.JsonCompare
import Orrery.Governance.SingleUse

/-! When a call finds the approval that it has, and when one that is made again and again
leaves one request: both read only the first rows of the table before they look for the
key. -/
namespace Orrery.Governance
open Foundation Json

def requestsOf (chapter kind : String) (status : ApprovalStatus) : ApprovalFilter :=
  { chapterId := some chapter, kind := some kind, status := some status }

section Definitions
variable (chapter kind actorAgentId actionKey : String) (payload : Dict) (ttl : Option Moment) (status : ApprovalStatus)
  (env : ℕ → Landing) (db : Db)

def requests : List Approval := db.approvals.select (requestsOf chapter kind status).admits

def keyedRows : List Approval := (requests chapter kind status db).filter (keyedBy actionKey)

def others : ℕ := (requests chapter kind status db).countP fun row => !keyedBy actionKey row

def ahead (row : Approval) : ℕ :=
  (requests chapter kind .approved db).countP fun other => !keyedBy actionKey other && earlier other row

structure Working : Prop where
  lands : ∀ n, (env n).lands = true
  answers : ∀ n, (env n).answers = true
  fresh : ∀ n, db.approvals.row (env n).newId = none
  apart : ∀ m n, (env m).newId = (env n).newId → m = n

def Unbounded : Prop := ∀ n, (env n).spend.authorized = false

def consumed : Grant × Db × (ℕ → Landing) :=
  Proc.run exec env (consumeOperationalApproval chapter kind actorAgentId actionKey payload ttl) db

def retried : ℕ → (ℕ → Landing) → Db → Db
  | 0, _, db => db
  | n+1, env, db =>
    let after := consumed chapter kind actorAgentId actionKey payload ttl env db
    retried n after.2.2 after.2.1

/-- Whatever the order of the rows, the call returns one of its approvals. -/
def AlwaysFound : Prop := ∀ env, Working env db →
  ∃ row ∈ keyedRows chapter kind actionKey .approved db,
    (consumed chapter kind actorAgentId actionKey payload ttl env db).1 = .approval row

def QueuedOnce : Prop := ∀ env, Working env db → Unbounded env → ∀ n,
  (keyedRows chapter kind actionKey .pending
    (retried chapter kind actorAgentId actionKey payload ttl (n+1) env db)).length = 1

def KeepsKey : Prop := ∀ value, get payload "action_key" = some value → value = .str actionKey

/-- One request is there and every call finds it or files none for the key, or the one
that the first call files is found by the next. -/
def Settles : Prop :=
  (keyedRows chapter kind actionKey .pending db).length = 1 ∧
      (others chapter kind actionKey .pending db < 100 ∨ ¬ KeepsKey actionKey payload) ∨
    (keyedRows chapter kind actionKey .pending db).length = 0 ∧ KeepsKey actionKey payload ∧
      others chapter kind actionKey .pending db < 100

end Definitions

section Orders

theorem earlier_trans (a b c : Approval) (first : earlier a b) (second : earlier b c) : earlier a c := by
  unfold earlier at *
  generalize a.approvedAt = one, b.approvedAt = two, c.approvedAt = three at *
  cases two with
  | none =>
    cases three with
    | none => cases one <;> rfl
    | some three => cases second
  | some two =>
    cases one with
    | none => cases first
    | some one =>
      cases three with
      | none => rfl
      | some three => exact decide_eq_true ((of_decide_eq_true first).trans (of_decide_eq_true second))

theorem earlier_total (a b : Approval) : earlier a b || earlier b a := by
  unfold earlier
  cases a.approvedAt <;> cases b.approvedAt <;> simp [Int.le_total]

theorem fresh_ids (db : Db) : ∃ ids : ℕ → String, Function.Injective ids ∧ ∀ n, db.approvals.row (ids n) = none := by
  have taken := (db.approvals.rows.map Approval.id).finite_toSet
  let ids := taken.infinite_compl.natEmbedding
  refine ⟨fun n => ids n,Subtype.val_injective.comp ids.injective,fun n => ?_⟩
  cases found : db.approvals.row (ids n) with
  | none => rfl
  | some row =>
    obtain ⟨member,same⟩ := Table.row_some.mp found
    exact absurd (List.mem_map.mpr ⟨row,member,same⟩) (ids n).2

theorem held_back (rank : Approval → Approval → Bool) (actionKey : String) (db : Db) :
    ∃ env, Working env db ∧ Unbounded env ∧
      ∀ n rows, (env n).arrange rows = rows.mergeSort (FirstRows.heldBack rank (keyedBy actionKey)) := by
  obtain ⟨ids,injective,fresh⟩ := fresh_ids db
  refine ⟨fun n => ⟨0,true,true,ids n,_,fun rows => List.mergeSort_perm rows (FirstRows.heldBack rank (keyedBy actionKey)),
    ⟨false,"",false,none⟩,.done⟩,⟨fun _ => rfl,fun _ => rfl,fresh,fun _ _ same => injective same⟩,fun _ => rfl,fun _ _ => rfl⟩

end Orders

section Calls
variable {chapter kind actorAgentId actionKey : String} {payload : Dict} {ttl : Option Moment} {env : ℕ → Landing} {db : Db}

def withApprovals (chapter kind actorAgentId actionKey : String) (payload : Dict) (ttl : Option Moment)
    (rows : List Approval) : Program Grant :=
  match rows.find? (keyedBy actionKey) with
  | some row => do
    markExecuted row.id
    return .approval row
  | none => otherwise chapter kind actorAgentId actionKey payload ttl

def approvalsRead (chapter kind : String) (env : ℕ → Landing) (db : Db) : List Approval :=
  db.found (env 0) (requestsOf chapter kind .approved) true 50

def pendingRead (chapter kind : String) (env : ℕ → Landing) (db : Db) : List Approval :=
  db.found (env 2) (requestsOf chapter kind .pending) false 100

theorem exec_getApprovals {landing : Landing} (lands : landing.lands = true) (answers : landing.answers = true)
    (filter : ApprovalFilter) (byApprovedAt : Bool) (limit : ℕ) : exec landing (.getApprovals filter byApprovedAt limit) db =
      (some (db.found landing filter byApprovedAt limit),db.tick landing.waited) := by
  rw [exec,if_pos lands,Db.answer,Landing.answered,lands,answers]
  rfl

theorem consumed_reads (known : kind ∈ operationalKinds) (actor : actorAgentId ≠ "") (key : actionKey ≠ "")
    (working : Working env db) : consumed chapter kind actorAgentId actionKey payload ttl env db =
      Proc.run exec (fun n => env (n+1)) (withApprovals chapter kind actorAgentId actionKey payload ttl
        (approvalsRead chapter kind env db)) (db.tick (env 0).waited) := by
  have asks : consumeOperationalApproval chapter kind actorAgentId actionKey payload ttl =
      .call (.getApprovals (requestsOf chapter kind .approved) true 50) fun rows =>
        withApprovals chapter kind actorAgentId actionKey payload ttl (rows.getD []) := by
    simp only [consumeOperationalApproval,known,actor,key,not_true_eq_false,if_false,decide_false,Bool.or_self,
      Bool.false_eq_true]
    rfl
  rw [consumed,asks,Proc.run,exec_getApprovals (working.lands 0) (working.answers 0)]
  rfl

theorem consumed_approved (known : kind ∈ operationalKinds) (actor : actorAgentId ≠ "") (key : actionKey ≠ "")
    (working : Working env db) {row : Approval}
    (picked : (approvalsRead chapter kind env db).find? (keyedBy actionKey) = some row) :
    (consumed chapter kind actorAgentId actionKey payload ttl env db).1 = .approval row := by
  rw [consumed_reads known actor key working,withApprovals,picked]
  rfl

theorem consumed_unapproved (known : kind ∈ operationalKinds) (actor : actorAgentId ≠ "") (key : actionKey ≠ "")
    (working : Working env db) (missed : (approvalsRead chapter kind env db).find? (keyedBy actionKey) = none)
    (row : Approval) : (consumed chapter kind actorAgentId actionKey payload ttl env db).1 ≠ .approval row := by
  rw [consumed_reads known actor key working,withApprovals,missed]
  exact ((returns_otherwise chapter kind actorAgentId actionKey payload ttl).run (fun _ _ _ _ _ => trivial) _ _ trivial).1
    row

def filed (chapter kind actorAgentId actionKey : String) (payload : Dict) (ttl : Option Moment) (id : String)
    (now createdAt : Moment) : Approval :=
  NewApproval.row ⟨kind,actorAgentId,none,chapter,none,
    payload.foldl (fun d field => setItem d field.1 field.2) [("action_key",.str actionKey)],0,
    now+ttl.getD defaultApprovalTtl⟩ id createdAt

inductive Files (chapter kind actorAgentId actionKey : String) (payload : Dict) (ttl : Option Moment)
    (env : ℕ → Landing) (db after : Db) (rest : ℕ → Landing) : Prop
  | none (shown : ∃ row ∈ pendingRead chapter kind env db, keyedBy actionKey row = true)
      (approvals : after.approvals = db.approvals) (later : rest = fun n => env (n+3))
  | one (hidden : ∀ row ∈ pendingRead chapter kind env db, keyedBy actionKey row = false) (now createdAt : Moment)
      (approvals : after.approvals = db.approvals.insert
        (filed chapter kind actorAgentId actionKey payload ttl (env 4).newId now createdAt))
      (later : rest = fun n => env (n+5))

/-- What a call without a grant does with the requests that it has read. -/
def withPending (chapter kind actorAgentId actionKey : String) (payload : Dict) (ttl : Option Moment)
    (rows : List Approval) : Program Grant :=
  match rows.find? (keyedBy actionKey) with
  | some row => return .required "awaiting approval" (some row)
  | none => do
    let queued ← propose chapter kind actorAgentId
      (payload.foldl (fun d field => setItem d field.1 field.2) [("action_key",.str actionKey)]) none none 0 ttl
    match queued with
    | .ok row => return .required "no approved grant" (some row)
    | .error reason => return .unqueued reason

theorem otherwise_reads (working : Working env db) (unbounded : Unbounded env) :
    Proc.run exec (fun n => env (n+1)) (otherwise chapter kind actorAgentId actionKey payload ttl)
        (db.tick (env 0).waited) =
      Proc.run exec (fun n => env (n+3)) (withPending chapter kind actorAgentId actionKey payload ttl
        (pendingRead chapter kind env db)) (((db.tick (env 0).waited).tick (env 1).waited).tick (env 2).waited) := by
  have asks : otherwise chapter kind actorAgentId actionKey payload ttl =
      .call (.spendBounded kind actionKey actorAgentId) fun spend =>
        if spend.authorized then .done (.bounded spend)
        else .call (.getApprovals (requestsOf chapter kind .pending) false 100) fun rows =>
          withPending chapter kind actorAgentId actionKey payload ttl (rows.getD []) := by
    unfold otherwise
    rfl
  have spent : exec (env 1) (.spendBounded kind actionKey actorAgentId) (db.tick (env 0).waited) =
      ((env 1).spend,(db.tick (env 0).waited).tick (env 1).waited) := by
    rw [exec,if_pos (working.lands 1)]
    rfl
  rw [asks,Proc.run,spent,if_neg (by simp [unbounded 1]),Proc.run,
    exec_getApprovals (working.lands 2) (working.answers 2)]
  rfl

theorem withPending_files (known : kind ∈ operationalKinds) {rows : List Approval}
    (hidden : rows.find? (keyedBy actionKey) = none) (lands : ∀ n, (env n).lands = true) :
    ∃ now createdAt, (Proc.run exec env (withPending chapter kind actorAgentId actionKey payload ttl rows) db).2.1.approvals =
        db.approvals.insert (filed chapter kind actorAgentId actionKey payload ttl (env 1).newId now createdAt) ∧
      (Proc.run exec env (withPending chapter kind actorAgentId actionKey payload ttl rows) db).2.2 = fun n => env (n+2) := by
  have registered : kind ∈ approvalKinds := List.mem_append_right _ known
  obtain ⟨result,posts⟩ : ∃ result : Option (List Approval) → Grant,
      withPending chapter kind actorAgentId actionKey payload ttl rows = .call .utcNow fun (now : Moment) =>
        .call (.postApproval ⟨kind,actorAgentId,none,chapter,none,
          payload.foldl (fun d field => setItem d field.1 field.2) [("action_key",.str actionKey)],0,
          now+ttl.getD defaultApprovalTtl⟩) fun resp => .done (result resp) := by
    refine ⟨fun resp => resp.elim (.unqueued "the INSERT did not land") fun rows =>
      rows.head?.elim (.unqueued "the INSERT returned no row") fun row =>
        .required "no approved grant" (some row),?_⟩
    rw [withPending,hidden]
    have clamped : max (0 : ℚ) (min 1 0) = 0 := by simp
    simp only [propose,registered,not_true_eq_false,if_false,clamped]
    refine congrArg (Proc.call Act.utcNow) (funext fun now => ?_)
    refine congrArg (Proc.call (Act.postApproval _)) (funext fun resp => ?_)
    rcases resp with _ | _ | ⟨row,rest⟩ <;> rfl
  have timed : exec (env 0) .utcNow db = ((db.tick (env 0).waited).clock,db.tick (env 0).waited) := by
    rw [exec,if_pos (lands 0)]
    rfl
  have inserted (new : NewApproval) (s : Db) : (exec (env 1) (.postApproval new) s).2.approvals =
      s.approvals.insert (new.row (env 1).newId (s.tick (env 1).waited).clock) := by
    rw [exec,if_pos (lands 1)]
    rfl
  rw [posts]
  refine ⟨(db.tick (env 0).waited).clock,((db.tick (env 0).waited).tick (env 1).waited).clock,
    (inserted _ (exec (env 0) .utcNow db).2).trans ?_,rfl⟩
  rw [timed]
  rfl

theorem consumed_files (known : kind ∈ operationalKinds) (actor : actorAgentId ≠ "") (key : actionKey ≠ "")
    (working : Working env db) (unbounded : Unbounded env)
    (missed : (approvalsRead chapter kind env db).find? (keyedBy actionKey) = none) :
    Files chapter kind actorAgentId actionKey payload ttl env db
      (consumed chapter kind actorAgentId actionKey payload ttl env db).2.1
      (consumed chapter kind actorAgentId actionKey payload ttl env db).2.2 := by
  rw [consumed_reads known actor key working,withApprovals,missed]
  dsimp only
  rw [otherwise_reads working unbounded]
  cases shown : (pendingRead chapter kind env db).find? (keyedBy actionKey) with
  | some row =>
    rw [withPending,shown]
    exact .none ⟨row,List.mem_of_find?_eq_some shown,List.find?_some shown⟩ rfl rfl
  | none =>
    obtain ⟨now,createdAt,approvals,later⟩ := @withPending_files chapter kind actorAgentId actionKey payload ttl
      (fun n => env (n+3)) (((db.tick (env 0).waited).tick (env 1).waited).tick (env 2).waited) known _ shown
      fun n => working.lands (n+3)
    exact .one (by simpa using shown) now createdAt approvals later

end Calls

section Steps
variable {chapter kind actorAgentId actionKey : String} {payload : Dict} {ttl : Option Moment} {status : ApprovalStatus}
  {env : ℕ → Landing} {db : Db}

theorem keyedBy_filed (distinct : (payload.map Prod.fst).Nodup) (id : String) (now createdAt : Moment) :
    keyedBy actionKey (filed chapter kind actorAgentId actionKey payload ttl id now createdAt) = true ↔
      KeepsKey actionKey payload := by
  have held : get (filed chapter kind actorAgentId actionKey payload ttl id now createdAt).payload "action_key" =
      (get payload "action_key").or (some (.str actionKey)) := by
    rw [filed,NewApproval.row,get_assigned distinct]
    rfl
  unfold keyedBy KeepsKey
  rw [held]
  cases found : get payload "action_key" with
  | none => simp
  | some value => cases value <;> simp

theorem mem_read {landing : Landing} {filter : ApprovalFilter} {byApprovedAt : Bool} {limit : ℕ} {row : Approval}
    (inside : row ∈ db.found landing filter byApprovedAt limit) : row ∈ db.approvals.select filter.admits :=
  Table.mem_select.mpr (mem_found inside)

theorem requests_insert {row : Approval} (fresh : db.approvals.row row.id = none) :
    (db.approvals.insert row).select (requestsOf chapter kind status).admits =
      requests chapter kind status db ++ if (requestsOf chapter kind status).admits row then [row] else [] := by
  have untaken : row.id ∉ db.approvals.rows.map Approval.id := by
    intro taken
    obtain ⟨other,member,same⟩ := List.mem_map.mp taken
    rw [Table.row_some.mpr ⟨member,same⟩] at fresh
    cases fresh
  rw [Table.insert,dif_neg untaken,Table.select,List.filter_append,requests,Table.select]
  rw [List.filter_singleton,cond_eq_ite]

structure Leaves (chapter kind actionKey : String) (payload : Dict) (env : ℕ → Landing) (db after : Db)
    (rest : ℕ → Landing) : Prop where
  later : ∃ k, rest = fun n => env (n+k)
  working : Working rest after
  ungranted : keyedRows chapter kind actionKey .approved after = []
  pending : (∃ row ∈ pendingRead chapter kind env db, keyedBy actionKey row = true) ∧
      requests chapter kind .pending after = requests chapter kind .pending db ∨
    (∀ row ∈ pendingRead chapter kind env db, keyedBy actionKey row = false) ∧
      ∃ row, requests chapter kind .pending after = requests chapter kind .pending db ++ [row] ∧
        (keyedBy actionKey row = true ↔ KeepsKey actionKey payload)

theorem Files.leaves {after : Db} {rest : ℕ → Landing} (distinct : (payload.map Prod.fst).Nodup) (working : Working env db)
    (ungranted : keyedRows chapter kind actionKey .approved db = [])
    (files : Files chapter kind actorAgentId actionKey payload ttl env db after rest) :
    Leaves chapter kind actionKey payload env db after rest := by
  cases files with
  | none shown approvals later =>
    subst later
    have same (status : ApprovalStatus) : requests chapter kind status after = requests chapter kind status db := by
      rw [requests,approvals,requests]
    constructor
    · exact ⟨3,rfl⟩
    · refine ⟨fun n => working.lands _,fun n => working.answers _,fun n => ?_,fun m n shared => ?_⟩
      · exact approvals ▸ working.fresh (n+3)
      · exact Nat.add_right_cancel (working.apart _ _ shared)
    · rw [keyedRows,same,← keyedRows,ungranted]
    · exact .inl ⟨shown,same .pending⟩
  | one hidden now createdAt approvals later =>
    subst later
    have more (status : ApprovalStatus) := @requests_insert chapter kind status db
      (filed chapter kind actorAgentId actionKey payload ttl (env 4).newId now createdAt) (working.fresh 4)
    constructor
    · exact ⟨5,rfl⟩
    · refine ⟨fun n => working.lands _,fun n => working.answers _,fun n => ?_,fun m n shared => ?_⟩
      · have apart : (env 4).newId ≠ (env (n+5)).newId := fun shared => by
          have := working.apart _ _ shared
          omega
        rw [approvals,Table.row_insert,working.fresh,Option.none_or]
        exact if_neg apart
      · exact Nat.add_right_cancel (working.apart _ _ shared)
    · rw [keyedRows,requests,approvals,more,List.filter_append,← keyedRows,ungranted]
      simp [filed,NewApproval.row,requestsOf,ApprovalFilter.admits,meets]
    · refine .inr ⟨hidden,filed chapter kind actorAgentId actionKey payload ttl (env 4).newId now createdAt,?_,
        keyedBy_filed distinct _ now createdAt⟩
      rw [requests,approvals,more]
      congr 1
      simp [filed,NewApproval.row,requestsOf,ApprovalFilter.admits,meets]

theorem consumed_leaves (known : kind ∈ operationalKinds) (actor : actorAgentId ≠ "") (key : actionKey ≠ "")
    (distinct : (payload.map Prod.fst).Nodup) (working : Working env db) (unbounded : Unbounded env)
    (ungranted : keyedRows chapter kind actionKey .approved db = []) :
    Leaves chapter kind actionKey payload env db (consumed chapter kind actorAgentId actionKey payload ttl env db).2.1
      (consumed chapter kind actorAgentId actionKey payload ttl env db).2.2 := by
  apply (consumed_files known actor key working unbounded ?_).leaves distinct working ungranted
  rw [List.find?_eq_none]
  intro row inside keyed
  have member : row ∈ keyedRows chapter kind actionKey .approved db := List.mem_filter.mpr ⟨mem_read inside,keyed⟩
  rw [ungranted] at member
  cases member

theorem pendingRead_shown (one : 0 < (keyedRows chapter kind actionKey .pending db).length)
    (few : others chapter kind actionKey .pending db < 100) :
    ∃ row ∈ pendingRead chapter kind env db, keyedBy actionKey row = true := by
  obtain ⟨row,member⟩ := List.exists_mem_of_length_pos one
  obtain ⟨member,keyed⟩ := List.mem_filter.mp member
  exact (FirstRows.unordered_iff (keyedBy actionKey)).mpr ⟨⟨row,member,keyed⟩,few⟩ _ ((env 2).arrange_perm _)

theorem pendingRead_missing (none_keyed : (keyedRows chapter kind actionKey .pending db).length = 0) :
    ¬ ∃ row ∈ pendingRead chapter kind env db, keyedBy actionKey row = true := by
  rintro ⟨row,inside,keyed⟩
  have member : row ∈ keyedRows chapter kind actionKey .pending db := List.mem_filter.mpr ⟨mem_read inside,keyed⟩
  rw [List.length_eq_zero_iff.mp none_keyed] at member
  cases member

def Hides (actionKey : String) (env : ℕ → Landing) : Prop := ∀ n rows,
  (env n).arrange rows = rows.mergeSort (FirstRows.heldBack (fun _ _ => true) (keyedBy actionKey))

theorem pendingRead_hidden (hides : Hides actionKey env) (many : 100 ≤ others chapter kind actionKey .pending db) :
    ¬ ∃ row ∈ pendingRead chapter kind env db, keyedBy actionKey row = true := by
  rintro ⟨row,inside,keyed⟩
  have arranged : pendingRead chapter kind env db = ((requests chapter kind .pending db).mergeSort
      (FirstRows.heldBack (fun _ _ => true) (keyedBy actionKey))).take 100 :=
    congrArg (List.take 100) (hides 2 _)
  rw [arranged] at inside
  have few := FirstRows.heldBack_shown (keyedBy actionKey) (fun _ _ _ _ _ => rfl) (fun _ _ => rfl) inside keyed
  simp only [Bool.and_true] at few
  exact absurd few (Nat.not_lt.mpr many)

section Counts
variable {after : Db} {rest : ℕ → Landing}

theorem Leaves.shown (leaves : Leaves chapter kind actionKey payload env db after rest)
    (shown : ∃ row ∈ pendingRead chapter kind env db, keyedBy actionKey row = true) :
    requests chapter kind .pending after = requests chapter kind .pending db := by
  obtain ⟨_,same⟩ | ⟨hidden,_⟩ := leaves.pending
  · exact same
  · obtain ⟨row,inside,keyed⟩ := shown
    rw [hidden row inside] at keyed
    cases keyed

theorem Leaves.hidden (leaves : Leaves chapter kind actionKey payload env db after rest)
    (missing : ¬ ∃ row ∈ pendingRead chapter kind env db, keyedBy actionKey row = true) :
    ∃ row, requests chapter kind .pending after = requests chapter kind .pending db ++ [row] ∧
      (keyedBy actionKey row = true ↔ KeepsKey actionKey payload) := by
  obtain ⟨shown,_⟩ | ⟨_,more⟩ := leaves.pending
  · exact absurd shown missing
  · exact more

theorem Leaves.unbounded (leaves : Leaves chapter kind actionKey payload env db after rest) (unbounded : Unbounded env) :
    Unbounded rest := by
  obtain ⟨k,rfl⟩ := leaves.later
  exact fun n => unbounded (n+k)

theorem Leaves.hides (leaves : Leaves chapter kind actionKey payload env db after rest) (hides : Hides actionKey env) :
    Hides actionKey rest := by
  obtain ⟨k,rfl⟩ := leaves.later
  exact fun n => hides (n+k)

theorem counts_same (same : requests chapter kind .pending after = requests chapter kind .pending db) :
    keyedRows chapter kind actionKey .pending after = keyedRows chapter kind actionKey .pending db ∧
      others chapter kind actionKey .pending after = others chapter kind actionKey .pending db := by
  unfold keyedRows others
  rw [same]
  exact ⟨rfl,rfl⟩

theorem counts_keyed {row : Approval} (keyed : keyedBy actionKey row = true)
    (more : requests chapter kind .pending after = requests chapter kind .pending db ++ [row]) :
    (keyedRows chapter kind actionKey .pending after).length =
        (keyedRows chapter kind actionKey .pending db).length+1 ∧
      others chapter kind actionKey .pending after = others chapter kind actionKey .pending db := by
  unfold keyedRows others
  rw [more]
  simp [keyed]

theorem Leaves.count_le (leaves : Leaves chapter kind actionKey payload env db after rest) :
    (keyedRows chapter kind actionKey .pending db).length ≤ (keyedRows chapter kind actionKey .pending after).length := by
  unfold keyedRows
  obtain ⟨_,same⟩ | ⟨_,row,more,_⟩ := leaves.pending
  · rw [same]
  · rw [more,List.filter_append,List.length_append]
    exact Nat.le_add_right _ _

theorem counts_other {row : Approval} (other : ¬ keyedBy actionKey row = true)
    (more : requests chapter kind .pending after = requests chapter kind .pending db ++ [row]) :
    (keyedRows chapter kind actionKey .pending after).length = (keyedRows chapter kind actionKey .pending db).length := by
  unfold keyedRows
  rw [more]
  simp [other]

end Counts

end Steps

section Runs
variable {chapter kind actorAgentId actionKey : String} {payload : Dict} {ttl : Option Moment}
  (known : kind ∈ operationalKinds) (actor : actorAgentId ≠ "") (key : actionKey ≠ "")
  (distinct : (payload.map Prod.fst).Nodup)
include known actor key distinct

theorem retried_one (n : ℕ) : ∀ {env : ℕ → Landing} {db : Db}, Working env db → Unbounded env →
    keyedRows chapter kind actionKey .approved db = [] → (keyedRows chapter kind actionKey .pending db).length = 1 →
    others chapter kind actionKey .pending db < 100 ∨ ¬ KeepsKey actionKey payload →
    (keyedRows chapter kind actionKey .pending
      (retried chapter kind actorAgentId actionKey payload ttl n env db)).length = 1 := by
  induction n with
  | zero => exact fun _ _ _ one _ => one
  | succ n ih =>
    intro env db working unbounded ungranted one room
    have leaves := @consumed_leaves chapter kind actorAgentId actionKey payload ttl env db known actor key distinct working
      unbounded ungranted
    have still := leaves.unbounded unbounded
    by_cases shown : ∃ row ∈ pendingRead chapter kind env db, keyedBy actionKey row = true
    · obtain ⟨keyed,rest⟩ := counts_same (leaves.shown shown)
      exact ih leaves.working still leaves.ungranted (keyed ▸ one) (rest ▸ room)
    · have loses : ¬ KeepsKey actionKey payload := by
        obtain few | loses := room
        · exact absurd (pendingRead_shown (by omega) few) shown
        · exact loses
      obtain ⟨row,more,keyed⟩ := leaves.hidden shown
      exact ih leaves.working still leaves.ungranted ((counts_other (mt keyed.mp loses) more).trans one) (.inr loses)

theorem queued_of_settles {db : Db} (ungranted : keyedRows chapter kind actionKey .approved db = [])
    (settles : Settles chapter kind actionKey payload db) :
    QueuedOnce chapter kind actorAgentId actionKey payload ttl db := by
  intro env working unbounded n
  obtain ⟨one,room⟩ | ⟨none_yet,keeps,few⟩ := settles
  · exact retried_one known actor key distinct (n+1) working unbounded ungranted one room
  · have leaves := @consumed_leaves chapter kind actorAgentId actionKey payload ttl env db known actor key distinct working
      unbounded ungranted
    have still := leaves.unbounded unbounded
    obtain ⟨row,more,keyed⟩ := leaves.hidden (pendingRead_missing none_yet)
    obtain ⟨one,rest⟩ := counts_keyed (keyed.mpr keeps) more
    exact retried_one known actor key distinct n leaves.working still leaves.ungranted (one.trans (by rw [none_yet]))
      (.inl (rest ▸ few))

theorem settles_of_queued {db : Db} (ungranted : keyedRows chapter kind actionKey .approved db = [])
    (queued : QueuedOnce chapter kind actorAgentId actionKey payload ttl db) :
    Settles chapter kind actionKey payload db := by
  obtain ⟨env,working,unbounded,hides⟩ := held_back (fun _ _ => true) actionKey db
  have leaves := @consumed_leaves chapter kind actorAgentId actionKey payload ttl env db known actor key distinct working
    unbounded ungranted
  have again := @consumed_leaves chapter kind actorAgentId actionKey payload ttl _ _ known actor key distinct leaves.working
    (leaves.unbounded unbounded) leaves.ungranted
  have first := queued env working unbounded 0
  have second := queued env working unbounded 1
  simp only [retried] at first second
  generalize (consumed chapter kind actorAgentId actionKey payload ttl env db).2.2 = rest at *
  generalize (consumed chapter kind actorAgentId actionKey payload ttl env db).2.1 = after at *
  have most := leaves.count_le
  rw [first] at most
  by_cases none_yet : (keyedRows chapter kind actionKey .pending db).length = 0
  · obtain ⟨row,more,keyed⟩ := leaves.hidden (pendingRead_missing none_yet)
    have keeps : KeepsKey actionKey payload := by
      by_contra loses
      have same := counts_other (mt keyed.mp loses) more
      omega
    refine .inr ⟨none_yet,keeps,?_⟩
    by_contra many
    rw [← (counts_keyed (keyed.mpr keeps) more).2] at many
    obtain ⟨row,more,keyed⟩ := again.hidden (pendingRead_hidden (leaves.hides hides) (Nat.not_lt.mp many))
    have twice := (counts_keyed (keyed.mpr keeps) more).1
    omega
  · refine .inl ⟨by omega,?_⟩
    by_contra crowded
    push Not at crowded
    obtain ⟨row,more,keyed⟩ := leaves.hidden (pendingRead_hidden hides crowded.1)
    have twice := (counts_keyed (keyed.mpr crowded.2) more).1
    omega

omit distinct in
theorem alwaysFound_iff {db : Db} : AlwaysFound chapter kind actorAgentId actionKey payload ttl db ↔
    ∃ row ∈ keyedRows chapter kind actionKey .approved db, ahead chapter kind actionKey db row < 50 := by
  constructor
  · intro found
    obtain ⟨env,working,_,arranged⟩ := held_back earlier actionKey db
    have read : approvalsRead chapter kind env db = ((requests chapter kind .approved db).mergeSort
        (FirstRows.heldBack earlier (keyedBy actionKey))).take 50 := by
      rw [← FirstRows.sorted_heldBack (keyedBy actionKey) earlier_trans earlier_total,← arranged 0]
      rfl
    cases picked : (approvalsRead chapter kind env db).find? (keyedBy actionKey) with
    | none =>
      obtain ⟨row,_,returned⟩ := found env working
      exact absurd returned (consumed_unapproved known actor key working picked row)
    | some row =>
      have inside := List.mem_of_find?_eq_some picked
      have keyed := List.find?_some picked
      refine ⟨row,List.mem_filter.mpr ⟨mem_read inside,keyed⟩,?_⟩
      rw [read] at inside
      exact FirstRows.heldBack_shown (keyedBy actionKey) earlier_trans earlier_total inside keyed
  · rintro ⟨row,member,few⟩ env working
    obtain ⟨member,keyed⟩ := List.mem_filter.mp member
    obtain ⟨other,shown,wanted⟩ := FirstRows.shown_of_few (keyedBy actionKey) earlier_trans earlier_total member keyed few
      ((env 0).arrange_perm _)
    have hit : ((approvalsRead chapter kind env db).find? (keyedBy actionKey)).isSome = true :=
      List.find?_isSome.mpr ⟨other,shown,wanted⟩
    obtain ⟨picked,first⟩ := Option.isSome_iff_exists.mp hit
    exact ⟨picked,List.mem_filter.mpr ⟨mem_read (List.mem_of_find?_eq_some first),List.find?_some first⟩,
      consumed_approved known actor key working first⟩

end Runs

/-- An approval is always found, and an action without a grant has one request however often it
is tried, exactly where an approval of the key is among the first fifty in every order, and
where the requests leave room for the one of the key, which keeps its key. -/
theorem found_and_queued_iff (chapter kind actorAgentId actionKey : String) (payload : Dict) (ttl : Option Moment) (db : Db)
    (known : kind ∈ operationalKinds) (actor : actorAgentId ≠ "") (key : actionKey ≠ "")
    (distinct : (payload.map Prod.fst).Nodup) :
    ((keyedRows chapter kind actionKey .approved db ≠ [] →
          AlwaysFound chapter kind actorAgentId actionKey payload ttl db) ∧
        (keyedRows chapter kind actionKey .approved db = [] →
          QueuedOnce chapter kind actorAgentId actionKey payload ttl db)) ↔
      (keyedRows chapter kind actionKey .approved db ≠ [] →
          ∃ row ∈ keyedRows chapter kind actionKey .approved db, ahead chapter kind actionKey db row < 50) ∧
        (keyedRows chapter kind actionKey .approved db = [] → Settles chapter kind actionKey payload db) := by
  constructor
  · rintro ⟨found,queued⟩
    exact ⟨fun granted => (alwaysFound_iff known actor key).mp (found granted),
      fun ungranted => settles_of_queued known actor key distinct ungranted (queued ungranted)⟩
  · rintro ⟨few,settles⟩
    exact ⟨fun granted => (alwaysFound_iff known actor key).mpr (few granted),
      fun ungranted => queued_of_settles known actor key distinct ungranted (settles ungranted)⟩

theorem first_request_queued : QueuedOnce "acme" "record_write" "ann" "k" [] none emptyDb :=
  ((found_and_queued_iff "acme" "record_write" "ann" "k" [] none emptyDb (by decide) (by decide) (by decide)
    List.nodup_nil).mpr ⟨fun granted => absurd rfl granted,
      fun _ => .inr ⟨rfl,fun _ held => absurd held nofun,by decide⟩⟩).2 rfl

def approvalAt (id actionKey : String) (approvedAt : Moment) : Approval where
  id := id
  kind := "record_write"
  proposerAgentId := "ann"
  targetAgentId := none
  chapterId := "acme"
  peerChapterId := none
  payload := [("action_key",.str actionKey)]
  status := .approved
  approvedBy := some "lea"
  approvedAt := some approvedAt
  rejectionReason := none
  createdAt := 0
  expiresAt := 100
  executedAt := none
  confidence := 0

def crowdedDb : Db :=
  { emptyDb with
    approvals := ⟨(List.range 50).map (fun n => approvalAt (Nat.repr n) "other" n) ++ [approvalAt "a1" "k" 50],
      by decide +kernel⟩ }

theorem crowded_out : approvalAt "a1" "k" 50 ∈ keyedRows "acme" "record_write" "k" .approved crowdedDb ∧
    ¬ AlwaysFound "acme" "record_write" "ann" "k" [] none crowdedDb := by
  have keyed : keyedRows "acme" "record_write" "k" .approved crowdedDb = [approvalAt "a1" "k" 50] := by rfl
  refine ⟨by simp [keyed],fun found => ?_⟩
  obtain ⟨row,member,few⟩ := (alwaysFound_iff (by decide) (by decide) (by decide)).mp found
  rw [keyed,List.mem_singleton] at member
  subst member
  revert few
  decide +kernel

end Orrery.Governance
