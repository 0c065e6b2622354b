import Orrery.Grants.Store

/-! What a grant is charged: every order of the transactions that spend and revoke it, with
statements that fail and transactions that are broken off. -/
namespace Orrery.Grants
open Foundation

section Stages
variable (call : Call)

def afterSpend : Option Grant → Program Result
  | none => .done (.consumed (refused "grant_exhausted_or_revoked"))
  | some updated => .call (.insertConsumption (updated.row call true)) fun _ => .done (.consumed (chargedUnder updated))

def afterCheck (grant : Grant) (already : Bool) : Program Result :=
  if already then .call (.insertConsumption (grant.row call false)) fun _ => .done (.consumed (retriedUnder grant))
  else .call (.spend grant.grantId call.now) (afterSpend call)

def afterSelect : Option Grant → Program Result
  | none => .done (.consumed (refused "no_matching_grant"))
  | some grant => .call (.isCharged grant.grantId call.actionKey) (afterCheck call grant)

end Stages

theorem consume_program (call : Call) : program (.consume call) = .call (.selectGrant call) (afterSelect call) := by
  refine congrArg (Proc.call _) (funext ?_)
  rintro (_ | grant)
  · rfl
  refine congrArg (Proc.call _) (funext ?_)
  rintro (_ | _)
  · refine congrArg (Proc.call _) (funext ?_)
    rintro (_ | updated)
    · rfl
    · rfl
  · rfl

def Db.row (db : Db) (grantId : String) : Option Grant := db.grants.row grantId

structure Grant.Chargeable (g : Grant) (now : Moment) : Prop where
  unrevoked : g.revokedAt = none
  unexpired : now < g.expiresAt
  room : g.consumed < g.cap

/-- Where a transaction stands, with what it has written and what it knows of the committed rows. -/
inductive Phase (db : Db) : Txn Op Act Act.Answer Result Write → Prop
  | selecting (call : Call) : Phase db ⟨.consume call,.call (.selectGrant call) (afterSelect call),[]⟩
  | checking (call : Call) (g : Grant) :
      Phase db ⟨.consume call,.call (.isCharged g.grantId call.actionKey) (afterCheck call g),[]⟩
  | retrying (call : Call) (g : Grant) : Phase db ⟨.consume call,.call (.insertConsumption (g.row call false))
      fun _ => .done (.consumed (retriedUnder g)),[]⟩
  | retried (call : Call) (g : Grant) :
      Phase db ⟨.consume call,.done (.consumed (retriedUnder g)),[.consumption (g.row call false)]⟩
  | spending (call : Call) (g : Grant) : Phase db ⟨.consume call,.call (.spend g.grantId call.now) (afterSpend call),[]⟩
  | recording (call : Call) (g : Grant) (found : db.row g.grantId = some g) (live : g.Chargeable call.now) :
      Phase db ⟨.consume call,.call (.insertConsumption (g.spent.row call true))
        fun _ => .done (.consumed (chargedUnder g.spent)),[.grant g.spent]⟩
  | recorded (call : Call) (g : Grant) (found : db.row g.grantId = some g) (live : g.Chargeable call.now)
      (uncharged : db.charged g.grantId call.actionKey = false) :
      Phase db ⟨.consume call,.done (.consumed (chargedUnder g.spent)),
        [.grant g.spent,.consumption (g.spent.row call true)]⟩
  | refused (call : Call) (reason : String) : Phase db ⟨.consume call,.done (.consumed (refused reason)),[]⟩
  | revoking (grantId : String) (stamp : Moment) :
      Phase db ⟨.revoke grantId stamp,.call (.revokeGrant grantId stamp) fun row => .done (.revoked row),[]⟩
  | revoked (g : Grant) (stamp : Moment) (found : db.row g.grantId = some g) :
      Phase db ⟨.revoke g.grantId stamp,.done (.revoked (some (g.revoked stamp))),[.grant (g.revoked stamp)]⟩
  | unrevoked (grantId : String) (stamp : Moment) (gone : ∀ g, db.row grantId = some g → g.revokedAt ≠ none) :
      Phase db ⟨.revoke grantId stamp,.done (.revoked none),[]⟩

def auditedRow : TxnEvent Op Act Result → Option Consumption
  | .committed _ (.consume call) (.consumed ⟨true,some grantId,some charged,some remaining,_⟩) =>
    some ⟨grantId,call.chapterId,call.kind,call.actionKey,call.actor,charged,remaining⟩
  | _ => none

def RevokedIn (past : List (TxnEvent Op Act Result)) (grantId : String) : Prop :=
  ∃ id stamp row, TxnEvent.committed id (.revoke grantId stamp) (.revoked row) ∈ past

def Db.charges (db : Db) (grantId : String) : ℕ := db.consumptions.countP fun row => row.charged && row.grantId =
    grantId

/-- The committed rows: each grant has consumed what it was charged, within its cap, and a
key is charged once. -/
structure Db.Balanced (db : Db) : Prop where
  consumed : ∀ grantId g, db.row grantId = some g → g.consumed = db.charges grantId ∧ g.consumed ≤ g.cap
  once : ∀ grantId actionKey, db.consumptions.countP (fun row => row.charges grantId actionKey) ≤ 1

def InTime (db : Db) : List (TxnEvent Op Act Result) → Prop
  | [] => True
  | event :: past => (∀ id call reply grantId, event = .committed id (.consume call) (.consumed reply) →
      reply.grantId = some grantId → reply.charged = some true →
        ¬ RevokedIn past grantId ∧ ∃ g, db.row grantId = some g ∧ call.now < g.expiresAt) ∧ InTime db past

structure Good (start : List Consumption) (db : Db) (past : List (TxnEvent Op Act Result)) : Prop where
  balanced : db.Balanced
  audit : db.consumptions = start ++ past.reverse.filterMap auditedRow
  revoked : ∀ grantId, RevokedIn past grantId → ∀ g, db.row grantId = some g → g.revokedAt ≠ none
  inTime : InTime db past

section Commits
variable {db : Db} {g new : Grant} {grantId actionKey : String}

@[simp] theorem put_consumption_row (row : Consumption) : (db.put (.consumption row)).row grantId = db.row grantId :=
  rfl

@[simp] theorem put_grant_consumptions : (db.put (.grant new)).consumptions = db.consumptions := rfl

@[simp] theorem put_consumption_consumptions (row : Consumption) :
    (db.put (.consumption row)).consumptions = db.consumptions ++ [row] := rfl

theorem put_grant_mapped : (db.put (.grant new)).row grantId = (db.row grantId).map new.replaced :=
  @Table.row_update Grant String Grant.grantId _ db.grants (fun _ => true) new.replaced new.replaced_id grantId

theorem put_grant_row (found : db.row g.grantId = some g) (same : new.grantId = g.grantId) :
    (db.put (.grant new)).row grantId = if grantId = g.grantId then some new else db.row grantId := by
  rw [put_grant_mapped]
  split
  next here => simp [here,found,Grant.replaced,same]
  next away =>
    cases held : db.row grantId with
    | none => rfl
    | some old =>
      have key : old.grantId = grantId := Table.row_key held
      simp [Grant.replaced,key,same,away]

theorem put_other_row (away : grantId ≠ new.grantId) : (db.put (.grant new)).row grantId = db.row grantId := by
  rw [put_grant_mapped]
  cases held : db.row grantId with
  | none => rfl
  | some old =>
    have key : old.grantId = grantId := Table.row_key held
    simp [Grant.replaced,key,away]

theorem view_row (writes : List Write) : ∀ {db : Db}, (∀ w ∈ writes, w.lock ≠ some (.row grantId)) →
    Db.row (postgres.view db writes) grantId = db.row grantId := by
  induction writes with
  | nil => exact fun _ => rfl
  | cons w writes ih =>
    intro db unlocked
    refine (ih fun w' inside => unlocked w' (.tail _ inside)).trans ?_
    have away := unlocked w (.head _)
    cases w with
    | grant row => exact put_other_row fun here => away (congrArg (fun k => some (Lock.row k)) here.symm)
    | consumption row => rfl

theorem view_charged (writes : List Write) : ∀ {db : Db}, (∀ w ∈ writes, w.lock ≠ some (.entry grantId actionKey)) →
    Db.charged (postgres.view db writes) grantId actionKey = db.charged grantId actionKey := by
  induction writes with
  | nil => exact fun _ => rfl
  | cons w writes ih =>
    intro db unlocked
    refine (ih fun w' inside => unlocked w' (.tail _ inside)).trans ?_
    have away := unlocked w (.head _)
    cases w with
    | grant row => rfl
    | consumption row =>
      have uncharged : row.charges grantId actionKey = false := by
        by_contra charges
        simp only [Consumption.charges,Bool.not_eq_false,Bool.and_eq_true,decide_eq_true_eq] at charges
        obtain ⟨⟨charged,rfl⟩,rfl⟩ := charges
        exact away (if_pos charged)
      change (db.consumptions ++ [row]).any _ = _
      rw [List.any_append,List.any_cons,uncharged]
      exact Bool.or_false _

end Commits

structure Grant.Later (g g' : Grant) : Prop where
  expires : g'.expiresAt = g.expiresAt
  revoked : g.revokedAt ≠ none → g'.revokedAt ≠ none

theorem Phase.rows {db : Db} {op : Op} {result : Result} {writes : List Write}
    (phase : Phase db ⟨op,.done result,writes⟩) (grantId : String) :
    Db.row (postgres.view db writes) grantId = db.row grantId ∨ ∃ g g', db.row grantId = some g ∧
      Db.row (postgres.view db writes) grantId = some g' ∧ g.Later g' := by
  cases phase with
  | retried call g => exact .inl rfl
  | recorded call g found live uncharged =>
    have after : Db.row (postgres.view db [.grant g.spent,.consumption (g.spent.row call true)]) grantId =
        if grantId = g.grantId then some g.spent else db.row grantId := put_grant_row found rfl
    rw [after]
    split
    next here => exact .inr ⟨g,g.spent,here ▸ found,rfl,rfl,fun revoked => revoked⟩
    next => exact .inl rfl
  | refused call reason => exact .inl rfl
  | revoked g stamp found =>
    have after : Db.row (postgres.view db [.grant (g.revoked stamp)]) grantId =
        if grantId = g.grantId then some (g.revoked stamp) else db.row grantId := put_grant_row found rfl
    rw [after]
    split
    next here => exact .inr ⟨g,g.revoked stamp,here ▸ found,rfl,rfl,fun _ => nofun⟩
    next => exact .inl rfl
  | unrevoked grantId stamp gone => exact .inl rfl

theorem Phase.gone {db : Db} {op : Op} {result : Result} {writes : List Write}
    (phase : Phase db ⟨op,.done result,writes⟩) {grantId : String}
    (gone : ∀ g, db.row grantId = some g → g.revokedAt ≠ none) :
    ∀ g, Db.row (postgres.view db writes) grantId = some g → g.revokedAt ≠ none := by
  intro g' found'
  obtain same | ⟨g,new,found,found'',later⟩ := phase.rows grantId
  · exact gone g' (same.symm.trans found')
  · obtain rfl := Option.some.inj (found''.symm.trans found')
    exact later.revoked (gone g found)

theorem Phase.kept {db : Db} {t : Txn Op Act Act.Answer Result Write} {op : Op} {result : Result} {writes : List Write}
    (phase : Phase db t) (other : Phase db ⟨op,.done result,writes⟩) (separate : postgres.Separate writes t.writes) :
    Phase (postgres.view db writes) t := by
  have row {g new : Grant} (inside : Write.grant new ∈ t.writes) (same : new.grantId = g.grantId)
      (found : db.row g.grantId = some g) : Db.row (postgres.view db writes) g.grantId = some g := by
    rw [view_row writes,found]
    intro w held locked
    exact separate w held _ inside _ locked (congrArg (fun k => some (Lock.row k)) same)
  cases phase with
  | selecting call => exact .selecting call
  | checking call g => exact .checking call g
  | retrying call g => exact .retrying call g
  | retried call g => exact .retried call g
  | spending call g => exact .spending call g
  | recording call g found live => exact .recording call g (row (.head _) rfl found) live
  | recorded call g found live uncharged =>
    refine .recorded call g (row (.head _) rfl found) live ?_
    rw [view_charged writes,uncharged]
    intro w held locked
    exact separate w held _ (.tail _ (.head _)) _ locked rfl
  | refused call reason => exact .refused call reason
  | revoking grantId stamp => exact .revoking grantId stamp
  | revoked g stamp found => exact .revoked g stamp (row (.head _) rfl found)
  | unrevoked grantId stamp gone => exact .unrevoked grantId stamp (other.gone gone)

/-- What a statement that ran makes of its transaction. -/
theorem Phase.ran {db : Db} {op : Op} {act : Act} {resume : act.Answer → Program Result} {writes new : List Write}
    {turnout : Turnout} {answer : act.Answer} (phase : Phase db ⟨op,.call act resume,writes⟩)
    (ran : (postgres.view db writes).exec turnout act = some (answer,new)) :
    Phase db ⟨op,resume answer,writes ++ new⟩ := by
  cases phase with
  | selecting call =>
    have found := ran
    simp only [Db.exec] at found
    split at found
    · cases found
    · obtain ⟨rfl,rfl⟩ := Prod.mk.inj (Option.some.inj found)
      cases (postgres.view db []).selected turnout call with
      | none => exact .refused call "no_matching_grant"
      | some g => exact .checking call g
  | checking call g =>
    have found := ran
    simp only [Db.exec] at found
    split at found
    · cases found
    · obtain ⟨rfl,rfl⟩ := Prod.mk.inj (Option.some.inj found)
      unfold afterCheck
      split
      · exact .retrying call g
      · exact .spending call g
  | retrying call g =>
    have found := ran
    simp only [Db.exec] at found
    split at found
    · cases found
    · obtain ⟨_,rfl⟩ := Prod.mk.inj (Option.some.inj found)
      exact .retried call g
  | spending call g =>
    have found := ran
    simp only [Db.exec] at found
    split at found
    · cases found
    split at found
    next held row =>
      split at found
      next live =>
        obtain ⟨rfl,rfl⟩ := Prod.mk.inj (Option.some.inj found)
        simp only [Bool.and_eq_true,decide_eq_true_eq,Option.isNone_iff_eq_none] at live
        have same : held.grantId = g.grantId := Table.row_key row
        exact .recording call held (same ▸ row) ⟨live.1.1,live.1.2,live.2⟩
      next =>
        obtain ⟨rfl,rfl⟩ := Prod.mk.inj (Option.some.inj found)
        exact .refused call "grant_exhausted_or_revoked"
    next =>
      obtain ⟨rfl,rfl⟩ := Prod.mk.inj (Option.some.inj found)
      exact .refused call "grant_exhausted_or_revoked"
  | recording call g found live =>
    have inserted := ran
    simp only [Db.exec] at inserted
    split at inserted
    · cases inserted
    next free =>
      obtain ⟨_,rfl⟩ := Prod.mk.inj (Option.some.inj inserted)
      have uncharged : db.charged g.grantId call.actionKey = false := by
        simp only [Bool.or_eq_true,Bool.and_eq_true,not_or,not_and,Bool.not_eq_true] at free
        exact free.2 rfl
      exact .recorded call g found live uncharged
  | revoking grantId stamp =>
    have found := ran
    simp only [Db.exec] at found
    split at found
    · cases found
    split at found
    next held row =>
      have same : held.grantId = grantId := Table.row_key row
      split at found
      next =>
        obtain ⟨rfl,rfl⟩ := Prod.mk.inj (Option.some.inj found)
        subst same
        exact .revoked held stamp row
      next revoked =>
        obtain ⟨rfl,rfl⟩ := Prod.mk.inj (Option.some.inj found)
        refine .unrevoked grantId stamp fun g' held' => ?_
        obtain rfl := Option.some.inj (row.symm.trans held')
        simpa using revoked
    next absent =>
      obtain ⟨rfl,rfl⟩ := Prod.mk.inj (Option.some.inj found)
      refine .unrevoked grantId stamp fun g' held' => ?_
      cases absent.symm.trans held'

section Invariants
variable {db : Db} {past : List (TxnEvent Op Act Result)} {start : List Consumption} {id : ℕ} {op : Op}
  {result : Result}
  {writes : List Write}

theorem InTime.later {db' : Db} (rows : ∀ k g, db.row k = some g → ∃ g', db'.row k = some g' ∧ g'.expiresAt =
    g.expiresAt)
    (inTime : InTime db past) : InTime db' past := by
  induction past with
  | nil => exact trivial
  | cons event past ih =>
    refine ⟨?_,ih inTime.2⟩
    intro id call reply grantId same named charged
    obtain ⟨unrevoked,g,found,early⟩ := inTime.1 id call reply grantId same named charged
    obtain ⟨g',found',expires⟩ := rows grantId g found
    exact ⟨unrevoked,g',found',expires ▸ early⟩

theorem revokedIn_ran {act : Act} {grantId : String} : RevokedIn (.ran id act :: past) grantId ↔
    RevokedIn past grantId := by
  constructor
  · rintro ⟨other,stamp,row,inside⟩
    exact ⟨other,stamp,row,(List.mem_cons.mp inside).resolve_left nofun⟩
  · rintro ⟨other,stamp,row,inside⟩
    exact ⟨other,stamp,row,.tail _ inside⟩

theorem Good.heard (good : Good start db past) (id : ℕ) (act : Act) : Good start db (.ran id act :: past) where
  balanced := good.balanced
  audit := by
    rw [List.reverse_cons,List.filterMap_append,good.audit]
    exact (congrArg (start ++ ·) (List.append_nil _)).symm
  revoked grantId revoked := good.revoked grantId (revokedIn_ran.mp revoked)
  inTime := ⟨nofun,good.inTime⟩

theorem Phase.balanced (phase : Phase db ⟨op,.done result,writes⟩) (balanced : db.Balanced) :
    Db.Balanced (postgres.view db writes) := by
  cases phase with
  | retried call g =>
    constructor
    · intro grantId held found
      have charges : (db.put (.consumption (g.row call false))).charges grantId = db.charges grantId := by
        rw [Db.charges,put_consumption_consumptions,List.countP_append]
        rfl
      exact (balanced.consumed grantId held found).imp_left fun same => same.trans charges.symm
    · intro grantId actionKey
      change (db.consumptions ++ [g.row call false]).countP _ ≤ 1
      rw [List.countP_append]
      exact balanced.once grantId actionKey
  | recorded call g found live uncharged =>
    constructor
    · intro grantId held found'
      have after : (if grantId = g.grantId then some g.spent else db.row grantId) = some held :=
        (@put_grant_row db g g.spent grantId found rfl).symm.trans found'
      have charges : Db.charges (postgres.view db [.grant g.spent,.consumption (g.spent.row call true)]) grantId =
          db.charges grantId + if grantId = g.grantId then 1 else 0 := by
        change (db.consumptions ++ [g.spent.row call true]).countP _ = _
        rw [List.countP_append,List.countP_singleton]
        simp [Grant.row,Grant.spent,Db.charges,eq_comm]
      rw [charges]
      split at after
      next here =>
        obtain rfl := Option.some.inj after
        rw [if_pos here,here]
        obtain ⟨consumed,_⟩ := balanced.consumed g.grantId g found
        exact ⟨congrArg (· + 1) consumed,live.room⟩
      next away =>
        rw [if_neg away]
        exact balanced.consumed grantId held after
    · intro grantId actionKey
      change (db.consumptions ++ [g.spent.row call true]).countP _ ≤ 1
      rw [List.countP_append,List.countP_singleton]
      split
      next charges =>
        simp only [Consumption.charges,Bool.and_eq_true] at charges
        obtain rfl : g.grantId = grantId := of_decide_eq_true charges.1.2
        obtain rfl : call.actionKey = actionKey := of_decide_eq_true charges.2
        have none_ : db.consumptions.countP (fun row => row.charges g.grantId call.actionKey) = 0 := by
          rw [List.countP_eq_zero]
          intro row inside charges
          exact absurd (List.any_eq_true.mpr ⟨row,inside,charges⟩) (by rw [← Db.charged,uncharged]; nofun)
        rw [none_]
      next => exact balanced.once grantId actionKey
  | refused call reason => exact balanced
  | revoked g stamp found =>
    refine ⟨?_,balanced.once⟩
    intro grantId held found'
    have after : (if grantId = g.grantId then some (g.revoked stamp) else db.row grantId) = some held :=
      (@put_grant_row db g (g.revoked stamp) grantId found rfl).symm.trans found'
    split at after
    next here =>
      obtain rfl := Option.some.inj after
      subst here
      exact balanced.consumed g.grantId g found
    next => exact balanced.consumed grantId held after
  | unrevoked grantId stamp gone => exact balanced

theorem Phase.audited (phase : Phase db ⟨op,.done result,writes⟩) (id : ℕ) :
    (postgres.view db writes).consumptions = db.consumptions ++ (auditedRow (.committed id op result)).toList := by
  cases phase with
  | retried call g => rfl
  | recorded call g found live uncharged => rfl
  | refused call reason => exact (List.append_nil _).symm
  | revoked g stamp found => exact (List.append_nil _).symm
  | unrevoked grantId stamp gone => exact (List.append_nil _).symm

theorem Phase.expires (phase : Phase db ⟨op,.done result,writes⟩) (k : String) (g : Grant) (found : db.row k = some g) :
    ∃ g', Db.row (postgres.view db writes) k = some g' ∧ g'.expiresAt = g.expiresAt := by
  obtain same | ⟨held,g',found',after,later⟩ := phase.rows k
  · exact ⟨g,same.trans found,rfl⟩
  · obtain rfl := Option.some.inj (found.symm.trans found')
    exact ⟨g',after,later.expires⟩

theorem Good.commit (good : Good start db past) (phase : Phase db ⟨op,.done result,writes⟩) (id : ℕ) :
    Good start (postgres.view db writes) (.committed id op result :: past) where
  balanced := phase.balanced good.balanced
  audit := by
    rw [phase.audited id,good.audit,List.reverse_cons,List.filterMap_append,List.append_assoc]
    congr 2
  revoked grantId revoked := by
    obtain ⟨other,stamp,row,inside⟩ := revoked
    obtain same | before := List.mem_cons.mp inside
    · obtain ⟨_,rfl,rfl⟩ := TxnEvent.committed.inj same
      cases phase with
      | revoked g stamp found =>
        intro g' found'
        have after := (@put_grant_row db g (g.revoked stamp) g.grantId found rfl).symm.trans found'
        rw [if_pos rfl] at after
        obtain rfl := Option.some.inj after
        exact nofun
      | unrevoked grantId stamp gone => exact gone
    · exact phase.gone (good.revoked grantId ⟨other,stamp,row,before⟩)
  inTime := by
    refine ⟨?_,good.inTime.later phase.expires⟩
    intro other call reply grantId same named charged
    obtain ⟨_,rfl,rfl⟩ := TxnEvent.committed.inj same
    cases phase with
    | retried call g => cases charged
    | recorded call g found live uncharged =>
      obtain rfl := Option.some.inj named
      refine ⟨fun revoked => good.revoked _ revoked g found live.unrevoked,?_⟩
      obtain ⟨g',found',expires⟩ := (Phase.recorded call g found live uncharged).expires g.grantId g found
      exact ⟨g',found',expires ▸ live.unexpired⟩
    | refused call reason => cases charged

end Invariants

theorem phase_program (db : Db) (op : Op) : Phase db ⟨op,program op,[]⟩ := by
  cases op with
  | consume call =>
    rw [consume_program]
    exact .selecting call
  | revoke grantId stamp => exact .revoking grantId stamp

theorem Good.opened {db : Db} (balanced : db.Balanced) : Good db.consumptions db [] where
  balanced := balanced
  audit := (List.append_nil _).symm
  revoked _ revoked := by
    obtain ⟨_,_,_,inside⟩ := revoked
    cases inside
  inTime := trivial

theorem spending_discipline (allowed : Desk → TxnMove Op Turnout → Prop) (start : List Consumption) :
    Transactions.Discipline postgres program allowed (Good start) fun db _ _ t => Phase db t where
  begins db _ _ op _ := phase_program db op
  runs _ id _ _ act _ _ _ _ _ _ good phase ran := ⟨good.heard id act,phase.ran ran⟩
  heard _ _ _ _ _ _ _ phase := phase
  commits _ id _ _ _ _ _ good phase := good.commit phase id
  kept _ _ _ _ _ _ _ _ _ phase _ phase' _ separate _ := phase'.kept phase separate

/-- In every order of the steps each grant has consumed what was charged to it, within its
cap, a key is charged once, the audit is that of the calls that were authorized, and none was
charged once its grant was revoked or at a time past its end. -/
theorem grants_never_overspent {db : Db} (balanced : db.Balanced) {desk : Desk}
    (run : Runs.Reached Desk.step Runs.Free (Transactions.opened db) desk) : desk.store.Balanced ∧
      desk.store.consumptions = db.consumptions ++ desk.past.reverse.filterMap auditedRow ∧
      InTime desk.store desk.past := by
  have start : Good db.consumptions db [] := Good.opened balanced
  have good := (Transactions.Disciplined.reached (spending_discipline Runs.Free db.consumptions) start run).good
  exact ⟨good.balanced,good.audit,good.inTime⟩

theorem table_order (rows : List Grant) : (id rows).Perm rows := .refl rows

def prompt : Turnout := ⟨false,id,table_order⟩

def oneSend : Grant := ⟨"g1","acme","send_external","mail:*",1,0,100,none,"lea",0⟩

def oneSendDb : Db := ⟨Table.empty.insert oneSend,[]⟩

def sendTo (actionKey : String) (now : Moment) : Op := .consume ⟨"acme","send_external",actionKey,"ann",now⟩

theorem oneSendDb_balanced : oneSendDb.Balanced where
  consumed grantId g found := by
    obtain ⟨inside,rfl⟩ := Table.row_some.mp found
    obtain rfl : g = oneSend := List.mem_singleton.mp inside
    exact ⟨rfl,Nat.zero_le 1⟩
  once _ _ := Nat.zero_le 1

/-- Two calls find the grant with room for one; the second waits for the first and is refused. -/
theorem one_of_two_charged : ∃ desk : Desk, desk.store.charges "g1" = 1 ∧ desk.store.Balanced := by
  have walked : ((Runs.walk Desk.step (fun _ _ => true) [.begin (sendTo "mail:a" 5),.begin (sendTo "mail:b" 5),
    .run 0 prompt,
      .run 1 prompt,.run 0 prompt,.run 1 prompt,.run 0 prompt,.run 0 prompt,.commit 0,.run 1 prompt,.commit 1]
      (Transactions.opened oneSendDb)).map fun desk : Desk => desk.store.charges "g1") = some 1 := by
    decide +kernel
  obtain ⟨desk,walked,charged⟩ := Option.map_eq_some_iff.mp walked
  exact ⟨desk,charged,(grants_never_overspent oneSendDb_balanced
    (Runs.reached_walk (fun _ _ _ => trivial) _ .start walked)).1⟩

end Orrery.Grants
