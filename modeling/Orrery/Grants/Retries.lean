import Orrery.Grants.Revocation

/-! When a retry is free: sequences of calls, each of them by itself. -/
namespace Orrery.Grants
open Foundation

structure Arrangement where
  arrange : List Grant → List Grant
  arrange_perm : ∀ rows, (arrange rows).Perm rows

def inOrder : Arrangement := ⟨id,table_order⟩

def Arrangement.turnout (arrangement : Arrangement) : Turnout := ⟨false,arrangement.arrange,arrangement.arrange_perm⟩

def Db.consumes (db : Db) (call : Call) (arrangement : Arrangement) : Reply × Db :=
  match db.selected arrangement.turnout call with
  | none => (refused "no_matching_grant",db)
  | some g =>
    if db.charged g.grantId call.actionKey then (retriedUnder g,db.put (.consumption (g.row call false)))
    else (chargedUnder g.spent,(db.put (.grant g.spent)).put (.consumption (g.spent.row call true)))

def Db.revoke (db : Db) (grantId : String) (stamp : Moment) : Db :=
  match db.row grantId with
  | some g => if g.revokedAt = none then db.put (.grant (g.revoked stamp)) else db
  | none => db

theorem serves_chargeable {g : Grant} {call : Call} (serves : g.serves call = true) : g.Chargeable call.now := by
  simp only [Grant.serves,Bool.and_eq_true,decide_eq_true_eq,Option.isNone_iff_eq_none] at serves
  exact ⟨serves.1.1.1.2,serves.1.1.2,serves.1.2⟩

theorem solo_consume (db : Db) (call : Call) (arrangement : Arrangement) :
    postgres.solo (fun _ => arrangement.turnout) (program (.consume call)) db [] =
      some (.consumed (db.consumes call arrangement).1,(db.consumes call arrangement).2) := by
  rw [consume_program]
  have first : postgres.exec arrangement.turnout (.selectGrant call) (postgres.view db []) =
      some (db.selected arrangement.turnout call,[]) := rfl
  refine (postgres.solo_call first).trans ?_
  rw [Db.consumes]
  cases selected : db.selected arrangement.turnout call with
  | none => rfl
  | some g =>
    obtain ⟨found,serves⟩ := selected_unrevoked selected
    have live := serves_chargeable serves
    have second : postgres.exec arrangement.turnout (.isCharged g.grantId call.actionKey) (postgres.view db []) =
        some (db.charged g.grantId call.actionKey,[]) := rfl
    refine (postgres.solo_call second).trans ?_
    cases charged : db.charged g.grantId call.actionKey with
    | true =>
      dsimp only
      rw [if_pos charged]
      rfl
    | false =>
      have third : postgres.exec arrangement.turnout (.spend g.grantId call.now) (postgres.view db []) =
          some (some g.spent,[.grant g.spent]) := by
        change (match db.row g.grantId with
          | some held =>
            if held.revokedAt.isNone && decide (call.now < held.expiresAt) && decide (held.consumed < held.cap) then
              some (some held.spent,[Write.grant held.spent]) else some (none,[])
          | none => some (none,[])) = _
        simp [found,live.unrevoked,live.unexpired,live.room]
      have fourth : postgres.exec arrangement.turnout (.insertConsumption (g.spent.row call true))
          (postgres.view db [.grant g.spent]) = some ((),[.consumption (g.spent.row call true)]) := by
        change (if db.charged g.grantId call.actionKey = true then none else some ((),[Write.consumption _])) = _
        rw [charged]
        rfl
      refine (postgres.solo_call third).trans ((postgres.solo_call fourth).trans ?_)
      dsimp only
      rw [if_neg (Bool.eq_false_iff.mp charged)]
      rfl

theorem exec_revoke (db : Db) (grantId : String) (stamp : Moment) (arrangement : Arrangement) :
    postgres.exec arrangement.turnout (.revokeGrant grantId stamp) (postgres.view db []) = match db.row grantId with
      | some g => if g.revokedAt.isNone then some (some (g.revoked stamp),[.grant (g.revoked stamp)]) else some (none,
          [])
      | none => some (none,[]) := rfl

theorem solo_revoke (db : Db) (grantId : String) (stamp : Moment) (arrangement : Arrangement) : ∃ row,
    postgres.solo (fun _ => arrangement.turnout) (program (.revoke grantId stamp)) db [] =
      some (.revoked row,db.revoke grantId stamp) := by
  have first := exec_revoke db grantId stamp arrangement
  rw [Db.revoke]
  cases found : db.row grantId with
  | none =>
    rw [found] at first
    exact ⟨none,(postgres.solo_call first).trans rfl⟩
  | some g =>
    rw [found] at first
    dsimp only at first ⊢
    by_cases live : g.revokedAt = none
    · rw [if_pos (Option.isNone_iff_eq_none.mpr live)] at first
      rw [if_pos live]
      exact ⟨some (g.revoked stamp),(postgres.solo_call first).trans rfl⟩
    · rw [if_neg fun none_ => live (Option.isNone_iff_eq_none.mp none_)] at first
      rw [if_neg live]
      exact ⟨none,(postgres.solo_call first).trans rfl⟩

/-- A call that was answered, between the stores before and after it. -/
structure Answered where
  before : Db
  call : Call
  reply : Reply
  after : Db

def Retry (db : Db) (call : Call) : Prop :=
  ∃ g, db.row g.grantId = some g ∧ g.chapterId = call.chapterId ∧ g.kind = call.kind ∧ g.revokedAt = none ∧
    call.now < g.expiresAt ∧ db.charged g.grantId call.actionKey = true

structure Answered.Free (answered : Answered) : Prop where
  authorized : answered.reply.authorized = true
  grants : answered.after.grants = answered.before.grants
  charges : answered.after.consumptions.filter Consumption.charged =
    answered.before.consumptions.filter Consumption.charged

structure Counter where
  db : Db
  answered : List Answered

inductive Request
  | consume (call : Call) (arrangement : Arrangement)
  | revoke (grantId : String) (stamp : Moment)

def Counter.step (counter : Counter) : Request → Counter
  | .consume call arrangement =>
    { db := (counter.db.consumes call arrangement).2
      answered := ⟨counter.db,call,(counter.db.consumes call arrangement).1,(counter.db.consumes call arrangement).2⟩ ::
        counter.answered }
  | .revoke grantId stamp => { counter with db := counter.db.revoke grantId stamp }

def Counter.RetriesFree (counter : Counter) : Prop :=
  ∀ answered ∈ counter.answered, Retry answered.before answered.call → answered.Free

def Counter.FindsCharged (counter : Counter) : Request → Prop
  | .consume call arrangement => Retry counter.db call →
      ∃ g, counter.db.selected arrangement.turnout call = some g ∧ counter.db.charged g.grantId call.actionKey = true
  | .revoke .. => True

section Requests
variable {db : Db} {call : Call} {arrangement : Arrangement}

theorem consumes_free : Answered.Free ⟨db,call,(db.consumes call arrangement).1,(db.consumes call arrangement).2⟩ ↔
    ∃ g, db.selected arrangement.turnout call = some g ∧ db.charged g.grantId call.actionKey = true := by
  rw [Db.consumes]
  cases selected : db.selected arrangement.turnout call with
  | none =>
    constructor
    · exact fun free => nomatch free.authorized
    · rintro ⟨_,same,_⟩
      cases same
  | some g =>
    dsimp only
    split
    next charged =>
      refine ⟨fun _ => ⟨g,rfl,charged⟩,fun _ => ⟨rfl,rfl,?_⟩⟩
      rw [put_consumption_consumptions,List.filter_append]
      exact List.append_nil _
    next uncharged =>
      constructor
      · intro free
        have charges := congrArg List.length free.charges
        rw [put_consumption_consumptions,put_grant_consumptions,List.filter_append,List.length_append] at charges
        simp [Grant.row] at charges
      · rintro ⟨_,same,charged⟩
        obtain rfl := Option.some.inj same
        exact absurd charged uncharged

/-- Every retry of a sequence of calls is free just if every retry finds first a grant
that was charged for it. -/
theorem retries_free_iff (db : Db) (requests : List Request) :
    (∀ k, ((requests.take k).foldl Counter.step ⟨db,[]⟩).RetriesFree) ↔
      ∀ (k : ℕ) request, requests[k]? = some request →
        ((requests.take k).foldl Counter.step ⟨db,[]⟩).FindsCharged request := by
  refine Runs.always_iff (I := fun _ => True) (P := Counter.RetriesFree) (Q := Counter.FindsCharged)
    (fun _ _ _ => trivial) ?_ requests ⟨db,[]⟩ trivial fun _ inside => by cases inside
  intro counter request _ free
  cases request with
  | consume call arrangement =>
    constructor
    · exact fun after retry => consumes_free.mp (after _ (.head _) retry)
    · intro finds answered inside retry
      obtain rfl | before := List.mem_cons.mp inside
      · exact consumes_free.mpr (finds retry)
      · exact free answered before retry
  | revoke grantId stamp => exact ⟨fun _ => trivial,fun _ => free⟩

end Requests

theorem counter_reached {db : Db} (requests : List Request) : ∀ (counter : Counter) (desk : Desk),
    Runs.Reached Desk.step Runs.Free (Transactions.opened db) desk → (∀ id, desk.live.lookup id = none) →
    desk.store = counter.db → ∃ desk' : Desk, Runs.Reached Desk.step Runs.Free (Transactions.opened db) desk' ∧
      (∀ id, desk'.live.lookup id = none) ∧ desk'.store = (requests.foldl Counter.step counter).db := by
  induction requests with
  | nil => exact fun _ desk run idle same => ⟨desk,run,idle,same⟩
  | cons request requests ih =>
    intro counter desk run idle same
    have one : ∃ desk' : Desk, Runs.Reached Desk.step Runs.Free (Transactions.opened db) desk' ∧
        desk'.store = (counter.step request).db ∧ ∀ id, desk'.live.lookup id = none := by
      cases request with
      | consume call arrangement =>
        have solo := solo_consume counter.db call arrangement
        rw [← same] at solo
        obtain ⟨desk',run',same',idle'⟩ := Transactions.solo_begun run idle solo
        rw [same] at same'
        exact ⟨desk',run',same',idle'⟩
      | revoke grantId stamp =>
        obtain ⟨row,solo⟩ := solo_revoke counter.db grantId stamp inOrder
        rw [← same] at solo
        obtain ⟨desk',run',same',idle'⟩ := Transactions.solo_begun run idle solo
        rw [same] at same'
        exact ⟨desk',run',same',idle'⟩
    obtain ⟨desk',run',same',idle'⟩ := one
    exact ih _ desk' run' idle' same'

/-- The sequences of calls are runs of the transactions, one after another. -/
theorem requests_run (db : Db) (requests : List Request) : ∃ desk : Desk,
    Runs.Reached Desk.step Runs.Free (Transactions.opened db) desk ∧ (∀ id, desk.live.lookup id = none) ∧
      desk.store = (requests.foldl Counter.step ⟨db,[]⟩).db :=
  counter_reached requests ⟨db,[]⟩ _ .start (fun _ => rfl) rfl

def sendAgain : Call := ⟨"acme","send_external","mail:a","ann",6⟩

def halfSpent : Grant := { oneSend with cap := 2, consumed := 1 }

def endsEarlier : Grant := { oneSend with grantId := "g2", expiresAt := 50 }

def earlierDb : Db where
  grants := (Table.empty.insert endsEarlier).insert halfSpent
  consumptions := [⟨"g1","acme","send_external","mail:a","ann",true,1⟩]

theorem earlier_selected : earlierDb.selected inOrder.turnout sendAgain = some endsEarlier := by
  have serving : (earlierDb.grants.select fun g => g.serves sendAgain) = [endsEarlier,halfSpent] := by decide +kernel
  have sorted : [endsEarlier,halfSpent].Pairwise fun a b => decide (a.expiresAt ≤ b.expiresAt) = true := by decide
  rw [Db.selected,serving]
  exact congrArg List.head? (List.mergeSort_of_pairwise sorted)

/-- A retry is refused where the cap has been reached, and charged to the grant that expires
earlier. -/
theorem retry_not_free :
    ¬ ([.consume sendAgain inOrder,.consume sendAgain inOrder].foldl Counter.step ⟨oneSendDb,[]⟩).RetriesFree ∧
      ¬ ([.consume sendAgain inOrder].foldl Counter.step ⟨earlierDb,[]⟩).RetriesFree := by
  constructor
  · intro free
    have retry : Retry (oneSendDb.consumes sendAgain inOrder).2 sendAgain :=
      ⟨oneSend.spent,by decide +kernel,rfl,rfl,rfl,by decide,by decide +kernel⟩
    have refused : ((oneSendDb.consumes sendAgain inOrder).2.consumes sendAgain inOrder).1.authorized = false := by
      decide +kernel
    cases refused.symm.trans (free _ (.head _) retry).authorized
  · intro free
    have retry : Retry earlierDb sendAgain := ⟨halfSpent,by decide +kernel,rfl,rfl,rfl,by decide,by decide +kernel⟩
    obtain ⟨g,selected,charged⟩ := consumes_free.mp (free _ (.head _) retry)
    obtain rfl := Option.some.inj (earlier_selected.symm.trans selected)
    exact absurd charged (by decide +kernel)

end Orrery.Grants
