import Orrery.Grants.Spending

/-! What a revocation stops: the calls whose authorizing statement runs once it is committed. -/
namespace Orrery.Grants
open Foundation

def Authorizes (grantId : String) : Act → Prop
  | .spend id _ => id = grantId
  | .insertConsumption row => row.charged = false ∧ row.grantId = grantId
  | _ => False

def Late (id : ℕ) (grantId : String) : List (TxnEvent Op Act Result) → Prop
  | [] => False
  | event :: past => (∃ act, event = .ran id act ∧ Authorizes grantId act ∧ RevokedIn past grantId) ∨ Late id grantId past

def AuthorizedLate (past : List (TxnEvent Op Act Result)) (grantId : String) : Prop :=
  ∃ id call reply, TxnEvent.committed id (.consume call) (.consumed reply) ∈ past ∧ reply.authorized = true ∧
    reply.grantId = some grantId ∧ Late id grantId past

inductive Retries (db : Db) (grantId : String) : Txn Op Act Act.Answer Result Write → Prop
  | checking {op : Op} {actionKey : String} {resume : Bool → Program Result} {writes : List Write}
      (charged : db.charged grantId actionKey = true) :
      Retries db grantId ⟨op,.call (.isCharged grantId actionKey) resume,writes⟩
  | inserting {op : Op} {row : Consumption} {resume : Unit → Program Result} {writes : List Write}
      (named : row.grantId = grantId) (uncharged : row.charged = false) :
      Retries db grantId ⟨op,.call (.insertConsumption row) resume,writes⟩

def Unhurried (desk : Desk) : TxnMove Op Turnout → Prop
  | .commit id => ∀ grantId stamp result writes, desk.live.lookup id = some ⟨.revoke grantId stamp,.done result,writes⟩ →
      ∀ other t, desk.live.lookup other = some t → ¬ Retries desk.store grantId t
  | _ => True

def Db.Unrevoked (db : Db) (grantId : String) : Prop := ∃ g, db.row grantId = some g ∧ g.revokedAt = none

structure Heeding (db : Db) (past : List (TxnEvent Op Act Result)) (id : ℕ) (t : Txn Op Act Act.Answer Result Write) :
    Prop where
  phase : Phase db t
  uncommitted : ∀ op result, TxnEvent.committed id op result ∉ past
  retries : ∀ grantId, Retries db grantId t → db.Unrevoked grantId
  late : ∀ grantId, Late id grantId past → ∃ call reason, t = ⟨.consume call,.done (.consumed (refused reason)),[]⟩

structure Heeded (start : List Consumption) (db : Db) (past : List (TxnEvent Op Act Result)) : Prop where
  good : Good start db past
  intime : ∀ grantId, ¬ AuthorizedLate past grantId

section Logs
variable {past : List (TxnEvent Op Act Result)} {id : ℕ} {grantId : String}

theorem late_id (late : Late id grantId past) : ∃ event ∈ past, event.id = id := by
  induction past with
  | nil => exact late.elim
  | cons event past ih =>
    obtain ⟨act,rfl,_⟩ | before := late
    · exact ⟨_,.head _,rfl⟩
    · obtain ⟨event',inside,same⟩ := ih before
      exact ⟨event',.tail _ inside,same⟩

theorem late_ran_other {other : ℕ} {act : Act} (apart : other ≠ id) (late : Late id grantId (.ran other act :: past)) :
    Late id grantId past := by
  obtain ⟨_,same,_⟩ | before := late
  · exact absurd (TxnEvent.ran.inj same).1 apart
  · exact before

theorem late_committed {other : ℕ} {op : Op} {result : Result}
    (late : Late id grantId (.committed other op result :: past)) : Late id grantId past := by
  obtain ⟨_,same,_⟩ | before := late
  · cases same
  · exact before

theorem late_ran {act : Act} (late : Late id grantId (.ran id act :: past)) :
    Authorizes grantId act ∧ RevokedIn past grantId ∨ Late id grantId past := by
  obtain ⟨act',same,authorizes,revoked⟩ | before := late
  · obtain ⟨_,rfl⟩ := TxnEvent.ran.inj same
    exact .inl ⟨authorizes,revoked⟩
  · exact .inr before

end Logs

section Rows
variable {db : Db} {grantId : String}

theorem selected_unrevoked {turnout : Turnout} {call : Call} {g : Grant} (selected : db.selected turnout call = some g) :
    db.row g.grantId = some g ∧ g.serves call = true := by
  apply Table.mem_select.mp
  apply (turnout.arrange_perm _).mem_iff.mp
  exact List.mem_mergeSort.mp (List.mem_of_mem_head? selected)

theorem serves_unrevoked {g : Grant} {call : Call} (serves : g.serves call = true) : g.revokedAt = none := by
  simp only [Grant.serves,Bool.and_eq_true,Option.isNone_iff_eq_none] at serves
  exact serves.1.1.1.2

theorem Good.not_revokedIn {start : List Consumption} {past : List (TxnEvent Op Act Result)} (good : Good start db past)
    (unrevoked : db.Unrevoked grantId) : ¬ RevokedIn past grantId := by
  obtain ⟨g,found,none_⟩ := unrevoked
  exact fun revoked => good.revoked grantId revoked g found none_

theorem Phase.unrevoked_kept {op : Op} {result : Result} {writes : List Write} (phase : Phase db ⟨op,.done result,writes⟩)
    (away : ∀ stamp, op ≠ .revoke grantId stamp) (unrevoked : db.Unrevoked grantId) :
    Db.Unrevoked (postgres.view db writes) grantId := by
  obtain ⟨held,found,none_⟩ := unrevoked
  cases phase with
  | retried call g => exact ⟨held,found,none_⟩
  | recorded call g found' live uncharged =>
    have after : Db.row (postgres.view db [.grant g.spent,.consumption (g.spent.row call true)]) grantId = _ :=
      @put_grant_row db g g.spent grantId found' rfl
    by_cases here : grantId = g.grantId
    · rw [if_pos here] at after
      exact ⟨g.spent,after,live.unrevoked⟩
    · rw [if_neg here] at after
      exact ⟨held,after.trans found,none_⟩
  | refused call reason => exact ⟨held,found,none_⟩
  | revoked g stamp found' =>
    have after : Db.row (postgres.view db [.grant (g.revoked stamp)]) grantId = _ :=
      @put_grant_row db g (g.revoked stamp) grantId found' rfl
    have apart : grantId ≠ g.grantId := fun here => away stamp (congrArg (Op.revoke · stamp) here.symm)
    rw [if_neg apart] at after
    exact ⟨held,after.trans found,none_⟩
  | unrevoked other stamp gone => exact ⟨held,found,none_⟩

theorem Phase.newly_charged {op : Op} {result : Result} {writes : List Write} (phase : Phase db ⟨op,.done result,writes⟩)
    {actionKey : String} (before : db.charged grantId actionKey = false)
    (after : Db.charged (postgres.view db writes) grantId actionKey = true) :
    Db.Unrevoked (postgres.view db writes) grantId := by
  cases phase with
  | retried call g =>
    change (db.consumptions ++ [g.row call false]).any _ = true at after
    rw [List.any_append,← Db.charged,before] at after
    cases after
  | recorded call g found live uncharged =>
    have row : Db.row (postgres.view db [.grant g.spent,.consumption (g.spent.row call true)]) grantId = _ :=
      @put_grant_row db g g.spent grantId found rfl
    change (db.consumptions ++ [g.spent.row call true]).any _ = true at after
    rw [List.any_append,← Db.charged,before,Bool.false_or,List.any_cons,List.any_nil,Bool.or_false] at after
    have here : g.grantId = grantId := by
      simp only [Consumption.charges,Bool.and_eq_true] at after
      exact of_decide_eq_true after.1.2
    rw [if_pos here.symm] at row
    exact ⟨g.spent,row,live.unrevoked⟩
  | refused call reason => cases before.symm.trans after
  | revoked g stamp found => cases before.symm.trans after
  | unrevoked other stamp gone => cases before.symm.trans after

end Rows

section Transactions
variable {start : List Consumption} {db : Db} {past : List (TxnEvent Op Act Result)} {id : ℕ} {op : Op}

theorem Heeding.early {act : Act} {resume : act.Answer → Program Result} {writes : List Write}
    (heeding : Heeding db past id ⟨op,.call act resume,writes⟩) (grantId : String) : ¬ Late id grantId past := by
  intro late
  obtain ⟨call,reason,same⟩ := heeding.late grantId late
  cases same

theorem not_late_ran {act : Act} (early : ∀ grantId, ¬ Late id grantId past)
    (authorizes : ∀ grantId, Authorizes grantId act → ¬ RevokedIn past grantId) (grantId : String) :
    ¬ Late id grantId (.ran id act :: past) := by
  intro late
  obtain ⟨authorizing,revoked⟩ | before := late_ran late
  · exact authorizes grantId authorizing revoked
  · exact early grantId before

theorem Heeding.ran {act : Act} {resume : act.Answer → Program Result} {writes new : List Write}
    {turnout : Turnout} {answer : act.Answer} (good : Good start db past)
    (heeding : Heeding db past id ⟨op,.call act resume,writes⟩)
    (ran : (postgres.view db writes).exec turnout act = some (answer,new)) :
    Heeding db (.ran id act :: past) id ⟨op,resume answer,writes ++ new⟩ := by
  have next := heeding.phase.ran ran
  have early := heeding.early
  have uncommitted (op : Op) (result : Result) : TxnEvent.committed id op result ∉ .ran id act :: past :=
    fun inside => heeding.uncommitted op result ((List.mem_cons.mp inside).resolve_left nofun)
  have unlate (authorizes : ∀ grantId, Authorizes grantId act → ¬ RevokedIn past grantId) (grantId : String)
      (late : Late id grantId (.ran id act :: past)) :
      ∃ call reason, (⟨op,resume answer,writes ++ new⟩ : Txn Op Act Act.Answer Result Write) =
        ⟨.consume call,.done (.consumed (refused reason)),[]⟩ :=
    absurd late (not_late_ran early authorizes grantId)
  cases heeding.phase with
  | selecting call =>
    refine ⟨next,uncommitted,?_,unlate fun grantId authorizes => authorizes.elim⟩
    intro grantId retries
    have found := ran
    simp only [Db.exec] at found
    split at found
    · cases found
    obtain ⟨same,rfl⟩ := Prod.mk.inj (Option.some.inj found)
    cases selected : db.selected turnout call with
    | none =>
      rw [← same,show (postgres.view db []).selected turnout call = none from selected] at retries
      cases retries
    | some g =>
      rw [← same,show (postgres.view db []).selected turnout call = some g from selected] at retries
      cases retries with
      | checking charged =>
        obtain ⟨there,serves⟩ := selected_unrevoked selected
        exact ⟨g,there,serves_unrevoked serves⟩
  | checking call g =>
    refine ⟨next,uncommitted,?_,unlate fun grantId authorizes => authorizes.elim⟩
    intro grantId retries
    have found := ran
    simp only [Db.exec] at found
    split at found
    · cases found
    obtain ⟨same,rfl⟩ := Prod.mk.inj (Option.some.inj found)
    cases charged : db.charged g.grantId call.actionKey with
    | false =>
      rw [← same,show (postgres.view db []).charged g.grantId call.actionKey = false from charged] at retries
      cases retries
    | true =>
      rw [← same,show (postgres.view db []).charged g.grantId call.actionKey = true from charged] at retries
      cases retries with
      | inserting named uncharged => exact named ▸ heeding.retries g.grantId (.checking charged)
  | retrying call g =>
    refine ⟨next,uncommitted,?_,unlate fun grantId authorizes => ?_⟩
    · intro grantId retries
      cases retries
    · exact good.not_revokedIn (heeding.retries grantId (.inserting authorizes.2 authorizes.1))
  | spending call g =>
    have found := ran
    simp only [Db.exec] at found
    split at found
    · cases found
    split at found
    next held row =>
      split at found
      next live =>
        obtain ⟨rfl,rfl⟩ := Prod.mk.inj (Option.some.inj found)
        simp only [Bool.and_eq_true,Option.isNone_iff_eq_none] at live
        refine ⟨next,uncommitted,?_,unlate fun grantId authorizes => ?_⟩
        · intro grantId retries
          cases retries with
          | inserting named uncharged => cases uncharged
        · exact good.not_revokedIn ⟨held,authorizes ▸ row,live.1.1⟩
      next =>
        obtain ⟨rfl,rfl⟩ := Prod.mk.inj (Option.some.inj found)
        refine ⟨next,uncommitted,?_,fun _ _ => ⟨call,_,rfl⟩⟩
        intro grantId retries
        cases retries
    next =>
      obtain ⟨rfl,rfl⟩ := Prod.mk.inj (Option.some.inj found)
      refine ⟨next,uncommitted,?_,fun _ _ => ⟨call,_,rfl⟩⟩
      intro grantId retries
      cases retries
  | recording call g found live =>
    refine ⟨next,uncommitted,?_,unlate fun grantId authorizes => ?_⟩
    · intro grantId retries
      cases retries
    · cases authorizes.1
  | revoking grantId stamp =>
    refine ⟨next,uncommitted,?_,unlate fun grantId authorizes => authorizes.elim⟩
    intro grantId retries
    cases retries

theorem Heeding.heard {t : Txn Op Act Act.Answer Result Write} {other : ℕ} {act : Act} (apart : other ≠ id)
    (heeding : Heeding db past id t) : Heeding db (.ran other act :: past) id t where
  phase := heeding.phase
  uncommitted op result inside := heeding.uncommitted op result ((List.mem_cons.mp inside).resolve_left nofun)
  retries := heeding.retries
  late grantId late := heeding.late grantId (late_ran_other apart late)

theorem Heeding.kept {t : Txn Op Act Act.Answer Result Write} {other : ℕ} {result : Result} {writes : List Write}
    (apart : other ≠ id) (heeding : Heeding db past id t) (phase : Phase db ⟨op,.done result,writes⟩)
    (unhurried : ∀ grantId stamp, op = .revoke grantId stamp → ¬ Retries db grantId t)
    (separate : postgres.Separate writes t.writes) :
    Heeding (postgres.view db writes) (.committed other op result :: past) id t where
  phase := heeding.phase.kept phase separate
  uncommitted op' result' inside := by
    obtain same | before := List.mem_cons.mp inside
    · exact apart (TxnEvent.committed.inj same).1.symm
    · exact heeding.uncommitted op' result' before
  retries grantId retries := by
    have kept (before : Retries db grantId t) : Db.Unrevoked (postgres.view db writes) grantId :=
      phase.unrevoked_kept (fun stamp same => unhurried grantId stamp same before) (heeding.retries grantId before)
    cases retries with
    | @checking _ actionKey _ _ charged =>
      cases before : db.charged grantId actionKey with
      | true => exact kept (.checking before)
      | false => exact phase.newly_charged before charged
    | inserting named uncharged => exact kept (.inserting named uncharged)
  late grantId late := heeding.late grantId (late_committed late)

theorem Heeded.ran {act : Act} {resume : act.Answer → Program Result} {writes : List Write} (heeded : Heeded start db past)
    (heeding : Heeding db past id ⟨op,.call act resume,writes⟩) : Heeded start db (.ran id act :: past) where
  good := heeded.good.heard id act
  intime := by
    rintro grantId ⟨other,call,reply,inside,authorized,named,late⟩
    have before : TxnEvent.committed other (.consume call) (.consumed reply) ∈ past :=
      (List.mem_cons.mp inside).resolve_left nofun
    have apart : id ≠ other := fun same => heeding.uncommitted _ _ (same ▸ before)
    exact heeded.intime grantId ⟨other,call,reply,before,authorized,named,late_ran_other apart late⟩

theorem Heeded.commit {result : Result} {writes : List Write} (heeded : Heeded start db past)
    (heeding : Heeding db past id ⟨op,.done result,writes⟩) :
    Heeded start (postgres.view db writes) (.committed id op result :: past) where
  good := heeded.good.commit heeding.phase id
  intime := by
    rintro grantId ⟨other,call,reply,inside,authorized,named,late⟩
    obtain same | before := List.mem_cons.mp inside
    · obtain ⟨rfl,rfl,rfl⟩ := TxnEvent.committed.inj same
      obtain ⟨call',reason,refused⟩ := heeding.late grantId (late_committed late)
      cases refused
      cases authorized
    · exact heeded.intime grantId ⟨other,call,reply,before,authorized,named,late_committed late⟩

end Transactions

theorem revocation_discipline (start : List Consumption) :
    Transactions.Discipline postgres program Unhurried (Heeded start) Heeding where
  begins db past id op fresh := by
    refine ⟨phase_program db op,fun _ _ inside => fresh _ inside rfl,?_,?_⟩
    · intro grantId retries
      cases op with
      | consume call =>
        rw [consume_program] at retries
        cases retries
      | revoke grantId stamp => cases retries
    · intro grantId late
      obtain ⟨event,inside,same⟩ := late_id late
      exact absurd same (fresh event inside)
  runs _ _ _ _ _ _ _ _ _ _ _ heeded heeding ran := ⟨heeded.ran heeding,heeding.ran heeded.good ran⟩
  heard _ _ _ _ _ _ apart heeding := heeding.heard apart
  commits _ _ _ _ _ _ _ heeded heeding := heeded.commit heeding
  kept desk id op b writes other t ok live heeding live' heeding' apart separate _ :=
    heeding'.kept (Ne.symm apart) heeding.phase
      (fun grantId stamp same => ok grantId stamp b writes (same ▸ live) other t live') separate

/-- Where no revocation is committed between the SELECT of a retry and its row, no call is
authorized by a statement that ran once the grant was revoked. -/
theorem revoked_authorizes_nothing {db : Db} (balanced : db.Balanced) {desk : Desk}
    (run : Runs.Reached Desk.step Unhurried (Transactions.opened db) desk) (grantId : String) :
    ¬ AuthorizedLate desk.past grantId := by
  have opened : Heeded db.consumptions db [] := ⟨Good.opened balanced,fun _ ⟨_,_,_,inside,_⟩ => by cases inside⟩
  exact (Transactions.Disciplined.reached (revocation_discipline db.consumptions) opened run).good.intime grantId

def twoSendsDb : Db := ⟨Table.empty.insert { oneSend with cap := 2 },[]⟩

theorem twoSendsDb_balanced : twoSendsDb.Balanced where
  consumed grantId g found := by
    obtain ⟨inside,rfl⟩ := Table.row_some.mp found
    obtain rfl : g = { oneSend with cap := 2 } := List.mem_singleton.mp inside
    exact ⟨rfl,Nat.zero_le 2⟩
  once _ _ := Nat.zero_le 1

def firstSend : List (TxnMove Op Turnout) :=
  [.begin (sendTo "mail:a" 5),.run 0 prompt,.run 0 prompt,.run 0 prompt,.run 0 prompt,.commit 0]

def commitsAlone (desk : Desk) : TxnMove Op Turnout → Bool
  | .commit id => desk.live.keys = [id]
  | _ => true

theorem commitsAlone_unhurried (desk : Desk) (move : TxnMove Op Turnout) (checked : commitsAlone desk move = true) :
    Unhurried desk move := by
  cases move with
  | commit id =>
    intro grantId stamp result writes live other t live' retries
    have listed : other ∈ desk.live := AList.lookup_isSome.mp (Option.isSome_iff_exists.mpr ⟨_,live'⟩)
    rw [AList.mem_keys,of_decide_eq_true checked,List.mem_singleton] at listed
    rw [listed,live] at live'
    obtain rfl := Option.some.inj live'
    cases retries
  | _ => trivial

/-- The retry comes before the revocation. -/
theorem retried_then_revoked : ∃ desk : Desk, RevokedIn desk.past "g1" ∧ ¬ AuthorizedLate desk.past "g1" := by
  have walked : ((Runs.walk Desk.step commitsAlone (firstSend ++ [.begin (sendTo "mail:a" 6),.run 1 prompt,.run 1 prompt,
      .run 1 prompt,.commit 1,.begin (.revoke "g1" 7),.run 2 prompt,.commit 2])
      (Transactions.opened twoSendsDb)).map fun desk : Desk => desk.past.take 1) =
      some [.committed 2 (.revoke "g1" 7) (.revoked (some { oneSend with cap := 2, consumed := 1, revokedAt := some 7 }))] := by
    decide +kernel
  obtain ⟨desk,walked,last⟩ := Option.map_eq_some_iff.mp walked
  have revoked : RevokedIn desk.past "g1" := ⟨2,7,_,List.mem_of_mem_take (last ▸ List.mem_singleton_self _)⟩
  exact ⟨desk,revoked,revoked_authorizes_nothing twoSendsDb_balanced
    (Runs.reached_walk commitsAlone_unhurried _ .start walked) "g1"⟩

/-- The revocation is committed between the SELECT of the retry and its row. -/
theorem authorized_after_revocation : ∃ desk : Desk,
    Runs.Reached Desk.step Runs.Free (Transactions.opened twoSendsDb) desk ∧ AuthorizedLate desk.past "g1" := by
  have walked : ((Runs.walk Desk.step (fun _ _ => true) (firstSend ++ [.begin (sendTo "mail:a" 6),.run 1 prompt,
      .begin (.revoke "g1" 7),.run 2 prompt,.commit 2,.run 1 prompt,.run 1 prompt,.commit 1])
      (Transactions.opened twoSendsDb)).map fun desk : Desk => desk.past.take 4) = some
      [.committed 1 (sendTo "mail:a" 6) (.consumed (retriedUnder { oneSend with cap := 2, consumed := 1 })),
        .ran 1 (.insertConsumption ⟨"g1","acme","send_external","mail:a","ann",false,1⟩),.ran 1 (.isCharged "g1" "mail:a"),
        .committed 2 (.revoke "g1" 7) (.revoked (some { oneSend with cap := 2, consumed := 1, revokedAt := some 7 }))] := by
    decide +kernel
  obtain ⟨desk,walked,recent⟩ := Option.map_eq_some_iff.mp walked
  refine ⟨desk,Runs.reached_walk (fun _ _ _ => trivial) _ .start walked,1,⟨"acme","send_external","mail:a","ann",6⟩,
    retriedUnder { oneSend with cap := 2, consumed := 1 },?_,rfl,rfl,?_⟩
  · exact List.mem_of_mem_take (recent ▸ List.mem_cons_self)
  · rw [← List.take_append_drop 4 desk.past,recent]
    exact .inr (.inl ⟨_,rfl,⟨rfl,rfl⟩,2,7,_,.tail _ (.head _)⟩)

end Orrery.Grants
