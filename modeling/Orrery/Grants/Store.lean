import Orrery.Foundation.Tables
import Orrery.Foundation.Transactions

/-! Bounded operational grants: the tables and the function of
infra/migrations/0004_bounded_operational_grants.sql, and `revoke` of
server/bounded_grants.py, as transactions at read committed. -/
namespace Orrery.Grants
open Foundation

abbrev Moment := Int

structure Grant where
  grantId : String
  chapterId : String
  kind : String
  scope : String
  cap : ℕ
  consumed : ℕ
  expiresAt : Moment
  revokedAt : Option Moment
  createdBy : String
  createdAt : Moment
deriving DecidableEq

structure Consumption where
  grantId : String
  chapterId : String
  kind : String
  actionKey : String
  actorAgentId : String
  charged : Bool
  remaining : Int
deriving DecidableEq

structure Db where
  grants : Table Grant String Grant.grantId
  consumptions : List Consumption

structure Call where
  chapterId : String
  kind : String
  actionKey : String
  actor : String
  now : Moment
deriving DecidableEq

structure Reply where
  authorized : Bool
  grantId : Option String
  charged : Option Bool
  remaining : Option Int
  reason : Option String
deriving DecidableEq

/-- LIKE, with its wildcards and its escape. A pattern that ends in a lone escape is an
error there; none that is asked for does. -/
def like : List Char → List Char → Bool
  | [], text => text.isEmpty
  | '%' :: pattern, text => text.tails.any (like pattern)
  | '_' :: pattern, text =>
    match text with
    | [] => false
    | _ :: rest => like pattern rest
  | '\\' :: c :: pattern, text =>
    match text with
    | [] => false
    | t :: rest => t = c && like pattern rest
  | c :: pattern, text =>
    match text with
    | [] => false
    | t :: rest => t = c && like pattern rest

def covers (scope actionKey : String) : Bool :=
  (scope.toList.getLast? = some '*' && like (scope.toList.dropLast ++ ['%']) actionKey.toList) || scope = actionKey

def Grant.serves (g : Grant) (call : Call) : Bool :=
  g.chapterId = call.chapterId && g.kind = call.kind && g.revokedAt.isNone && decide (call.now < g.expiresAt) &&
    decide (g.consumed < g.cap) && covers g.scope call.actionKey

inductive Act
  | selectGrant (call : Call)
  | isCharged (grantId actionKey : String)
  | insertConsumption (row : Consumption)
  | spend (grantId : String) (now : Moment)
  | revokeGrant (grantId : String) (stamp : Moment)
deriving DecidableEq

def Act.Answer : Act → Type
  | .selectGrant _ | .spend .. | .revokeGrant .. => Option Grant
  | .isCharged .. => Bool
  | .insertConsumption _ => Unit

inductive Write
  | grant (row : Grant)
  | consumption (row : Consumption)

inductive Lock
  | row (grantId : String)
  | entry (grantId actionKey : String)
deriving DecidableEq

/-- Whether a statement fails, and in which order rows come that no clause orders. -/
structure Turnout where
  fails : Bool
  arrange : List Grant → List Grant
  arrange_perm : ∀ rows, (arrange rows).Perm rows

def Consumption.charges (row : Consumption) (grantId actionKey : String) : Bool :=
  row.charged && row.grantId = grantId && row.actionKey = actionKey

def Grant.spent (g : Grant) : Grant := { g with consumed := g.consumed+1 }

def Grant.revoked (g : Grant) (stamp : Moment) : Grant := { g with revokedAt := some stamp }

def Grant.replaced (new old : Grant) : Grant := if old.grantId = new.grantId then new else old

theorem Grant.replaced_id (new old : Grant) : (new.replaced old).grantId = old.grantId := by
  unfold Grant.replaced
  split
  next same => exact same.symm
  next => rfl

section Statements
variable (db : Db)

def Db.charged (grantId actionKey : String) : Bool := db.consumptions.any fun row => row.charges grantId actionKey

def Db.selected (turnout : Turnout) (call : Call) : Option Grant :=
  ((turnout.arrange (db.grants.select fun g => g.serves call)).mergeSort fun a b => a.expiresAt ≤ b.expiresAt).head?

def Db.exec (turnout : Turnout) : (act : Act) → Option (act.Answer × List Write)
  | .selectGrant call => if turnout.fails then none else some (db.selected turnout call,[])
  | .isCharged grantId actionKey => if turnout.fails then none else some (db.charged grantId actionKey,[])
  | .insertConsumption row =>
    if turnout.fails || (row.charged && db.charged row.grantId row.actionKey) then none
    else some ((),[.consumption row])
  | .spend grantId now =>
    if turnout.fails then none
    else match db.grants.row grantId with
      | some g =>
        if g.revokedAt.isNone && decide (now < g.expiresAt) && decide (g.consumed < g.cap) then
          some (some g.spent,[.grant g.spent])
        else some (none,[])
      | none => some (none,[])
  | .revokeGrant grantId stamp =>
    if turnout.fails then none
    else match db.grants.row grantId with
      | some g => if g.revokedAt.isNone then some (some (g.revoked stamp),[.grant (g.revoked stamp)]) else some (none,
          [])
      | none => some (none,[])

def Db.put : Write → Db
  | .grant row => { db with grants := db.grants.update (fun _ => true) row.replaced row.replaced_id }
  | .consumption row => { db with consumptions := db.consumptions ++ [row] }

end Statements

def Write.lock : Write → Option Lock
  | .grant row => some (.row row.grantId)
  | .consumption row => if row.charged then some (.entry row.grantId row.actionKey) else none

def postgres : Engine Act Act.Answer Db Write Lock Turnout where
  exec turnout act db := db.exec turnout act
  put := Db.put
  lock := Write.lock

abbrev Program (β : Type) := Proc Act Act.Answer β

section Calls

def selectGrant (call : Call) : Program (Option Grant) := .call (.selectGrant call) .done
def isCharged (grantId actionKey : String) : Program Bool := .call (.isCharged grantId actionKey) .done
def insertConsumption (row : Consumption) : Program Unit := .call (.insertConsumption row) .done
def spend (grantId : String) (now : Moment) : Program (Option Grant) := .call (.spend grantId now) .done
def revokeGrant (grantId : String) (stamp : Moment) : Program (Option Grant) := .call (.revokeGrant grantId stamp) .done

end Calls

def refused (reason : String) : Reply := ⟨false,none,none,none,some reason⟩

def Grant.remaining (g : Grant) : Int := (g.cap : Int)-g.consumed

def Grant.row (g : Grant) (call : Call) (charged : Bool) : Consumption :=
  ⟨g.grantId,call.chapterId,call.kind,call.actionKey,call.actor,charged,g.remaining⟩

def retriedUnder (g : Grant) : Reply := ⟨true,some g.grantId,some false,some g.remaining,some "retry_of_charged_action"⟩

def chargedUnder (g : Grant) : Reply := ⟨true,some g.grantId,some true,some g.remaining,none⟩

def consumeOperationalGrant (call : Call) : Program Reply := do
  match ← selectGrant call with
  | none => return refused "no_matching_grant"
  | some grant =>
    let already ← isCharged grant.grantId call.actionKey
    if already then
      insertConsumption (grant.row call false)
      return retriedUnder grant
    match ← spend grant.grantId call.now with
    | none => return refused "grant_exhausted_or_revoked"
    | some updated =>
      insertConsumption (updated.row call true)
      return chargedUnder updated

inductive Op
  | consume (call : Call)
  | revoke (grantId : String) (stamp : Moment)
deriving DecidableEq

inductive Result
  | consumed (reply : Reply)
  | revoked (row : Option Grant)
deriving DecidableEq

def program : Op → Program Result
  | .consume call => Result.consumed <$> consumeOperationalGrant call
  | .revoke grantId stamp => Result.revoked <$> revokeGrant grantId stamp

abbrev Desk := Transactions Op Act Act.Answer Result Db Write

abbrev Desk.step : Desk → TxnMove Op Turnout → Option Desk := postgres.step program

end Orrery.Grants
