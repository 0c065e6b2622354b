import Mathlib.Data.Finset.Card
import Orrery.Foundation.Json
import Orrery.Foundation.Procs
import Orrery.Foundation.Surrogates

/-! `record_usage` of server/authority.py as a program of its calls, side by side with
others of its kind over the table of counters. Moments are counted in microseconds. -/
namespace Orrery.Authority
open Foundation Foundation.Json

structure UsageCall where
  agentId : String
  actionKind : String
deriving DecidableEq

inductive WindowKind
  | day
  | week
deriving DecidableEq

def WindowKind.constraintKey : WindowKind → String
  | .day => "max_per_day"
  | .week => "max_per_week"

def dayLength : Int := 86400000000

def windowStart (kind : WindowKind) (now : Int) : Int :=
  match kind with
  | .day => now/dayLength*dayLength
  | .week => (now/dayLength-(now/dayLength+3)%7)*dayLength

structure Scope where
  constraints : Dict

abbrev UsageKey := UsageCall × WindowKind × Int

structure Usage where
  id : ℕ
  key : UsageKey
  count : Int

abbrev Usages := NumberedTable Usage ℕ UsageKey Usage.id Usage.key

inductive Act
  | getScope (call : UsageCall)
  | utcNow
  | getUsage (key : UsageKey)
  | patchUsage (id : ℕ) (count : Int)
  | postUsage (key : UsageKey)

@[reducible] def Act.Answer : Act → Type
  | .getScope _ => Option (List Scope)
  | .utcNow => Int
  | .getUsage _ | .patchUsage .. | .postUsage _ => Option (List Usage)

/-- What the outside decides of a call: the time, whether its statement is carried out and
answered, the number of a new row, and what the table of scopes holds. -/
structure Landing where
  now : Int
  lands : Bool
  answers : Bool
  newId : ℕ
  scopes : List Scope

section Effects
variable (usages : Usages) (landing : Landing)

def Landing.answered {α : Type} (rows : List α) : Option (List α) :=
  if landing.lands && landing.answers then some rows else none

def answer : (act : Act) → act.Answer
  | .getScope _ => landing.answered landing.scopes
  | .utcNow => landing.now
  | .getUsage key => landing.answered (usages.row key).toList
  | .patchUsage id count => landing.answered ((usages.select fun row => row.id = id).map
      fun row => { row with count := count })
  | .postUsage key =>
    if usages.rows.any fun row => row.id = landing.newId || row.key = key then none
    else landing.answered [⟨landing.newId,key,1⟩]

def carriedOut : Act → Usages
  | .patchUsage id count => usages.patch id (fun row => { row with count := count }) (fun _ => rfl) (fun _ => rfl)
  | .postUsage key => usages.insert ⟨landing.newId,key,1⟩
  | _ => usages

end Effects

def exec (landing : Landing) (act : Act) (usages : Usages) : act.Answer × Usages :=
  (answer usages landing act,if landing.lands then carriedOut usages landing act else usages)

abbrev Program (β : Type) := Proc Act Act.Answer β

section Programs

def getScope (call : UsageCall) : Program (Option (List Scope)) := .call (.getScope call) .done
def utcNow : Program Int := .call .utcNow .done
def getUsage (key : UsageKey) : Program (Option (List Usage)) := .call (.getUsage key) .done
def patchUsage (id : ℕ) (count : Int) : Program (Option (List Usage)) := .call (.patchUsage id count) .done
def postUsage (key : UsageKey) : Program (Option (List Usage)) := .call (.postUsage key) .done

def increment (key : UsageKey) (existing : Option (List Usage)) : Program Unit :=
  match (existing.getD []).head? with
  | some row => do
    let _ ← patchUsage row.id (row.count+1)
    return ()
  | none => do
    let _ ← postUsage key
    return ()

def recordWindow (call : UsageCall) (kind : WindowKind) : Program Unit := do
  let now ← utcNow
  let existing ← getUsage (call,kind,windowStart kind now)
  increment (call,kind,windowStart kind now) existing

def recordWindows (call : UsageCall) : List WindowKind → Program Unit
  | [] => return ()
  | kind :: kinds => do
    recordWindow call kind
    recordWindows call kinds

def Scope.limited (scope : Scope) : List WindowKind :=
  [WindowKind.day,.week].filter fun kind => (get scope.constraints kind.constraintKey).isSome

def recordLimited (call : UsageCall) (scopes : Option (List Scope)) : Program Unit :=
  match (scopes.getD []).head? with
  | none => return ()
  | some scope => recordWindows call scope.limited

def recordUsage (call : UsageCall) : Program Unit := do
  let scopes ← getScope call
  recordLimited call scopes

end Programs

abbrev Service := Pool UsageCall Act Act.Answer Unit Usages

def Service.opened (usages : Usages) : Service := ⟨usages,∅,[]⟩

abbrev Service.step (service : Service) : Turn UsageCall Landing → Option Service := Pool.step exec recordUsage service

def stored (usages : Usages) (key : UsageKey) : Int := ((usages.row key).map Usage.count).getD 0

def Service.returned (service : Service) (call : UsageCall) : ℕ :=
  service.past.countP fun | .returned other _ => other = call | .did _ => false

end Orrery.Authority
