import Mathlib.Tactic.Linarith
import Orrery.Foundation.UnderWay
import Orrery.Foundation.Windows
import Orrery.Trust.Store

/-! `record` of server/trust_events.py as a program of its calls, and what its caps leave
of a delta. -/
namespace Orrery.Trust
open Foundation Foundation.Windows

def eventDeltas : List (String × ℚ) :=
  [("intent_match_accepted",1/2),("intent_response_useful",1),("call_response_accepted",1/2),
    ("conversation_completed_positive",1),("skill_attested_by_trusted",2),("endorsement_received",1/2),
    ("tenure_milestone_30d",1),("tenure_milestone_90d",2),("tenure_milestone_180d",5),("tenure_milestone_365d",10),
    ("revocation_received",-1),("complaint_validated",-3),("inactive_decay",-1)]

def dailyCap : ℚ := 2
def weeklyCap : ℚ := 8
def monthlyCap : ℚ := 20

def day : Int := 86400000000

def clampScale : PyFloat → ℚ
  | .finite q => max (1/2) (min 2 q)
  | .infinite negative => if negative then 1/2 else 2
  | .nan => 2

def scaledDelta (base : ℚ) (read : Option PyFloat) : ℚ := base*clampScale (read.getD (.finite 1))

def capRemaining (spent cap : ℚ) : ℚ := max 0 (cap-spent)

def applyCaps (proposed spentDay spentWeek spentMonth : ℚ) : ℚ × Option String :=
  let remDay := capRemaining spentDay dailyCap
  let remWeek := capRemaining spentWeek weeklyCap
  let remMonth := capRemaining spentMonth monthlyCap
  let cap := min remDay (min remWeek remMonth)
  if proposed ≤ 0 then (proposed,none)
  else if proposed ≤ cap then (proposed,none)
  else if cap = remDay ∧ remDay < remWeek ∧ remDay < remMonth then (cap,some "capped:day")
  else if cap = remWeek ∧ remWeek < remMonth then (cap,some "capped:week")
  else (cap,some "capped:month")

structure RecordCall where
  agentId : String
  eventType : String
  sourceEventId : Option String
  sourceAgentId : Option String
  reason : Option String

inductive Refusal
  | agentIdRequired
  | selfPromotion
  | unknownEventType (eventType : String)

abbrev Result := Except Refusal (Option TrustEvent)

def positive (rows : List TrustEvent) : List TrustEvent := rows.filter fun row => 0 < row.delta

def total (rows : List TrustEvent) : ℚ := (rows.map TrustEvent.delta).sum

section Programs
variable (call : RecordCall)

def RecordCall.event (effective : ℚ) (capped : Option String) : NewEvent :=
  ⟨call.agentId,call.eventType,call.sourceAgentId,call.sourceEventId,effective,capped.or call.reason⟩

def insertion (effective : ℚ) (capped : Option String) : Program Result := do
  let inserted ← postEvent (call.event effective capped)
  if effective = 0 then return .ok none
  return .ok (inserted.getD []).head?

def afterWindow (proposed : ℚ) (now : Int) (rows : Option (List TrustEvent)) : Program Result :=
  let counted := positive (rows.getD [])
  let capped := applyCaps proposed (enteredSince TrustEvent.occurredAt TrustEvent.delta (now-day) counted)
    (enteredSince TrustEvent.occurredAt TrustEvent.delta (now-7*day) counted) (total counted)
  insertion call capped.1 capped.2

def checkCaps (proposed : ℚ) : Program Result :=
  if 0 < proposed then do
    let now ← utcNow
    let rows ← getWindow call.agentId (now-30*day)
    afterWindow call proposed now rows
  else insertion call proposed none

def afterCheck (proposed : ℚ) (existing : Option (List TrustEvent)) : Program Result :=
  if (existing.getD []).isEmpty then checkCaps call proposed else return .ok none

def checkSource (proposed : ℚ) : Program Result :=
  match call.sourceEventId with
  | none => checkCaps call proposed
  | some source => do
    let existing ← getEvent call.agentId call.eventType source
    afterCheck call proposed existing

def record : Program Result :=
  if call.agentId = "" then return .error .agentIdRequired
  else if call.sourceAgentId = some call.agentId then return .error .selfPromotion
  else match eventDeltas.lookup call.eventType with
  | none => return .error (.unknownEventType call.eventType)
  | some base => do
    let read ← scale
    checkSource call (scaledDelta base read)

end Programs

section Numbers

def Thousandths (q : ℚ) : Prop := ∃ k : ℤ, q = k/1000

theorem Thousandths.add {q q' : ℚ} : Thousandths q → Thousandths q' → Thousandths (q+q') := by
  rintro ⟨k,rfl⟩ ⟨k',rfl⟩
  refine ⟨k+k',?_⟩
  push_cast
  ring

theorem Thousandths.sub {q q' : ℚ} : Thousandths q → Thousandths q' → Thousandths (q-q') := by
  rintro ⟨k,rfl⟩ ⟨k',rfl⟩
  refine ⟨k-k',?_⟩
  push_cast
  ring

theorem Thousandths.sum {numbers : List ℚ} (all : ∀ q ∈ numbers, Thousandths q) : Thousandths numbers.sum := by
  induction numbers with
  | nil => exact ⟨0,by simp⟩
  | cons q numbers ih =>
    rw [List.sum_cons]
    exact (all q List.mem_cons_self).add (ih fun q inside => all q (List.mem_cons_of_mem _ inside))

theorem numeric63_thousandths (q : ℚ) : Thousandths (numeric63 q) := by
  unfold numeric63
  split
  · exact ⟨_,rfl⟩
  · refine ⟨-⌊-q*1000+1/2⌋,?_⟩
    push_cast
    ring

theorem numeric63_nonneg {q : ℚ} (nonneg : 0 ≤ q) : 0 ≤ numeric63 q := by
  rw [numeric63,if_pos nonneg]
  have floor : (0 : ℤ) ≤ ⌊q*1000+1/2⌋ := Int.floor_nonneg.mpr (by linarith)
  have cast : (0 : ℚ) ≤ ⌊q*1000+1/2⌋ := by exact_mod_cast floor
  positivity

theorem numeric63_nonpos {q : ℚ} (nonpos : q ≤ 0) : numeric63 q ≤ 0 := by
  unfold numeric63
  split
  next nonneg =>
    obtain rfl : q = 0 := le_antisymm nonpos nonneg
    norm_num
  next =>
    have floor : (0 : ℤ) ≤ ⌊-q*1000+1/2⌋ := Int.floor_nonneg.mpr (by linarith)
    have cast : (0 : ℚ) ≤ ⌊-q*1000+1/2⌋ := by exact_mod_cast floor
    have quotient : (0 : ℚ) ≤ ⌊-q*1000+1/2⌋/1000 := by positivity
    linarith

theorem numeric63_le {q bound : ℚ} (nonneg : 0 ≤ q) (digits : Thousandths bound) (le : q ≤ bound) :
    numeric63 q ≤ bound := by
  obtain ⟨k,rfl⟩ := digits
  rw [numeric63,if_pos nonneg]
  have floor : ⌊q*1000+1/2⌋ ≤ k := by
    have below : q*1000+1/2 < k+1 := by linarith
    have less : ⌊q*1000+1/2⌋ < k+1 := Int.floor_lt.mpr (by exact_mod_cast below)
    omega
  have cast : (⌊q*1000+1/2⌋ : ℚ) ≤ k := by exact_mod_cast floor
  linarith

theorem numeric63_mono {q q' : ℚ} (le : q ≤ q') : numeric63 q ≤ numeric63 q' := by
  by_cases nonneg : 0 ≤ q
  · have floors : ⌊q*1000+1/2⌋ ≤ ⌊q'*1000+1/2⌋ := Int.floor_le_floor (by linarith)
    have cast : (⌊q*1000+1/2⌋ : ℚ) ≤ ⌊q'*1000+1/2⌋ := by exact_mod_cast floors
    rw [numeric63,if_pos nonneg,numeric63,if_pos (nonneg.trans le)]
    linarith
  by_cases nonneg' : 0 ≤ q'
  · exact (numeric63_nonpos (not_le.mp nonneg).le).trans (numeric63_nonneg nonneg')
  have floors : ⌊-q'*1000+1/2⌋ ≤ ⌊-q*1000+1/2⌋ := Int.floor_le_floor (by linarith)
  have cast : (⌊-q'*1000+1/2⌋ : ℚ) ≤ ⌊-q*1000+1/2⌋ := by exact_mod_cast floors
  rw [numeric63,if_neg nonneg,numeric63,if_neg nonneg']
  linarith

variable {proposed spentDay spentWeek spentMonth : ℚ}

theorem applyCaps_cases (credit : 0 < proposed) :
    let cap := min (capRemaining spentDay dailyCap) (min (capRemaining spentWeek weeklyCap)
      (capRemaining spentMonth monthlyCap))
    (applyCaps proposed spentDay spentWeek spentMonth).1 = min proposed cap := by
  intro cap
  unfold applyCaps
  dsimp only
  rw [if_neg (not_le.mpr credit)]
  split
  next fits => exact (min_eq_left fits).symm
  next less =>
    have all : ∀ which : ℚ × Option String, which.1 = cap → which.1 = min proposed cap := by
      intro which same
      rw [same,min_eq_right (not_le.mp less).le]
    split
    · exact all _ rfl
    · split
      · exact all _ rfl
      · exact all _ rfl

theorem applyCaps_fits (left : 0 < (applyCaps proposed spentDay spentWeek spentMonth).1) :
    (applyCaps proposed spentDay spentWeek spentMonth).1+spentDay ≤ dailyCap ∧
    (applyCaps proposed spentDay spentWeek spentMonth).1+spentWeek ≤ weeklyCap ∧
    (applyCaps proposed spentDay spentWeek spentMonth).1+spentMonth ≤ monthlyCap := by
  have credit : 0 < proposed := by
    by_contra debit
    rw [applyCaps,if_pos (not_lt.mp debit)] at left
    exact debit left
  rw [applyCaps_cases credit] at left ⊢
  have room {spent cap : ℚ} (le :
    min proposed (min (capRemaining spentDay dailyCap) (min (capRemaining spentWeek weeklyCap)
      (capRemaining spentMonth monthlyCap))) ≤ capRemaining spent cap) :
      min proposed (min (capRemaining spentDay dailyCap) (min (capRemaining spentWeek weeklyCap)
        (capRemaining spentMonth monthlyCap)))+spent ≤ cap := by
    unfold capRemaining at le left ⊢
    obtain none_left | some_left := le_max_iff.mp le
    · exact absurd none_left (not_le.mpr left)
    · linarith
  refine ⟨room ?_,room ?_,room ?_⟩
  · exact (min_le_right _ _).trans (min_le_left _ _)
  · exact (min_le_right _ _).trans ((min_le_right _ _).trans (min_le_left _ _))
  · exact (min_le_right _ _).trans ((min_le_right _ _).trans (min_le_right _ _))

end Numbers

end Orrery.Trust
