import Orrery.Policy.PeerBounds
import Orrery.Policy.Pins

/-! How far one `tune_cycle` moves the value of a key, over exact fractions: the own tuning and
the merge of the peers' values write one after the other, both from the values that were read at
the beginning. -/
namespace Orrery.Policy
open Foundation

structure ExactRow where
  key : String
  value : ℚ
  baseline : ℚ
  pinnedBy : Option String
  lastUpdated : String
  autoTuned : Option Bool

/-- The rows of a chapter; the key is the rest of their primary key. -/
structure PolicyTable where
  rows : List ExactRow
  keyed : (rows.map ExactRow.key).Nodup

def cooldownKey : String := "intro.cooldown_days"

def wholePart (q : ℚ) : ℤ := if 0 ≤ q then ⌊q⌋ else ⌈q⌉

/-- What one cycle finds: its clock, the feedback, the snapshots of the peers and whether the
merge is on; and which of the two writers' PATCHes are carried out. -/
structure Cycle where
  env : PolicyEnv
  fixed2 : ℚ → String
  weight : PeerSnapshot ℚ → Except Exc ℚ
  now : Int
  feedback : Feedback
  snapshots : List (PeerSnapshot ℚ)
  federationEnabled : Bool
  tuneLands : ExactRow → Bool
  mergeLands : ExactRow → Bool

namespace Cycle
variable (c : Cycle)

def proposal (row : ExactRow) : Except Exc (Option (ℚ × String)) :=
  if row.key == "intro.confidence_floor" then
    .ok (proposeIntroAdjustment c.fixed2 row.value row.baseline (c.feedback.count "approved")
      (c.feedback.count "rejected") (c.feedback.count "expired"))
  else if row.key == cooldownKey then do
    let proposed ← proposeCooldownAdjustment ℚ (wholePart row.value) (wholePart row.baseline) c.feedback.rejectedPairs
      autoTuneWindowDays
    return proposed.map fun p => (p.1,p.2)
  else if row.key == "call.response_relevance_floor" then
    .ok (proposeRelevanceFloorAdjustment c.fixed2 row.value row.baseline (c.feedback.responses "negative")
      (c.feedback.responses "positive") c.feedback.unreached)
  else .ok none

def tune (row : ExactRow) : Except Exc (Option ℚ) :=
  if pins row.pinnedBy || warmingUp c.env c.now row.lastUpdated then .ok none
  else do
    let proposed ← c.proposal row
    return (proposed.map (·.1)).filter (· ≠ row.value)

def merge (row : ExactRow) : Except Exc (Option ℚ) :=
  let own := c.snapshots.filter fun snap => snap.key == row.key
  if own.isEmpty || pins row.pinnedBy || row.autoTuned != some true || row.baseline == 0 then .ok none
  else do
    let merged ← mergePeerSnapshots c.weight row.key row.value row.baseline own
    return merged.map (·.newValue)

end Cycle

def ExactRow.valued (row : ExactRow) (value : ℚ) : ExactRow := { row with value := value }

def writeKey (key : String) (value : ℚ) (table : List ExactRow) : List ExactRow :=
  table.map fun row => if row.key = key then row.valued value else row

def writeRows (body : ExactRow → Except Exc (Option ℚ)) (lands : ExactRow → Bool) :
    List ExactRow → List ExactRow → Except Exc Unit × List ExactRow
  | [], table => (.ok (),table)
  | row :: rest, table =>
    match body row with
    | .error e => (.error e,table)
    | .ok none => writeRows body lands rest table
    | .ok (some value) => writeRows body lands rest (if lands row then writeKey row.key value table else table)

def Cycle.run (c : Cycle) (rows : List ExactRow) : List ExactRow :=
  let tuned := writeRows c.tune c.tuneLands rows rows
  match tuned.1 with
  | .ok () => if c.federationEnabled then (writeRows c.merge c.mergeLands rows tuned.2).2 else tuned.2
  | .error _ => tuned.2

section Steps

@[simp] theorem pyMin_rat (a b : ℚ) : pyMin a b = min a b := by
  rw [pyMin,lt_rat]
  rcases lt_or_ge b a with less | more
  · simp [less,less.le]
  · simp [not_lt.mpr more,more]

@[simp] theorem pyMax_rat (a b : ℚ) : pyMax a b = max a b := by
  rw [pyMax,lt_rat]
  rcases lt_or_ge a b with less | more
  · simp [less,less.le]
  · simp [not_lt.mpr more,more]

theorem clampNumeric_rat {baseline : ℚ} (positive : 0 < baseline) (x : ℚ) :
    clampNumeric x baseline = max (baseline/2) (min (2*baseline) x) := by
  have zero : (0.0 : ℚ) = 0 := by norm_num
  have low : baseline*(autoTuneMinBoundX : ℚ) = baseline/2 := by
    change baseline*(0.5 : ℚ) = baseline/2
    norm_num [div_eq_mul_inv]
  have high : baseline*(autoTuneMaxBoundX : ℚ) = 2*baseline := by
    change baseline*(2.0 : ℚ) = 2*baseline
    norm_num [mul_comm]
  rw [clampNumeric,le_rat,zero,if_neg (by simpa using positive),low,high,pyMin_rat,pyMax_rat]

theorem tighten_rat (current : ℚ) : tighten current autoTuneDeltaPct = 11/10*current := by
  change current*((1.0 : ℚ)+(0.10 : ℚ)) = 11/10*current
  norm_num [mul_comm]

theorem loosen_rat (current : ℚ) : loosen current autoTuneDeltaPct = 9/10*current := by
  change current*((1.0 : ℚ)-(0.10 : ℚ)) = 9/10*current
  norm_num [mul_comm]

def Stepped (current baseline value : ℚ) : Prop :=
  value = clampNumeric (11/10*current) baseline ∨ value = clampNumeric (9/10*current) baseline

variable {current baseline value : ℚ} {fixed2 : ℚ → String} {reason : String}

theorem Stepped.within (positive : 0 < baseline) (stepped : Stepped current baseline value) :
    baseline/2 ≤ value ∧ value ≤ 2*baseline := by
  have room : baseline/2 ≤ 2*baseline := by linarith
  rcases stepped with rfl | rfl <;> rw [clampNumeric_rat positive] <;>
    exact ⟨le_max_left _ _,max_le room (min_le_left _ _)⟩

theorem Stepped.near (positive : 0 < baseline) (stepped : Stepped current baseline value)
    (low : baseline/2 ≤ current) (high : current ≤ 2*baseline) : |value-current| ≤ current/10 := by
  rw [abs_le]
  rcases stepped with rfl | rfl <;> rw [clampNumeric_rat positive]
  · have above : current ≤ min (2*baseline) (11/10*current) := le_min high (by linarith)
    have below := min_le_right (2*baseline) (11/10*current)
    rw [max_eq_right (low.trans above)]
    constructor <;> linarith
  · have below := min_le_right (2*baseline) (9/10*current)
    rw [min_eq_right (by linarith)]
    have above := le_max_right (baseline/2) (9/10*current)
    have less : max (baseline/2) (9/10*current) ≤ current := max_le low (by linarith)
    constructor <;> linarith

theorem proposeIntroAdjustment_stepped {approvals rejections expired : ℕ}
    (proposed : proposeIntroAdjustment fixed2 current baseline approvals rejections expired = some (value,reason)) :
    Stepped current baseline value := by
  unfold proposeIntroAdjustment at proposed
  dsimp only at proposed
  rw [tighten_rat,loosen_rat] at proposed
  split at proposed
  next => cases proposed
  next =>
    split at proposed
    next =>
      cases proposed
      exact .inl rfl
    next =>
      split at proposed
      next =>
        cases proposed
        exact .inr rfl
      next => cases proposed

theorem proposeRelevanceFloorAdjustment_stepped {lowQuality highQuality unreachedCalls : ℕ}
    (proposed : proposeRelevanceFloorAdjustment fixed2 current baseline lowQuality highQuality unreachedCalls =
      some (value,reason)) : Stepped current baseline value := by
  unfold proposeRelevanceFloorAdjustment at proposed
  dsimp only at proposed
  rw [tighten_rat,loosen_rat] at proposed
  split at proposed
  next =>
    cases proposed
    exact .inl rfl
  next =>
    split at proposed
    next =>
      cases proposed
      exact .inr rfl
    next => cases proposed

theorem proposeCooldownAdjustment_rounded {days baselineDays newDays windowDays : ℤ} {repeated : ℕ}
    (proposed : proposeCooldownAdjustment ℚ days baselineDays repeated windowDays = .ok (some (newDays,reason))) :
    newDays = roundHalfEven (clampNumeric (11/10*(days : ℚ)) baselineDays) := by
  unfold proposeCooldownAdjustment at proposed
  split at proposed
  next => cases proposed
  next =>
    change (if roundHalfEven (clampNumeric (tighten (days : ℚ) autoTuneDeltaPct) baselineDays) ≠ days then _ else _) =
      _ at proposed
    rw [tighten_rat] at proposed
    split at proposed
    next =>
      cases proposed
      rfl
    next => cases proposed

end Steps

section Rows

def ExactRow.Within (row : ExactRow) (value : ℚ) : Prop := row.baseline/2 ≤ value ∧ value ≤ 2*row.baseline

def ExactRow.Whole (row : ExactRow) : Prop :=
  row.key = cooldownKey → ∃ days baselineDays : ℤ, row.value = days ∧ row.baseline = baselineDays

def ExactRow.slack (row : ExactRow) : ℚ := if row.key = cooldownKey then 1/2 else 0

structure Gentle (row : ExactRow) (value : ℚ) : Prop where
  slow : row.Within row.value → |value-row.value| ≤ |row.value|/10+row.slack
  kept : row.Within row.value → row.Within value
  drawn : value = row.value ∨ row.baseline/2-row.slack ≤ value ∧ value ≤ 2*row.baseline

variable {c : Cycle} {row : ExactRow} {value : ℚ}

theorem wholePart_int (n : ℤ) : wholePart n = n := by
  unfold wholePart
  split <;> simp

theorem ExactRow.slack_nonneg (row : ExactRow) : 0 ≤ row.slack := by
  unfold ExactRow.slack
  split <;> norm_num

theorem Gentle.stays (row : ExactRow) : Gentle row row.value := by
  refine ⟨fun _ => ?_,id,.inl rfl⟩
  rw [sub_self,abs_zero]
  exact add_nonneg (div_nonneg (abs_nonneg _) (by norm_num)) row.slack_nonneg

theorem Gentle.stepped (positive : 0 < row.baseline) (stepped : Stepped row.value row.baseline value) :
    Gentle row value := by
  have within := stepped.within positive
  have room := row.slack_nonneg
  refine ⟨?_,fun _ => within,.inr ⟨by linarith [within.1],within.2⟩⟩
  rintro ⟨low,high⟩
  have near := stepped.near positive low high
  have some : 0 ≤ row.value := by linarith
  rw [abs_of_nonneg some]
  linarith

theorem Gentle.rounded {days baselineDays : ℤ} (positive : 0 < row.baseline) (cooldown : row.key = cooldownKey)
    (whole : row.value = days) (baselineWhole : row.baseline = baselineDays)
    (rounded : value = roundHalfEven (clampNumeric (11/10*(days : ℚ)) baselineDays)) : Gentle row value := by
  rw [← whole,← baselineWhole] at rounded
  have stepped : Stepped row.value row.baseline (clampNumeric (11/10*row.value) row.baseline) := .inl rfl
  obtain ⟨low,high⟩ := stepped.within positive
  have near := abs_le.mp (roundHalfEven_near (clampNumeric (11/10*row.value) row.baseline))
  have slack : row.slack = 1/2 := if_pos cooldown
  have top : (roundHalfEven (clampNumeric (11/10*row.value) row.baseline) : ℚ) ≤ 2*row.baseline := by
    have whole : (2*row.baseline : ℚ) = (2*baselineDays : ℤ) := by
      rw [baselineWhole]
      push_cast
      rfl
    rw [whole]
    rw [whole] at high
    exact_mod_cast roundHalfEven_le high
  refine ⟨?_,?_,.inr ⟨by linarith,by rwa [rounded]⟩⟩
  · rintro ⟨below,above⟩
    have close := abs_le.mp (stepped.near positive below above)
    have some : 0 ≤ row.value := by linarith
    rw [abs_of_nonneg some,slack,abs_le]
    constructor <;> linarith
  · rintro ⟨below,above⟩
    have longer : row.value ≤ clampNumeric (11/10*row.value) row.baseline := by
      rw [clampNumeric_rat positive]
      exact (le_min above (by linarith)).trans (le_max_right _ _)
    have kept : (days : ℚ) ≤ value := by
      rw [whole] at longer
      rw [rounded,whole]
      exact_mod_cast le_roundHalfEven longer
    exact ⟨by linarith,by rwa [rounded]⟩

theorem Cycle.tune_gentle (positive : 0 < row.baseline) (whole : row.Whole) (wrote : c.tune row = .ok (some value)) :
    Gentle row value := by
  unfold Cycle.tune at wrote
  split at wrote
  next => cases wrote
  next =>
    obtain ⟨proposed,found,filtered⟩ := bind_success _ _ _ wrote
    have taken := Option.eq_some_of_filter_eq_some (Except.ok.inj filtered)
    obtain ⟨⟨_,reason⟩,rfl,rfl⟩ := Option.map_eq_some_iff.mp taken
    unfold Cycle.proposal at found
    split at found
    next => exact .stepped positive (proposeIntroAdjustment_stepped (Except.ok.inj found))
    next =>
      split at found
      next cooldown =>
        replace cooldown := beq_iff_eq.mp cooldown
        obtain ⟨days,baselineDays,wholeValue,wholeBaseline⟩ := whole cooldown
        obtain ⟨change,proposed,found⟩ := bind_success _ _ _ found
        obtain ⟨⟨newDays,_⟩,rfl,same⟩ := Option.map_eq_some_iff.mp (Except.ok.inj found)
        obtain ⟨rfl,rfl⟩ := Prod.mk.inj same
        rw [wholeValue,wholeBaseline,wholePart_int,wholePart_int] at proposed
        refine .rounded positive cooldown wholeValue wholeBaseline ?_
        rw [proposeCooldownAdjustment_rounded proposed]
      next =>
        split at found
        next => exact .stepped positive (proposeRelevanceFloorAdjustment_stepped (Except.ok.inj found))
        next => cases found

theorem Cycle.merge_gentle (positive : 0 < row.baseline) (wrote : c.merge row = .ok (some value)) : Gentle row value := by
  unfold Cycle.merge at wrote
  dsimp only at wrote
  split at wrote
  next => cases wrote
  next =>
    obtain ⟨merged,found,taken⟩ := bind_success _ _ _ wrote
    obtain ⟨result,rfl,rfl⟩ := Option.map_eq_some_iff.mp (Except.ok.inj taken)
    obtain ⟨raw,_,same⟩ := Policy.merged found
    have inside := clampToBaseline_within positive (clampDelta row.value raw)
    have room := row.slack_nonneg
    rw [same]
    refine ⟨?_,fun _ => inside,.inr ⟨by linarith [inside.1],inside.2⟩⟩
    rintro ⟨low,high⟩
    have near : |clampToBaseline (clampDelta row.value raw) row.baseline-row.value| ≤ |row.value|/10 :=
      (clamped_near_iff positive raw).mpr ⟨by linarith,by linarith⟩
    linarith

end Rows

section Runs
variable {P : ExactRow → ℚ → Prop} {rows table : List ExactRow}

def Moved (P : ExactRow → ℚ → Prop) (before after : ExactRow) : Prop :=
  after = before.valued after.value ∧ P before after.value

theorem writeKey_moved {row : ExactRow} {value : ℚ} (unique : ∀ other ∈ rows, other.key = row.key → other = row)
    (allowed : P row value) (moved : List.Forall₂ (Moved P) rows table) :
    List.Forall₂ (Moved P) rows (writeKey row.key value table) := by
  induction moved with
  | nil => exact .nil
  | @cons before after rows table first rest ih =>
    refine .cons ?_ (ih fun other inside => unique other (List.mem_cons_of_mem _ inside))
    obtain ⟨same,holds⟩ := first
    have key : after.key = before.key := by rw [same]; rfl
    dsimp only
    split
    next here =>
      obtain rfl := unique before List.mem_cons_self (key.symm.trans here)
      rw [same]
      exact ⟨rfl,allowed⟩
    next => exact ⟨same,holds⟩

theorem writeRows_moved {body : ExactRow → Except Exc (Option ℚ)} {lands : ExactRow → Bool}
    (keyed : (rows.map ExactRow.key).Nodup)
    (allowed : ∀ row ∈ rows, ∀ value, body row = .ok (some value) → P row value) {pending : List ExactRow}
    (among : pending ⊆ rows) (moved : List.Forall₂ (Moved P) rows table) :
    List.Forall₂ (Moved P) rows (writeRows body lands pending table).2 := by
  induction pending generalizing table with
  | nil => exact moved
  | cons row pending ih =>
    have inside : row ∈ rows := among List.mem_cons_self
    have rest : pending ⊆ rows := fun _ later => among (List.mem_cons_of_mem _ later)
    rw [writeRows]
    split
    next => exact moved
    next => exact ih rest moved
    next value wrote =>
      apply ih rest
      split
      next =>
        have unique : ∀ other ∈ rows, other.key = row.key → other = row := fun _ other same =>
          List.inj_on_of_nodup_map keyed other inside same
        exact writeKey_moved unique (allowed row inside value wrote) moved
      next => exact moved

/-- In every cycle, each key with a positive baseline that was within the envelope stays within it
and moves by ten percent at most, whole days by half a day more; and one that was outside stays
where it is or is drawn into the envelope, whatever the distance. -/
theorem cycle_gentle (c : Cycle) (table : PolicyTable) : List.Forall₂
    (Moved fun row value => 0 < row.baseline → row.Whole → Gentle row value) table.rows (c.run table.rows) := by
  have read : List.Forall₂ (Moved fun row value => 0 < row.baseline → row.Whole → Gentle row value)
      table.rows table.rows := List.forall₂_same.mpr fun row _ => ⟨rfl,fun _ _ => .stays row⟩
  have tuned := @writeRows_moved _ _ _ _ c.tuneLands table.keyed
    (fun row _ value wrote positive whole => c.tune_gentle positive whole wrote) _ (List.Subset.refl _) read
  unfold Cycle.run
  dsimp only
  split
  next =>
    split
    next =>
      exact writeRows_moved table.keyed (fun row _ value wrote positive _ => c.merge_gentle positive wrote)
        (List.Subset.refl _) tuned
    next => exact tuned
  next => exact tuned

end Runs

section Sample

def rejectedPair (other : String) : Approval := ⟨"rejected",["a",other]⟩

def rejectedCycle : Cycle where
  env := plainPolicy
  fixed2 _ := ""
  weight := evenly
  now := 0
  feedback := ⟨[],["b","c","d","e","f"].map rejectedPair,0⟩
  snapshots := []
  federationEnabled := false
  tuneLands _ := true
  mergeLands _ := true

def tunedTable : PolicyTable where
  rows := [⟨"intro.confidence_floor",3,1,none,"",none⟩,⟨cooldownKey,5,5,none,"",none⟩]
  keyed := by decide

/-- The floor goes down by a third, and the cooldown up by a fifth. -/
theorem tuned_beyond : (rejectedCycle.run tunedTable.rows).map ExactRow.value = [2,6] ∧
    ¬ List.Forall₂ (fun before after : ExactRow => |after.value-before.value| ≤ |before.value|/10 ∧
      before.baseline/2 ≤ after.value ∧ after.value ≤ 2*before.baseline)
      tunedTable.rows (rejectedCycle.run tunedTable.rows) := by
  have ran : (rejectedCycle.run tunedTable.rows).map ExactRow.value = [2,6] := by decide +kernel
  refine ⟨ran,?_⟩
  intro all
  cases run : rejectedCycle.run tunedTable.rows with
  | nil =>
    rw [run] at ran
    cases ran
  | cons first rest =>
    rw [run] at all ran
    obtain ⟨value,-⟩ := List.cons.inj ran
    cases all with
    | cons gentle _ =>
      have slow := gentle.1
      rw [value] at slow
      revert slow
      decide +kernel

end Sample

end Orrery.Policy
