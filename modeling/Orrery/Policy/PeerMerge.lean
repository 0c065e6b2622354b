import Mathlib.Data.List.Dedup
import Mathlib.Data.List.Sort
import Mathlib.Data.String.Basic
import Orrery.Foundation.Rounding
import Orrery.Policy.Store

/-! What the values of the peers make of the value of a key (server/federated_policy_merge.py).
The arithmetic is that of the source, operation by operation, over whatever numbers: the
floats it runs on, or exact fractions. -/
namespace Orrery.Policy
open Foundation

/-- The operations that the tuners and the merge use of a number: `rounded` is
`int(round(x))`, and `ofInt` is what an integer becomes in a calculation. -/
class Numeric (ν : Type) extends Add ν, Sub ν, Mul ν, Div ν, BEq ν, OfScientific ν where
  lt : ν → ν → Bool
  le : ν → ν → Bool
  abs : ν → ν
  ofNat : ℕ → ν
  ofInt : Int → Except Exc ν
  rounded : ν → Except Exc Int

instance : Numeric Float where
  lt a b := decide (a < b)
  le a b := decide (a ≤ b)
  abs := Float.abs
  ofNat := Float.ofNat
  ofInt := Value.ofInt
  rounded := Value.rounded

instance : Numeric ℚ where
  lt a b := decide (a < b)
  le a b := decide (a ≤ b)
  abs q := |q|
  ofNat n := n
  ofInt i := .ok i
  rounded q := .ok (roundHalfEven q)

section Constants
variable {ν : Type} [Numeric ν]

def maxDeltaFraction : ν := 0.10
def baselineMinFraction : ν := 0.5
def baselineMaxFraction : ν := 2.0
def madThreshold : ν := 3.0
def minPeersForMerge : ℕ := 2
def minSamplesFromPeer : Int := 5

end Constants

structure PeerSnapshot (ν : Type) where
  chapterId : String
  key : String
  value : ν
  baseline : ν
  sampleSize : Int
  confidence : ν

structure MergeResult (ν : Type) where
  key : String
  oldValue : ν
  newValue : ν
  baseline : ν
  contributingPeers : List String
  excludedPeers : List String
  reason : String

def setEntry {α : Type} (d : List (String × α)) (key : String) (value : α) : List (String × α) :=
  if d.any fun entry => entry.1 == key then d.map fun entry => if entry.1 == key then (key,value) else entry
  else d ++ [(key,value)]

def mergeReason (contributors : List String) : String :=
  let first := String.intercalate "+" (contributors.take 3)
  let more := if contributors.length > 3 then "…" else ""
  s!"federation_merge: {contributors.length} peers ({first}{more})"

def sortedTexts (texts : List String) : List String := texts.insertionSort (· ≤ ·)

section Merge
variable {ν : Type} [Numeric ν]

def pyMin (a b : ν) : ν := if Numeric.lt b a then b else a

def pyMax (a b : ν) : ν := if Numeric.lt a b then b else a

def clampToBaseline (value baseline : ν) : ν :=
  if Numeric.lt value (baseline*baselineMinFraction) then baseline*baselineMinFraction
  else if Numeric.lt (baseline*baselineMaxFraction) value then baseline*baselineMaxFraction
  else value

def clampDelta (old new : ν) : ν :=
  let maxDelta := Numeric.abs old*maxDeltaFraction
  if maxDelta == 0.0 then new
  else if Numeric.lt maxDelta (new-old) then old+maxDelta
  else if Numeric.lt maxDelta (old-new) then old-maxDelta
  else new

def median (values : List ν) : ν :=
  let sorted := values.mergeSort Numeric.le
  if sorted.length % 2 = 1 then sorted.getD (sorted.length/2) 0.0
  else (sorted.getD (sorted.length/2-1) 0.0+sorted.getD (sorted.length/2) 0.0)/2.0

def spread (values : List ν) : ν × ν :=
  let middle := median values
  (middle,median (values.map fun v => Numeric.abs (v-middle)))

def madFilter (valuesByPeer : List (String × ν)) : List (String × ν) × List String :=
  if valuesByPeer.length ≤ 2 then (valuesByPeer,[])
  else
    let (middle,mad) := spread (valuesByPeer.map (·.2))
    if mad == 0.0 then (valuesByPeer,[])
    else
      let near (peer : String × ν) := Numeric.le (Numeric.abs (peer.2-middle)) (madThreshold*mad)
      (valuesByPeer.filter near,(valuesByPeer.filter fun peer => !near peer).map (·.1))

def mergedRaw (weight : PeerSnapshot ν → Except Exc ν) (currentValue : ν) (kept : List (PeerSnapshot ν)) :
    Except Exc (Option ν) := do
  let weighted ← kept.mapM fun s => do return (s.value,← weight s)
  let sums := weighted.foldl (fun sum s => (sum.1+s.1*s.2,sum.2+s.2)) (0.0,0.0)
  let strongest := weighted.foldl (fun most s => pyMax most s.2) ((weighted.map (·.2)).headD 0.0)
  let total := sums.2+strongest
  if total == 0.0 then return none else return some ((sums.1+currentValue*strongest)/total)

def relevantSnapshots (key : String) (peerSnapshots : List (PeerSnapshot ν)) : List (PeerSnapshot ν) :=
  peerSnapshots.filter fun s => s.key == key && decide (minSamplesFromPeer ≤ s.sampleSize)

def valuesByPeer (relevant : List (PeerSnapshot ν)) : List (String × ν) :=
  relevant.foldl (fun d s => setEntry d s.chapterId s.value) []

def keptSnapshots (keptValues : List (String × ν)) (relevant : List (PeerSnapshot ν)) : List (PeerSnapshot ν) :=
  relevant.filter fun s => keptValues.any fun peer => peer.1 == s.chapterId

def mergePeerSnapshots (weight : PeerSnapshot ν → Except Exc ν) (key : String) (currentValue baseline : ν)
    (peerSnapshots : List (PeerSnapshot ν)) : Except Exc (Option (MergeResult ν)) := do
  let relevant := relevantSnapshots key peerSnapshots
  if relevant.length < minPeersForMerge then return none
  else
    let (kept,excluded) := madFilter (valuesByPeer relevant)
    if kept.length < minPeersForMerge then return none
    else
      match ← mergedRaw weight currentValue (keptSnapshots kept relevant) with
      | none => return none
      | some raw =>
        let final := clampToBaseline (clampDelta currentValue raw) baseline
        if Numeric.lt (Numeric.abs (final-currentValue)) 1e-9 then return none
        else
          let contributors := sortedTexts (kept.map (·.1))
          return some ⟨key,currentValue,final,baseline,contributors,sortedTexts excluded,mergeReason contributors⟩

end Merge

def PeerSnapshot.weight (s : PeerSnapshot Float) : Except Exc Float := do
  return (← Value.ofInt s.sampleSize).pow 0.5*pyMax 0.0 (pyMin 1.0 s.confidence)

end Orrery.Policy
