import Orrery.Foundation.UnderWay
import Orrery.Federation.PeerPins

/-! The block of a leader (server/federation_policy.py): the recorders write back a state
they have computed from an earlier read of the row. -/
namespace Orrery.Federation.Policy
open Foundation

def lastAttempt : Option Stamp → Option Stamp → Option Stamp
  | some success, some failure => some (max success failure)
  | some success, none => some success
  | none, failure => failure

def shouldExchangeNow (state : PeerState) (lastSuccessAt lastFailureAt : Option Stamp) (backoffSeconds : Int)
    (blocked : Bool) (now : Stamp) : Bool :=
  if blocked then false
  else if state = .unknown ∨ state = .online then true
  else
    match lastAttempt lastSuccessAt lastFailureAt with
    | none => true
    | some attempt => decide (backoffSeconds ≤ now-attempt)

def PeerPolicy.exchanges (policy : PeerPolicy) (now : Stamp) : Bool :=
  shouldExchangeNow policy.state policy.lastSuccessAt policy.lastFailureAt
    (if policy.backoffSeconds = 0 then baselineBackoffSeconds else policy.backoffSeconds)
    (decide (policy.state = .blocked)) now

def Patch.state : Patch → Option PeerState
  | .success state _ _ | .failure state _ _ _ _ _ => some state
  | .block _ _ _ _ => some .blocked
  | .unblock _ => some .unknown
  | _ => none

theorem Patch.apply_state (patch : Patch) (policy : PeerPolicy) :
    (patch.apply policy).state = patch.state.getD policy.state := by
  cases patch <;> rfl

def Blocked (peer : String) (db : Db) : Prop := ∃ policy, db.policies.row peer = some policy ∧ policy.state = .blocked

def Act.Blocks (peer : String) : Act → Prop
  | .patchPolicy other (.block ..) => other = peer
  | _ => False

def Act.Unblocks (peer : String) : Act → Prop
  | .patchPolicy other patch => other = peer ∧ ∃ state, patch.state = some state ∧ state ≠ .blocked
  | .deletePolicy other => other = peer
  | _ => False

section Effects
variable {landing : Landing} {db : Db} {peer : String} {act : Act}

theorem Blocked.afterCall (blocked : Blocked peer db) (kept : act.Unblocks peer → landing.lands = false) :
    Blocked peer (exec landing act db).2 := by
  obtain ⟨policy,found,state⟩ := blocked
  unfold exec
  dsimp only
  split
  next lands =>
    have keeps : ¬ act.Unblocks peer := fun unblocks => Bool.false_ne_true ((kept unblocks).symm.trans lands)
    cases act with
    | postPolicy other peerEndpoint =>
      refine ⟨policy,?_,state⟩
      simp only [carriedOut,Table.row_insert,found,Option.some_or]
    | patchPolicy other patch =>
      by_cases same : peer = other
      · refine ⟨patch.apply policy,?_,?_⟩
        · simp only [carriedOut,row_patched,found,Option.map_some,if_pos same]
        · rw [Patch.apply_state]
          cases written : patch.state with
          | none => exact state
          | some new =>
            by_contra other
            exact keeps ⟨same.symm,new,written,other⟩
      · refine ⟨policy,?_,state⟩
        simp only [carriedOut,row_patched,found,Option.map_some,if_neg same]
    | deletePolicy other =>
      have apart : peer ≠ other := fun same => keeps same.symm
      refine ⟨policy,?_,state⟩
      simp only [carriedOut,Table.row_remove,apart,if_false,found]
    | _ => exact ⟨policy,found,state⟩
  next => exact ⟨policy,found,state⟩

theorem Blocked.exchanges (blocked : Blocked peer db) :
    ∃ policy, db.policies.row peer = some policy ∧ policy.state = .blocked ∧ ∀ now, policy.exchanges now = false := by
  obtain ⟨policy,found,state⟩ := blocked
  refine ⟨policy,found,state,fun now => ?_⟩
  simp [PeerPolicy.exchanges,shouldExchangeNow,state]

end Effects

def Op.BlocksPeer (peer : String) : Op → Prop
  | .blockPeer other _ _ => other = peer
  | _ => False

def Unanswered : Outcome → Prop
  | .replied (.ok _) => False
  | _ => True

section Runs
variable {env : PeerEnv} {peer : String} {service service' : Service}

def Performs (service : Service) (turn : Turn Op Landing) (act : Act) (landing : Landing) : Prop :=
  ∃ id op resume, turn = .advance id landing ∧ service.live.lookup id = some ⟨op,.call act resume⟩

/-- The statement of a block is carried out on the row, and no statement that writes
another state, or deletes the row, is carried out on a blocked one. -/
structure Undisturbed (peer : String) (service : Service) (turn : Turn Op Landing) : Prop where
  effective : ∀ act landing, Performs service turn act landing → act.Blocks peer →
    landing.lands = true ∧ (service.store.policies.row peer).isSome
  kept : ∀ act landing, Performs service turn act landing → act.Unblocks peer → Blocked peer service.store →
    landing.lands = false

def Answered (peer : String) : Moment Op Act Outcome → Prop
  | .returned op outcome => op.BlocksPeer peer ∧ ¬ Unanswered outcome
  | .did _ => False

end Runs

section Samples

def stateOf (service : Service) : Option (PeerState × Bool) :=
  (service.store.policies.row "bay").map fun policy => (policy.state,policy.exchanges 2)

def calm (service : Service) : Turn Op Landing → Bool
  | .start .. => true
  | .advance id landing =>
    match service.live.lookup id with
    | some ⟨_,.call (.patchPolicy _ (.block ..)) _⟩ => landing.lands && (service.store.policies.row "bay").isSome
    | some ⟨_,.call (.patchPolicy _ patch) _⟩ => patch.state = none ∨ patch.state = some .blocked ∨
        (service.store.policies.row "bay").map PeerPolicy.state ≠ some .blocked
    | some ⟨_,.call (.deletePolicy _) _⟩ => false
    | _ => true

theorem calm_undisturbed (service : Service) (turn : Turn Op Landing) (checked : calm service turn = true) :
    Undisturbed "bay" service turn := by
  constructor
  · rintro act landing ⟨id,op,resume,rfl,live⟩ blocks
    rw [calm,live] at checked
    unfold Act.Blocks at blocks
    split at blocks
    · simpa only [Bool.and_eq_true] using checked
    · exact blocks.elim
  · rintro act landing ⟨id,op,resume,rfl,live⟩ unblocks ⟨policy,found,state⟩
    rw [calm,live] at checked
    cases act with
    | patchPolicy other patch =>
      obtain ⟨-,new,written,apart⟩ := unblocks
      cases patch <;> simp_all [Patch.state]
    | deletePolicy other => cases checked
    | _ => exact unblocks.elim

end Samples

end Orrery.Federation.Policy
