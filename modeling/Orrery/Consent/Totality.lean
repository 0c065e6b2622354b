import Orrery.Consent.Turn
import Orrery.Consent.ChainCheck

/-! Whether `execute_plan` comes back with one result for each proposal. The rows an
approval writes are written under a `try`; the rows of the gate's own decisions are
not, and the ledger refuses a detail of more than 32 KiB. -/
namespace Orrery.Consent
open Foundation Json Chains

structure Accepted (env : Env) (fields : Fields) (w : World) : Prop where
  valid : validate env fields = none
  fresh : w.holds (w.nextRow env fields).eventSha256 = false

theorem record_accepted {env : Env} {fields : Fields} {w : World} (accepted : Accepted env fields w) :
    record env fields w = .ok (w.nextRow env fields) (w.insert env (w.nextRow env fields)) := by
  simp [record,accepted.valid,accepted.fresh]

theorem record_refused {env : Env} {fields : Fields} {w : World} (refused : ¬ Accepted env fields w) :
    ∃ e v, record env fields w = .error (.exception e) v := by
  unfold record
  cases valid : validate env fields with
  | some reason => exact ⟨_,_,rfl⟩
  | none =>
    cases held : w.holds (w.nextRow env fields).eventSha256 with
    | true =>
      simp only [held,if_true]
      exact ⟨_,_,rfl⟩
    | false => exact absurd ⟨valid,held⟩ refused

theorem Logged.inFlight {env : Env} {allowed : Fields → Prop} {w w' : World} (logged : Logged env allowed w w') :
    w'.inFlight = w.inFlight := by
  rw [logged.2]

theorem Prepared.inFlight {env : Env} {w w' : World} (prepared : Prepared env w w') : w'.inFlight = w.inFlight := by
  rw [prepared.rest]

section Turns
variable (env : Env) (call : Call) (proposal : ActionRequest)

inductive Records (w : World) : ConsentDecision → World → Prop
  | unknown (unlisted : proposal.capability ∉ knownCapabilities) : Records w ⟨.reject,"unknown_capability",none⟩ w
  | untrusted (known : proposal.capability ∈ knownCapabilities)
      (undenied : ({ w with reads := w.reads+1 }.listEvents env "consent.denied" 50).find?
        ({ w with reads := w.reads+1 }.suppresses env proposal call.chapterId (env.clock w.reads)) = none)
      (untrusted : proposal.provenance = "untrusted") :
      Records w (evaluate proposal env.denied) { w with reads := w.reads+1 }
  | undecided (admitted : Admitted env call proposal w)
      (ineligible : ¬ Eligible env call proposal { w with reads := w.reads+1 }) :
      Records w (evaluate proposal env.denied) (beforeRecord env call proposal { w with reads := w.reads+1 })

def Recordable (w : World) : Prop := ∀ decision u, Records env call proposal w decision u →
  Accepted env (decisionFields proposal decision call.chapterId call.actorAgentId) u

def Interrupting : Prop := ∃ capability runner req w, call.runners capability = some runner ∧
  (runner req w).2 = .interrupted

theorem Approval.released {w v : World} {decision : ConsentDecision}
    (approval : Approval env call proposal w decision v) : (v.released decision).inFlight = w.inFlight := by
  cases approval with
  | graduated hash _ _ prepared => exact prepared.inFlight
  | trusted hash _ _ _ prepared => exact prepared.inFlight
  | claimed row _ _ _ prepared _ claimed =>
    obtain ⟨u,logged,_,rfl⟩ := claimed.marked
    have named : row.eventSha256 ≠ "" := (examine_true (found_examined env claimed.found).2).2.1
    have flight : u.inFlight = w.inFlight := logged.inFlight.trans prepared.inFlight
    have free : row.eventSha256 ∉ w.inFlight := prepared.inFlight ▸ claimed.free
    simp only [World.released,claimedSha,if_true,named,if_false,World.discard,World.enter,World.insert,flight]
    simp only [List.filter_cons,bne_self_eq_false,Bool.false_eq_true,if_false]
    apply List.filter_eq_self.mpr
    intro sha inside
    simpa using fun same : sha = row.eventSha256 => free (same ▸ inside)

theorem Records.unique {w u u' : World} {d d' : ConsentDecision} (first : Records env call proposal w d u)
    (second : Records env call proposal w d' u') : d' = d ∧ u' = u := by
  cases first with
  | unknown unlisted =>
    cases second with
    | unknown => exact ⟨rfl,rfl⟩
    | untrusted known => exact absurd known unlisted
    | undecided admitted => exact absurd admitted.known unlisted
  | untrusted known _ untrusted =>
    cases second with
    | unknown unlisted => exact absurd known unlisted
    | untrusted => exact ⟨rfl,rfl⟩
    | undecided admitted => exact absurd untrusted admitted.trusted
  | undecided admitted =>
    cases second with
    | unknown unlisted => exact absurd admitted.known unlisted
    | untrusted _ _ untrusted => exact absurd untrusted admitted.trusted
    | undecided => exact ⟨rfl,rfl⟩

def Answers (w : World) : Prop := ∃ result v, executeProposal env call proposal w = .ok result v ∧
  result.proposal = proposal ∧ v.inFlight = w.inFlight

def Ends (w : World) : Prop :=
  (Recordable env call proposal w ∧ (Answers env call proposal w ∨
    Interrupting call ∧ ∃ v, executeProposal env call proposal w = .error .interrupt v)) ∨
  (¬ Recordable env call proposal w ∧ ∃ e v, executeProposal env call proposal w = .error (.exception e) v)

section Known
variable {w : World} (known : proposal.capability ∈ knownCapabilities)
include known

end Known

end Turns

end Orrery.Consent
