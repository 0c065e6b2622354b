import Orrery.Consent.Totality

/-! Recent denials in the executor. The scan reads the 50 newest denials of the whole
ledger before it looks at the chapter or at what was denied, so what suppresses a
proposal is a recent denial of it that fewer than 50 others have come after. -/
namespace Orrery.Consent
open Foundation Json

def World.Keyed (w : World) : Prop := w.rows.Pairwise fun a b => a.id ≠ b.id

def earlyReasons : List String := ["recently_denied","unknown_capability"]

section Model
variable (env : Env) (call : Call) (proposal : ActionRequest) (w : World)

structure Denies (row : Row) : Prop where
  inside : row ∈ w.rows
  action : row.action = "consent.denied"
  chapter : row.chapterId = call.chapterId
  same : sameRequest row.detail proposal = true
  recent : env.clock w.reads ≤ row.occurredAt+denialCooldown

def Cleared (row : Row) : Prop := ∃ clearing ∈ w.rows, clearing.action = "consent.denial_cleared" ∧
  namedSha env clearing "denial_event_sha256" = some row.eventSha256

def Denied : Prop := ∃ row, Denies env call proposal w row ∧ ¬ Cleared env w row

/-- The turn rejects the proposal before it asks for consent, and runs nothing. -/
def Refuses : Prop := ∃ result v, executeProposal env call proposal w = .ok result v ∧
  result.decision.state = .reject ∧ result.decision.reason ∈ earlyReasons ∧ result.output = none ∧
  v.activity = w.activity

def World.laterDenials (row : Row) : Nat :=
  (w.rows.filter fun r => r.action == "consent.denied").countP ((ranking env).before · row)

/-- The proposal names no capability, or one of its recent denials is not yet crowded out. -/
def Foreseen : Prop :=
  (proposal.capability ∉ knownCapabilities ∧
    Accepted env (decisionFields proposal ⟨.reject,"unknown_capability",none⟩ call.chapterId call.actorAgentId) w) ∨
  (proposal.capability ∈ knownCapabilities ∧ ∃ row, Denies env call proposal w row ∧
    row.eventSha256 ∉ w.clearedDenialShas env ∧ w.laterDenials env row < 50)

end Model

section Turn
variable {env : Env} {call : Call} {proposal : ActionRequest} {w : World}

theorem early_head {reason : String} (early : reason ∈ earlyReasons) :
    reason.toList.head? = some 'r' ∨ reason.toList.head? = some 'u' := by
  simp only [earlyReasons,List.mem_cons,List.not_mem_nil,or_false] at early
  rcases early with rfl | rfl
  · exact Or.inl (by decide)
  · exact Or.inr (by decide)

theorem evaluate_reason (req : ActionRequest) (denied : List String) : (evaluate req denied).reason ∉ earlyReasons := by
  unfold evaluate
  split
  · intro early
    rcases early_head early with first | first <;> simp [toString] at first
  · split
    · intro early
      rcases early_head early with first | first <;> simp [toString] at first
    · split <;> decide

theorem conclude_decision {d : ConsentDecision} (state : d.state ≠ .approved) {v u : World} {result : ExecutionResult}
    (run : conclude env call proposal d v = .ok result u) : result.decision = d := by
  unfold conclude at run
  cases ruled : d.state with
  | approved => exact absurd ruled state
  | prompt =>
    rw [ruled] at run
    cases run
    rfl
  | reject =>
    rw [ruled] at run
    simp only [Effect.bind_apply,observeSafe_eq] at run
    cases run
    rfl

theorem checkAndRecord_reason {v u : World} {d : ConsentDecision}
    (run : checkAndRecord env proposal call.chapterId call.actorAgentId v = .ok d u) : d.reason ∉ earlyReasons := by
  obtain ⟨hash,_,_,rest⟩ := (Effect.bind_ok _ _ _ _ _).mp run
  cases rest
  exact evaluate_reason proposal env.denied

theorem suppresses_iff (row : Row) (listed : row ∈ w.rows) (denial : row.action = "consent.denied") :
    w.suppresses env proposal call.chapterId (env.clock w.reads) row = true ↔
      Denies env call proposal w row ∧ row.eventSha256 ∉ w.clearedDenialShas env := by
  simp only [World.suppresses,Bool.and_eq_true,beq_iff_eq,decide_eq_true_eq]
  constructor
  · rintro ⟨⟨⟨chapter,standing⟩,same⟩,recent⟩
    exact ⟨⟨listed,denial,chapter,same,recent⟩,standing⟩
  · rintro ⟨denies,standing⟩
    exact ⟨⟨⟨denies.chapter,standing⟩,denies.same⟩,denies.recent⟩

theorem scan_isSome (keyed : w.Keyed) :
    ((({ w with reads := w.reads+1 } : World).listEvents env "consent.denied" 50).find?
      (({ w with reads := w.reads+1 } : World).suppresses env proposal call.chapterId (env.clock w.reads))).isSome =
        true ↔ ∃ row, Denies env call proposal w row ∧ row.eventSha256 ∉ w.clearedDenialShas env ∧
          w.laterDenials env row < 50 := by
  have distinct : (ranking env).Distinct (w.rows.filter fun r => r.action == "consent.denied") :=
    List.Pairwise.sublist List.filter_sublist keyed
  have listed : ∀ row, row ∈ w.listEvents env "consent.denied" 50 ↔
      (row ∈ w.rows ∧ row.action = "consent.denied") ∧ w.laterDenials env row < 50 := by
    intro row
    rw [World.listEvents,(ranking env).mem_newest _ distinct,List.mem_filter,beq_iff_eq]
    rfl
  change ((w.listEvents env "consent.denied" 50).find? (w.suppresses env proposal call.chapterId
    (env.clock w.reads))).isSome = true ↔ _
  rw [List.find?_isSome]
  constructor
  · rintro ⟨row,inside,hit⟩
    obtain ⟨⟨member,denial⟩,few⟩ := (listed row).mp inside
    obtain ⟨denies,standing⟩ := (suppresses_iff row member denial).mp hit
    exact ⟨row,denies,standing,few⟩
  · rintro ⟨row,denies,standing,few⟩
    refine ⟨row,(listed row).mpr ⟨⟨denies.inside,denies.action⟩,few⟩,?_⟩
    exact (suppresses_iff row denies.inside denies.action).mpr ⟨denies,standing⟩

theorem Approval.log {u : World} {d : ConsentDecision} (approval : Approval env call proposal w d u) :
    (Effect.final (conclude env call proposal d u)).activity = w.activity ++ ranLog call proposal d := by
  have before : u.activity = w.activity := by
    cases approval with
    | graduated hash _ _ prepared => rw [prepared.rest]
    | trusted hash _ _ _ prepared => rw [prepared.rest]
    | claimed row _ _ _ prepared _ claimed =>
      obtain ⟨t,logged,_,rfl⟩ := claimed.marked
      have same := logged.2
      unfold Untouched at same
      rw [World.enter,World.insert,same,prepared.rest]
  have state : d.state = .approved := by cases approval <;> rfl
  have spec := (carryOut_spec env call proposal d u).activity
  rw [before] at spec
  rw [← spec,conclude,state]

theorem Approval.ran {v u : World} {d : ConsentDecision} {result : ExecutionResult}
    (approval : Approval env call proposal { w with reads := w.reads+1 } d u)
    (turn : .ok result v = conclude env call proposal d u) : v.activity ≠ w.activity := by
  have log := approval.log
  rw [← turn] at log
  replace log : v.activity = w.activity ++ ranLog call proposal d := log
  intro same
  rw [same] at log
  simp [ranLog] at log

theorem refuses_known (known : proposal.capability ∈ knownCapabilities) :
    Refuses env call proposal w ↔
      ((({ w with reads := w.reads+1 } : World).listEvents env "consent.denied" 50).find?
        (({ w with reads := w.reads+1 } : World).suppresses env proposal call.chapterId (env.clock w.reads))).isSome =
          true := by
  constructor
  · rintro ⟨result,v,run,state,reason,_,activity⟩
    rw [Option.isSome_iff_ne_none]
    intro undenied
    by_cases untrusted : proposal.provenance = "untrusted"
    · simp only [executeProposal,known,not_true_eq_false,if_false,Effect.bind_apply,suppress_denial,undenied,untrusted,
        if_true,observeSafe_eq] at run
      cases recorded : checkAndRecord env proposal call.chapterId call.actorAgentId { w with reads := w.reads+1 } with
      | error e u =>
        rw [recorded] at run
        cases run
      | ok reject u =>
        rw [recorded] at run
        cases run
        exact checkAndRecord_reason recorded reason
    · have turn := executeProposal_admitted env call proposal ⟨known,undenied,untrusted⟩
      rw [run] at turn
      rcases settle_split env call proposal { w with reads := w.reads+1 } with
        ⟨_,d,u,settled,approval⟩ | ⟨_,prepared,settled⟩
      · rw [settled] at turn
        exact approval.ran turn activity
      · rw [settled] at turn
        cases recorded : checkAndRecord env proposal call.chapterId call.actorAgentId
            (beforeRecord env call proposal { w with reads := w.reads+1 }) with
        | error e u =>
          rw [recorded] at turn
          cases turn
        | ok d u =>
          rw [recorded] at turn
          rw [conclude_decision (checkAndRecord_state env recorded) turn.symm] at reason
          exact checkAndRecord_reason recorded reason
  · intro denial
    obtain ⟨row,denial⟩ := Option.isSome_iff_exists.mp denial
    refine ⟨⟨proposal,⟨.reject,"recently_denied",none⟩,none,none⟩,{ w with reads := w.reads+1 },?_,rfl,?_,rfl,rfl⟩
    · simp only [executeProposal,known,not_true_eq_false,if_false,Effect.bind_apply,suppress_denial,denial]
      rfl
    · simp [earlyReasons]

theorem refuses_unknown (unlisted : proposal.capability ∉ knownCapabilities) : Refuses env call proposal w ↔
    Accepted env (decisionFields proposal ⟨.reject,"unknown_capability",none⟩ call.chapterId call.actorAgentId) w := by
  constructor
  · rintro ⟨result,v,run,_⟩
    by_contra refused
    obtain ⟨e,u,failed⟩ := record_refused refused
    simp only [executeProposal,unlisted,not_false_eq_true,if_true,recordDecision,Effect.bind_apply,failed] at run
    cases run
  · intro accepted
    let row := w.nextRow env
      (decisionFields proposal ⟨.reject,"unknown_capability",none⟩ call.chapterId call.actorAgentId)
    have run : executeProposal env call proposal w =
        .ok ⟨proposal,⟨.reject,"unknown_capability",some row.eventSha256⟩,none,none⟩ (w.insert env row) := by
      simp only [executeProposal,unlisted,not_false_eq_true,if_true,recordDecision,Effect.bind_apply,
        record_accepted accepted]
      rfl
    exact ⟨_,_,run,rfl,by simp [earlyReasons],rfl,rfl⟩

/-- In every plan, when its turn comes, a proposal whose denial stands is refused exactly
if a recent denial of it is among the 50 newest denials. -/
theorem recentDenial_refuses_iff (plan : List ActionRequest) (w : World) :
    AtEachTurn env call (fun proposal u => u.Keyed → Denied env call proposal u →
      (Refuses env call proposal u ↔ Foreseen env call proposal u)) plan w := by
  intro before proposal after results u _ _ keyed _
  by_cases known : proposal.capability ∈ knownCapabilities
  · rw [refuses_known known,scan_isSome keyed]
    simp [Foreseen,known]
  · rw [refuses_unknown known]
    simp [Foreseen,known]

end Turn

section Sample

def visit : ActionRequest := { sampleRequest with scope := "t" }

def readRunner : Runner := fun req _ => ([],.returned ⟨req.capability,req.scope,"ok","","untrusted",none,[]⟩)

def trustedCall : Call := ⟨fun _ => some readRunner,"l",none,false,none,none,some 100,some 100⟩

def World.denying (w : World) (req : ActionRequest) : World :=
  w.insert (sampleEnv []) (w.nextRow (sampleEnv []) (denialFields req "l" "p" none))

def crowd : Nat → World
  | 0 => World.fresh.denying sampleRequest
  | n+1 => (crowd n).denying visit

def World.Lengthening (w : World) (length : Nat) : Prop :=
  (∃ last, w.rows.getLast? = some last ∧ last.eventSha256.length = length) ∧
    ∀ row ∈ w.rows, row.eventSha256.length ≤ length

section Lengthening
variable {w : World} {length : Nat} (lengthening : w.Lengthening length) (fields : Fields)
include lengthening

theorem nextRow_sha : (w.nextRow (sampleEnv []) fields).eventSha256 = String.ofList (List.replicate (length+1) 'a') := by
  obtain ⟨⟨last,ending,rfl⟩,_⟩ := lengthening
  simp [World.nextRow,sha256Of,canonicalEvent,sampleEnv,sampleSha,Json.get,ending]

theorem World.Lengthening.fresh : w.holds (w.nextRow (sampleEnv []) fields).eventSha256 = false := by
  simp only [World.holds,List.any_eq_false,beq_iff_eq]
  intro row inside same
  have short := lengthening.2 row inside
  rw [same,nextRow_sha lengthening,String.length_ofList,List.length_replicate] at short
  omega

theorem World.Lengthening.insert :
    (w.insert (sampleEnv []) (w.nextRow (sampleEnv []) fields)).Lengthening (length+1) := by
  have next : (w.nextRow (sampleEnv []) fields).eventSha256.length = length+1 := by
    rw [nextRow_sha lengthening,String.length_ofList,List.length_replicate]
  refine ⟨⟨_,List.getLast?_concat,next⟩,?_⟩
  intro row inside
  rcases List.mem_append.mp inside with old | new
  · exact (lengthening.2 row old).trans (Nat.le_succ length)
  · rw [List.mem_singleton.mp new]
    exact next.le

end Lengthening

theorem crowd_lengthening (n : Nat) : (crowd n).Lengthening (n+1) := by
  induction n with
  | zero => exact ⟨⟨_,rfl,by decide +kernel⟩,by decide +kernel⟩
  | succ n ih => exact ih.insert _

theorem crowd_ordered (n : Nat) : Ordered (sampleEnv []) (crowd n) := by
  induction n with
  | zero => exact (Ordered.fresh _ .fresh rfl).append (sampleEnv_steady []) _ rfl
  | succ n ih => exact ih.append (sampleEnv_steady []) _ ((crowd_lengthening n).fresh _)

theorem crowd_keyed (n : Nat) : (crowd n).Keyed := (crowd_ordered n).log.distinct _

def deniedRow : Row := World.fresh.nextRow (sampleEnv []) (denialFields sampleRequest "l" "p" none)

theorem crowd_reads (n : Nat) : (crowd n).reads = n+1 := by
  induction n with
  | zero => rfl
  | succ n ih => exact congrArg Nat.succ ih

theorem crowd_holds (n : Nat) : deniedRow ∈ (crowd n).rows := by
  induction n with
  | zero => exact List.mem_singleton_self _
  | succ n ih => exact List.mem_append_left _ ih

theorem crowd_denials (n : Nat) : ∀ row ∈ (crowd n).rows, row.action = "consent.denied" := by
  induction n with
  | zero =>
    intro row inside
    obtain rfl := List.mem_singleton.mp inside
    rfl
  | succ n ih =>
    intro row inside
    rcases List.mem_append.mp inside with old | new
    · exact ih row old
    · obtain rfl := List.mem_singleton.mp new
      rfl

theorem crowd_denies (n : Nat) (within : n < denialCooldown) :
    Denies (sampleEnv []) trustedCall sampleRequest (crowd n) deniedRow := by
  refine ⟨crowd_holds n,rfl,rfl,by decide +kernel,?_⟩
  rw [crowd_reads]
  exact Nat.le_trans within (Nat.le_add_left _ _)

theorem crowd_denied (n : Nat) (within : n < denialCooldown) :
    Denied (sampleEnv []) trustedCall sampleRequest (crowd n) := by
  refine ⟨deniedRow,crowd_denies n within,?_⟩
  rintro ⟨clearing,inside,cleared,_⟩
  rw [crowd_denials n clearing inside] at cleared
  revert cleared
  decide

theorem crowd_activity (n : Nat) : (crowd n).activity = [] := by
  induction n with
  | zero => rfl
  | succ n ih => exact ih

theorem crowd_recorded (n : Nat) : ∃ sha, deny (sampleEnv []) visit "l" "p" none (crowd n) = .ok sha (crowd (n+1)) := by
  have accepted : Accepted (sampleEnv []) (denialFields visit "l" "p" none) (crowd n) :=
    ⟨by decide +kernel,(crowd_lengthening n).fresh _⟩
  exact ⟨_,by simp only [deny,Effect.bind_apply,record_accepted accepted]; rfl⟩

theorem SelfApproves.accepted {env : Env} {call : Call} {proposal : ActionRequest} {w u v : World} {prompt : String}
    {fields : Fields} {audit : String → Fields} (entered : u = { w with reads := w.reads+1 })
    (filled : fields = approvalFields env proposal call.chapterId prompt call.actorAgentId (env.clock w.reads+approvalTtl))
    (inserted : v = u.insert env (u.nextRow env fields)) (approved : Accepted env fields u)
    (audited : Accepted env (audit (u.nextRow env fields).eventSha256) v) :
    SelfApproves env call proposal w prompt audit := by
  subst entered filled inserted
  refine ⟨_,_,?_,_,_,record_accepted audited⟩
  simp only [approve,Effect.bind_apply,now,record_accepted approved]
  rfl

theorem World.Lengthening.opens {w : World} (lengthening : w.Lengthening 51) (reads : w.reads = 52) :
    Eligible (sampleEnv []) trustedCall sampleRequest w := by
  have later : World.Lengthening { w with reads := w.reads+1 } 51 := lengthening
  have valid : validate (sampleEnv []) (approvalFields (sampleEnv []) sampleRequest "l" "trust_threshold" none
      ((sampleEnv []).clock w.reads+approvalTtl)) = none := by
    rw [reads]
    decide +kernel
  have audited (fields : Fields) : validate (sampleEnv []) (trustedFields sampleRequest "l" none 100 100
      (World.nextRow { w with reads := w.reads+1 } (sampleEnv []) fields).eventSha256) = none := by
    rw [nextRow_sha later]
    decide +kernel
  refine Or.inr (Or.inl ⟨by decide,by decide,by decide,by decide,?_⟩)
  exact SelfApproves.accepted rfl rfl rfl ⟨valid,later.fresh _⟩ ⟨audited _,(later.insert _).fresh _⟩

theorem Admitted.activity {env : Env} {call : Call} {proposal : ActionRequest} {w : World}
    (admitted : Admitted env call proposal w) (eligible : Eligible env call proposal { w with reads := w.reads+1 }) :
    ∃ d, (Effect.final (executeProposal env call proposal w)).activity = w.activity ++ ranLog call proposal d := by
  rw [executeProposal_admitted _ _ _ admitted]
  obtain ⟨_,d,v,settled,approval⟩ | ⟨shut,_⟩ := settle_split env call proposal { w with reads := w.reads+1 }
  · rw [settled]
    exact ⟨d,approval.log⟩
  · exact absurd eligible shut

theorem World.Lengthening.ran {w : World} (lengthening : w.Lengthening 51) (reads : w.reads = 51)
    (undenied : (({ w with reads := 52 } : World).listEvents (sampleEnv []) "consent.denied" 50).find?
      (({ w with reads := 52 } : World).suppresses (sampleEnv []) sampleRequest "l" 51) = none) :
    (Effect.final (executeProposal (sampleEnv []) trustedCall sampleRequest w)).activity.length = w.activity.length+2 := by
  have admitted : Admitted (sampleEnv []) trustedCall sampleRequest w := by
    refine ⟨by decide,?_,by decide⟩
    rw [reads]
    exact undenied
  have later : World.Lengthening { w with reads := w.reads+1 } 51 := lengthening
  obtain ⟨d,log⟩ := admitted.activity (later.opens (congrArg Nat.succ reads))
  rw [log,List.length_append]
  rfl

/-- Fifty later denials of something else, and what was denied within the hour runs. -/
theorem crowdedDenial_ignored :
    (∀ n, ∃ sha, deny (sampleEnv []) visit "l" "p" none (crowd n) = .ok sha (crowd (n+1))) ∧ (crowd 50).Keyed ∧ Denied (sampleEnv []) trustedCall sampleRequest (crowd 50) ∧
    ¬ Refuses (sampleEnv []) trustedCall sampleRequest (crowd 50) ∧
    (Effect.final (executeProposal (sampleEnv []) trustedCall sampleRequest (crowd 50))).activity.length = 2 := by
  have ran := (crowd_lengthening 50).ran (crowd_reads 50) (Option.isNone_iff_eq_none.mp (by decide +kernel))
  rw [crowd_activity] at ran
  refine ⟨crowd_recorded,crowd_keyed 50,crowd_denied 50 (by decide),?_,ran⟩
  rintro ⟨result,v,run,_,_,_,activity⟩
  replace ran : v.activity.length = 2 := by
    rw [run] at ran
    exact ran
  rw [activity,crowd_activity] at ran
  cases ran

theorem loneDenial_refuses : Refuses (sampleEnv []) trustedCall sampleRequest (crowd 0) := by
  have all := @recentDenial_refuses_iff (sampleEnv []) trustedCall [sampleRequest] (crowd 0)
  have here := all [] sampleRequest [] [] (crowd 0) rfl rfl (crowd_keyed 0) (crowd_denied 0 (by decide))
  refine here.mpr (Or.inr ⟨by decide,deniedRow,crowd_denies 0 (by decide),?_,?_⟩)
  · decide +kernel
  · decide +kernel

end Sample
end Orrery.Consent
