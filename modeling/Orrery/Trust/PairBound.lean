import Orrery.Trust.Endorsements

/-! What a pair of members is worth, over whole runs of endorsements and revocations. -/
namespace Orrery.Trust
open Foundation Chapter

section Runs
variable {env : EndorsementEnv} {db : Db} {landings : ℕ → Landing} {endorser endorsee : String}

theorem clampScale_ge (read : PyFloat) : 1/2 ≤ clampScale read := by
  cases read with
  | finite q => exact le_max_left _ _
  | infinite negative =>
    rw [clampScale]
    split
    · exact le_rfl
    · norm_num
  | nan => norm_num [clampScale]

theorem run_ending {call : RecordCall} {finish : Result → Program EndorsementResult}
    (ends : ∀ result, ∃ final, finish result = .done final) :
    (Proc.run exec landings (record call >>= finish) db).2.1 = (Proc.run exec landings (record call) db).2.1 := by
  rw [Proc.bind_eq,Proc.run_bind]
  obtain ⟨final,ended⟩ := ends (Proc.run exec landings (record call) db).1
  rw [ended]
  rfl

theorem run_written {call : RecordCall} {base : ℚ} {pair : String × String} {row : Endorsement} {db₁ : Db}
    {finish : Result → Program EndorsementResult} (ends : ∀ result, ∃ final, finish result = .done final)
    (answers : ∀ n, ((landings n).lands && (landings n).answers) = true) (put : Put pair row db db₁)
    (admitted : call.agentId ≠ "" → Admitted call base) :
    Written call (scaledDelta base (landings 0).scale) pair row db
    (Proc.run exec landings (record call >>= finish) db₁).2.1 := by
  rw [run_ending ends]
  by_cases nobody : call.agentId = ""
  · rw [record,if_pos nobody]
    exact .unnamed nobody put
  · exact .recorded nobody db₁ put (run_record answers (admitted nobody))

theorem received_admitted (other : endorser ≠ endorsee) (named : endorsee ≠ "") :
    Admitted (received endorser endorsee) (1/2) where
  named := named
  other := fun same => other (Option.some.inj same)
  known := rfl
  sourced := rfl

theorem withdrawn_admitted (reason : String) (other : endorser ≠ endorsee) (named : endorsee ≠ "") :
    Admitted (withdrawn endorser endorsee reason) (-1) where
  named := named
  other := fun same => other (Option.some.inj same)
  known := rfl
  sourced := rfl

theorem put_patch {landing : Landing} {pair : String × String} {row : Endorsement} (lands : landing.lands = true)
    (found : db.endorsements.row pair = some row) (change : EndorsementChange) :
    Put pair (change.apply row) db (exec landing (.patchEndorsement row.id change) db).2 := by
  unfold exec
  dsimp only
  rw [if_pos lands]
  constructor
  · rfl
  · intro k
    change (db.endorsements.patch row.id change.apply change.apply_pair change.apply_id).row k = _
    exact NumberedTable.row_patch found k

theorem put_post {landing : Landing} {vouch : Vouch} (lands : landing.lands = true)
    (other : vouch.endorserAgentId ≠ vouch.endorseeAgentId)
    (missing : db.endorsements.row (vouch.endorserAgentId,vouch.endorseeAgentId) = none)
    (fresh : landing.newId ∉ db.endorsements.rows.map Endorsement.id) :
    Put (vouch.endorserAgentId,vouch.endorseeAgentId) (vouch.row landing.newId) db
      (exec landing (.postEndorsement vouch) db).2 := by
  unfold exec Db.after
  dsimp only
  rw [if_pos lands,if_neg other]
  constructor
  · rfl
  · intro k
    change (db.endorsements.insert (vouch.row landing.newId)).row k = _
    rw [NumberedTable.row_insert fresh]
    by_cases here : k = (vouch.endorserAgentId,vouch.endorseeAgentId)
    · rw [here,missing,if_pos rfl,Option.none_or]
      exact if_pos rfl
    · rw [if_neg here,if_neg,Option.or_none]
      exact fun same => here same.symm

theorem passed_endorsement {call : EndorseCall} (other : call.endorserAgentId ≠ call.endorseeAgentId)
    (material : ¬ (call.endorserPubkeyB64 = "" ∨ call.signatureB64 = ""))
    (signed : verifyEndorsementSignature env call = true) :
    recordEndorsement env call = .call (.getTrustScore call.endorserAgentId) fun rows =>
      if (rows.getD []).head?.getD 0 < minEndorserTrust then .done (.belowFloor ((rows.getD []).head?.getD 0))
      else .call (.getEndorsement call.endorserAgentId call.endorseeAgentId) (writeEndorsement env call) := by
  rw [recordEndorsement,if_neg other,if_neg material,if_neg (by simp [signed])]
  rfl

theorem answered_some {α : Type} {landing : Landing} (answers : (landing.lands && landing.answers) = true)
    (rows : List α) :
    landing.answered rows = some rows := by
  rw [Landing.answered,if_pos answers]

theorem run_minting {call : EndorseCall} {refreshed : Bool} {rowId : Option ℕ} {pair : String × String}
    {row : Endorsement}
    {db₁ : Db} (answers : ∀ n, ((landings n).lands && (landings n).answers) = true) (put : Put pair row db db₁)
    (other : call.endorserAgentId ≠ call.endorseeAgentId) :
    Written (received call.endorserAgentId call.endorseeAgentId) (scaledDelta (1/2) (landings 0).scale) pair row db
      (Proc.run exec landings (mint call refreshed rowId) db₁).2.1 := by
  refine run_written (fun result => ?_) answers put (received_admitted other)
  cases result with
  | error refusal => exact ⟨_,rfl⟩
  | ok minted => exact ⟨_,rfl⟩

theorem run_writeEndorsement {call : EndorseCall} {db₁ : Db} (other : call.endorserAgentId ≠ call.endorseeAgentId)
    (answers : ∀ n, ((landings n).lands && (landings n).answers) = true)
    (fresh : (landings 0).newId ∉ db₁.endorsements.rows.map Endorsement.id)
    (same : db₁.events = db.events ∧ db₁.endorsements = db.endorsements) :
    ∃ row, row.revokedAt = none ∧ Written (received call.endorserAgentId call.endorseeAgentId)
      (scaledDelta (1/2) (landings 1).scale) (call.endorserAgentId,call.endorseeAgentId) row db
      (Proc.run exec landings (writeEndorsement env call
        (some (db₁.endorsements.row (call.endorserAgentId,call.endorseeAgentId)).toList)) db₁).2.1 := by
  have lands : (landings 0).lands = true := (Bool.and_eq_true_iff.mp (answers 0)).1
  unfold writeEndorsement
  cases found : db₁.endorsements.row (call.endorserAgentId,call.endorseeAgentId) with
  | some row =>
    refine ⟨(EndorsementChange.refreshed (call.vouch env)).apply row,rfl,?_⟩
    change Written _ _ _ _ _ (Proc.run exec landings (.call (.patchEndorsement row.id (.refreshed (call.vouch env)))
      fun _ => mint call true (some row.id)) db₁).2.1
    rw [run_call]
    apply run_minting fun n => answers (n+1)
    · exact (put_patch lands found _).after same
    · exact other
  | none =>
    refine ⟨(call.vouch env).row (landings 0).newId,rfl,?_⟩
    change Written _ _ _ _ _ (Proc.run exec landings (.call (.postEndorsement (call.vouch env))
      fun result => mint call false ((result.getD []).head?.map Endorsement.id)) db₁).2.1
    rw [run_call]
    apply run_minting fun n => answers (n+1)
    · have put := @put_post db₁ (landings 0) (call.vouch env) lands other found fresh
      exact put.after same
    · exact other

theorem run_accepted {call : EndorseCall} {db₁ : Db} (other : call.endorserAgentId ≠ call.endorseeAgentId)
    (answers : ∀ n, ((landings n).lands && (landings n).answers) = true)
    (fresh : (landings 1).newId ∉ db₁.endorsements.rows.map Endorsement.id)
    (same : db₁.events = db.events ∧ db₁.endorsements = db.endorsements) :
    ∃ row, row.revokedAt = none ∧ Written (received call.endorserAgentId call.endorseeAgentId)
      (scaledDelta (1/2) (landings 2).scale) (call.endorserAgentId,call.endorseeAgentId) row db
      (Proc.run exec landings (.call (.getEndorsement call.endorserAgentId call.endorseeAgentId)
        (writeEndorsement env call)) db₁).2.1 := by
  rw [run_call]
  have existing : (exec (landings 0) (.getEndorsement call.endorserAgentId call.endorseeAgentId) db₁).1 =
      some (db₁.endorsements.row (call.endorserAgentId,call.endorseeAgentId)).toList := answered_some (answers 0) _
  have read := exec_read db₁ (landings 0) (.getEndorsement call.endorserAgentId call.endorseeAgentId) rfl
  rw [existing]
  generalize (exec (landings 0) (.getEndorsement call.endorserAgentId call.endorseeAgentId) db₁).2 = db₂ at read ⊢
  rw [← read.1]
  rw [← read.1] at fresh
  exact run_writeEndorsement other (fun n => answers (n+1)) fresh ⟨read.2.trans same.1,read.1.trans same.2⟩

theorem endorse_cases (env : EndorsementEnv) {move : EndorsementMove} {call : EndorseCall}
    (successful : Successful db move)
    (op : move.op = .endorse call) :
    ((move.apply env db).events = db.events ∧ (move.apply env db).endorsements = db.endorsements) ∨
    (call.endorseeAgentId ≠ "" → call.Accepted env ((move.landings 0).trustScore.head?.getD 0)) ∧
      call.endorserAgentId ≠ call.endorseeAgentId ∧ ∃ row, row.revokedAt = none ∧
      Written (received call.endorserAgentId call.endorseeAgentId) (scaledDelta (1/2) move.scale)
        (call.endorserAgentId,call.endorseeAgentId) row db (move.apply env db) := by
  have answers (n : ℕ) : ((move.landing n).lands && (move.landing n).answers) = true := (successful n).1
  have applied : move.apply env db = (Proc.run exec move.landing (recordEndorsement env call) db).2.1 := by
    rw [EndorsementMove.apply,op]
    rfl
  rw [applied]
  by_cases other : call.endorserAgentId = call.endorseeAgentId
  · rw [recordEndorsement,if_pos other]
    exact .inl ⟨rfl,rfl⟩
  by_cases material : call.endorserPubkeyB64 = "" ∨ call.signatureB64 = ""
  · rw [recordEndorsement,if_neg other,if_pos material]
    exact .inl ⟨rfl,rfl⟩
  cases signed : verifyEndorsementSignature env call with
  | false =>
    rw [recordEndorsement,if_neg other,if_neg material,if_pos (by simp [signed])]
    exact .inl ⟨rfl,rfl⟩
  | true =>
    rw [passed_endorsement other material signed,run_call]
    have trust : (exec (move.landing 0) (.getTrustScore call.endorserAgentId) db).1 =
        some (move.landings 0).trustScore :=
      answered_some (answers 0) _
    have first := exec_read db (move.landing 0) (.getTrustScore call.endorserAgentId) rfl
    generalize (exec (move.landing 0) (.getTrustScore call.endorserAgentId) db).2 = db₁ at first ⊢
    rw [trust]
    split
    next => exact .inl ⟨first.2,first.1⟩
    next above =>
      refine .inr ⟨fun named => ⟨other,named,material,signed,not_lt.mp above⟩,other,?_⟩
      refine run_accepted other (fun n => answers (n+1)) ?_ ⟨first.2,first.1⟩
      rw [first.1]
      exact (successful 2).2

theorem run_revoking {row : Endorsement} {reason : String} {db₁ : Db} (other : endorser ≠ endorsee)
    (answers : ∀ n, ((landings n).lands && (landings n).answers) = true)
    (found : db₁.endorsements.row (endorser,endorsee) = some row)
    (same : db₁.events = db.events ∧ db₁.endorsements = db.endorsements) :
    ∃ row', row'.revokedAt.isSome = true ∧
      Written (withdrawn endorser endorsee reason) (scaledDelta (-1) (landings 2).scale)
      (endorser,endorsee) row' db (Proc.run exec landings (.call .utcNow fun revokedAt : Int =>
        .call (.patchEndorsement row.id (.revoked revokedAt (clipped 512 reason))) fun _ =>
          compensate endorser endorsee reason) db₁).2.1 := by
  have lands : (landings 1).lands = true := (Bool.and_eq_true_iff.mp (answers 1)).1
  rw [run_call,run_call]
  have read := exec_read db₁ (landings 0) .utcNow rfl
  generalize (exec (landings 0) .utcNow db₁).1 = revokedAt
  generalize (exec (landings 0) .utcNow db₁).2 = db₂ at read ⊢
  refine ⟨(EndorsementChange.revoked revokedAt (clipped 512 reason)).apply row,rfl,?_⟩
  rw [← read.1] at found
  refine run_written (fun result => ?_) (fun n => answers (n+2))
    ((put_patch lands found _).after ⟨read.2.trans same.1,read.1.trans same.2⟩) (withdrawn_admitted reason other)
  cases result with
  | error refusal => exact ⟨_,rfl⟩
  | ok minted => exact ⟨_,rfl⟩

theorem revoke_cases (env : EndorsementEnv) {move : EndorsementMove} {reason : String} (successful : Successful db move)
    (op : move.op = .revoke endorser endorsee reason) :
    ((move.apply env db).events = db.events ∧ (move.apply env db).endorsements = db.endorsements) ∧
      (endorser = endorsee ∨ db.endorsements.row (endorser,endorsee) = none ∨
        ∃ row, db.endorsements.row (endorser,endorsee) = some row ∧ row.revokedAt.isSome = true) ∨
    endorser ≠ endorsee ∧ ∃ row, row.revokedAt.isSome = true ∧ Written (withdrawn endorser endorsee reason)
      (scaledDelta (-1) move.scale) (endorser,endorsee) row db (move.apply env db) := by
  have answers (n : ℕ) : ((move.landing n).lands && (move.landing n).answers) = true := (successful n).1
  have lands (n : ℕ) : (move.landing n).lands = true := (Bool.and_eq_true_iff.mp (answers n)).1
  have applied : move.apply env db =
      (Proc.run exec move.landing (revokeEndorsement endorser endorsee reason) db).2.1 := by
    rw [EndorsementMove.apply,op]
    rfl
  rw [applied]
  by_cases other : endorser = endorsee
  · rw [revokeEndorsement,if_pos other]
    exact .inl ⟨⟨rfl,rfl⟩,.inl other⟩
  have passed : revokeEndorsement endorser endorsee reason =
      .call (.getEndorsement endorser endorsee) (revokeRead endorser endorsee reason) := by
    rw [revokeEndorsement,if_neg other]
    rfl
  rw [passed,run_call]
  have existing : (exec (move.landing 0) (.getEndorsement endorser endorsee) db).1 =
      some (db.endorsements.row (endorser,endorsee)).toList := answered_some (answers 0) _
  have first := exec_read db (move.landing 0) (.getEndorsement endorser endorsee) rfl
  rw [existing]
  generalize (exec (move.landing 0) (.getEndorsement endorser endorsee) db).2 = db₁ at first ⊢
  unfold revokeRead
  cases found : db.endorsements.row (endorser,endorsee) with
  | none => exact .inl ⟨⟨first.2,first.1⟩,.inr (.inl rfl)⟩
  | some row =>
    dsimp only [Option.getD_some,Option.toList_some,List.head?_cons]
    split
    next revoked => exact .inl ⟨⟨first.2,first.1⟩,.inr (.inr ⟨row,rfl,revoked⟩)⟩
    next =>
      refine .inr ⟨other,?_⟩
      rw [← first.1] at found
      exact run_revoking other (fun n => answers (n+1)) found ⟨first.2,first.1⟩

theorem numeric63_withdrawn (read : Option PyFloat) : numeric63 (scaledDelta (-1) read) ≤ -(1/2) := by
  have bound : scaledDelta (-1) read ≤ -(1/2) := by
    have ge := clampScale_ge (read.getD (.finite 1))
    unfold scaledDelta
    linarith
  have half : numeric63 (-(1/2)) = -(1/2) := by
    norm_num [numeric63]
  exact (numeric63_mono bound).trans_eq half

theorem Db.Fair.congr {db' : Db} (fair : db.Fair) (same : db'.events = db.events ∧ db'.endorsements = db.endorsements) :
    db'.Fair := by
  obtain ⟨events,endorsements⟩ := same
  refine ⟨⟨?_,?_⟩,?_⟩
  · rw [events,endorsements]
    exact fair.earned
  · rw [events]
    exact fair.apart
  · intro endorser endorsee row listed
    rw [endorsements] at listed
    rw [minted_congr events]
    exact fair.repaid endorser endorsee row listed

variable {move : EndorsementMove}

theorem Db.Fair.endorse {call : EndorseCall} (fair : db.Fair) (successful : Successful db move)
    (modest : Modest env db move)
    (op : move.op = .endorse call) : (move.apply env db).Fair := by
  obtain same | ⟨accepted,other,row,live,written⟩ := endorse_cases env successful op
  · exact fair.congr same
  · apply fair.written written rfl
    · intro named db₁ put fresh event isOf le
      have bound := modest call op (accepted named) fun minted => fresh ((minted_congr put.events).mpr minted)
      refine ⟨_,_,⟨other,named⟩,.inl ⟨isOf,le.trans bound,?_⟩⟩
      rw [put.endorsements,if_pos rfl]
      rfl
    · intro revoked
      rw [live] at revoked
      exact absurd revoked Bool.false_ne_true

theorem Db.Fair.revoke {reason : String} (fair : db.Fair) (successful : Successful db move)
    (op : move.op = .revoke endorser endorsee reason) : (move.apply env db).Fair := by
  obtain ⟨same,_⟩ | ⟨other,row,_,written⟩ := revoke_cases env successful op
  · exact fair.congr same
  · apply fair.written written rfl
    · intro named db₁ put fresh event isOf le
      exact ⟨_,_,⟨other,named⟩,.inr ⟨isOf,le.trans (numeric63_withdrawn move.scale)⟩⟩
    · exact fun _ _ minted => minted

theorem Db.Fair.step (fair : db.Fair) (successful : Successful db move) (modest : Modest env db move) :
    (move.apply env db).Fair := by
  cases op : move.op with
  | endorse call => exact fair.endorse successful modest op
  | revoke endorser endorsee reason => exact fair.revoke successful op

theorem Db.Fair.revoked_net {reason : String} (fair : db.Fair) (successful : Successful db move)
    (op : move.op = .revoke endorser endorsee reason) : (move.apply env db).net endorser endorsee ≤ 0 := by
  have after : (move.apply env db).Fair := fair.revoke successful op
  obtain ⟨same,nothing⟩ | ⟨other,row,revoked,written⟩ := revoke_cases env successful op
  · by_cases proper : Proper endorser endorsee
    · obtain itself | missing | ⟨row,found,revoked⟩ := nothing
      · exact absurd itself proper.1
      · apply after.toSound.net_unmet
        rw [same.2]
        exact fun _ => missing
      · apply after.toSound.net_nonpos
        exact (minted_congr same.1).mpr (fair.repaid endorser endorsee row found revoked proper.2)
    · exact after.toSound.net_unmet fun isProper => absurd isProper proper
  · cases written with
    | unnamed nobody put => exact after.toSound.net_unmet fun proper => absurd nobody proper.2
    | recorded named db₁ put recorded => exact after.toSound.net_nonpos recorded.minted

theorem net_apart (successful : Successful db move) (apart : (endorser,endorsee) ≠ move.op.pair) :
    (move.apply env db).net endorser endorsee = db.net endorser endorsee := by
  have unchanged {db' : Db} (same : db'.events = db.events) : db'.net endorser endorsee = db.net endorser endorsee := by
    rw [Db.net,Db.between,same]
    rfl
  cases op : move.op with
  | endorse call =>
    rw [op] at apart
    obtain same | ⟨_,_,row,_,written⟩ := endorse_cases env successful op
    · exact unchanged same.1
    · exact written.net_other rfl rfl apart
  | revoke endorser' endorsee' reason =>
    rw [op] at apart
    obtain ⟨same,_⟩ | ⟨_,row,_,written⟩ := revoke_cases env successful op
    · exact unchanged same.1
    · exact written.net_other rfl rfl apart

def endorsementStep (env : EndorsementEnv) (db : Db) (move : EndorsementMove) : Option Db := some (move.apply env db)

/-- In whatever order members endorse and revoke, no endorser gives an endorsee more than
half a point, and nothing once he has revoked, as long as no endorsement is minted for more. -/
theorem pair_bounded (env : EndorsementEnv) (start : Int) {db : Db}
    (run : Runs.Reached (endorsementStep env) (fun db move => Successful db move ∧ Modest env db move)
      { emptyDb with clock := start } db) (endorser endorsee : String) :
    db.net endorser endorsee ≤ 1/2 ∧ ∀ move reason db', move.op = .revoke endorser endorsee reason →
      Successful db move →
      Runs.Reached (endorsementStep env) (fun db move => Successful db move ∧ move.op.pair ≠ (endorser,endorsee))
        (move.apply env db) db' → db'.net endorser endorsee ≤ 0 := by
  have fair : db.Fair := by
    apply run.invariant
    · refine ⟨⟨?_,.nil⟩,?_⟩
      · intro row inside
        exact absurd inside List.not_mem_nil
      · intro endorser endorsee row found
        exact absurd (found : none = some row) (Option.some_ne_none row).symm
    · intro s move s' before allowed stepped
      obtain rfl := Option.some.inj stepped
      exact before.step allowed.1 allowed.2
  refine ⟨fair.toSound.net_le endorser endorsee,?_⟩
  intro move reason db' op successful others
  apply others.invariant
  · exact fair.revoked_net successful op
  · intro s move s' before allowed stepped
    obtain rfl := Option.some.inj stepped
    rw [net_apart allowed.1 (Ne.symm allowed.2)]
    exact before

end Runs

section Samples

def plainEndorsements : EndorsementEnv := { plainCodec with chapterId := "acme" }

def annEndorses (scale : ℚ) : EndorsementMove where
  op := .endorse ⟨"ann","did:key:ann","bob","key","key",0,none⟩
  scale := some (.finite scale)
  landings _ := ⟨0,true,true,0,none,[20]⟩

def annRevokes (scale : ℚ) : EndorsementMove where
  op := .revoke "ann" "bob" "mistake"
  scale := some (.finite scale)
  landings _ := ⟨0,true,true,1,none,[20]⟩

theorem annEndorses_successful (scale : ℚ) : Successful emptyDb (annEndorses scale) := fun _ => ⟨rfl,List.not_mem_nil⟩

theorem annRevokes_successful (scale scale' : ℚ)
    (ids : ((annEndorses scale').apply plainEndorsements emptyDb).endorsements.rows.map Endorsement.id = [0]) :
    Successful ((annEndorses scale').apply plainEndorsements emptyDb) (annRevokes scale) := by
  intro n
  rw [ids]
  exact ⟨rfl,by simp [annRevokes]⟩

theorem ann_takes_back : ((annRevokes 1).apply plainEndorsements
    ((annEndorses 1).apply plainEndorsements emptyDb)).net "ann" "bob" ≤ 0 := by
  have endorsed : Runs.Reached (endorsementStep plainEndorsements)
      (fun db move => Successful db move ∧ Modest plainEndorsements db move) { emptyDb with clock := 0 }
      ((annEndorses 1).apply plainEndorsements emptyDb) := by
    have modest : Modest plainEndorsements { emptyDb with clock := 0 } (annEndorses 1) := by
      intro call _ _ _
      norm_num [annEndorses,scaledDelta,clampScale,numeric63]
    exact .step .start ⟨annEndorses_successful 1,modest⟩ rfl
  have ids : ((annEndorses 1).apply plainEndorsements emptyDb).endorsements.rows.map Endorsement.id = [0] := by
    decide +kernel
  exact (pair_bounded plainEndorsements 0 endorsed "ann" "bob").2 (annRevokes 1) "mistake" _ rfl
    (annRevokes_successful 1 1 ids) .start

/-- At twice the scale an endorsement is worth 1, and a revocation at half the scale leaves 0.5. -/
theorem endorsed_at_twice_the_scale : ∃ db, Runs.Reached (endorsementStep plainEndorsements) Successful emptyDb db ∧
    db.net "ann" "bob" = 1 ∧ Successful db (annRevokes (1/2)) ∧
      ((annRevokes (1/2)).apply plainEndorsements db).net "ann" "bob" = 1/2 := by
  have ids : ((annEndorses 2).apply plainEndorsements emptyDb).endorsements.rows.map Endorsement.id = [0] := by
    decide +kernel
  refine ⟨(annEndorses 2).apply plainEndorsements emptyDb,.step .start (annEndorses_successful 2) rfl,?_,
    annRevokes_successful (1/2) 2 ids,?_⟩
  · decide +kernel
  · decide +kernel

end Samples

end Orrery.Trust
