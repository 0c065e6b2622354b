import Orrery.Consent.ClaimLog

/-! `claim_approval` under threads and crashes. Between two of its steps any other
thread may read the clock, append any row (`approve`, `deny`, `mark_consumed` and the
executed row of `release_execution` are such), or take an approval out of the
in-flight set; a crash empties that set and keeps the table. The claim lock is
modelled by what it does: at most one thread is inside, and one that waits for it has
done nothing yet. -/
namespace Orrery.Consent
open Foundation Json

structure ClaimCall where
  req : ActionRequest
  chapterId : String
  actorAgentId : Option String

/-- Where the thread inside `claim_approval` stands: about to read the clock, the
tombstones, the candidates, the next candidate, the in-flight set once more, about to
write the tombstone, and about to enter the in-flight set. `read` is the number of
rows the candidates were read from. -/
inductive ClaimPoint
  | entered (call : ClaimCall)
  | timed (call : ClaimCall) (time : Nat)
  | counted (call : ClaimCall) (time : Nat) (consumed : List String)
  | scanning (call : ClaimCall) (time : Nat) (consumed : List String) (read : Nat) (candidates : List Row)
  | selected (call : ClaimCall) (consumed : List String) (read : Nat) (row : Row)
  | marking (call : ClaimCall) (read : Nat) (row : Row) (attempts : Nat)
  | marked (call : ClaimCall) (row : Row)

structure Process where
  world : World
  inside : Option (Nat × ClaimPoint)
  marks : List (Ranking.Marked Row)
  returned : List Row

def Process.start (w : World) : Process := ⟨w,none,[],[]⟩

def claimTombstone (call : ClaimCall) (row : Row) : Fields :=
  tombstone row.eventSha256 call.chapterId call.actorAgentId "unknown"

inductive Move
  | call (thread : Nat) (call : ClaimCall)
  | clock | tombstones | candidates | pass | select | raises | exhausted | refuse | proceed
  | markFails (ticks : Bool) | markRaises | mark | giveUp | enter | abandon
  | discard (sha : String)
  | append (fields : Fields)
  | tick
  | crash (signingKey : Option String)

inductive Step (env : Env) : Process → Move → Process → Prop
  | call {p : Process} (thread : Nat) (call : ClaimCall) (free : p.inside = none) :
      Step env p (.call thread call) { p with inside := some (thread,.entered call) }
  | clock {p : Process} {t : Nat} {call : ClaimCall} (here : p.inside = some (t,.entered call)) :
      Step env p .clock { p with
        world := { p.world with reads := p.world.reads+1 }
        inside := some (t,.timed call (env.clock p.world.reads)) }
  | tombstones {p : Process} {t : Nat} {call : ClaimCall} {time : Nat} (here : p.inside = some (t,.timed call time)) :
      Step env p .tombstones { p with inside := some (t,.counted call time (p.world.consumedApprovalShas env)) }
  | candidates {p : Process} {t : Nat} {call : ClaimCall} {time : Nat} {consumed : List String}
      (here : p.inside = some (t,.counted call time consumed)) :
      Step env p .candidates { p with inside := some (t,.scanning call time consumed p.world.rows.length
        (p.world.listEvents env "consent.approved" 50)) }
  | pass {p : Process} {t : Nat} {call : ClaimCall} {time : Nat} {consumed : List String} {read : Nat} {row : Row}
      {rest : List Row} (here : p.inside = some (t,.scanning call time consumed read (row :: rest)))
      (skipped : p.world.examine env call.req call.chapterId time consumed row = .ok false) :
      Step env p .pass { p with inside := some (t,.scanning call time consumed read rest) }
  | select {p : Process} {t : Nat} {call : ClaimCall} {time : Nat} {consumed : List String} {read : Nat} {row : Row}
      {rest : List Row} (here : p.inside = some (t,.scanning call time consumed read (row :: rest)))
      (found : p.world.examine env call.req call.chapterId time consumed row = .ok true) :
      Step env p .select { p with inside := some (t,.selected call consumed read row) }
  | raises {p : Process} {t : Nat} {call : ClaimCall} {time : Nat} {consumed : List String} {read : Nat} {row : Row}
      {rest : List Row} (here : p.inside = some (t,.scanning call time consumed read (row :: rest))) (e : Exc)
      (raised : p.world.examine env call.req call.chapterId time consumed row = .error e) :
      Step env p .raises { p with inside := none }
  | exhausted {p : Process} {t : Nat} {call : ClaimCall} {time : Nat} {consumed : List String} {read : Nat}
      (here : p.inside = some (t,.scanning call time consumed read [])) :
      Step env p .exhausted { p with inside := none }
  | refuse {p : Process} {t : Nat} {call : ClaimCall} {consumed : List String} {read : Nat} {row : Row}
      (here : p.inside = some (t,.selected call consumed read row)) (held : row.eventSha256 ∈ p.world.inFlight) :
      Step env p .refuse { p with inside := none }
  | proceed {p : Process} {t : Nat} {call : ClaimCall} {consumed : List String} {read : Nat} {row : Row}
      (here : p.inside = some (t,.selected call consumed read row)) (free : row.eventSha256 ∉ p.world.inFlight) :
      Step env p .proceed { p with inside := some (t,.marking call read row 3) }
  | markFails {p : Process} {t : Nat} {call : ClaimCall} {read : Nat} {row : Row} {attempts : Nat}
      (here : p.inside = some (t,.marking call read row (attempts+1))) (ticks : Bool) :
      Step env p (.markFails ticks) { p with
        world := if ticks then { p.world with reads := p.world.reads+1 } else p.world
        inside := some (t,.marking call read row attempts) }
  -- the row is in the table, and what `record` does after the INSERT raised
  | markRaises {p : Process} {t : Nat} {call : ClaimCall} {read : Nat} {row : Row} {attempts : Nat}
      (here : p.inside = some (t,.marking call read row (attempts+1)))
      (fresh : p.world.holds (p.world.nextRow env (claimTombstone call row)).eventSha256 = false) :
      Step env p .markRaises { p with
        world := p.world.insert env (p.world.nextRow env (claimTombstone call row))
        inside := some (t,.marking call read row attempts) }
  | mark {p : Process} {t : Nat} {call : ClaimCall} {read : Nat} {row : Row} {attempts : Nat}
      (here : p.inside = some (t,.marking call read row (attempts+1)))
      (fresh : p.world.holds (p.world.nextRow env (claimTombstone call row)).eventSha256 = false) :
      Step env p .mark { p with
        world := p.world.insert env (p.world.nextRow env (claimTombstone call row))
        inside := some (t,.marked call row)
        marks := p.marks ++ [⟨row,p.world.nextRow env (claimTombstone call row),read⟩] }
  | giveUp {p : Process} {t : Nat} {call : ClaimCall} {read : Nat} {row : Row}
      (here : p.inside = some (t,.marking call read row 0)) : Step env p .giveUp { p with inside := none }
  | enter {p : Process} {t : Nat} {call : ClaimCall} {row : Row} (here : p.inside = some (t,.marked call row)) :
      Step env p .enter { p with
        world := p.world.enter row.eventSha256
        inside := none
        returned := p.returned ++ [row] }
  -- an exception no handler of `claim_approval` catches, at any point
  | abandon {p : Process} : Step env p .abandon { p with inside := none }
  | discard {p : Process} (sha : String) : Step env p (.discard sha) { p with world := p.world.discard sha }
  | append {p : Process} (fields : Fields)
      (fresh : p.world.holds (p.world.nextRow env fields).eventSha256 = false) :
      Step env p (.append fields) { p with world := p.world.insert env (p.world.nextRow env fields) }
  | tick {p : Process} : Step env p .tick { p with world := { p.world with reads := p.world.reads+1 } }
  | crash {p : Process} (signingKey : Option String) :
      Step env p (.crash signingKey) { p with
        world := { p.world with inFlight := [], signingKey := signingKey }
        inside := none }

def Careful (env : Env) (p : Process) : Move → Prop
  | .discard sha => ∀ t call consumed read row, p.inside = some (t,.selected call consumed read row) →
      row.eventSha256 = sha → sha ∉ p.world.inFlight
  | .tombstones => 50 < foreign env p.world p.marks →
      Spent env p.world p.marks (p.world.consumedApprovalShas env)
  | _ => True

inductive Reached (env : Env) (allowed : Process → Move → Prop) (w : World) : Process → Prop
  | start : Reached env allowed w (.start w)
  | step {p p' : Process} {move : Move} (before : Reached env allowed w p) (ok : allowed p move)
      (step : Step env p move p') : Reached env allowed w p'

def PointOk (env : Env) (p : Process) : ClaimPoint → Prop
  | .entered _ | .timed _ _ => True
  | .counted _ _ consumed => Spent env p.world p.marks consumed
  | .scanning _ _ consumed read candidates => (∀ x ∈ p.marks, x.mark.id ≤ read) ∧ ∀ row ∈ candidates,
      Shown env p.world read row ∧ (row ∈ p.marks.map Ranking.Marked.target → row.eventSha256 ∈ consumed)
  | .selected _ _ read row => (∀ x ∈ p.marks, x.mark.id ≤ read) ∧ Shown env p.world read row ∧
      row.eventSha256 ≠ "" ∧ (row ∈ p.marks.map Ranking.Marked.target → row.eventSha256 ∈ p.world.inFlight)
  | .marking _ read row _ => (∀ x ∈ p.marks, x.mark.id ≤ read) ∧ Shown env p.world read row ∧
      row.eventSha256 ≠ "" ∧ row ∉ p.marks.map Ranking.Marked.target
  | .marked _ row => row ∈ p.marks.map Ranking.Marked.target ∧ row ∉ p.returned

structure Consistent (env : Env) (p : Process) : Prop where
  claims : Claims env p.world p.marks
  point : ∀ t point, p.inside = some (t,point) → PointOk env p point
  returned : ∀ row ∈ p.returned, row ∈ p.marks.map Ranking.Marked.target
  once : p.returned.Nodup

theorem PointOk.append {env : Env} {p : Process} (fields : Fields) (point : ClaimPoint) (ok : PointOk env p point) :
    PointOk env { p with world := p.world.insert env (p.world.nextRow env fields) } point := by
  cases point with
  | entered | timed => trivial
  | counted call time consumed => exact Spent.append ok fields
  | scanning call time consumed read candidates =>
    exact ⟨ok.1,fun row member => ⟨(ok.2 row member).1.append fields,(ok.2 row member).2⟩⟩
  | selected call consumed read row => exact ⟨ok.1,ok.2.1.append fields,ok.2.2⟩
  | marking call read row attempts => exact ⟨ok.1,ok.2.1.append fields,ok.2.2⟩
  | marked call row => exact ok

theorem PointOk.elsewhere {env : Env} {p : Process} (w : World) (rows : w.rows = p.world.rows) (point : ClaimPoint)
    (flight : ∀ call consumed read row, point = .selected call consumed read row →
      row.eventSha256 ∈ p.world.inFlight → row.eventSha256 ∈ w.inFlight) (ok : PointOk env p point) :
    PointOk env { p with world := w } point := by
  have shown : ∀ read row, Shown env p.world read row → Shown env w read row := by
    intro read row premise
    obtain ⟨listed,approval,early,bound,few⟩ := premise
    rw [← rows] at listed bound few
    exact ⟨listed,approval,early,bound,few⟩
  cases point with
  | entered | timed => trivial
  | counted call time consumed =>
    intro x member few
    rw [rows] at few
    exact ok x member few
  | scanning call time consumed read candidates =>
    exact ⟨ok.1,fun row member => ⟨shown _ _ (ok.2 row member).1,(ok.2 row member).2⟩⟩
  | selected call consumed read row =>
    exact ⟨ok.1,shown _ _ ok.2.1,ok.2.2.1,fun claimed => flight _ _ _ _ rfl (ok.2.2.2 claimed)⟩
  | marking call read row attempts => exact ⟨ok.1,shown _ _ ok.2.1,ok.2.2⟩
  | marked call row => exact ok

theorem Consistent.move {env : Env} {p : Process} (consistent : Consistent env p) (w : World)
    (claims : Claims env w p.marks) {inside : Option (Nat × ClaimPoint)}
    (point : ∀ t point, inside = some (t,point) → PointOk env { p with world := w, inside := inside } point) :
    Consistent env { p with world := w, inside := inside } :=
  ⟨claims,point,consistent.returned,consistent.once⟩

theorem Consistent.leave {env : Env} {p : Process} (consistent : Consistent env p) :
    Consistent env { p with inside := none } :=
  consistent.move p.world consistent.claims (by intro t point absent; cases absent)

theorem Consistent.goOn {env : Env} {p : Process} (consistent : Consistent env p) (w : World)
    (claims : Claims env w p.marks) {t : Nat} {point : ClaimPoint}
    (ok : PointOk env { p with world := w, inside := some (t,point) } point) :
    Consistent env { p with world := w, inside := some (t,point) } := by
  refine consistent.move w claims ?_
  intro t point here
  cases here
  exact ok

theorem Consistent.mark {env : Env} (steady : Monotone env.clock) {p : Process} (consistent : Consistent env p)
    {t : Nat} {call : ClaimCall} {read : Nat} {row : Row} {attempts : Nat}
    (here : p.inside = some (t,.marking call read row attempts))
    (fresh : p.world.holds (p.world.nextRow env (claimTombstone call row)).eventSha256 = false) :
    Consistent env { p with
      world := p.world.insert env (p.world.nextRow env (claimTombstone call row))
      inside := some (t,.marked call row)
      marks := p.marks ++ [⟨row,p.world.nextRow env (claimTombstone call row),read⟩] } := by
  obtain ⟨after,shown,named,new⟩ := consistent.point _ _ here
  refine ⟨consistent.claims.claim steady shown after new named _ _ _ fresh,?_,?_,consistent.once⟩
  · intro t point here
    cases here
    exact ⟨by simp,fun again => new (consistent.returned row again)⟩
  · intro row member
    rw [List.map_append]
    exact List.mem_append_left _ (consistent.returned row member)

theorem Consistent.enter {env : Env} {p : Process} (consistent : Consistent env p) {t : Nat} {call : ClaimCall}
    {row : Row} (here : p.inside = some (t,.marked call row)) : Consistent env { p with
      world := p.world.enter row.eventSha256
      inside := none
      returned := p.returned ++ [row] } := by
  obtain ⟨claimed,new⟩ := consistent.point _ _ here
  refine ⟨consistent.claims.congr rfl rfl,(by intro t point absent; cases absent),?_,?_⟩
  · intro other member
    rcases List.mem_append.mp member with old | single
    · exact consistent.returned other old
    · cases List.mem_singleton.mp single
      exact claimed
  · rw [List.nodup_append]
    refine ⟨consistent.once,by simp,?_⟩
    intro a old b single same
    cases List.mem_singleton.mp single
    exact new (same ▸ old)

theorem consistent_step {env : Env} (steady : Monotone env.clock) {p p' : Process} {move : Move}
    (consistent : Consistent env p) (careful : Careful env p move) (step : Step env p move p') :
    Consistent env p' := by
  cases step with
  | call thread call free => exact consistent.goOn p.world consistent.claims trivial
  | clock here => exact consistent.goOn _ (consistent.claims.tick steady) trivial
  | tombstones here =>
    apply consistent.goOn p.world consistent.claims
    exact (Nat.lt_or_ge 50 (foreign env p.world p.marks)).elim careful consistent.claims.spent
  | @candidates t call time consumed here =>
    have spent : Spent env p.world p.marks consumed := consistent.point _ _ here
    apply consistent.goOn p.world consistent.claims
    refine ⟨fun x member => consistent.claims.ordered.ids _ (consistent.claims.marking.within x member).2,?_⟩
    intro row listed
    obtain ⟨shown,few⟩ := shown_of_listed consistent.claims.ordered row listed
    refine ⟨shown,?_⟩
    intro claimed
    obtain ⟨x,member,rfl⟩ := List.mem_map.mp claimed
    exact spent x member few
  | pass here skipped =>
    have ok := consistent.point _ _ here
    apply consistent.goOn p.world consistent.claims
    exact ⟨ok.1,fun row member => ok.2 row (List.mem_cons_of_mem _ member)⟩
  | select here found =>
    have ok := consistent.point _ _ here
    obtain ⟨_,named,admitted,_⟩ := examine_true found
    have own := ok.2 _ (List.mem_cons_self ..)
    apply consistent.goOn p.world consistent.claims
    exact ⟨ok.1,own.1,named,fun claimed => admitted (own.2 claimed)⟩
  | raises | exhausted | refuse | giveUp | abandon => exact consistent.leave
  | proceed here free =>
    have ok := consistent.point _ _ here
    apply consistent.goOn p.world consistent.claims
    exact ⟨ok.1,ok.2.1,ok.2.2.1,fun claimed => free (ok.2.2.2 claimed)⟩
  | @markFails t call read row attempts here ticks =>
    have ok := consistent.point _ _ here
    cases ticks with
    | false => exact consistent.goOn p.world consistent.claims ok
    | true =>
      apply consistent.goOn _ (consistent.claims.tick steady)
      exact PointOk.elsewhere { p.world with reads := p.world.reads+1 } rfl (.marking call read row attempts)
        (by simp) ok
  | @markRaises t call read row attempts here fresh =>
    have ok := consistent.point _ _ here
    apply consistent.goOn _ (consistent.claims.append steady _ fresh)
    exact PointOk.append _ (.marking call read row attempts) ok
  | mark here fresh => exact consistent.mark steady here fresh
  | enter here => exact consistent.enter here
  | discard sha =>
    refine consistent.move (p.world.discard sha) (consistent.claims.congr rfl rfl) ?_
    intro t point here
    refine PointOk.elsewhere (p := p) (p.world.discard sha) rfl point ?_ (consistent.point t point here)
    intro call consumed read row same held
    subst same
    have other : row.eventSha256 ≠ sha := fun equal => careful t call consumed read row here equal (equal ▸ held)
    simpa [World.discard,other] using held
  | append fields fresh =>
    refine consistent.move _ (consistent.claims.append steady fields fresh) ?_
    intro t point here
    exact PointOk.append fields point (consistent.point t point here)
  | tick =>
    refine consistent.move _ (consistent.claims.tick steady) ?_
    intro t point here
    exact PointOk.elsewhere (p := p) { p.world with reads := p.world.reads+1 } rfl point (by simp)
      (consistent.point t point here)
  | crash signingKey =>
    refine consistent.move { p.world with inFlight := [], signingKey := signingKey }
      (consistent.claims.congr rfl rfl) ?_
    intro t point absent
    cases absent

theorem consistent_reached {env : Env} (steady : Monotone env.clock) {w : World} (empty : w.rows = []) {p : Process}
    (run : Reached env (Careful env) w p) : Consistent env p := by
  induction run with
  | start =>
    exact ⟨.start env w empty,(by intro t point absent; cases absent),by simp [Process.start],by simp [Process.start]⟩
  | step _ ok step ih => exact consistent_step steady ih ok step

/-- In a careful run no approval is returned twice, whatever threads and crashes do. -/
theorem claim_returns_once (env : Env) (steady : Monotone env.clock) (w : World) (empty : w.rows = []) (p : Process)
    (run : Reached env (Careful env) w p) :
    (p.returned.map Row.id).Nodup ∧ ∀ row ∈ p.returned, row ∈ p.world.rows ∧ isApproval row = true := by
  have consistent := consistent_reached steady empty run
  have listed : ∀ row ∈ p.returned, row ∈ p.world.rows ∧ isApproval row = true := by
    intro row member
    obtain ⟨x,claimed,rfl⟩ := List.mem_map.mp (consistent.returned row member)
    exact ⟨(consistent.claims.marking.within x claimed).1,consistent.claims.marking.sort x claimed⟩
  refine ⟨?_,listed⟩
  refine List.Nodup.map_on ?_ consistent.once
  intro a first b second same
  exact consistent.claims.ordered.log.serial_inj (ranking env) (listed a first).1 (listed b second).1 same

def Process.fire (env : Env) (p : Process) (move : Move) : Option Process :=
  match move, p.inside with
  | .call thread call, none => some { p with inside := some (thread,.entered call) }
  | .clock, some (t,.entered call) => some { p with
      world := { p.world with reads := p.world.reads+1 }
      inside := some (t,.timed call (env.clock p.world.reads)) }
  | .tombstones, some (t,.timed call time) =>
    some { p with inside := some (t,.counted call time (p.world.consumedApprovalShas env)) }
  | .candidates, some (t,.counted call time consumed) =>
    some { p with inside := some (t,.scanning call time consumed p.world.rows.length
      (p.world.listEvents env "consent.approved" 50)) }
  | .select, some (t,.scanning call time consumed read (row :: _)) =>
    match p.world.examine env call.req call.chapterId time consumed row with
    | .ok true => some { p with inside := some (t,.selected call consumed read row) }
    | _ => none
  | .proceed, some (t,.selected call _ read row) =>
    if row.eventSha256 ∈ p.world.inFlight then none else some { p with inside := some (t,.marking call read row 3) }
  | .mark, some (t,.marking call read row (_+1)) =>
    if p.world.holds (p.world.nextRow env (claimTombstone call row)).eventSha256 then none
    else some { p with
      world := p.world.insert env (p.world.nextRow env (claimTombstone call row))
      inside := some (t,.marked call row)
      marks := p.marks ++ [⟨row,p.world.nextRow env (claimTombstone call row),read⟩] }
  | .enter, some (_,.marked _ row) => some { p with
      world := p.world.enter row.eventSha256
      inside := none
      returned := p.returned ++ [row] }
  | .discard sha, _ => some { p with world := p.world.discard sha }
  | .append fields, _ =>
    if p.world.holds (p.world.nextRow env fields).eventSha256 then none
    else some { p with world := p.world.insert env (p.world.nextRow env fields) }
  | .tick, _ => some { p with world := { p.world with reads := p.world.reads+1 } }
  | _, _ => none

theorem fire_step {env : Env} {p p' : Process} {move : Move} (fired : p.fire env move = some p') :
    Step env p move p' := by
  unfold Process.fire at fired
  split at fired
  next here => cases fired; exact .call _ _ here
  next here => cases fired; exact .clock here
  next here => cases fired; exact .tombstones here
  next here => cases fired; exact .candidates here
  next here =>
    split at fired
    next found => cases fired; exact .select here found
    next => cases fired
  next here =>
    split at fired
    next => cases fired
    next free => cases fired; exact .proceed here free
  next here =>
    split at fired
    next => cases fired
    next fresh => cases fired; exact .mark here (by simpa using fresh)
  next here => cases fired; exact .enter here
  next => cases fired; exact .discard _
  next =>
    split at fired
    next => cases fired
    next fresh => cases fired; exact .append _ (by simpa using fresh)
  next => cases fired; exact .tick
  next => cases fired

def Process.run (env : Env) : List Move → Process → Option Process
  | [], p => some p
  | move :: rest, p => (p.fire env move).bind (Process.run env rest)

theorem run_reached {env : Env} {allowed : Process → Move → Prop} {w : World} (moves : List Move)
    (ok : ∀ p, ∀ move ∈ moves, allowed p move) : ∀ {p p' : Process}, Reached env allowed w p →
    Process.run env moves p = some p' → Reached env allowed w p' := by
  induction moves with
  | nil =>
    intro p p' before ran
    cases ran
    exact before
  | cons move rest ih =>
    intro p p' before ran
    obtain ⟨next,fired,ran⟩ := Option.bind_eq_some_iff.mp ran
    refine ih (fun q other member => ok q other (by simp [member])) (before.step ?_ (fire_step fired)) ran
    exact ok p move (by simp)

def clickMoves : List Move :=
  [.append (decisionFields sampleRequest ⟨.prompt,"user_confirmation_required",none⟩ "l" none),.tick,
    .append (approvalFields (sampleEnv []) sampleRequest "l" "a" none 300000001)]

def selectMoves (thread : Nat) : List Move :=
  [.call thread ⟨sampleRequest,"l",none⟩,.clock,.tombstones,.candidates,.select]

def raceMoves : List Move :=
  clickMoves ++ selectMoves 1 ++ [.proceed,.mark,.enter] ++ selectMoves 2 ++ [.discard "aa",.proceed,.mark,.enter]

theorem claim_returned_twice :
    ∃ p, Reached (sampleEnv []) (fun _ _ => True) World.fresh p ∧ p.returned.map Row.id = [2,2] := by
  have ran : ((Process.run (sampleEnv []) raceMoves (.start World.fresh)).map fun p => p.returned.map Row.id) =
      some [2,2] := by decide +kernel
  obtain ⟨p,run,ids⟩ := Option.map_eq_some_iff.mp ran
  exact ⟨p,run_reached raceMoves (fun _ _ _ => trivial) .start run,ids⟩

theorem claim_returns_once_sample :
    ∃ p, Reached (sampleEnv []) (Careful (sampleEnv [])) World.fresh p ∧ p.returned.map Row.id = [2] ∧
      (p.returned.map Row.id).Nodup := by
  let before := clickMoves ++ [.call 1 ⟨sampleRequest,"l",none⟩,.clock]
  let rest : List Move := [.candidates,.select,.proceed,.mark,.enter]
  have ran : ((Process.run (sampleEnv []) before (.start World.fresh)).map fun p =>
      (decide (foreign (sampleEnv []) p.world p.marks ≤ 50),
        ((p.fire (sampleEnv []) .tombstones).bind (Process.run (sampleEnv []) rest)).map fun p =>
          p.returned.map Row.id)) = some (true,some [2]) := by decide +kernel
  obtain ⟨p,first,both⟩ := Option.map_eq_some_iff.mp ran
  obtain ⟨few,ran⟩ := Prod.mk.inj both
  obtain ⟨p',second,ids⟩ := Option.map_eq_some_iff.mp ran
  obtain ⟨q,fired,second⟩ := Option.bind_eq_some_iff.mp second
  have reached : Reached (sampleEnv []) (Careful (sampleEnv [])) World.fresh p :=
    run_reached before (by simp [before,clickMoves,Careful]) .start first
  have careful : Careful (sampleEnv []) p .tombstones :=
    fun many => absurd (of_decide_eq_true few) (Nat.not_le.mpr many)
  have read : Reached (sampleEnv []) (Careful (sampleEnv [])) World.fresh q :=
    @Reached.step _ _ _ _ _ .tombstones reached careful (fire_step fired)
  have returned := run_reached rest (by simp [rest,Careful]) read second
  exact ⟨p',returned,ids,
    (claim_returns_once (sampleEnv []) (sampleEnv_steady []) World.fresh rfl p' returned).1⟩

/-! The gate's own operations are runs of this machine. -/

def Process.Runs (env : Env) : Process → Process → Prop := Relation.ReflTransGen fun p p' => ∃ move, Step env p move p'

theorem record_runs (env : Env) (fields : Fields) (p : Process) :
    Process.Runs env p { p with world := Effect.final (record env fields p.world) } := by
  rcases record_cases env fields p.world with ⟨e,run⟩ | ⟨e,run⟩ | ⟨fresh,run⟩
  · rw [run]
    exact .refl
  · rw [run]
    exact .single ⟨.tick,.tick⟩
  · rw [run]
    exact .single ⟨.append fields,.append fields fresh⟩

section Simulation
variable (env : Env) (call : ClaimCall)

theorem scan_runs (t : Nat) (p : Process) (time : Nat) (consumed : List String) (read : Nat) (candidates : List Row) :
    Process.Runs env { p with inside := some (t,.scanning call time consumed read candidates) }
      { p with inside := match p.world.scanApprovals env call.req call.chapterId time consumed candidates with
        | .ok (some row) => some (t,.selected call consumed read row)
        | _ => none } := by
  induction candidates with
  | nil => exact .single ⟨.exhausted,.exhausted rfl⟩
  | cons row rest ih =>
    cases examined : p.world.examine env call.req call.chapterId time consumed row with
    | error e =>
      simp only [World.scanApprovals,examined,bind,Except.bind]
      exact .single ⟨.raises,.raises rfl e examined⟩
    | ok found =>
      cases found with
      | false =>
        simp only [World.scanApprovals,examined,bind,Except.bind]
        exact Relation.ReflTransGen.head ⟨.pass,.pass rfl examined⟩ ih
      | true =>
        simp only [World.scanApprovals,examined,bind,Except.bind]
        exact .single ⟨.select,.select rfl examined⟩

theorem attempt_runs (t read : Nat) (row : Row) (attempts : Nat) : ∀ (p : Process) (last : Raised), ∃ p',
    Process.Runs env { p with inside := some (t,.marking call read row attempts) } p' ∧
      p'.returned = p.returned ∧
      p'.world = Effect.final (attemptMark env row.eventSha256 call.chapterId call.actorAgentId attempts last p.world) ∧
      p'.inside = match attemptMark env row.eventSha256 call.chapterId call.actorAgentId attempts last p.world with
        | .ok _ _ => some (t,.marked call row)
        | .error _ _ => none := by
  induction attempts with
  | zero =>
    intro p last
    exact ⟨_,.single ⟨.giveUp,.giveUp rfl⟩,rfl,rfl,rfl⟩
  | succ attempts ih =>
    intro p last
    have same : tombstone row.eventSha256 call.chapterId call.actorAgentId "unknown" = claimTombstone call row := rfl
    rw [attemptMark_succ,same]
    rcases record_cases env (claimTombstone call row) p.world with ⟨e,run⟩ | ⟨e,run⟩ | ⟨fresh,run⟩
    · rw [run]
      obtain ⟨p',runs,rest⟩ := ih p (.exception e)
      exact ⟨p',.head ⟨.markFails false,.markFails rfl false⟩ runs,rest⟩
    · rw [run]
      obtain ⟨p',runs,rest⟩ := ih { p with world := { p.world with reads := p.world.reads+1 } } (.exception e)
      exact ⟨p',.head ⟨.markFails true,.markFails rfl true⟩ runs,rest⟩
    · rw [run]
      exact ⟨_,.single ⟨.mark,.mark rfl fresh⟩,rfl,rfl,rfl⟩

/-- `claim_approval` run without interference is a run of the machine. -/
theorem claimApproval_runs (t : Nat) (p : Process) (free : p.inside = none) : ∃ p', Process.Runs env p p' ∧
    p'.inside = none ∧
    p'.world = Effect.final (claimApproval env call.req call.chapterId call.actorAgentId p.world) ∧
    p'.returned = p.returned ++
      match claimApproval env call.req call.chapterId call.actorAgentId p.world with
      | .ok (some row) _ => [row]
      | _ => [] := by
  rw [claimApproval_eq,findValidApproval_eq]
  dsimp only
  set w : World := { p.world with reads := p.world.reads+1 }
  set time := env.clock p.world.reads
  set consumed := w.consumedApprovalShas env
  set candidates := w.listEvents env "consent.approved" 50
  have first : Process.Runs env p
      { p with world := w, inside := some (t,.scanning call time consumed w.rows.length candidates) } :=
    (((Relation.ReflTransGen.single ⟨_,.call t call free⟩).tail ⟨_,.clock rfl⟩).tail ⟨_,.tombstones rfl⟩).tail
      ⟨_,.candidates rfl⟩
  have second := first.trans (scan_runs env call t { p with world := w } time consumed w.rows.length candidates)
  cases scanned : w.scanApprovals env call.req call.chapterId time consumed candidates with
  | error e =>
    simp only [scanned] at second
    exact ⟨_,second,rfl,rfl,by simp⟩
  | ok found =>
    cases found with
    | none =>
      simp only [scanned] at second
      exact ⟨_,second,rfl,rfl,by simp⟩
    | some row =>
      simp only [scanned] at second
      by_cases held : row.eventSha256 ∈ w.inFlight
      · simp only [held,if_true]
        exact ⟨_,second.tail ⟨.refuse,.refuse rfl held⟩,rfl,rfl,by simp⟩
      · simp only [held,if_false,consume_eq]
        obtain ⟨q,marking,returned,world,point⟩ := attempt_runs env call t w.rows.length row 3
            { p with world := w } .interrupt
        have third := (second.tail ⟨.proceed,.proceed rfl held⟩).trans marking
        cases attempted : attemptMark env row.eventSha256 call.chapterId call.actorAgentId 3 .interrupt w with
        | error e w' =>
          rw [attempted] at world point
          exact ⟨q,third,point,world,by simp [returned]⟩
        | ok _ w' =>
          rw [attempted] at world point
          refine ⟨_,third.tail ⟨.enter,.enter point⟩,rfl,?_,?_⟩
          · simp [world]
          · simp [returned]

theorem sampleClaim_runs : ∃ p', Process.Runs (sampleEnv []) (.start World.fresh) p' ∧ p'.inside = none := by
  obtain ⟨p',runs,idle,_⟩ := claimApproval_runs (sampleEnv []) ⟨sampleRequest,"l",none⟩ 0 (.start World.fresh) rfl
  exact ⟨p',runs,idle⟩

end Simulation
end Orrery.Consent
