import Orrery.Federation.FeedLog

/-! Appends to the federation feed side by side: the seqs have no gap in any run, and the
entries form one chain that only grows as long as every append follows the head it read. -/
namespace Orrery.Federation
open Foundation

structure AppendCall where
  did : String
  envelope : Json
  issuedAt : String

section Programs
variable (signer : FeedSigner)

def getHead (did : String) : FeedProgram (Option (List FeedEntry)) := .call (.getHead did) .done
def postEntry (entry : FeedEntry) : FeedProgram (Option (List FeedEntry)) := .call (.postEntry entry) .done

def unpersisted : Exc :=
  .other "RuntimeError" "federation feed append was not persisted — refusing to advance an unstored chain"

def afterHead (call : AppendCall) (rows : Option (List FeedEntry)) : FeedProgram (Except Exc FeedEntry) :=
  match signer.publish call.did (rows.getD []).head? call.envelope call.issuedAt with
  | .error e => return .error e
  | .ok entry => do
    let written ← postEntry entry
    return if written.isNone then .error unpersisted else .ok entry

def appendEnvelope (call : AppendCall) : FeedProgram (Except Exc FeedEntry) := do
  let rows ← getHead call.did
  afterHead signer call rows

end Programs

abbrev FeedService := Pool AppendCall FeedAct FeedAct.Answer (Except Exc FeedEntry) FeedTable

def FeedService.opened : FeedService := ⟨Table.empty,∅,[]⟩

abbrev FeedService.step (signer : FeedSigner) (service : FeedService) : Turn AppendCall FeedLanding →
    Option FeedService :=
  Pool.step feedExec (appendEnvelope signer) service

def Current (signer : FeedSigner) (service : FeedService) : Turn AppendCall FeedLanding → Prop
  | .start .. => True
  | .advance id landing => ∀ call entry resume, service.live.lookup id = some ⟨call,.call (.postEntry entry) resume⟩ →
      landing.lands = true →
      signer.publish call.did (FeedTable.head service.store call.did) call.envelope call.issuedAt = .ok entry

def Consecutive (table : FeedTable) (did : String) (length : ℕ) : Prop :=
  ∀ seq, (table.row (did,seq)).isSome = true ↔ seq < length

def hashBefore (table : FeedTable) (did : String) : ℕ → Option String
  | 0 => none
  | before+1 => (table.row (did,before)).map FeedEntry.entryHash

structure Chained (table : FeedTable) (did : String) (length : ℕ) : Prop where
  consecutive : Consecutive table did length
  linked : ∀ seq entry, table.row (did,seq) = some entry → entry.prevHash = hashBefore table did seq

section Heads
variable {table : FeedTable} {did : String} {length : ℕ} {entry : FeedEntry}

theorem mem_ofFeed : entry ∈ FeedTable.ofFeed table did ↔ table.row (did,entry.seq) = some entry := by
  rw [FeedTable.ofFeed,List.mem_filter,Table.row_some,decide_eq_true_eq,FeedEntry.key,Prod.mk.injEq,and_iff_left rfl]

theorem head_consecutive (consecutive : Consecutive table did length) :
    FeedTable.head table did = match length with | 0 => none | last+1 => table.row (did,last) := by
  have below (entry : FeedEntry) (inside : entry ∈ FeedTable.ofFeed table did) : entry.seq < length := by
    rw [← consecutive,mem_ofFeed.mp inside]
    rfl
  cases length with
  | zero =>
    have empty : FeedTable.ofFeed table did = [] := by
      rw [List.eq_nil_iff_forall_not_mem]
      exact fun entry inside => Nat.not_lt_zero _ (below entry inside)
    rw [FeedTable.head,empty]
    rfl
  | succ last =>
    obtain ⟨entry,found⟩ := Option.isSome_iff_exists.mp ((consecutive last).mpr (Nat.lt_succ_self last))
    have own : entry.seq = last := congrArg Prod.snd (Table.row_key found)
    have inside : entry ∈ FeedTable.ofFeed table did := by
      rw [mem_ofFeed,own]
      exact found
    cases head : FeedTable.head table did with
    | none =>
      rw [FeedTable.head,List.argmax_eq_none] at head
      rw [head] at inside
      exact absurd inside List.not_mem_nil
    | some top =>
      have listed : top ∈ FeedTable.ofFeed table did := List.argmax_mem head
      have highest : entry.seq ≤ top.seq := List.le_of_mem_argmax inside head
      have same : top.seq = last := by
        have less := below top listed
        omega
      rw [← mem_ofFeed.mp listed,same]

end Heads

section Chains
variable {signer : FeedSigner} {table : FeedTable} {landing : FeedLanding}

def AllChained (table : FeedTable) : Prop := ∀ did, ∃ length, Chained table did length

def Grows (table table' : FeedTable) : Prop := ∀ key entry, table.row key = some entry → table'.row key = some entry

theorem Chained.follows {call : AppendCall} {entry : FeedEntry} {length : ℕ} (chained : Chained table call.did length)
    (signed : signer.publish call.did (FeedTable.head table call.did) call.envelope call.issuedAt = .ok entry) :
    entry.key = (call.did,length) ∧ entry.prevHash = hashBefore table call.did length := by
  have owned := signer.owned _ _ _ _ _ signed
  rw [head_consecutive chained.consecutive] at signed
  cases length with
  | zero =>
    obtain ⟨seq,prevHash⟩ := signer.first _ _ _ _ signed
    exact ⟨Prod.ext owned seq,prevHash⟩
  | succ last =>
    obtain ⟨tip,found⟩ := Option.isSome_iff_exists.mp ((chained.consecutive last).mpr (Nat.lt_succ_self last))
    dsimp only at signed
    rw [found] at signed
    rw [hashBefore,found]
    obtain ⟨seq,prevHash⟩ := signer.next _ _ _ _ _ signed
    have same : tip.seq = last := congrArg Prod.snd (Table.row_key found)
    rw [same] at seq
    exact ⟨Prod.ext owned seq,prevHash⟩

theorem hashBefore_put {entry : FeedEntry} {did : String} {seq : ℕ}
    (apart : ∀ before, seq = before+1 → (did,before) ≠ entry.key) :
    hashBefore (table.put entry) did seq = hashBefore table did seq := by
  cases seq with
  | zero => rfl
  | succ before => rw [hashBefore,Table.row_put,if_neg (apart before rfl),hashBefore]

theorem Chained.put {entry : FeedEntry} {did : String} {length : ℕ} (chained : Chained table did length)
    (own : entry.key = (did,length)) (prevHash : entry.prevHash = hashBefore table did length) :
    Chained (table.put entry) did (length+1) := by
  constructor
  · intro seq
    rw [Table.row_put,own]
    by_cases here : seq = length
    · rw [here,if_pos rfl]
      simp
    · rw [if_neg (by simpa using here),chained.consecutive seq]
      omega
  · intro seq found listed
    rw [Table.row_put,own] at listed
    by_cases here : seq = length
    · rw [here,if_pos rfl] at listed
      obtain rfl := Option.some.inj listed
      rw [hashBefore_put,here]
      · exact prevHash
      · intro before same
        rw [own]
        simp
        omega
    · rw [if_neg (by simpa using here)] at listed
      have less : seq < length := by
        rw [← chained.consecutive,listed]
        rfl
      rw [hashBefore_put]
      · exact chained.linked seq found listed
      · intro before same
        rw [own]
        simp
        omega

theorem Chained.put_other {entry : FeedEntry} {did : String} {length : ℕ} (chained : Chained table did length)
    (other : entry.feedId ≠ did) : Chained (table.put entry) did length := by
  have apart (seq : ℕ) : (did,seq) ≠ entry.key := fun same => other (congrArg Prod.fst same).symm
  constructor
  · intro seq
    rw [Table.row_put,if_neg (apart seq)]
    exact chained.consecutive seq
  · intro seq found listed
    rw [Table.row_put,if_neg (apart seq)] at listed
    rw [hashBefore_put fun before _ => apart before]
    exact chained.linked seq found listed

theorem AllChained.answered {act : FeedAct} (all : AllChained table)
    (current : ∀ entry, act = .postEntry entry → landing.lands = true →
      ∃ call : AppendCall, signer.publish call.did (FeedTable.head table call.did) call.envelope call.issuedAt =
        .ok entry) :
    AllChained (feedExec landing act table).2 ∧ Grows table (feedExec landing act table).2 := by
  have unchanged {table' : FeedTable} (same : table' = table) : AllChained table' ∧ Grows table table' := by
    rw [same]
    exact ⟨all,fun _ _ found => found⟩
  cases act with
  | getHead did => exact unchanged (ite_self _)
  | getEntries did since limit => exact unchanged (ite_self _)
  | postEntry entry =>
    unfold feedExec feedAfter
    dsimp only
    split
    next lands =>
      split
      next => exact unchanged rfl
      next =>
        obtain ⟨call,signed⟩ := current entry rfl lands
        obtain ⟨length,chained⟩ := all call.did
        obtain ⟨own,prevHash⟩ := chained.follows signed
        constructor
        · intro did
          by_cases here : entry.feedId = did
          · obtain rfl : call.did = did := (congrArg Prod.fst own).symm.trans here
            exact ⟨length+1,chained.put own prevHash⟩
          · obtain ⟨length',chained'⟩ := all did
            exact ⟨length',chained'.put_other here⟩
        · intro key stored found
          rw [Table.row_put,if_neg]
          · exact found
          · rintro rfl
            have less := (chained.consecutive length).mp (by rw [← own,found]; rfl)
            exact absurd less (lt_irrefl length)
    next => exact unchanged rfl

end Chains

section Runs
variable {signer : FeedSigner} {service service' : FeedService}

theorem AllChained.step {turn : Turn AppendCall FeedLanding} (all : AllChained service.store)
    (current : Current signer service turn)
    (stepped : FeedService.step signer service turn = some service') :
    AllChained service'.store ∧ Grows service.store service'.store := by
  cases turn with
  | start id call =>
    obtain rfl := Pool.step_start stepped
    rw [Pool.settle_store]
    exact ⟨all,fun _ _ found => found⟩
  | advance id landing =>
    obtain ⟨call,act,resume,live,rfl⟩ := Pool.step_advance stepped
    rw [Pool.settle_store]
    apply AllChained.answered all
    rintro entry rfl lands
    exact ⟨call,current call entry resume live lands⟩

/-- In every run of appends in which each POST that lands follows the head that its call has
read, every feed is one chain of consecutive seqs, and a stored entry is never replaced. -/
theorem feed_append_only (signer : FeedSigner) {service : FeedService}
    (run : Runs.Reached (FeedService.step signer) (Current signer) FeedService.opened service) :
    AllChained service.store ∧ ∀ service', Runs.Reached (FeedService.step signer) (Current signer) service service' →
      Grows service.store service'.store := by
  have all : AllChained service.store := by
    apply run.invariant
    · intro did
      refine ⟨0,fun seq => ?_,fun seq entry found => ?_⟩
      · simp [FeedService.opened]
      · cases found
    · exact fun s turn s' before current stepped => (before.step current stepped).1
  refine ⟨all,fun service' further => ?_⟩
  have both : AllChained service'.store ∧ Grows service.store service'.store := by
    apply further.invariant
    · exact ⟨all,fun _ _ found => found⟩
    · intro s turn s' before current stepped
      obtain ⟨chained,grows⟩ := before.1.step current stepped
      exact ⟨chained,fun key entry found => grows key entry (before.2 key entry found)⟩
  exact both.2

end Runs

section Samples

def plainFeedEntry (did : String) (tip : Option FeedEntry) (issuedAt : String) : FeedEntry where
  seq := tip.elim 0 fun tip => tip.seq+1
  feedId := did
  prevHash := tip.map FeedEntry.entryHash
  entryHash := issuedAt
  issuedAt := issuedAt
  text := ""

def plainSigner : FeedSigner where
  publish did tip _ issuedAt := .ok (plainFeedEntry did tip issuedAt)
  owned did tip envelope issuedAt entry signed := by
    obtain rfl := Except.ok.inj signed
    rfl
  first did envelope issuedAt entry signed := by
    obtain rfl := Except.ok.inj signed
    exact ⟨rfl,rfl⟩
  next did tip envelope issuedAt entry signed := by
    obtain rfl := Except.ok.inj signed
    exact ⟨rfl,rfl⟩

def posted : FeedLanding := ⟨true,true⟩

def appendAt (issuedAt : String) : AppendCall := ⟨"did:key:acme",.obj [],issuedAt⟩

def onHead (service : FeedService) : Turn AppendCall FeedLanding → Bool
  | .start .. => true
  | .advance id _ =>
    match service.live.lookup id with
    | some ⟨call,.call (.postEntry entry) _⟩ =>
      plainFeedEntry call.did (FeedTable.head service.store call.did) call.issuedAt = entry
    | _ => true

theorem onHead_current (service : FeedService) (turn : Turn AppendCall FeedLanding)
    (checked : onHead service turn = true) :
    Current plainSigner service turn := by
  cases turn with
  | start id call => trivial
  | advance id landing =>
    intro call entry resume live _
    rw [onHead,live] at checked
    exact congrArg Except.ok (of_decide_eq_true checked)

theorem two_appended : ∃ service : FeedService, service.store.rows.length = 2 ∧ AllChained service.store := by
  have walked : ((Runs.walk (FeedService.step plainSigner) onHead [.start 0 (appendAt "1"),.advance 0 posted,
    .advance 0 posted,
      .start 1 (appendAt "2"),.advance 1 posted,.advance 1 posted] FeedService.opened).map
      fun service => service.store.rows.length) = some 2 := by
    decide +kernel
  obtain ⟨service,walked,seen⟩ := Option.map_eq_some_iff.mp walked
  exact ⟨service,seen,(feed_append_only plainSigner (Runs.reached_walk onHead_current _ .start walked)).1⟩

/-- Both appends read the empty feed, and the second takes the place of the first. -/
theorem first_overwritten : ∃ service service' : FeedService,
    Runs.Reached (FeedService.step plainSigner) Runs.Free FeedService.opened service ∧
      Runs.Reached (FeedService.step plainSigner) Runs.Free service service' ∧
        ¬ Grows service.store service'.store := by
  have walked : ((Runs.walk (FeedService.step plainSigner) (fun _ _ => true) [.start 0 (appendAt "1"),
    .start 1 (appendAt "2"),
      .advance 0 posted,.advance 1 posted,.advance 0 posted] FeedService.opened).bind fun service =>
      (Runs.walk (FeedService.step plainSigner) (fun _ _ => true) [.advance 1 posted] service).map fun service' =>
        ((service.store.row ("did:key:acme",0)).map FeedEntry.entryHash,
          (service'.store.row ("did:key:acme",0)).map FeedEntry.entryHash)) = some (some "1",some "2") := by
    decide +kernel
  obtain ⟨service,first,walked⟩ := Option.bind_eq_some_iff.mp walked
  obtain ⟨service',second,seen⟩ := Option.map_eq_some_iff.mp walked
  refine ⟨service,service',Runs.reached_walk (fun _ _ _ => trivial) _ .start first,
    Runs.reached_walk (fun _ _ _ => trivial) _ .start second,fun grows => ?_⟩
  obtain ⟨before,after⟩ := Prod.mk.inj seen
  obtain ⟨entry,found,hash⟩ := Option.map_eq_some_iff.mp before
  rw [grows _ entry found,Option.map_some,hash] at after
  exact absurd after (by decide)

end Samples

end Orrery.Federation
