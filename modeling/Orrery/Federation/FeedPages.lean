import Mathlib.Data.List.Sort
import Orrery.Federation.FeedAppends
import Orrery.Foundation.UnderWay

/-! Pages of the federation feed, read while others append to it. -/
namespace Orrery.Federation
open Foundation

def pageLimit : ℕ := 200

structure FeedPage where
  entries : List FeedEntry
  head : Option FeedEntry

structure FeedPager where
  page : List FeedEntry → Option Int → ℕ → FeedPage
  entries : ∀ entries since limit, (page entries since limit).entries =
    (entries.filter fun entry => follows since entry.seq).take limit
  head : ∀ entries since limit, (page entries since limit).head = entries.getLast?

def spliced (entries : List FeedEntry) : Option FeedEntry → List FeedEntry
  | none => entries
  | some tip => if (entries.getLast?.map FeedEntry.seq) = some tip.seq then entries else entries ++ [tip]

def getEntries (did : String) (since : Option Int) (limit : ℕ) : FeedProgram (Option (List FeedEntry)) :=
  .call (.getEntries did since limit) .done

def buildPage (pager : FeedPager) (did : String) (since : Option Int) : FeedProgram FeedPage := do
  let rows ← getEntries did since pageLimit
  let tips ← getHead did
  return pager.page (spliced (rows.getD []) (tips.getD []).head?) since pageLimit

structure Meanwhile where
  turns : List (Turn AppendCall FeedLanding)
  landing : FeedLanding

def Meanwhile.reads (meanwhile : Meanwhile) : Bool := meanwhile.landing.lands && meanwhile.landing.answers

def FeedService.others (signer : FeedSigner) (service : FeedService) (turns : List (Turn AppendCall FeedLanding)) :
    FeedService :=
  turns.foldl (fun service turn => (FeedService.step signer service turn).getD service) service

def amongAppends (signer : FeedSigner) (meanwhile : Meanwhile) (act : FeedAct) (service : FeedService) :
    act.Answer × FeedService :=
  let later := service.others signer meanwhile.turns
  (feedAnswer later.store meanwhile.landing act,later)

def feedLength (table : FeedTable) (did : String) : ℕ := (FeedTable.head table did).elim 0 fun tip => tip.seq+1

def firstAfter : Option Int → ℕ
  | none => 0
  | some cursor => (cursor+1).toNat

def Gapless (since : Option Int) (entries : List FeedEntry) : Prop :=
  entries.map FeedEntry.seq = List.range' (firstAfter since) entries.length

section Reading
variable {table : FeedTable} {did : String} {length : ℕ} {since : Option Int} {entries : List FeedEntry}

theorem follows_iff (since : Option Int) (seq : ℕ) : follows since seq = true ↔ firstAfter since ≤ seq := by
  cases since with
  | none => simp [follows,firstAfter]
  | some cursor =>
    rw [follows,firstAfter,decide_eq_true_eq]
    omega

theorem feedLength_consecutive (consecutive : Consecutive table did length) : feedLength table did = length := by
  rw [feedLength,head_consecutive consecutive]
  cases length with
  | zero => rfl
  | succ last =>
    obtain ⟨entry,found⟩ := Option.isSome_iff_exists.mp ((consecutive last).mpr (Nat.lt_succ_self last))
    have same : entry.seq = last := congrArg Prod.snd (Table.row_key found)
    dsimp only
    rw [found,← same]
    rfl

theorem ofFeed_distinct (table : FeedTable) (did : String) :
    ((FeedTable.ofFeed table did).map FeedEntry.seq).Nodup := by
  have keys : (FeedTable.ofFeed table did).map FeedEntry.key =
      ((FeedTable.ofFeed table did).map FeedEntry.seq).map (Prod.mk did) := by
    rw [List.map_map]
    apply List.map_congr_left
    intro entry inside
    have own : entry.feedId = did := of_decide_eq_true (List.mem_filter.mp inside).2
    rw [FeedEntry.key,own]
    rfl
  apply List.Nodup.of_map (Prod.mk did)
  rw [← keys]
  exact table.distinct.sublist (List.filter_sublist.map FeedEntry.key)

theorem after_perm (table : FeedTable) (did : String) (since : Option Int) : (FeedTable.after table did since).Perm
    ((FeedTable.ofFeed table did).filter fun row => follows since row.seq) := List.perm_insertionSort _ _

theorem after_increasing (table : FeedTable) (did : String) (since : Option Int) :
    ((FeedTable.after table did since).map FeedEntry.seq).Pairwise (· < ·) := by
  have distinct : ((FeedTable.after table did since).map FeedEntry.seq).Nodup := by
    rw [((after_perm table did since).map FeedEntry.seq).nodup_iff]
    exact (ofFeed_distinct table did).sublist (List.filter_sublist.map FeedEntry.seq)
  have total : Std.Total fun a b : FeedEntry => a.seq ≤ b.seq := ⟨fun a b => le_total a.seq b.seq⟩
  have trans : IsTrans FeedEntry fun a b => a.seq ≤ b.seq := ⟨fun a b c => le_trans⟩
  have sorted : (FeedTable.after table did since).Pairwise fun a b => a.seq ≤ b.seq := List.pairwise_insertionSort _ _
  exact ((List.pairwise_map.mpr sorted).and distinct).imp fun both => lt_of_le_of_ne both.1 both.2

theorem after_seqs (consecutive : Consecutive table did length) (since : Option Int) :
    (FeedTable.after table did since).map FeedEntry.seq = List.range' (firstAfter since) (length-firstAfter since) := by
  apply List.Pairwise.eq_of_mem_iff (after_increasing table did since) (List.pairwise_lt_range' ..)
  intro seq
  have listed : seq ∈ (FeedTable.after table did since).map FeedEntry.seq ↔
      (table.row (did,seq)).isSome = true ∧ firstAfter since ≤ seq := by
    rw [((after_perm table did since).map FeedEntry.seq).mem_iff,List.mem_map]
    constructor
    · rintro ⟨entry,inside,rfl⟩
      obtain ⟨own,after⟩ := List.mem_filter.mp inside
      rw [mem_ofFeed.mp own]
      exact ⟨rfl,(follows_iff since _).mp after⟩
    · rintro ⟨there,after⟩
      obtain ⟨entry,found⟩ := Option.isSome_iff_exists.mp there
      obtain rfl : entry.seq = seq := congrArg Prod.snd (Table.row_key found)
      exact ⟨entry,List.mem_filter.mpr ⟨mem_ofFeed.mpr found,(follows_iff since _).mpr after⟩,rfl⟩
  rw [listed,consecutive,List.mem_range'_1]
  omega

end Reading

section Splicing
variable {pager : FeedPager} {since : Option Int} {entries : List FeedEntry} {length : ℕ} {tip : FeedEntry}

theorem filter_gapless (gapless : Gapless since entries) : (entries.filter fun entry => follows since entry.seq) =
    entries := by
  rw [List.filter_eq_self]
  intro entry inside
  have listed : entry.seq ∈ entries.map FeedEntry.seq := List.mem_map_of_mem inside
  rw [gapless,List.mem_range'_1] at listed
  exact (follows_iff since entry.seq).mpr listed.1

theorem Gapless.take (gapless : Gapless since entries) (count : ℕ) : Gapless since (entries.take count) := by
  rw [Gapless,List.map_take,gapless,List.length_take]
  by_cases less : count ≤ entries.length
  · rw [List.take_range'_of_length_ge less,Nat.min_eq_left less]
  · have whole : entries.length ≤ count := Nat.le_of_not_le less
    rw [List.take_range'_of_length_le whole,Nat.min_eq_right whole]

theorem gapless_concat (gapless : Gapless since entries) :
    Gapless since (entries ++ [tip]) ↔ tip.seq = firstAfter since+entries.length := by
  unfold Gapless
  rw [List.map_append,gapless,List.length_append,List.map_singleton,List.length_singleton,List.range'_concat]
  simp

theorem last_gapless (gapless : Gapless since entries) : entries.getLast?.map FeedEntry.seq =
    if entries.length = 0 then none else some (firstAfter since+entries.length-1) := by
  rw [← List.getLast?_map,gapless,List.getLast?_range']

theorem spliced_some (gapless : Gapless since entries) : spliced entries (some tip) =
    if 0 < entries.length ∧ tip.seq+1 = firstAfter since+entries.length then entries else entries ++ [tip] := by
  rw [spliced,last_gapless gapless]
  apply if_congr _ rfl rfl
  split
  next none => simp [none]
  next some =>
    rw [Option.some.injEq]
    omega

theorem page_entries (gapless : Gapless since entries) (fits : entries.length ≤ pageLimit) :
    (pager.page entries since pageLimit).entries = entries := by
  rw [pager.entries,filter_gapless gapless,List.take_of_length_le fits]

theorem page_concat (gapless : Gapless since entries) : (pager.page (entries ++ [tip]) since pageLimit).entries =
    (if firstAfter since ≤ tip.seq then entries ++ [tip] else entries).take pageLimit := by
  have tipKept : ([tip].filter fun entry => follows since entry.seq) =
      if firstAfter since ≤ tip.seq then [tip] else [] := by
    rw [List.filter_singleton,Bool.cond_eq_ite]
    exact if_congr (follows_iff since tip.seq) rfl rfl
  rw [pager.entries,List.filter_append,filter_gapless gapless,tipKept]
  split
  · rfl
  · rw [List.append_nil]

theorem page_gapless_iff (gapless : Gapless since entries) (fits : entries.length ≤ pageLimit) (top : Option FeedEntry)
    (above : 0 < entries.length → ∀ tip, top = some tip → firstAfter since+entries.length ≤ tip.seq+1) :
    Gapless since (pager.page (spliced entries top) since pageLimit).entries ↔
      entries.length = pageLimit ∨ ∀ tip, top = some tip → tip.seq ≤ firstAfter since+entries.length := by
  cases top with
  | none =>
    rw [spliced,page_entries gapless fits]
    exact iff_of_true gapless (Or.inr fun tip same => nomatch same)
  | some tip =>
    have near (ahead : 0 < entries.length) : firstAfter since+entries.length ≤ tip.seq+1 := above ahead tip rfl
    rw [spliced_some gapless]
    simp only [Option.some.injEq,forall_eq']
    split
    next last =>
      rw [page_entries gapless fits]
      exact iff_of_true gapless (Or.inr (by omega))
    next other =>
      rw [page_concat gapless]
      by_cases full : entries.length = pageLimit
      · refine iff_of_true ?_ (Or.inl full)
        have whole : (if firstAfter since ≤ tip.seq then entries ++ [tip] else entries).take pageLimit = entries := by
          split
          · rw [← full,List.take_left]
          · exact List.take_of_length_le fits
        rwa [whole]
      · have room : entries.length+1 ≤ pageLimit := Nat.lt_of_le_of_ne fits full
        rw [or_iff_right full]
        split
        next reached =>
          rw [List.take_of_length_le (by rwa [List.length_append]),gapless_concat gapless]
          omega
        next before =>
          rw [List.take_of_length_le fits]
          exact iff_of_true gapless (by omega)

end Splicing

section Growing
variable {signer : FeedSigner} {service service' : FeedService} {table table' : FeedTable} {landing : FeedLanding}

def Contiguous (table : FeedTable) : Prop := ∀ did, ∃ length, Consecutive table did length

def Keeps (table table' : FeedTable) : Prop := ∀ key, (table.row key).isSome = true → (table'.row key).isSome = true

def Placed (table : FeedTable) (entry : FeedEntry) : Prop :=
  ∀ before, entry.seq = before+1 → (table.row (entry.feedId,before)).isSome = true

inductive Begun (signer : FeedSigner) (call : AppendCall) : FeedProgram (Except Exc FeedEntry) → FeedTable → Prop
  | reading (table : FeedTable) : Begun signer call (.call (.getHead call.did) (afterHead signer call)) table
  | posting (table : FeedTable) (entry : FeedEntry) (placed : Placed table entry) :
      Begun signer call (.call (.postEntry entry) fun written =>
        .done (if written.isNone then .error unpersisted else .ok entry)) table
  | finished (table : FeedTable) (outcome : Except Exc FeedEntry) : Begun signer call (.done outcome) table

theorem Begun.kept {call : AppendCall} {rest : FeedProgram (Except Exc FeedEntry)}
    (begun : Begun signer call rest table)
    (keeps : Keeps table table') : Begun signer call rest table' := by
  cases begun with
  | reading => exact .reading table'
  | posting _ entry placed => exact .posting table' entry fun before next => keeps _ (placed before next)
  | finished _ outcome => exact .finished table' outcome

theorem placed_afterHead (call : AppendCall) : Begun signer call
    (afterHead signer call (landing.answered (FeedTable.head table call.did).toList)) table := by
  have top : ((landing.answered (FeedTable.head table call.did).toList).getD []).head? = none ∨
      ((landing.answered (FeedTable.head table call.did).toList).getD []).head? = FeedTable.head table call.did := by
    rw [FeedLanding.answered]
    split
    · right
      cases FeedTable.head table call.did <;> rfl
    · exact Or.inl rfl
  unfold afterHead
  split
  next e _ => exact .finished table _
  next entry signed =>
    apply Begun.posting
    intro before next
    cases tip : ((landing.answered (FeedTable.head table call.did).toList).getD []).head? with
    | none =>
      rw [tip] at signed
      rw [(signer.first _ _ _ _ signed).1] at next
      exact absurd next (Nat.zero_ne_add_one before)
    | some tip' =>
      rw [tip] at signed top
      have head : FeedTable.head table call.did = some tip' := (top.resolve_left (Option.some_ne_none tip')).symm
      have listed : table.row (call.did,tip'.seq) = some tip' := mem_ofFeed.mp (List.argmax_mem head)
      have seq : tip'.seq = before := Nat.succ.inj ((signer.next _ _ _ _ _ signed).1.symm.trans next)
      rw [signer.owned _ _ _ _ _ signed,← seq,listed]
      rfl

theorem keeps_put (table : FeedTable) (entry : FeedEntry) : Keeps table (table.put entry) := by
  intro key taken
  rw [Table.row_put]
  split
  · rfl
  · exact taken

theorem Contiguous.put {entry : FeedEntry} (contiguous : Contiguous table) (placed : Placed table entry) :
    Contiguous (table.put entry) := by
  intro did
  obtain ⟨length,consecutive⟩ := contiguous did
  by_cases own : entry.feedId = did
  · have reach : entry.seq ≤ length := by
      cases seq : entry.seq with
      | zero => exact Nat.zero_le length
      | succ before =>
        have taken := placed before seq
        rwa [own,consecutive] at taken
    refine ⟨max length (entry.seq+1),fun seq => ?_⟩
    rw [Table.row_put,FeedEntry.key,own]
    split
    next here =>
      obtain rfl : seq = entry.seq := congrArg Prod.snd here
      exact iff_of_true rfl (by omega)
    next elsewhere =>
      have apart : seq ≠ entry.seq := fun same => elsewhere (congrArg (Prod.mk did) same)
      rw [consecutive]
      omega
  · refine ⟨length,fun seq => ?_⟩
    rw [Table.row_put,if_neg fun same => own (congrArg Prod.fst same).symm]
    exact consecutive seq

structure Laid (signer : FeedSigner) (service : FeedService) : Prop where
  contiguous : Contiguous service.store
  begun : service.AllFit (Begun signer)

theorem Laid.opened : Laid signer FeedService.opened where
  contiguous := fun did => ⟨0,fun seq => by simp [FeedService.opened]⟩
  begun := Pool.AllFit.opened _

theorem Begun.answered (landing : FeedLanding) {call : AppendCall} {act : FeedAct}
    {resume : act.Answer → FeedProgram (Except Exc FeedEntry)}
    (begun : Begun signer call (.call act resume) table) (contiguous : Contiguous table) :
    Begun signer call (resume (feedExec landing act table).1) (feedExec landing act table).2 ∧
      Contiguous (feedExec landing act table).2 ∧ Keeps table (feedExec landing act table).2 := by
  have unchanged : Keeps table table := fun _ taken => taken
  cases begun with
  | reading =>
    have same : (feedExec landing (.getHead call.did) table).2 = table := ite_self table
    rw [same]
    exact ⟨placed_afterHead call,contiguous,unchanged⟩
  | posting _ entry placed =>
    refine ⟨.finished _ _,?_⟩
    have landed : (feedExec landing (.postEntry entry) table).2 = table ∨
        (feedExec landing (.postEntry entry) table).2 = table.put entry := by
      unfold feedExec feedAfter
      dsimp only
      split
      · split
        · exact Or.inl rfl
        · exact Or.inr rfl
      · exact Or.inl rfl
    obtain same | same := landed
    · rw [same]
      exact ⟨contiguous,unchanged⟩
    · rw [same]
      exact ⟨contiguous.put placed,keeps_put table entry⟩

theorem Laid.step {turn : Turn AppendCall FeedLanding} (laid : Laid signer service)
    (stepped : FeedService.step signer service turn = some service') : Laid signer service' ∧
      Keeps service.store service'.store := by
  cases turn with
  | start id call =>
    obtain rfl := Pool.step_start stepped
    rw [Pool.settle_store]
    refine ⟨⟨?_,laid.begun.settle (.reading service.store)⟩,fun _ taken => taken⟩
    rw [Pool.settle_store]
    exact laid.contiguous
  | advance id landing =>
    obtain ⟨call,act,resume,live,rfl⟩ := Pool.step_advance stepped
    obtain ⟨begun,contiguous,keeps⟩ := (laid.begun id _ live).answered landing laid.contiguous
    rw [Pool.settle_store]
    refine ⟨⟨?_,Pool.AllFit.advanced begun fun other task _ live' => (laid.begun other task live').kept keeps⟩,keeps⟩
    rw [Pool.settle_store]
    exact contiguous

theorem Laid.others (turns : List (Turn AppendCall FeedLanding)) : ∀ service : FeedService, Laid signer service →
    Laid signer (service.others signer turns) ∧ Keeps service.store (service.others signer turns).store := by
  induction turns with
  | nil => exact fun service laid => ⟨laid,fun _ taken => taken⟩
  | cons turn turns ih =>
    intro service laid
    have one : Laid signer ((FeedService.step signer service turn).getD service) ∧
        Keeps service.store ((FeedService.step signer service turn).getD service).store := by
      cases stepped : FeedService.step signer service turn with
      | none => exact ⟨laid,fun _ taken => taken⟩
      | some service' => exact laid.step stepped
    obtain ⟨laid',keeps⟩ := ih _ one.1
    exact ⟨laid',fun key taken => keeps key (one.2 key taken)⟩

theorem Keeps.feedLength (keeps : Keeps table table') (contiguous : Contiguous table)
    (contiguous' : Contiguous table') (did : String) :
    feedLength table did ≤ feedLength table' did := by
  obtain ⟨length,consecutive⟩ := contiguous did
  obtain ⟨length',consecutive'⟩ := contiguous' did
  rw [feedLength_consecutive consecutive,feedLength_consecutive consecutive']
  by_contra less
  have taken : (table.row (did,length')).isSome = true := (consecutive length').mpr (Nat.lt_of_not_le less)
  exact absurd ((consecutive' length').mp (keeps _ taken)) (lt_irrefl length')

end Growing

section Building
variable {signer : FeedSigner} {pager : FeedPager} {did : String}

theorem answered_rows (meanwhile : Meanwhile) (rows : List FeedEntry) :
    (meanwhile.landing.answered rows).getD [] = if meanwhile.reads then rows else [] := by
  rw [FeedLanding.answered,Meanwhile.reads]
  split <;> rfl

theorem buildPage_run (env : ℕ → Meanwhile) (did : String) (since : Option Int) (service : FeedService) :
    (Proc.run (amongAppends signer) env (buildPage pager did since) service).1 =
      pager.page (spliced
        (if (env 0).reads then (FeedTable.after (service.others signer (env 0).turns).store did since).take pageLimit
          else [])
        (if (env 1).reads then
          FeedTable.head ((service.others signer (env 0).turns).others signer (env 1).turns).store did else none))
        since pageLimit := by
  have tips (top : Option FeedEntry) : ((env 1).landing.answered top.toList).getD [] =
      (if (env 1).reads then top else none).toList := by
    rw [answered_rows]
    split <;> rfl
  have called : (Proc.run (amongAppends signer) env (buildPage pager did since) service).1 =
      pager.page (spliced
        (((env 0).landing.answered ((FeedTable.after (service.others signer (env 0).turns).store did since).take
          pageLimit)).getD [])
        (((env 1).landing.answered
          (FeedTable.head ((service.others signer (env 0).turns).others signer (env 1).turns).store did).toList).getD
            []).head?)
        since pageLimit := rfl
  rw [called,answered_rows,tips,Option.head?_toList]

def readUpTo (since : Option Int) (reads : Bool) (length : ℕ) : ℕ :=
  max (firstAfter since) (if reads then length else 0)

theorem read_gapless {table : FeedTable} {length : ℕ} (consecutive : Consecutive table did length)
    (since : Option Int) (reads : Bool) :
    Gapless since (if reads then (FeedTable.after table did since).take pageLimit else []) ∧
      (if reads then (FeedTable.after table did since).take pageLimit else []).length =
        min pageLimit (readUpTo since reads length-firstAfter since) := by
  cases reads with
  | false => simp [Gapless,readUpTo]
  | true =>
    have listed : (FeedTable.after table did since).length = length-firstAfter since := by
      rw [← List.length_map FeedEntry.seq,after_seqs consecutive,List.length_range']
    have gapless : Gapless since (FeedTable.after table did since) := by rw [Gapless,after_seqs consecutive,listed]
    constructor
    · exact gapless.take pageLimit
    · rw [if_pos rfl,List.length_take,listed,readUpTo,if_pos rfl]
      omega

theorem readUpTo_le {since : Option Int} {reads : Bool} {length : ℕ}
    (some : 0 < min pageLimit (readUpTo since reads length-firstAfter since)) :
      readUpTo since reads length ≤ length := by
  unfold readUpTo at some ⊢
  cases reads <;> simp only [Bool.false_eq_true,if_false,if_true] at some ⊢ <;> omega

theorem read_head_le (table : FeedTable) (did : String) (reads : Bool) (last : ℕ) :
    (∀ tip, (if reads then FeedTable.head table did else none) = some tip → tip.seq ≤ last) ↔
      reads = false ∨ feedLength table did ≤ last+1 := by
  cases reads with
  | false => simp
  | true =>
    rw [feedLength]
    cases FeedTable.head table did <;> simp

/-- For every state that appends lead to, and all appends between the two reads of
`build_page`: the page has no gap exactly when it is full, or the read of the head fails,
or by then at most one more entry follows those that were read. -/
theorem page_gapless (signer : FeedSigner) (pager : FeedPager) {service : FeedService}
    (run : Runs.Reached (FeedService.step signer) Runs.Free FeedService.opened service)
    (env : ℕ → Meanwhile) (did : String) (since : Option Int) :
    let first := service.others signer (env 0).turns
    let second := first.others signer (env 1).turns
    let reached := readUpTo since (env 0).reads (feedLength first.store did)
    Gapless since (Proc.run (amongAppends signer) env (buildPage pager did since) service).1.entries ↔
      firstAfter since+pageLimit ≤ reached ∨ (env 1).reads = false ∨ feedLength second.store did ≤ reached+1 := by
  have laid : Laid signer service := run.invariant .opened fun s turn s' before _ stepped => (before.step stepped).1
  obtain ⟨laid₁,-⟩ := laid.others (env 0).turns
  obtain ⟨laid₂,keeps⟩ := laid₁.others (env 1).turns
  have grown := keeps.feedLength laid₁.contiguous laid₂.contiguous did
  intro first second reached
  obtain ⟨length,consecutive⟩ := laid₁.contiguous did
  have reach : reached = readUpTo since (env 0).reads length := by rw [← feedLength_consecutive consecutive]
  obtain ⟨gapless,counted⟩ := read_gapless consecutive since (env 0).reads
  have ahead : firstAfter since ≤ reached := le_max_left ..
  rw [buildPage_run,page_gapless_iff gapless,counted,← reach,read_head_le]
  · by_cases full : firstAfter since+pageLimit ≤ reached
    · exact iff_of_true (Or.inl (by omega)) (Or.inl full)
    · rw [or_iff_right full,or_iff_right (by omega)]
      have next : firstAfter since+min pageLimit (reached-firstAfter since) = reached := by omega
      rw [next]
  · rw [counted]
    exact Nat.min_le_left ..
  · intro some tip top
    have less : reached ≤ tip.seq+1 := by
      split at top
      next =>
        have last : feedLength second.store did = tip.seq+1 := by
          rw [feedLength,top]
          rfl
        rw [counted] at some
        rw [← last,reach]
        refine (readUpTo_le some).trans ?_
        rwa [← feedLength_consecutive consecutive]
      next => exact nomatch top
    rw [counted,← reach]
    omega

end Building

section Samples

def plainPager : FeedPager where
  page entries since limit := ⟨(entries.filter fun entry => follows since entry.seq).take limit,entries.getLast?⟩
  entries := fun _ _ _ => rfl
  head := fun _ _ _ => rfl

def appended (id : ℕ) (issuedAt : String) : List (Turn AppendCall FeedLanding) :=
  [.start id (appendAt issuedAt),.advance id posted,.advance id posted]

def between (turns : List (Turn AppendCall FeedLanding)) : ℕ → Meanwhile
  | 1 => ⟨turns,posted⟩
  | _ => ⟨[],posted⟩

def readPage (turns : List (Turn AppendCall FeedLanding)) (service : FeedService) : FeedPage :=
  (Proc.run (amongAppends plainSigner) (between turns) (buildPage plainPager "did:key:acme" none) service).1

theorem page_adjacent : ∃ service : FeedService, service.store.rows.length = 1 ∧
    Gapless none (readPage (appended 1 "2") service).entries := by
  have walked : ((Runs.walk (FeedService.step plainSigner) (fun _ _ => true) (appended 0 "1") FeedService.opened).map
      fun service => (service.store.rows.length,decide (feedLength ((service.others plainSigner []).others plainSigner
        (appended 1 "2")).store "did:key:acme" ≤ readUpTo none true
          (feedLength (service.others plainSigner []).store "did:key:acme")+1))) =
      some (1,true) := by
    decide +kernel
  obtain ⟨service,walked,seen⟩ := Option.map_eq_some_iff.mp walked
  obtain ⟨one,near⟩ := Prod.mk.inj seen
  have reached : Runs.Reached (FeedService.step plainSigner) Runs.Free FeedService.opened service :=
    Runs.reached_walk (fun _ _ _ => trivial) _ .start walked
  exact ⟨service,one,(page_gapless plainSigner plainPager reached (between (appended 1 "2")) "did:key:acme" none).mpr
    (Or.inr (Or.inr (of_decide_eq_true near)))⟩

/-- Two appends between the reads: the head is put behind an entry that it does not follow. -/
theorem page_skips : ∃ service : FeedService,
    Runs.Reached (FeedService.step plainSigner) Runs.Free FeedService.opened service ∧
      (readPage (appended 1 "2" ++ appended 2 "3") service).entries.map FeedEntry.seq = [0,2] ∧
      ¬ Gapless none (readPage (appended 1 "2" ++ appended 2 "3") service).entries := by
  have walked : ((Runs.walk (FeedService.step plainSigner) (fun _ _ => true) (appended 0 "1") FeedService.opened).map
      fun service => (readPage (appended 1 "2" ++ appended 2 "3") service).entries.map FeedEntry.seq) = some [0,2] := by
    decide +kernel
  obtain ⟨service,walked,seqs⟩ := Option.map_eq_some_iff.mp walked
  refine ⟨service,Runs.reached_walk (fun _ _ _ => trivial) _ .start walked,seqs,fun gapless => ?_⟩
  have two : (readPage (appended 1 "2" ++ appended 2 "3") service).entries.length = 2 := by
    rw [← List.length_map FeedEntry.seq,seqs]
    rfl
  rw [Gapless,seqs,two] at gapless
  exact absurd gapless (by decide)

end Samples

end Orrery.Federation
