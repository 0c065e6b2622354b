import Mathlib
import Orrery.Chapter.Registration
import Orrery.Foundation.JsonLines

/-! The outbox of member rows that never reached Postgres (server/chapter_agent.py,
`_outbox_member_row` and `replay_member_persist_outbox`), and the upserts by which they are
stored (server/pg_store.py, `pg_request`). -/
namespace Orrery.Chapter
open Foundation Json

section Table

def textAt (row : TableRow) (column : String) : Option String :=
  match row column with
  | some (.str s) => some s
  | _ => none

def meets (columns : List String) (new stored : TableRow) : Bool :=
  columns.all fun column => (textAt new column).isSome && textAt new column == textAt stored column

def agentsKeys : List (List String) := [["id"],["agent_id"]]

def Sound (rows : List TableRow) : Prop := rows.Pairwise fun a b => ∀ columns ∈ agentsKeys, meets columns a b = false

instance (rows : List TableRow) : Decidable (Sound rows) := by
  unfold Sound
  infer_instance

structure Defaults where
  row : List TableRow → TableRow
  id : List TableRow → String
  row_id : ∀ rows, row rows "id" = some (.str (id rows))
  fresh : ∀ rows, ∀ stored ∈ rows, textAt stored "id" ≠ some (id rows)

def Upsert.accepted (colTypes : List (String × String)) (defaults : TableRow) (statement : Upsert)
    (rows : List TableRow) : Option (List TableRow) :=
  let new := statement.carriedOut colTypes defaults none
  let after :=
    if rows.any (meets statement.conflict new) then
      rows.map fun stored =>
        if meets statement.conflict new stored then statement.carriedOut colTypes defaults (some stored) else stored
    else rows ++ [new]
  if Sound after then some after else none

/-- `pg_request("POST", "agents", body=row)`; without a conflict target it is the primary
key, and a row without columns is no SQL. -/
def postAgent (defaults : Defaults) (onConflict mergeJsonb : List String) (rows : List TableRow) (row : Dict) :
    Option (List TableRow) :=
  if row.isEmpty then none
  else (buildUpsert "agents" row (if onConflict.isEmpty then ["id"] else onConflict) mergeJsonb).accepted agentsTypes
    (defaults.row rows) rows

def postBody (defaults : Defaults) (rows : List TableRow) : Json → Option (List TableRow)
  | .arr bodies => bodies.foldlM (fun rows body => match body with
    | .obj row => postAgent defaults [] [] rows row
    | _ => none) rows
  | .obj row => postAgent defaults [] [] rows row
  | _ => none

end Table

structure Boot where
  codec : Codec
  chapter : String
  parseFloat : List Char → ℚ
  floatRepr : ℚ → List Char
  floatRepr_plain : ∀ q, JsonLines.Plain (floatRepr q)
  defaults : Defaults

structure Outboxed where
  agentId : String
  member : Member
  keySource : Option String
  moment : String

section Outbox
variable (boot : Boot)

def Outboxed.row (x : Outboxed) : Dict := memberRow boot.codec boot.chapter x.agentId x.member x.keySource x.moment

def outboxLine (row : Dict) : List Char :=
  JsonLines.writeLine boot.floatRepr .plain (.obj [("table",.str "agents"),("row",.obj row)])

def outboxText (rows : List Outboxed) : List Char := rows.flatMap fun x => outboxLine boot (x.row boot)

def rowOf : Json → Option Json
  | .obj fields => get fields "row"
  | _ => none

structure Replay where
  table : List TableRow
  stillFailing : List (List Char)
  replayed : ℕ

def replayLine (st : Replay) (line : List Char) : Replay :=
  if (JsonLines.strip line).isEmpty then st
  else match (loads boot.parseFloat (JsonLines.strip line)).bind rowOf with
  | none => st
  | some row =>
    match postBody boot.defaults st.table row with
    | some table => { st with table := table, replayed := st.replayed+1 }
    | none => { st with stillFailing := st.stillFailing ++ [JsonLines.strip line] }

def replayMemberPersistOutbox (file : Option (List Char)) (table : List TableRow) : Option (List Char) × List TableRow × ℕ :=
  match file with
  | none => (none,table,0)
  | some text =>
    let st := (JsonLines.splitlines text).foldl (replayLine boot) ⟨table,[],0⟩
    (if st.stillFailing.isEmpty then none else some (['\n'].intercalate st.stillFailing ++ ['\n']),st.table,st.replayed)

def persistAll (table : List TableRow) (rows : List Outboxed) : Option (List TableRow) :=
  rows.foldlM (fun table x => postAgent boot.defaults ["agent_id"] ["config","agent_facts"] table (x.row boot)) table

def fieldAt (table : List TableRow) (agentId column key : String) : Option Json :=
  (table.find? fun row => textAt row "agent_id" = some agentId).bind fun row => jsonbField (row column) key

/-- The replay of these rows completes the upserts that were lost. -/
structure Completed (rows : List Outboxed) (table : List TableRow) : Prop where
  emptied : (replayMemberPersistOutbox boot (some (outboxText boot rows)) table).1 = none
  single : ∀ x ∈ rows, ((replayMemberPersistOutbox boot (some (outboxText boot rows)) table).2.1.filter fun row =>
    textAt row "agent_id" = some x.agentId).length = 1
  config : ∃ after, persistAll boot table rows = some after ∧ ∀ x ∈ rows, ∀ key, key ∉ ownedConfig →
    fieldAt (replayMemberPersistOutbox boot (some (outboxText boot rows)) table).2.1 x.agentId "config" key =
      fieldAt after x.agentId "config" key
  facts : ∃ after, persistAll boot table rows = some after ∧ ∀ x ∈ rows, ∀ key, key ∉ ownedFacts →
    fieldAt (replayMemberPersistOutbox boot (some (outboxText boot rows)) table).2.1 x.agentId "agent_facts" key =
      fieldAt after x.agentId "agent_facts" key

end Outbox

section Rows
variable {boot : Boot} {x : Outboxed} {rows : List TableRow}

theorem meets_single (column : String) (a b : TableRow) :
    meets [column] a b = true ↔ ∃ s, textAt a column = some s ∧ textAt b column = some s := by
  simp only [meets,List.all_cons,List.all_nil,Bool.and_true,Bool.and_eq_true,beq_iff_eq,Option.isSome_iff_exists]
  constructor
  · rintro ⟨⟨s,here⟩,same⟩
    exact ⟨s,here,same ▸ here⟩
  · rintro ⟨s,here,there⟩
    exact ⟨⟨s,here⟩,here.trans there.symm⟩

def newRow (boot : Boot) (x : Outboxed) (rows : List TableRow) : TableRow := fun column =>
  if (get (x.row boot) column).isSome then (get (x.row boot) column).bind (literalFor (agentsTypes.lookup column))
  else boot.defaults.row rows column

theorem newRow_agentId : textAt (newRow boot x rows) "agent_id" = some x.agentId := by
  simp [newRow,Outboxed.row,memberRow,get_cons,literalFor,textAt]

theorem row_id : get (x.row boot) "id" = none := by
  apply get_absent
  simp [Outboxed.row,memberRow]

theorem newRow_id : textAt (newRow boot x rows) "id" = some (boot.defaults.id rows) := by
  simp [newRow,row_id,textAt,boot.defaults.row_id]

def Absent (agentId : String) (rows : List TableRow) : Prop := ∀ stored ∈ rows, textAt stored "agent_id" ≠ some agentId

theorem sound_newRow (sound : Sound rows) : Sound (rows ++ [newRow boot x rows]) ↔ Absent x.agentId rows := by
  rw [Sound,List.pairwise_append]
  constructor
  · rintro ⟨_,_,apart⟩ stored inside taken
    have clear := apart stored inside _ (.head _) ["agent_id"] (by decide)
    rw [Bool.eq_false_iff] at clear
    exact clear ((meets_single _ _ _).mpr ⟨_,taken,newRow_agentId⟩)
  · intro absent
    refine ⟨sound,List.pairwise_singleton _ _,?_⟩
    intro stored inside new listed columns key
    obtain rfl := List.mem_singleton.mp listed
    rw [Bool.eq_false_iff]
    intro meet
    obtain rfl | rfl : columns = ["id"] ∨ columns = ["agent_id"] := by simpa [agentsKeys] using key
    · obtain ⟨s,here,there⟩ := (meets_single _ _ _).mp meet
      rw [newRow_id] at there
      exact boot.defaults.fresh rows stored inside (here.trans there.symm)
    · obtain ⟨s,here,there⟩ := (meets_single _ _ _).mp meet
      rw [newRow_agentId] at there
      exact absent stored inside (here.trans there.symm)

theorem accepted_new {colTypes : List (String × String)} {defaults : TableRow} {statement : Upsert}
    (apart : ∀ stored ∈ rows, meets statement.conflict (statement.carriedOut colTypes defaults none) stored = false) :
    statement.accepted colTypes defaults rows =
      if Sound (rows ++ [statement.carriedOut colTypes defaults none]) then
        some (rows ++ [statement.carriedOut colTypes defaults none]) else none := by
  have none_ : rows.any (meets statement.conflict (statement.carriedOut colTypes defaults none)) = false := by
    rw [List.any_eq_false]
    intro stored inside
    rw [apart stored inside]
    decide
  simp only [Upsert.accepted,none_,Bool.false_eq_true,if_false]

theorem postAgent_new (onConflict mergeJsonb : List String)
    (apart : ∀ stored ∈ rows, meets (if onConflict.isEmpty then ["id"] else onConflict) (newRow boot x rows) stored = false) :
    postAgent boot.defaults onConflict mergeJsonb rows (x.row boot) =
      if Sound (rows ++ [newRow boot x rows]) then some (rows ++ [newRow boot x rows]) else none := by
  have filled : (x.row boot).isEmpty = false := rfl
  rw [postAgent,filled,if_neg (by decide)]
  exact accepted_new apart

theorem postAgent_replayed : postAgent boot.defaults [] [] rows (x.row boot) =
    if Sound (rows ++ [newRow boot x rows]) then some (rows ++ [newRow boot x rows]) else none := by
  refine postAgent_new [] [] fun stored inside => ?_
  rw [Bool.eq_false_iff]
  intro meet
  obtain ⟨s,here,there⟩ := (meets_single "id" _ _).mp meet
  rw [newRow_id] at here
  exact boot.defaults.fresh rows stored inside (there.trans here.symm)

theorem postAgent_persisted (sound : Sound rows) (absent : Absent x.agentId rows) :
    postAgent boot.defaults ["agent_id"] ["config","agent_facts"] rows (x.row boot) =
      some (rows ++ [newRow boot x rows]) := by
  have apart : ∀ stored ∈ rows, meets ["agent_id"] (newRow boot x rows) stored = false := by
    intro stored inside
    rw [Bool.eq_false_iff]
    intro meet
    obtain ⟨s,here,there⟩ := (meets_single "agent_id" _ _).mp meet
    rw [newRow_agentId] at here
    exact absent stored inside (there.trans here.symm)
  rw [postAgent_new ["agent_id"] _ apart,if_pos ((sound_newRow sound).mpr absent)]

end Rows

section Lines
variable {boot : Boot} {x : Outboxed}

theorem proper_texts (texts : List String) : Proper boot.parseFloat boot.floatRepr (.arr (texts.map .str)) := by
  rw [Proper,properItems_iff]
  intro v inside
  obtain ⟨text,_,rfl⟩ := List.mem_map.mp inside
  trivial

theorem memberFacts_proper {facts : Dict}
    (made : memberFacts boot.codec x.member x.keySource x.moment = some facts) :
    Proper boot.parseFloat boot.floatRepr (.obj facts) := by
  unfold memberFacts at made
  split at made
  · obtain ⟨did,_,rfl⟩ := Option.map_eq_some_iff.mp made
    cases x.keySource with
    | none => simp [Proper,ProperFields]
    | some source => simp [Proper,ProperFields,keyProvenanceKey,keyProvenance]
  · cases made

theorem row_proper : Proper boot.parseFloat boot.floatRepr (.obj (x.row boot)) := by
  have config : Proper boot.parseFloat boot.floatRepr (.obj (memberConfig boot.chapter x.member)) := by
    simp [memberConfig,Proper,ProperFields]
  have skills := @proper_texts boot x.member.skills
  cases made : memberFacts boot.codec x.member x.keySource x.moment with
  | none => simpa [Outboxed.row,memberRow,made,Proper,ProperFields] using And.intro skills config
  | some facts =>
    have proper := memberFacts_proper made
    simpa [Outboxed.row,memberRow,made,Proper,ProperFields] using And.intro skills (And.intro config proper)

def lineText (boot : Boot) (x : Outboxed) : List Char :=
  dumps boot.floatRepr .plain (.obj [("table",.str "agents"),("row",.obj (x.row boot))])

theorem lineText_plain : JsonLines.Plain (lineText boot x) :=
  JsonLines.plain_dumps boot.floatRepr_plain (JsonLines.plain_of rfl) (JsonLines.plain_of rfl) _

theorem lineText_closed : JsonLines.strip (lineText boot x) = lineText boot x ∧ (lineText boot x).isEmpty = false := by
  rw [lineText,dumps]
  exact ⟨JsonLines.strip_closed (by decide) (by decide),rfl⟩

theorem lineText_read : (loads boot.parseFloat (lineText boot x)).bind rowOf = some (.obj (x.row boot)) := by
  have proper : Proper boot.parseFloat boot.floatRepr (.obj [("table",.str "agents"),("row",.obj (x.row boot))]) := by
    have row := @row_proper boot x
    simpa [Proper,ProperFields] using row
  rw [lineText,loads_dumps_unsorted Layout.plain_readable rfl _ proper,Option.bind_some,rowOf]
  rfl

theorem outbox_lines (rows : List Outboxed) : JsonLines.splitlines (outboxText boot rows) = rows.map (lineText boot) := by
  induction rows with
  | nil => rfl
  | cons x rows ih =>
    rw [JsonLines.splitlines] at ih ⊢
    rw [outboxText] at ih ⊢
    rw [List.flatMap_cons,outboxLine,JsonLines.writeLine,List.append_assoc,List.singleton_append,List.map_cons]
    have line := JsonLines.linesFrom_line (@lineText_plain boot x) (rows.flatMap fun x => outboxLine boot (x.row boot)) []
    rw [lineText] at line
    rw [line,List.nil_append,ih,lineText]

theorem replayLine_row (st : Replay) : replayLine boot st (lineText boot x) =
    if Sound (st.table ++ [newRow boot x st.table]) then
      { st with table := st.table ++ [newRow boot x st.table], replayed := st.replayed+1 }
    else { st with stillFailing := st.stillFailing ++ [lineText boot x] } := by
  obtain ⟨closed,filled⟩ := @lineText_closed boot x
  rw [replayLine,closed,filled,if_neg (by decide),lineText_read]
  dsimp only [postBody]
  rw [postAgent_replayed]
  by_cases further : Sound (st.table ++ [newRow boot x st.table])
  · rw [if_pos further,if_pos further]
  · rw [if_neg further,if_neg further]

end Lines

section Replaying
variable {boot : Boot}

def FreeKeys (rows : List Outboxed) (table : List TableRow) : Prop :=
  (rows.map Outboxed.agentId).Nodup ∧ ∀ x ∈ rows, Absent x.agentId table

def storedAll (boot : Boot) (table : List TableRow) (rows : List Outboxed) : List TableRow :=
  rows.foldl (fun table x => table ++ [newRow boot x table]) table

theorem free_cons (boot : Boot) (x : Outboxed) (rows : List Outboxed) (table : List TableRow) : FreeKeys (x :: rows) table ↔
    Absent x.agentId table ∧ FreeKeys rows (table ++ [newRow boot x table]) := by
  have behind (y : Outboxed) : Absent y.agentId (table ++ [newRow boot x table]) ↔
      Absent y.agentId table ∧ y.agentId ≠ x.agentId := by
    rw [Absent,List.forall_mem_append]
    refine and_congr_right fun _ => ?_
    rw [List.forall_mem_singleton,newRow_agentId]
    exact ⟨fun other same => other (congrArg some same.symm),fun other same => other (Option.some.inj same).symm⟩
  simp only [FreeKeys,List.map_cons,List.nodup_cons,List.forall_mem_cons,behind,List.mem_map,not_exists,not_and]
  constructor
  · rintro ⟨⟨apart,distinct⟩,absent,further⟩
    exact ⟨absent,distinct,fun y inside => ⟨further y inside,apart y inside⟩⟩
  · rintro ⟨absent,distinct,further⟩
    exact ⟨⟨fun y inside => (further y inside).2,distinct⟩,absent,fun y inside => (further y inside).1⟩

theorem replay_fails {st : Replay} (lines : List Outboxed) (failing : st.stillFailing ≠ []) :
    ((lines.map (lineText boot)).foldl (replayLine boot) st).stillFailing ≠ [] := by
  induction lines generalizing st with
  | nil => exact failing
  | cons x lines ih =>
    rw [List.map_cons,List.foldl_cons,replayLine_row]
    split
    · exact ih failing
    · exact ih (by simp)

theorem replay_rows {rows : List Outboxed} {st : Replay} (sound : Sound st.table) (none_ : st.stillFailing = []) :
    (((rows.map (lineText boot)).foldl (replayLine boot) st).stillFailing = [] ↔ FreeKeys rows st.table) ∧
      (FreeKeys rows st.table → ((rows.map (lineText boot)).foldl (replayLine boot) st).table = storedAll boot st.table rows ∧
        Sound (storedAll boot st.table rows)) := by
  induction rows generalizing st with
  | nil => exact ⟨⟨fun _ => ⟨List.nodup_nil,nofun⟩,fun _ => none_⟩,fun _ => ⟨rfl,sound⟩⟩
  | cons x rows ih =>
    rw [List.map_cons,List.foldl_cons,replayLine_row,free_cons boot]
    by_cases further : Sound (st.table ++ [newRow boot x st.table])
    · rw [if_pos further]
      have absent := (sound_newRow sound).mp further
      obtain ⟨keeps,stores⟩ := @ih { st with table := st.table ++ [newRow boot x st.table], replayed := st.replayed+1 }
        further none_
      refine ⟨?_,fun free => stores free.2⟩
      rw [keeps,and_iff_right absent]
    · rw [if_neg further]
      have taken : ¬ Absent x.agentId st.table := fun absent => further ((sound_newRow sound).mpr absent)
      refine ⟨⟨fun emptied => ?_,fun free => absurd free.1 taken⟩,fun free => absurd free.1 taken⟩
      exact absurd emptied (replay_fails rows (by simp))

theorem persistAll_free {rows : List Outboxed} {table : List TableRow} (sound : Sound table) (free : FreeKeys rows table) :
    persistAll boot table rows = some (storedAll boot table rows) := by
  induction rows generalizing table with
  | nil => rfl
  | cons x rows ih =>
    obtain ⟨absent,free⟩ := (free_cons boot x rows table).mp free
    have stored := @postAgent_persisted boot x table sound absent
    simp only [persistAll] at ih ⊢
    rw [List.foldlM_cons,stored]
    exact ih ((sound_newRow sound).mpr absent) free

end Replaying

section Completion
variable {boot : Boot} {rows : List Outboxed} {table : List TableRow}

theorem single_of_sound {agentId : String} (sound : Sound table) (present : ¬ Absent agentId table) :
    (table.filter fun row => textAt row "agent_id" = some agentId).length = 1 := by
  have apart := sound.sublist (List.filter_sublist (p := fun row => decide (textAt row "agent_id" = some agentId)))
  have named : ∀ row ∈ table.filter fun row => textAt row "agent_id" = some agentId,
      textAt row "agent_id" = some agentId := fun row inside => by simpa using (List.mem_filter.mp inside).2
  cases found : table.filter fun row => textAt row "agent_id" = some agentId with
  | nil =>
    refine absurd (fun stored inside named => ?_) present
    have member : stored ∈ table.filter fun row => textAt row "agent_id" = some agentId :=
      List.mem_filter.mpr ⟨inside,decide_eq_true named⟩
    rw [found] at member
    cases member
  | cons first others =>
    cases others with
    | nil => rfl
    | cons second others =>
      rw [found] at apart named
      have clear := (List.pairwise_cons.mp apart).1 second (.head _) ["agent_id"] (by decide)
      rw [(meets_single _ _ _).mpr ⟨agentId,named first (.head _),named second (.tail _ (.head _))⟩] at clear
      cases clear

theorem storedAll_present (x : Outboxed) (listed : x ∈ rows) : ¬ Absent x.agentId (storedAll boot table rows) := by
  have grows (rows : List Outboxed) (table : List TableRow) : table ⊆ storedAll boot table rows := by
    induction rows generalizing table with
    | nil => exact fun _ inside => inside
    | cons y rows ih => exact fun _ inside => ih _ (List.mem_append_left _ inside)
  induction rows generalizing table with
  | nil => cases listed
  | cons y rows ih =>
    obtain rfl | further := List.mem_cons.mp listed
    · intro absent
      exact absent _ (grows rows _ (List.mem_append_right _ (.head _))) newRow_agentId
    · exact ih further

theorem replay_file : (replayMemberPersistOutbox boot (some (outboxText boot rows)) table).1 = none ↔
    ((rows.map (lineText boot)).foldl (replayLine boot) ⟨table,[],0⟩).stillFailing = [] := by
  rw [replayMemberPersistOutbox,outbox_lines]
  dsimp only
  rw [← List.isEmpty_iff]
  split
  next none_ => exact iff_of_true rfl none_
  next some_ => exact iff_of_false (by simp) some_

theorem replay_table : (replayMemberPersistOutbox boot (some (outboxText boot rows)) table).2.1 =
    ((rows.map (lineText boot)).foldl (replayLine boot) ⟨table,[],0⟩).table := by
  rw [replayMemberPersistOutbox,outbox_lines]

/-- The replay completes the upserts that were lost exactly if the outboxed ids differ and
none of them has a row by then. -/
theorem completed_iff (sound : Sound table) : Completed boot rows table ↔ (rows.map Outboxed.agentId).Nodup ∧
    ∀ x ∈ rows, ∀ stored ∈ table, textAt stored "agent_id" ≠ some x.agentId := by
  change _ ↔ FreeKeys rows table
  obtain ⟨keeps,stores⟩ := @replay_rows boot rows ⟨table,[],0⟩ sound rfl
  constructor
  · exact fun completed => keeps.mp (replay_file.mp completed.emptied)
  · intro free
    obtain ⟨stored,further⟩ := stores free
    have persisted := @persistAll_free boot rows table sound free
    have after := replay_table.trans stored
    refine ⟨replay_file.mpr (keeps.mpr free),?_,⟨_,persisted,?_⟩,⟨_,persisted,?_⟩⟩
    · intro x listed
      rw [after]
      exact single_of_sound further (storedAll_present x listed)
    · intro x _ key _
      rw [after]
    · intro x _ key _
      rw [after]

end Completion

section Examples

def idLength (row : TableRow) : ℕ := ((textAt row "id").map String.length).getD 0

def longDefaults : Defaults where
  id rows := String.ofList (List.replicate ((rows.map idLength).sum+1) 'u')
  row rows column :=
    if column = "id" then some (.str (String.ofList (List.replicate ((rows.map idLength).sum+1) 'u')))
    else if column = "agent_facts" then some (.obj [])
    else none
  row_id _ := rfl
  fresh rows stored inside named := by
    have long := List.le_sum_of_mem (List.mem_map.mpr ⟨stored,inside,rfl⟩ : idLength stored ∈ rows.map idLength)
    rw [idLength,named] at long
    simp at long

def plainBoot : Boot where
  codec := plainCodec
  chapter := "acme"
  parseFloat := fun _ => 0
  floatRepr := fun _ => ['0','.','0']
  floatRepr_plain := fun _ => JsonLines.plain_of rfl
  defaults := longDefaults

def annOutboxed : Outboxed := ⟨"ann",annMember,none,""⟩

theorem ann_completed : Completed plainBoot [annOutboxed] [] :=
  (completed_iff .nil).mpr ⟨by decide,fun _ _ => nofun⟩

def annRow : TableRow := fun column =>
  if column = "id" then some (.str "1") else if column = "agent_id" then some (.str "ann") else none

/-- The member has a row by the time of the boot, so the replay fails and keeps the line. -/
theorem ann_kept : ¬ Completed plainBoot [annOutboxed] [annRow] := by
  intro completed
  have sound : Sound [annRow] := List.pairwise_singleton _ _
  have free := (@replay_rows plainBoot [annOutboxed] ⟨[annRow],[],0⟩ sound rfl).1.mp (replay_file.mp completed.emptied)
  exact free.2 annOutboxed (.head _) annRow (.head _) rfl

end Examples

end Orrery.Chapter
