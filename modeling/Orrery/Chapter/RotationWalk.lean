import Orrery.Foundation.Pursuit
import Orrery.Chapter.MemberRotation
import Orrery.Chapter.PgStore

/-! The rotations of a member as a boot reads them back (server/chapter_agent.py): the walk
of `_key_after_recorded_rotations` along the recorded rows. -/
namespace Orrery.Chapter
open Foundation Json Foundation.Pursuit

section Walk
variable (env : RotationEnv) (parseFloat : List Char → ℚ) (now : Seconds)

/-- `row.get("attestation") or {}`, and what `.keys()` says of it. A jsonb value comes back
as its text, of which only objects and lists are decoded. -/
def attestationOf : Json → Except Exc Dict
  | .obj fields => .ok fields
  | .arr [] => .ok []
  | .arr _ => .error (.attributeError "'list' object has no attribute 'keys'")
  | _ => .error (.attributeError "'str' object has no attribute 'keys'")

def nextRow (current : String) : List RotationRow → Except Exc (Option RotationRow)
  | [] => .ok none
  | row :: rest =>
    if !eqStr (some (rowText parseFloat row.oldPublicKey)) current then nextRow current rest
    else
      match attestationOf row.attestation with
      | .error e => .error e
      | .ok attestation =>
        if verifyRecordedLink env.toCodec now attestation current env.chapterId then .ok (some row)
        else nextRow current rest

variable {env parseFloat now} {current : String} {chain : List RotationRow} {row : RotationRow}

theorem nextRow_mem (next : nextRow env parseFloat now current chain = .ok (some row)) : row ∈ chain := by
  induction chain with
  | nil => cases next
  | cons first rest ih =>
    rw [nextRow] at next
    split at next
    · exact List.mem_cons_of_mem _ (ih next)
    · split at next
      · cases next
      · split at next
        · cases next
          exact List.mem_cons_self ..
        · exact List.mem_cons_of_mem _ (ih next)

def unseenRows (chain : List RotationRow) (seen : List String) : List RotationRow :=
  chain.filter fun row => decide (row.newPublicKey ∉ seen)

theorem unseenRows_lt {seen : List String} {next : String} (member : row ∈ chain)
    (leads : rowText parseFloat row.newPublicKey = .str next) (fresh : next ∉ seen) :
    (unseenRows chain (next :: seen)).length < (unseenRows chain seen).length := by
  obtain rfl := rowText_str leads
  have less : unseenRows chain (row.newPublicKey :: seen) =
      (unseenRows chain seen).filter fun other => decide (other.newPublicKey ≠ row.newPublicKey) := by
    unfold unseenRows
    rw [List.filter_filter]
    congr 1
    funext other
    simp [List.mem_cons]
  rw [less]
  apply List.length_filter_lt_length_iff_exists.mpr
  exact ⟨row,List.mem_filter.mpr ⟨member,by simpa using fresh⟩,by simp⟩

variable (env parseFloat now)

def walk (chain : List RotationRow) (current : String) (seen : List String) : Except Exc String :=
  match _nextAt : nextRow env parseFloat now current chain with
  | .error e => .error e
  | .ok none => .ok current
  | .ok (some row) =>
    match _leads : rowText parseFloat row.newPublicKey with
    | .str next =>
      if _fresh : next = "" ∨ next ∈ seen then .ok current
      else walk chain next (next :: seen)
    | other =>
      if !other.truthy then .ok current
      else .error (.typeError s!"unhashable type: '{other.typeName}'")
termination_by (unseenRows chain seen).length
decreasing_by exact unseenRows_lt (nextRow_mem _nextAt) _leads (fun inside => _fresh (Or.inr inside))

def keyAfterRecordedRotations (hydrated : String) (chain : List RotationRow) (revoked : Bool) : Except Exc Json :=
  if revoked then .ok (.str "")
  else match chain.getLast? with
  | none => .ok (.str hydrated)
  | some tail =>
    if hydrated = "" then
      let newest := rowText parseFloat tail.newPublicKey
      .ok (if newest.truthy then newest else .str "")
    else (walk env parseFloat now chain hydrated [hydrated]).map .str

def nextText (chain : List RotationRow) (current : String) : Option String :=
  match nextRow env parseFloat now current chain with
  | .ok (some row) =>
    match rowText parseFloat row.newPublicKey with
    | .str next => if next = "" then none else some next
    | _ => none
  | _ => none

variable {env parseFloat now} {seen : List String} {z next : String}

theorem nextText_some : nextText env parseFloat now chain current = some next ↔
    ∃ row, nextRow env parseFloat now current chain = .ok (some row) ∧
      rowText parseFloat row.newPublicKey = .str next ∧ next ≠ "" := by
  unfold nextText
  constructor
  · intro found
    split at found
    next row nextAt =>
      split at found
      next text leads =>
        split at found
        · cases found
        next named =>
          cases found
          exact ⟨row,nextAt,leads,named⟩
      next => cases found
    next => cases found
  · rintro ⟨row,nextAt,leads,named⟩
    rw [nextAt]
    dsimp only
    rw [leads]
    exact if_neg named

theorem walk_pursues (walked : walk env parseFloat now chain current seen = .ok z) :
    Pursues (nextText env parseFloat now chain) seen current z := by
  fun_induction walk env parseFloat now chain current seen with
  | case1 current seen e nextAt => cases walked
  | case2 current seen nextAt =>
    cases walked
    refine .ends fun y found => ?_
    obtain ⟨row,other,_⟩ := nextText_some.mp found
    cases nextAt.symm.trans other
  | case3 current seen row nextAt next leads stale =>
    cases walked
    refine .ends fun y found => ?_
    obtain ⟨row',other,leads',named⟩ := nextText_some.mp found
    cases nextAt.symm.trans other
    cases leads.symm.trans leads'
    exact stale.resolve_left named
  | case4 current seen row nextAt next leads fresh ih =>
    rw [not_or] at fresh
    exact .goes (nextText_some.mpr ⟨row,nextAt,leads,fresh.1⟩) fresh.2 (ih walked)
  | case5 current seen row nextAt notText falsy =>
    cases walked
    refine .ends fun y found => ?_
    obtain ⟨row',same,leads,_⟩ := nextText_some.mp found
    cases nextAt.symm.trans same
    exact (notText y leads).elim
  | case6 => cases walked

theorem walk_of_pursues (calm : ∀ k, ∃ found, nextRow env parseFloat now k chain = .ok found)
    (plain : ∀ row ∈ chain, rowText parseFloat row.newPublicKey = .str row.newPublicKey)
    (pursues : Pursues (nextText env parseFloat now chain) seen current z) :
    walk env parseFloat now chain current seen = .ok z := by
  have ended := fun (result : String) (walked : walk env parseFloat now chain current seen = .ok result) =>
    (walk_pursues walked).unique pursues
  suffices result : ∃ result, walk env parseFloat now chain current seen = .ok result by
    obtain ⟨result,walked⟩ := result
    rw [← ended result walked,walked]
  clear ended pursues
  fun_induction walk env parseFloat now chain current seen with
  | case1 current seen e nextAt =>
    obtain ⟨found,other⟩ := calm current
    cases nextAt.symm.trans other
  | case2 current seen nextAt => exact ⟨current,rfl⟩
  | case3 current seen row nextAt next leads stale => exact ⟨current,rfl⟩
  | case4 current seen row nextAt next leads fresh ih => exact ih
  | case5 current seen row nextAt notText falsy => exact ⟨current,rfl⟩
  | case6 current seen row nextAt notText => exact (notText _ (plain row (nextRow_mem nextAt))).elim

end Walk

section History
variable (env : RotationEnv)

/-- A member that was registered with a key, the rows of the rotations that the server has
accepted since, and the keys it had. -/
inductive Rotated : String → List RotationRow → List String → Prop
  | registered {key : String} (named : key ≠ "") : Rotated key [] [key]
  | rotated {table : List RotationRow} {call : RotationCall} {row : RotationRow} {new : String} {rows :
      List RotationRow}
      {keys : List String} (named : call.storedPublicKey ≠ "")
      (accepted : acceptRotation env table call = (.ok new,some row)) (rest : Rotated new rows keys) :
      Rotated call.storedPublicKey (row :: rows) (call.storedPublicKey :: keys)

variable {env} {parseFloat : List Char → ℚ} {now : Seconds} {key : String} {rows : List RotationRow}
  {keys : List String}

theorem acceptRotation_row (now : Seconds) {table : List RotationRow} {call : RotationCall} {new : String}
    {row : RotationRow}
    (accepted : acceptRotation env table call = (.ok new,some row)) :
    row.oldPublicKey = call.storedPublicKey ∧ row.newPublicKey = new ∧ row.attestation = .obj call.attestation ∧
      new ≠ call.storedPublicKey ∧ new ≠ "" ∧
      verifyRecordedLink env.toCodec now call.attestation call.storedPublicKey env.chapterId = true := by
  unfold acceptRotation at accepted
  dsimp only at accepted
  split at accepted
  · cases accepted
  next valid =>
  split at accepted
  · cases accepted
  split at accepted
  · cases accepted
  split at accepted
  next =>
    rw [Prod.mk.injEq,Except.ok.injEq] at accepted
    obtain ⟨rfl,inserted⟩ := accepted
    have passed : (verifyAttestation env.toCodec env.chapterId call.now call.attestation call.storedPublicKey 300).1 =
        true := by
      simpa using valid
    obtain ⟨ts,verified,_⟩ := (verifyAttestation_true call.now 300).mp passed
    obtain ⟨named,filled⟩ := verified.newKey
    obtain ⟨_,_,key,_⟩ := insertRow_some inserted
    rw [fieldOf,named] at key
    have copied := insertRow_copies inserted
    refine ⟨copied.1,(Option.some.inj key).symm,copied.2,?_,filled,verifyRecordedLink_accepted (by decide) passed now⟩
    intro same
    exact verified.differs (by rw [named,same])
  next => cases accepted
  next => cases accepted

theorem Rotated.keys_eq (rotated : Rotated env key rows keys) : keys = key :: rows.map RotationRow.newPublicKey := by
  induction rotated with
  | registered => rfl
  | rotated named accepted rest ih =>
    obtain ⟨_,new,_⟩ := acceptRotation_row epoch accepted
    rw [ih,List.map_cons,new]

theorem Rotated.moves (rotated : Rotated env key rows keys) : ∀ (i : Nat) x y, keys[i]? = some x →
    keys[i+1]? = some y → x ≠ y := by
  induction rotated with
  | registered =>
    intro i x y _ after
    cases i <;> cases after
  | rotated named accepted rest ih =>
    intro i x y here after
    cases i with
    | zero =>
      obtain ⟨_,_,_,differs,_⟩ := acceptRotation_row epoch accepted
      rw [rest.keys_eq] at after
      cases here
      cases after
      exact Ne.symm differs
    | succ i => exact ih i x y here after

theorem Rotated.nextRow_ok (rotated : Rotated env key rows keys) (k : String) :
    ∃ found, nextRow env parseFloat now k rows = .ok found := by
  induction rotated with
  | registered => exact ⟨none,rfl⟩
  | rotated named accepted rest ih =>
    obtain ⟨_,_,attested,_⟩ := acceptRotation_row now accepted
    rw [nextRow,attested]
    dsimp only [attestationOf]
    split
    · exact ih
    · split
      · exact ⟨_,rfl⟩
      · exact ih

theorem Rotated.nextText_eq (rotated : Rotated env key rows keys) (plain : ∀ k ∈ keys, rowText parseFloat k = .str k)
    (k : String) : nextText env parseFloat now rows k = firstAfter keys k := by
  induction rotated with
  | registered => rfl
  | @rotated table call row new rows keys named accepted rest ih =>
    obtain ⟨old,leads,attested,_,filled,verified⟩ := acceptRotation_row now accepted
    have below := ih fun k inside => plain k (List.mem_cons_of_mem _ inside)
    rw [rest.keys_eq] at below plain ⊢
    rw [firstAfter]
    by_cases same : call.storedPublicKey = k
    · subst same
      rw [if_pos rfl]
      refine nextText_some.mpr ⟨row,?_,?_,filled⟩
      · rw [nextRow,old,plain _ (List.mem_cons_self ..),attested]
        simp [eqStr,attestationOf,verified]
      · rw [leads]
        exact plain new (List.mem_cons_of_mem _ (List.mem_cons_self ..))
    · rw [if_neg same,← below]
      unfold nextText
      rw [nextRow,old,plain _ (List.mem_cons_self ..)]
      simp [eqStr,same]

theorem Rotated.mem_named (rotated : Rotated env key rows keys) : ∀ k ∈ keys, k ≠ "" := by
  induction rotated with
  | registered named => simpa using named
  | rotated named accepted rest ih => exact List.forall_mem_cons.mpr ⟨named,ih⟩

theorem keyAfterRecordedRotations_walk (some_row : rows ≠ []) {hydrated : String} (named : hydrated ≠ "")
    {live : String} :
    keyAfterRecordedRotations env parseFloat now hydrated rows false = .ok (.str live) ↔
      walk env parseFloat now rows hydrated [hydrated] = .ok live := by
  unfold keyAfterRecordedRotations
  rw [List.getLast?_eq_some_getLast some_row]
  dsimp only
  rw [if_neg (by decide),if_neg named]
  cases walk env parseFloat now rows hydrated [hydrated] <;> simp [Except.map]

theorem nextRow_old {current : String} {row : RotationRow}
    (nextAt : nextRow env parseFloat now current rows = .ok (some row)) :
    rowText parseFloat row.oldPublicKey = .str current := by
  induction rows with
  | nil => cases nextAt
  | cons first rest ih =>
    rw [nextRow] at nextAt
    split at nextAt
    · exact ih nextAt
    next old =>
      split at nextAt
      · cases nextAt
      · split at nextAt
        · cases nextAt
          rw [Bool.not_eq_true,Bool.not_eq_false',eqStr_iff] at old
          exact Option.some.inj old
        · exact ih nextAt

theorem nextText_plain {x y : String} (onward : nextText env parseFloat now rows x = some y) :
    rowText parseFloat x = .str x ∧ rowText parseFloat y = .str y := by
  obtain ⟨row,nextAt,leads,_⟩ := nextText_some.mp onward
  have old := nextRow_old nextAt
  have left := rowText_str old
  have right := rowText_str leads
  rw [left] at old
  rw [right] at leads
  exact ⟨old,leads⟩

theorem Rotated.plain_of_walks (rotated : Rotated env key rows keys) (some_row : rows ≠ []) {live : String}
    (last : keys.getLast? = some live) (walks : ∀ k ∈ keys, walk env parseFloat now rows k [k] = .ok live) :
    ∀ k ∈ keys, rowText parseFloat k = .str k := by
  have ended : rowText parseFloat live = .str live := by
    have long : 2 ≤ keys.length := by
      have positive := List.length_pos_of_ne_nil some_row
      rw [rotated.keys_eq,List.length_cons,List.length_map]
      omega
    have final : keys[keys.length-1]? = some live := by rw [← List.getLast?_eq_getElem?]; exact last
    have before : keys[keys.length-2]? = some keys[keys.length-2] := List.getElem?_eq_getElem (by omega)
    have differ := rotated.moves (keys.length-2) _ live before (by rw [← final]; congr 1; omega)
    obtain ⟨_,y,onward⟩ := (walk_pursues (walks _ (List.getElem_mem _))).apart differ
    exact (nextText_plain onward).2
  intro k inside
  by_cases arrived : k = live
  · rw [arrived]
    exact ended
  · obtain ⟨⟨y,onward⟩,_⟩ := (walk_pursues (walks k inside)).apart arrived
    exact (nextText_plain onward).1

/-- For every history of accepted rotations: the boot comes from each of its keys to the
live one, exactly if the member never went back to an earlier key, and the keys of the rows
are no texts that `_rows` takes for JSON. -/
theorem rotation_survives_iff (rotated : Rotated env key rows keys) {live : String} (last : keys.getLast? = some live) :
    (∀ k ∈ keys, keyAfterRecordedRotations env parseFloat now k rows false = .ok (.str live)) ↔
      keys.Nodup ∧ (rows ≠ [] → ∀ k ∈ keys, rowText parseFloat k = .str k) := by
  cases rows with
  | nil =>
    obtain rfl := rotated.keys_eq
    obtain rfl : key = live := by simpa using last
    constructor
    · intro _
      exact ⟨List.nodup_singleton _,fun some_row => absurd rfl some_row⟩
    · intro _ k inside
      rw [List.mem_singleton.mp inside]
      rfl
  | cons row rest =>
    have some_row : row :: rest ≠ [] := List.cons_ne_nil _ _
    have same : (∀ k ∈ keys, keyAfterRecordedRotations env parseFloat now k (row :: rest) false = .ok (.str live)) ↔
        ∀ k ∈ keys, walk env parseFloat now (row :: rest) k [k] = .ok live :=
      forall₂_congr fun k inside => keyAfterRecordedRotations_walk some_row (rotated.mem_named k inside)
    rw [same]
    constructor
    · intro walks
      have plain := rotated.plain_of_walks some_row last walks
      refine ⟨(pursues_last_iff last rotated.moves).mp fun k inside => ?_,fun _ => plain⟩
      have pursues := walk_pursues (walks k inside)
      rwa [funext (rotated.nextText_eq plain)] at pursues
    · rintro ⟨distinct,plain⟩ k inside
      apply walk_of_pursues rotated.nextRow_ok
      · intro row member
        apply plain some_row
        rw [rotated.keys_eq]
        exact List.mem_cons_of_mem _ (List.mem_map_of_mem member)
      · rw [funext (rotated.nextText_eq (plain some_row))]
        exact (pursues_last_iff last rotated.moves).mpr distinct k inside

def handoverCall (old new nonce : String) : RotationCall :=
  ⟨"bob",handover old new nonce,old,epoch,.answered,.answered⟩

def handoverRow (old new nonce : String) : RotationRow where
  chapterId := "acme"
  agentId := "bob"
  oldPublicKey := old
  newPublicKey := new
  newDidKey := some ""
  attestation := .obj (handover old new nonce)
  nonce := nonce
  clientTimestamp := 0

theorem handover_accepted {old new : Char} {nonce : String}
    (verified : (verifyAttestation plainCodec "acme" epoch (handover (keyNamed old) (keyNamed new) nonce) (keyNamed old)
      300).1 = true) (apart : keyNamed old ≠ keyNamed new) :
    acceptRotation plainEnv [] (handoverCall (keyNamed old) (keyNamed new) nonce) =
      (.ok (keyNamed new),some (handoverRow (keyNamed old) (keyNamed new) nonce)) := by
  have writes : Writes plainEnv [] (handoverCall (keyNamed old) (keyNamed new) nonce) :=
    ⟨verified,rfl,rfl,fun kind => by simp [handoverCall]⟩
  have answered : (handoverCall (keyNamed old) (keyNamed new) nonce).write = .answered := rfl
  rw [acceptRotation_writes writes,if_pos answered]
  refine Prod.ext rfl ?_
  unfold insertRow
  exact if_neg apart

theorem keyNamed_ne {a b : Char} (apart : a ≠ b) : keyNamed a ≠ keyNamed b := by
  intro same
  have chars := congrArg String.toList same
  simp only [keyNamed,String.toList_ofList] at chars
  exact apart (List.replicate_right_inj (by decide) |>.mp chars)

theorem keyNamed_plain {c : Char} (brace : c ≠ '\x7b') (bracket : c ≠ '[') :
    rowText parseFloat (keyNamed c) = .str (keyNamed c) := by
  have starts : (keyNamed c).toList = c :: List.replicate 31 c := by
    rw [keyNamed,String.toList_ofList]
    rfl
  exact rowText_plain starts brace bracket

theorem handover_rotated : Rotated plainEnv (keyNamed 'a') [handoverRow (keyNamed 'a') (keyNamed 'b') "n1"]
    [keyNamed 'a',keyNamed 'b'] :=
  .rotated (by decide) (handover_accepted (by decide +kernel) (keyNamed_ne (by decide))) (.registered (by decide))

theorem handover_survives : keyAfterRecordedRotations plainEnv (fun _ => 0) epoch (keyNamed 'a')
    [handoverRow (keyNamed 'a') (keyNamed 'b') "n1"] false = .ok (.str (keyNamed 'b')) := by
  refine (rotation_survives_iff handover_rotated rfl).mpr ⟨?_,?_⟩ _ (List.mem_cons_self ..)
  · simp [keyNamed_ne]
  · intro _ k inside
    rcases List.mem_pair.mp inside with rfl | rfl
    · exact keyNamed_plain (by decide) (by decide)
    · exact keyNamed_plain (by decide) (by decide)

def thereAndBack : List RotationRow :=
  [handoverRow (keyNamed 'a') (keyNamed 'b') "n1",handoverRow (keyNamed 'b') (keyNamed 'a') "n2"]

theorem thereAndBack_undone : Rotated plainEnv (keyNamed 'a') thereAndBack [keyNamed 'a',keyNamed 'b',keyNamed 'a'] ∧
    keyAfterRecordedRotations plainEnv (fun _ => 0) epoch (keyNamed 'a') thereAndBack false =
      .ok (.str (keyNamed 'b')) ∧
    keyNamed 'b' ≠ keyNamed 'a' := by
  have away : keyNamed 'b' ≠ keyNamed 'a' := keyNamed_ne (by decide)
  have rotated : Rotated plainEnv (keyNamed 'a') thereAndBack [keyNamed 'a',keyNamed 'b',keyNamed 'a'] :=
    .rotated (by decide) (handover_accepted (by decide +kernel) away.symm)
      (.rotated (by decide) (handover_accepted (by decide +kernel) away) (.registered (by decide)))
  have plain : ∀ k ∈ [keyNamed 'a',keyNamed 'b',keyNamed 'a'], rowText (fun _ => 0) k = .str k := by
    intro k inside
    simp only [List.mem_cons,List.not_mem_nil,or_false] at inside
    rcases inside with rfl | rfl | rfl
    · exact keyNamed_plain (by decide) (by decide)
    · exact keyNamed_plain (by decide) (by decide)
    · exact keyNamed_plain (by decide) (by decide)
  have some_row : thereAndBack ≠ [] := List.cons_ne_nil _ _
  refine ⟨rotated,?_,away⟩
  refine (keyAfterRecordedRotations_walk some_row (by decide)).mpr (walk_of_pursues rotated.nextRow_ok ?_ ?_)
  · intro row member
    apply plain
    rw [rotated.keys_eq]
    exact List.mem_cons_of_mem _ (List.mem_map_of_mem member)
  · rw [funext (rotated.nextText_eq plain)]
    refine .goes (y := keyNamed 'b') (if_pos rfl) (by simpa using away) (.ends ?_)
    intro y onward
    rw [firstAfter,if_neg away.symm,firstAfter,if_pos rfl] at onward
    cases onward
    exact List.mem_cons_of_mem _ (List.mem_cons_self ..)

end History

section Forgery
variable (env : RotationEnv) (parseFloat : List Char → ℚ) (now : Seconds) (chain : List RotationRow)

inductive Walks (start : String) : String → List String → Prop
  | starts : Walks start start [start]
  | advances {current next : String} {seen : List String} (before : Walks start current seen)
      (onward : nextText env parseFloat now chain current = some next) (fresh : next ∉ seen) :
      Walks start next (next :: seen)

structure Advances (current : String) (seen : List String) (row : RotationRow) (next : String) : Prop where
  picked : nextRow env parseFloat now current chain = .ok (some row)
  leads : rowText parseFloat row.newPublicKey = .str next
  named : next ≠ ""
  fresh : next ∉ seen

def Skips (current : String) (row : RotationRow) : Prop :=
  rowText parseFloat row.oldPublicKey ≠ .str current ∨ ∃ fields, attestationOf row.attestation = .ok fields ∧
    verifyRecordedLink env.toCodec now fields current env.chapterId = false

/-- The first row of its old key whose attestation re-verifies under it. -/
def FirstLink (current : String) (row : RotationRow) (fields : Dict) : Prop :=
  (∃ before after, chain = before ++ row :: after ∧ ∀ r ∈ before, Skips env parseFloat now current r) ∧
    rowText parseFloat row.oldPublicKey = .str current ∧ row.attestation = .obj fields ∧
    verifyRecordedLink env.toCodec now fields current env.chapterId = true

/-- The attestation names this chapter, the agent and the new key. -/
structure Names (agentId newKey : String) (fields : Dict) : Prop where
  chapter : get fields "chapter_id" = some (.str env.chapterId)
  agent : get fields "agent_id" = some (.str agentId)
  key : get fields "new_public_key_b64" = some (.str newKey)

/-- The rows show signatures of messages only that the key has signed. -/
def Unforged (signed : Bytes → String → Prop) : Prop :=
  ∀ row ∈ chain, ∀ fields, row.attestation = .obj fields → ∀ key signature ts,
    env.toCodec.int (fieldOf fields "timestamp") = some ts → env.b64decode (fieldOf fields "signature") =
      .ok signature →
    env.nacl key (messageOf env.toCodec fields ts) signature = .valid → signed key (messageOf env.toCodec fields ts)

/-- The key has signed the attestation of the row, and this hands over to the new key. -/
def Vouched (signed : Bytes → String → Prop) (current : String) (row : RotationRow) (next : String) : Prop :=
  ∃ fields key ts, row.attestation = .obj fields ∧ Names env row.agentId next fields ∧
    env.b64decode (.str current) = .ok key ∧ signed key (messageOf env.toCodec fields ts)

variable {env parseFloat now chain} {start current : String} {seen : List String} {row : RotationRow}

theorem Walks.mem (walks : Walks env parseFloat now chain start current seen) : current ∈ seen := by
  cases walks <;> exact List.mem_cons_self ..

theorem Walks.named (walks : Walks env parseFloat now chain start current seen)
    (named : start ≠ "") : current ≠ "" := by
  cases walks with
  | starts => exact named
  | advances before onward fresh =>
    obtain ⟨_,_,_,filled⟩ := nextText_some.mp onward
    exact filled

theorem attestationOf_complete {value : Json} {fields : Dict} (read : attestationOf value = .ok fields)
    (verified : verifyRecordedLink env.toCodec now fields current env.chapterId = true) : value = .obj fields := by
  unfold attestationOf at read
  split at read
  · cases read
    rfl
  · cases read
    cases verified
  · cases read
  · cases read

theorem nextRow_skips (skips : Skips env parseFloat now current row) :
    nextRow env parseFloat now current (row :: chain) = nextRow env parseFloat now current chain := by
  rw [nextRow]
  split
  · rfl
  next own =>
    rw [Bool.not_eq_true,Bool.not_eq_false',eqStr_iff] at own
    rcases skips with other | ⟨fields,read,failed⟩
    · exact absurd (Option.some.inj own) other
    · rw [read]
      dsimp only
      rw [failed]
      rfl

theorem FirstLink.later {fields : Dict} {first : RotationRow} (skips : Skips env parseFloat now current first)
    (link : FirstLink env parseFloat now chain current row fields) :
    FirstLink env parseFloat now (first :: chain) current row fields := by
  obtain ⟨⟨before,after,whole,skip⟩,links⟩ := link
  refine ⟨⟨first :: before,after,?_,List.forall_mem_cons.mpr ⟨skips,skip⟩⟩,links⟩
  rw [whole,List.cons_append]

theorem nextRow_some : nextRow env parseFloat now current chain = .ok (some row) ↔
    ∃ fields, FirstLink env parseFloat now chain current row fields := by
  constructor
  · intro picked
    induction chain with
    | nil => cases picked
    | cons first rest ih =>
      rw [nextRow] at picked
      split at picked
      next other =>
        rw [Bool.not_eq_true',← Bool.not_eq_true,eqStr_iff,Option.some.injEq] at other
        obtain ⟨fields,link⟩ := ih picked
        exact ⟨fields,link.later (Or.inl other)⟩
      next own =>
      split at picked
      · cases picked
      next fields read =>
      split at picked
      next verified =>
        cases picked
        rw [Bool.not_eq_true,Bool.not_eq_false',eqStr_iff] at own
        exact ⟨fields,⟨[],rest,rfl,fun r absent => absurd absent List.not_mem_nil⟩,Option.some.inj own,
          attestationOf_complete read verified,verified⟩
      next failed =>
        obtain ⟨other,link⟩ := ih picked
        exact ⟨other,link.later (Or.inr ⟨fields,read,by simpa using failed⟩)⟩
  · rintro ⟨fields,⟨before,after,rfl,skip⟩,old,attested,verified⟩
    induction before with
    | nil =>
      rw [List.nil_append,nextRow,old,attested]
      simp [eqStr,attestationOf,verified]
    | cons first before ih =>
      rw [List.cons_append,nextRow_skips (skip first (List.mem_cons_self ..))]
      exact ih fun r inside => skip r (List.mem_cons_of_mem _ inside)

/-- For every chain, whatever its rows hold: from every key each advance of the walk is to
a key that the key before has signed for, in an attestation that names the chapter, the
agent of the row and that key, exactly if the first row of each old key whose attestation
re-verifies under it, where it leads elsewhere, has in its columns what its attestation says. -/
theorem walk_vouched_iff {signed : Bytes → String → Prop} (unforged : Unforged env chain signed) :
    (∀ start, start ≠ "" → ∀ current seen, Walks env parseFloat now chain start current seen →
      ∀ row next, Advances env parseFloat now chain current seen row next → Vouched env signed current row next) ↔
    ∀ current row fields, current ≠ "" → FirstLink env parseFloat now chain current row fields →
      row.newPublicKey ≠ "" → row.newPublicKey ≠ current →
      rowText parseFloat row.newPublicKey = .str row.newPublicKey → Names env row.agentId row.newPublicKey fields := by
  constructor
  · intro vouched current row fields named link filled differs leads
    obtain ⟨other,_,_,attested,names,_⟩ := vouched current named current [current] .starts row row.newPublicKey
      ⟨nextRow_some.mpr ⟨fields,link⟩,leads,filled,by simpa using differs⟩
    cases link.2.2.1.symm.trans attested
    exact names
  · intro agree start named current seen walks row next advances
    obtain ⟨fields,link⟩ := nextRow_some.mp advances.picked
    obtain rfl := rowText_str advances.leads
    have elsewhere : row.newPublicKey ≠ current := by
      intro same
      exact advances.fresh (same ▸ walks.mem)
    have names := agree current row fields (walks.named named) link advances.named elsewhere advances.leads
    obtain ⟨⟨before,after,whole,_⟩,old,attested,verified⟩ := link
    obtain ⟨ts,verified,_⟩ := (verifyAttestation_true now noReplayWindow).mp verified
    obtain ⟨key,decoded,signed⟩ := bind_success _ _ _ verified.signed
    obtain ⟨_,_,signed⟩ := bind_success _ _ _ signed
    obtain ⟨signature,shown,signed⟩ := bind_success _ _ _ signed
    have member : row ∈ chain := by
      rw [whole]
      exact List.mem_append_right _ (List.mem_cons_self ..)
    exact ⟨fields,key,ts,attested,names,decoded,
      unforged row member fields attested key signature ts verified.made shown (Except.ok.inj signed)⟩

/-- The one message that was signed: the key of a's hands over to that of b's. -/
def handoverSigned (key : Bytes) (message : String) : Prop :=
  plainCodec.b64decode (.str (keyNamed 'a')) = .ok key ∧
    message = messageOf plainCodec (handover (keyNamed 'a') (keyNamed 'b') "n1") 0

theorem handover_unforged {rows : List RotationRow}
    (copied : ∀ row ∈ rows, row.attestation = .obj (handover (keyNamed 'a') (keyNamed 'b') "n1")) :
    Unforged plainEnv rows handoverSigned := by
  intro row inside fields attested key signature ts made shown valid
  cases (copied row inside).symm.trans attested
  cases made
  refine ⟨?_,rfl⟩
  have same : key = signature := by
    by_contra differ
    have refused : plainEnv.nacl key (messageOf plainEnv.toCodec (handover (keyNamed 'a') (keyNamed 'b') "n1") 0)
      signature =
      .badSignature := if_neg differ
    cases refused.symm.trans valid
  rw [same]
  exact shown

theorem handover_link {row : RotationRow} (old : row.oldPublicKey = keyNamed 'a')
    (copied : row.attestation = .obj (handover (keyNamed 'a') (keyNamed 'b') "n1")) :
    FirstLink plainEnv parseFloat epoch [row] (keyNamed 'a') row (handover (keyNamed 'a') (keyNamed 'b') "n1") := by
  refine ⟨⟨[],[],rfl,fun r absent => absurd absent List.not_mem_nil⟩,?_,copied,by decide +kernel⟩
  rw [old]
  exact keyNamed_plain (by decide) (by decide)

theorem handover_vouched : Vouched plainEnv handoverSigned (keyNamed 'a')
    (handoverRow (keyNamed 'a') (keyNamed 'b') "n1") (keyNamed 'b') := by
  have unforged : Unforged plainEnv [handoverRow (keyNamed 'a') (keyNamed 'b') "n1"] handoverSigned := by
    apply handover_unforged
    intro row inside
    rw [List.mem_singleton.mp inside]
    rfl
  have link : FirstLink plainEnv (fun _ => 0) epoch [handoverRow (keyNamed 'a') (keyNamed 'b') "n1"] (keyNamed 'a')
    (handoverRow (keyNamed 'a') (keyNamed 'b') "n1") (handover (keyNamed 'a') (keyNamed 'b') "n1") :=
      handover_link rfl rfl
  refine (walk_vouched_iff unforged).mpr ?_ (keyNamed 'a') (by decide) (keyNamed 'a') [keyNamed 'a'] .starts _ _
    ⟨nextRow_some.mpr ⟨_,link⟩,keyNamed_plain (by decide) (by decide),by decide,?_⟩
  · rintro current row fields _ ⟨⟨before,after,whole,_⟩,_,attested,_⟩ _ _ _
    have member : row ∈ [handoverRow (keyNamed 'a') (keyNamed 'b') "n1"] := by
      rw [whole]
      exact List.mem_append_right _ (List.mem_cons_self ..)
    obtain rfl := List.mem_singleton.mp member
    cases attested
    exact ⟨rfl,rfl,rfl⟩
  · simpa using keyNamed_ne (by decide)

def forgedRow : RotationRow := { handoverRow (keyNamed 'a') (keyNamed 'b') "n1" with newPublicKey := keyNamed 'c' }

theorem unsigned_key {fields : Dict} {ts : Int} {key : Bytes} (names : Names plainEnv "bob" (keyNamed 'c') fields) :
    ¬ handoverSigned key (messageOf plainCodec fields ts) := by
  rintro ⟨_,same⟩
  have chapter : fieldOf fields "chapter_id" = .str "acme" := by rw [fieldOf,names.chapter]; rfl
  have agent : fieldOf fields "agent_id" = .str "bob" := by rw [fieldOf,names.agent]; rfl
  have newKey : fieldOf fields "new_public_key_b64" = .str (keyNamed 'c') := by rw [fieldOf,names.key]; rfl
  rw [messageOf,chapter,agent,newKey] at same
  -- the messages differ in the first letter of the key
  have letter := congrArg (fun text => text.toList[16]?) same
  simp only [rotationMessage,messageOf,String.toList_append] at letter
  change some 'c' = some 'b' at letter
  cases letter

theorem forged_moves : Unforged plainEnv [forgedRow] handoverSigned ∧
    keyAfterRecordedRotations plainEnv (fun _ => 0) epoch (keyNamed 'a') [forgedRow] false = .ok (.str (keyNamed 'c')) ∧
    ¬ ∃ fields ts key, Names plainEnv "bob" (keyNamed 'c') fields ∧
      handoverSigned key (messageOf plainCodec fields ts) := by
  have unforged : Unforged plainEnv [forgedRow] handoverSigned := by
    apply handover_unforged
    intro row inside
    rw [List.mem_singleton.mp inside]
    rfl
  have plain (c : Char) (brace : c ≠ '\x7b') (bracket : c ≠ '[') : rowText (fun _ => 0) (keyNamed c) = .str (keyNamed c) :=
    keyNamed_plain brace bracket
  have some_row : [forgedRow] ≠ [] := List.cons_ne_nil _ _
  refine ⟨unforged,?_,?_⟩
  · refine (keyAfterRecordedRotations_walk some_row (by decide)).mpr (walk_of_pursues ?_ ?_ ?_)
    · intro k
      rw [nextRow]
      split
      · exact ⟨none,rfl⟩
      · dsimp only [attestationOf,forgedRow,handoverRow]
        split
        · exact ⟨_,rfl⟩
        · exact ⟨none,rfl⟩
    · intro row inside
      rw [List.mem_singleton.mp inside]
      exact plain 'c' (by decide) (by decide)
    · have onward : nextText plainEnv (fun _ => 0) epoch [forgedRow] (keyNamed 'a') = some (keyNamed 'c') :=
        nextText_some.mpr ⟨forgedRow,nextRow_some.mpr ⟨_,handover_link rfl rfl⟩,plain 'c' (by decide) (by decide),
          by decide⟩
      refine .goes onward (by simpa using keyNamed_ne (by decide)) (.ends ?_)
      intro y further
      obtain ⟨row,picked,_⟩ := nextText_some.mp further
      have old := nextRow_old picked
      rw [List.mem_singleton.mp (nextRow_mem picked)] at old
      exact absurd (rowText_str old) (keyNamed_ne (by decide))
  · rintro ⟨fields,ts,key,names,signed⟩
    exact unsigned_key names signed

end Forgery
end Orrery.Chapter
