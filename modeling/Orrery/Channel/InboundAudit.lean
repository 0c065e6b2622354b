import Orrery.Foundation.Chains
import Orrery.Foundation.Runs
import Orrery.Foundation.JsonLines

/-! The audit log of inbound webhooks (agent/community_member/channel_receiver.py): a file
of JSON lines, each with the hash of the line before it, which the process that writes it
remembers in its inbox. -/
namespace Orrery.Channel
open Foundation Json JsonLines Chains

/-- What the standard library does: reading and writing floats, and SHA-256 in hex. -/
structure Host where
  parseFloat : List Char → ℚ
  floatRepr : ℚ → List Char
  floatRepr_plain : ∀ q, Plain (floatRepr q)
  sha256Hex : List Char → String
  sha256Hex_filled : ∀ text, sha256Hex text ≠ ""

def orElse (found : Option Json) (other : Json) : Json :=
  match found with
  | some value => if value.truthy then value else other
  | none => other

section Model
variable (host : Host)

def canonicalEvent (event : Json) : List Char := dumps host.floatRepr .canonical event

def auditPayload (now : String) (event : Dict) (prevSha : String) : Dict :=
  [("kind",(get event "kind").getD (.str "")),("remote_id",(get event "remote_id").getD (.str "")),
    ("sender",(get event "sender").getD (.str "unknown")),("body",(get event "body").getD (.obj [])),
    ("received_at",orElse (get event "received_at") (.str now)),
    ("session_scope",(get event "session_scope").getD (.str "")),
    ("prev_sha256",if prevSha = "" then .null else .str prevSha)]

def appendAudit (now : String) (file : Option (List Char)) (event : Dict) (prevSha : String) : List Char × String :=
  let payload := auditPayload now event prevSha
  let eventSha := host.sha256Hex (canonicalEvent host (.obj payload))
  (file.getD [] ++ writeLine host.floatRepr .canonical (.obj (setItem payload "event_sha256" (.str eventSha))),eventSha)

def readAudit (file : Option (List Char)) : List Json :=
  match file with
  | none => []
  | some text => readLines host.parseFloat text

def recomputed (r : Dict) : Dict :=
  (["kind","remote_id","sender","body","received_at","session_scope"].map fun key => (key,(get r key).getD .null)) ++
    [("prev_sha256",orElse (get r "prev_sha256") .null)]

def checkRows : Nat → String → List Json → Except Exc (Bool × Int)
  | _, _, [] => .ok (true,-1)
  | i, prev, .obj r :: rest =>
    let expected := host.sha256Hex (canonicalEvent host (.obj (recomputed r)))
    if ¬ eqStr (get r "event_sha256") expected then .ok (false,i)
    else if ¬ eqStr (some (orElse (get r "prev_sha256") (.str ""))) prev then .ok (false,i)
    -- the stored hash is the expected one here
    else checkRows (i+1) expected rest
  | _, _, r :: _ => .error (.attributeError s!"'{r.typeName}' object has no attribute 'get'")

def verifyAuditChain (file : Option (List Char)) : Except Exc (Bool × Int) := checkRows host 0 "" (readAudit host file)

structure Delivery where
  kind : String
  remoteId : Json
  sender : Json
  body : Json
  sessionScope : String
  receivedAt : String
  now : String
  proper : Proper host.parseFloat host.floatRepr remoteId ∧ Proper host.parseFloat host.floatRepr sender ∧
    Proper host.parseFloat host.floatRepr body

structure InboxItem where
  kind : String
  remoteId : Json
  sender : Json
  body : Json
  sessionScope : String
  eventSha256 : String

structure Inbox where
  queue : List InboxItem
  lastSha : String

def Inbox.new : Inbox := ⟨[],""⟩

structure Receiver where
  file : Option (List Char)
  inbox : Inbox

def Receiver.installed : Receiver := ⟨none,.new⟩

variable {host}

def Delivery.event (d : Delivery host) : Dict :=
  [("kind",.str d.kind),("remote_id",d.remoteId),("sender",d.sender),("body",d.body),
    ("session_scope",.str d.sessionScope),("received_at",.str d.receivedAt)]

def ingest (d : Delivery host) (s : Receiver) : Receiver × InboxItem :=
  let (text,sha) := appendAudit host d.now s.file d.event s.inbox.lastSha
  let item := ⟨d.kind,d.remoteId,d.sender,d.body,d.sessionScope,sha⟩
  (⟨some text,⟨s.inbox.queue ++ [item],sha⟩⟩,item)

variable (host)

inductive Move
  | deliver (d : Delivery host)
  | restart

variable {host}

def Receiver.step (s : Receiver) : Move host → Receiver
  | .deliver d => (ingest d s).1
  | .restart => { s with inbox := .new }

end Model

section Rows
variable {host : Host}

structure Entry (host : Host) extends Delivery host where
  prev : String

def Entry.payload (e : Entry host) : Dict := auditPayload e.now e.event e.prev

def Entry.sha (e : Entry host) : String := host.sha256Hex (canonicalEvent host (.obj e.payload))

def Entry.line (e : Entry host) : Dict := setItem e.payload "event_sha256" (.str e.sha)

def Entry.Follows (previous : Option (Entry host)) (e : Entry host) : Prop := e.prev = (previous.map Entry.sha).getD ""

def Entry.moment (e : Entry host) : String := if e.receivedAt = "" then e.now else e.receivedAt

theorem Entry.payload_eq (e : Entry host) : e.payload = [("kind",.str e.kind),("remote_id",e.remoteId),
    ("sender",e.sender),("body",e.body),("received_at",.str e.moment),("session_scope",.str e.sessionScope),
    ("prev_sha256",if e.prev = "" then .null else .str e.prev)] := by
  have moment : orElse (get e.event "received_at") (.str e.now) = .str e.moment := by
    by_cases empty : e.receivedAt = ""
    · simp [Entry.moment,Delivery.event,get_cons,orElse,truthy,empty]
    · simp [Entry.moment,Delivery.event,get_cons,orElse,truthy,empty]
  rw [Entry.payload,auditPayload,moment]
  simp [Delivery.event,get_cons]

theorem Entry.line_eq (e : Entry host) : e.line = e.payload ++ [("event_sha256",.str e.sha)] := by
  unfold Entry.line
  apply setItem_new
  simp [Entry.payload_eq]

theorem Entry.line_proper (e : Entry host) : Proper host.parseFloat host.floatRepr (.obj e.line) := by
  refine proper_setItem ⟨?_,?_⟩ _ trivial
  · simp [Entry.payload_eq]
  · obtain ⟨remote,sender,body⟩ := e.proper
    have prev : Proper host.parseFloat host.floatRepr (if e.prev = "" then .null else .str e.prev) := by
      split
      · trivial
      · trivial
    rw [Entry.payload_eq]
    exact ⟨trivial,remote,sender,body,trivial,trivial,prev,trivial⟩

def Entry.row (e : Entry host) : Dict := sortFields (orderedFields e.line)

theorem Entry.get_row (e : Entry host) (key : String) : get e.row key = (get e.line key).map ordered :=
  get_sortFields e.line key

theorem Entry.row_sha (e : Entry host) : get e.row "event_sha256" = some (.str e.sha) := by
  rw [Entry.get_row,Entry.line_eq,Entry.payload_eq]
  simp [get_cons,ordered]

theorem Entry.row_prev (e : Entry host) (other : Json) :
    orElse (get e.row "prev_sha256") other = if e.prev = "" then other else .str e.prev := by
  rw [Entry.get_row,Entry.line_eq,Entry.payload_eq]
  by_cases empty : e.prev = ""
  · simp [get_cons,empty,orElse,ordered,truthy]
  · simp [get_cons,empty,orElse,ordered,truthy]

theorem Entry.canonical_row (e : Entry host) :
    canonicalEvent host (.obj (recomputed e.row)) = canonicalEvent host (.obj e.payload) := by
  have fields : recomputed e.row = orderedFields e.payload := by
    have prev : ordered (if e.prev = "" then Json.null else .str e.prev) = if e.prev =
        "" then .null else .str e.prev := by
      split
      · rfl
      · rfl
    rw [recomputed,e.row_prev .null,Entry.payload_eq]
    simp only [Entry.get_row,Entry.line_eq,Entry.payload_eq]
    simp [get_cons,orderedFields,prev]
  have same : ordered (.obj (recomputed e.row)) = ordered (.obj e.payload) := by
    apply ordered_obj
    rw [fields,orderedFields_eq,orderedFields_eq,List.map_map]
    simp [Function.comp_def,ordered_ordered]
  have sorts : Layout.canonical.sortKeys = true := rfl
  unfold canonicalEvent
  rw [← dumps_of_ordered _ sorts,same,dumps_of_ordered _ sorts]

theorem checkRows_entries (entries : List (Entry host)) : ∀ (i : Nat) (previous : Option (Entry host)),
    checkRows host i ((previous.map Entry.sha).getD "") (entries.map fun e => .obj e.row) = .ok (true,-1) ↔
      Linked Entry.Follows previous entries := by
  induction entries with
  | nil => exact fun _ _ => iff_of_true rfl trivial
  | cons e entries ih =>
    intro i previous
    have expected : host.sha256Hex (canonicalEvent host (.obj (recomputed e.row))) = e.sha := by
      rw [e.canonical_row]
      rfl
    have link : eqStr (some (orElse (get e.row "prev_sha256") (.str ""))) ((previous.map Entry.sha).getD "") = true ↔
        e.Follows previous := by
      rw [e.row_prev,eqStr_iff,Entry.Follows]
      by_cases empty : e.prev = ""
      · simp [empty]
      · simp [empty]
    have rest := ih (i+1) (some e)
    rw [Option.map_some,Option.getD_some] at rest
    rw [List.map_cons,checkRows,expected,e.row_sha,if_neg (by simp [eqStr]),Linked,← link,← rest]
    split
    next broken =>
      rw [Bool.not_eq_true] at broken
      simp [broken]
    next whole =>
      rw [not_not] at whole
      simp [whole]

end Rows

section Lives
variable {host : Host}

structure Logged (s : Receiver) (entries : List (Entry host)) : Prop where
  file : s.file.getD [] = entries.flatMap fun e => writeLine host.floatRepr .canonical (.obj e.line)
  last : s.inbox.lastSha = "" ∨ s.inbox.lastSha = (entries.getLast?.map Entry.sha).getD ""

theorem Logged.read {s : Receiver} {entries : List (Entry host)} (logged : Logged s entries) :
    readAudit host s.file = entries.map fun e => .obj e.row := by
  have proper : ∀ row ∈ entries.map Entry.line, Proper host.parseFloat host.floatRepr (.obj row) := by
    intro row member
    obtain ⟨e,_,rfl⟩ := List.mem_map.mp member
    exact e.line_proper
  have lines := readLines_written Layout.canonical_readable rfl host.floatRepr_plain
    ⟨plain_of rfl,plain_of rfl⟩ _ proper
  rw [List.flatMap_map,List.map_map] at lines
  have text : readAudit host s.file = readLines host.parseFloat (s.file.getD []) := by
    cases s.file with
    | none => rfl
    | some text => rfl
  rw [text,logged.file]
  exact lines

theorem Logged.verified_iff {s : Receiver} {entries : List (Entry host)} (logged : Logged s entries) :
    verifyAuditChain host s.file = .ok (true,-1) ↔ Linked Entry.Follows none entries := by
  rw [verifyAuditChain,logged.read]
  exact checkRows_entries entries 0 none

theorem logged_installed : Logged .installed ([] : List (Entry host)) := ⟨rfl,Or.inl rfl⟩

theorem Logged.restart {s : Receiver} {entries : List (Entry host)} (logged : Logged s entries) :
    Logged (s.step (.restart : Move host)) entries := ⟨logged.file,Or.inl rfl⟩

def Receiver.entry (s : Receiver) (d : Delivery host) : Entry host := ⟨d,s.inbox.lastSha⟩

theorem Logged.deliver {s : Receiver} {entries : List (Entry host)} (logged : Logged s entries) (d : Delivery host) :
    Logged (s.step (.deliver d)) (entries ++ [s.entry d]) := by
  constructor
  · rw [List.flatMap_append,← logged.file,List.flatMap_singleton]
    rfl
  · rw [List.getLast?_append]
    exact Or.inr rfl

def Receiver.WellLogged (host : Host) (s : Receiver) : Prop := ∃ entries : List (Entry host), Logged s entries

theorem Receiver.WellLogged.step {s : Receiver} (logged : s.WellLogged host) (move : Move host) :
    (s.step move).WellLogged host := by
  obtain ⟨entries,logged⟩ := logged
  cases move with
  | deliver d => exact ⟨_,logged.deliver d⟩
  | restart => exact ⟨_,logged.restart⟩

def Move.Chained (s : Receiver) : Move host → Prop
  | .deliver _ => s.inbox.lastSha = "" → readAudit host s.file = []
  | .restart => True

theorem Entry.sha_filled (e : Entry host) : e.sha ≠ "" := host.sha256Hex_filled _

theorem Logged.follows_iff {s : Receiver} {entries : List (Entry host)} (logged : Logged s entries)
    (d : Delivery host) :
    (s.entry d).Follows entries.getLast? ↔ (Move.deliver d).Chained s := by
  rw [Entry.Follows,Move.Chained,logged.read,List.map_eq_nil_iff]
  change s.inbox.lastSha = _ ↔ _
  cases last : entries.getLast? with
  | none =>
    have empty : entries = [] := List.getLast?_eq_none_iff.mp last
    have unknown : s.inbox.lastSha = "" := by simpa [last] using logged.last
    exact iff_of_true unknown fun _ => empty
  | some e =>
    have filled : entries ≠ [] := by
      intro empty
      rw [empty] at last
      cases last
    have known : s.inbox.lastSha = "" ∨ s.inbox.lastSha = e.sha := by simpa [last] using logged.last
    constructor
    · intro same unknown
      exact absurd (same.symm.trans unknown) e.sha_filled
    · intro chained
      rcases known with unknown | same
      · exact absurd (chained unknown) filled
      · exact same

theorem verified_step (s : Receiver) (move : Move host) (logged : s.WellLogged host)
    (verified : verifyAuditChain host s.file = .ok (true,-1)) :
    verifyAuditChain host (s.step move).file = .ok (true,-1) ↔ move.Chained s := by
  obtain ⟨entries,logged⟩ := logged
  cases move with
  | restart => exact iff_of_true verified trivial
  | deliver d =>
    have before := logged.verified_iff.mp verified
    rw [(logged.deliver d).verified_iff,← logged.follows_iff]
    constructor
    · intro linked
      simpa using linked_last linked
    · intro follows
      exact linked_append before (by simpa using follows)

/-- The audit log verifies after every step of a run exactly when no process appends to
rows that a process before it logged. -/
theorem alarm_free_iff (moves : List (Move host)) :
    (∀ k, verifyAuditChain host ((moves.take k).foldl Receiver.step .installed).file = .ok (true,-1)) ↔
      ∀ (k : Nat) move, moves[k]? = some move → move.Chained ((moves.take k).foldl Receiver.step .installed) :=
  Runs.always_iff (I := Receiver.WellLogged host) (P := fun s => verifyAuditChain host s.file = .ok (true,-1))
    (fun _ move logged => logged.step move) verified_step moves _ ⟨_,logged_installed⟩
    (logged_installed.verified_iff.mpr trivial)

end Lives

def sampleHost : Host where
  parseFloat := fun _ => 1
  floatRepr := fun _ => ['1','.','0']
  floatRepr_plain _ := plain_of rfl
  sha256Hex := fun text => String.ofList ('h' :: text)
  sha256Hex_filled := by
    intro text empty
    have empty := congrArg String.toList empty
    simp at empty

def sampleDelivery : Delivery sampleHost where
  kind := "generic"
  remoteId := .str "mailbox-1"
  sender := .str "alice"
  body := .obj [("text",.str "hello")]
  sessionScope := "agent:channel:generic:dm:alice"
  receivedAt := "2026-01-01T00:00:00+00:00"
  now := "2026-01-01T00:00:00+00:00"
  proper := ⟨trivial,trivial,by simp,trivial,trivial⟩

/-- Two genuine deliveries with a restart between them. -/
theorem restart_between_deliveries_alarms :
    verifyAuditChain sampleHost (([.deliver sampleDelivery,.restart,.deliver sampleDelivery] :
      List (Move sampleHost)).foldl Receiver.step .installed).file ≠ .ok (true,-1) := by
  have logged := (logged_installed.deliver sampleDelivery).restart
  rw [List.foldl_cons,List.foldl_cons,List.foldl_cons,List.foldl_nil,Ne,
    verified_step _ _ ⟨_,logged⟩ (logged.verified_iff.mpr ⟨rfl,trivial⟩)]
  intro chained
  have none := chained rfl
  rw [logged.read] at none
  cases none

end Orrery.Channel
