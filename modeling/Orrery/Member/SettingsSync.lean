import Orrery.Foundation.DeepMerge
import Orrery.Foundation.Runs
import Orrery.Foundation.Tables

/-! The settings of a member (agent/community_member/settings_sync.py): the cache, the
queue of what the chapter has not confirmed (outbox.py), and the chapter, which merges each
patch it receives. Moments are counted in seconds. -/
namespace Orrery.Member
open Foundation Json

abbrev Settings := PyDict

def knownTopLevelKeys : List String := ["llm","voice","channels","trust","privacy"]

def defaults : Settings where
  items :=
    [("llm",.obj [("provider",.str "anthropic"),("model",.str "claude-opus-4-7")]),
      ("voice",.obj [("stt_provider",.null),("tts_provider",.null),("wake_word",.bool false),
        ("always_on",.bool false)]),
      ("channels",.obj [("slack",.obj [("enabled",.bool false)]),("email",.obj [("enabled",.bool false)])]),
      ("trust",.obj []),("privacy",.obj [("telemetry",.bool false)])]
  distinct := by simp [Distinct,DistinctFields]

def maxSettingsBytes : ℕ := 64*1024

def validatePatch (floatRepr : ℚ → List Char) (patch : Settings) : Bool :=
  (dumps floatRepr .plain (.obj patch.items)).length ≤ maxSettingsBytes &&
    patch.items.all fun field => field.1 ∈ knownTopLevelKeys

def stamped (settings : Settings) (cachedAt : String) : Settings :=
  settings.set "_cached_at" (.str cachedAt) (distinct_str cachedAt)

def isPublic (key : String) : Bool := !(key.startsWith "_")

def stripMeta (settings : Settings) : Settings := settings.restrict isPublic

structure Entry where
  sequence : ℕ
  patch : Settings
  createdAt : Int
  attempts : ℕ
  nextRetryAt : Int

def backoffBaseSec : ℕ := 10
def backoffCapSec : ℕ := 600

def backoff (attempts : ℕ) : ℕ := min (backoffBaseSec*2^min (attempts-1) 8) backoffCapSec

def Entry.failed (entry : Entry) (now : Int) : Entry :=
  { entry with attempts := entry.attempts+1, nextRetryAt := now+backoff (entry.attempts+1) }

theorem Entry.failed_sequence (entry : Entry) (now : Int) : (entry.failed now).sequence = entry.sequence := rfl

structure Read where
  returned : Settings
  history : List Settings

/-- A member's machine with its cache file and its outbox, whose rows come in the order of
their sequence; the chapter; and what has been asked and read. -/
structure Device where
  chapter : Settings
  cache : Option Settings
  outbox : Table Entry ℕ Entry.sequence
  nextSequence : ℕ
  history : List Settings
  reads : List Read

/-- Whether a request reaches the chapter, and whether its answer comes back. -/
structure Delivery where
  lands : Bool
  answers : Bool

/-- What becomes of an entry of a drain, and the time when its failure is noted. -/
structure Attempt where
  delivery : Delivery
  time : Int

inductive Move
  | push (patch : Settings) (delivery : Delivery) (now : Int) (cachedAt : String)
  | drain (now : Int) (attempts : ℕ → Attempt)
  | syncOnStartup (answers : Bool) (cachedAt : String)
  | effectiveSettings (answers : Bool) (cachedAt : String)

section Functions
variable (m : Device)

def Device.readLocal : Settings := m.cache.getD .empty

def Device.writeLocal (settings : Settings) (cachedAt : String) : Device :=
  { m with cache := some (stamped settings cachedAt) }

def Device.lands (patch : Settings) (delivery : Delivery) : Device :=
  if delivery.lands then { m with chapter := m.chapter.merge patch } else m

def Device.enqueue (patch : Settings) (now : Int) : Device :=
  { m with outbox := m.outbox.insert ⟨m.nextSequence,patch,now,0,now⟩, nextSequence := m.nextSequence+1 }

/-- `push_to_chapter`, of a patch that is valid, with what it returns: the chapter's view
is cached, or the patch is queued and the cache takes it. -/
def Device.push (patch : Settings) (delivery : Delivery) (now : Int) (cachedAt : String) : Settings × Device :=
  let sent := m.lands patch delivery
  let told := { sent with history := patch :: m.history }
  if delivery.lands && delivery.answers then (sent.chapter,told.writeLocal (stripMeta sent.chapter) cachedAt)
  else ((m.readLocal.merge patch).set "_queued" (.bool true) (distinct_bool true),
    (told.enqueue patch now).writeLocal (m.readLocal.merge patch) cachedAt)

def Device.markFailure (sequence : ℕ) (now : Int) : Table Entry ℕ Entry.sequence :=
  m.outbox.update (fun row => row.sequence = sequence) (·.failed now) fun row => row.failed_sequence now

def Device.replay (entry : Entry) (attempt : Attempt) : Device :=
  let sent := m.lands entry.patch attempt.delivery
  if attempt.delivery.lands && attempt.delivery.answers then { sent with outbox := m.outbox.remove entry.sequence }
  else { sent with outbox := m.markFailure entry.sequence attempt.time }

def Device.due (now : Int) : List Entry := (m.outbox.select fun entry => entry.nextRetryAt ≤ now).take 100

def Device.drain (now : Int) (attempts : ℕ → Attempt) : Device :=
  (m.due now).foldl (fun m entry => m.replay entry (attempts entry.sequence)) m

structure DrainStats where
  attempted : ℕ
  succeeded : ℕ
  deferred : ℕ
  failed : ℕ
  remaining : ℕ

def Device.drainStats (now : Int) (attempts : ℕ → Attempt) : DrainStats where
  attempted := (m.due now).length
  succeeded := (m.due now).countP fun entry =>
    (attempts entry.sequence).delivery.lands && (attempts entry.sequence).delivery.answers
  deferred := 0
  failed := (m.due now).countP fun entry =>
    !((attempts entry.sequence).delivery.lands && (attempts entry.sequence).delivery.answers)
  remaining := (m.drain now attempts).outbox.rows.length

def Device.pull (answers : Bool) (cachedAt : String) : Settings × Device :=
  if answers then (defaults.merge m.chapter,m.writeLocal m.chapter cachedAt)
  else if m.readLocal.items.isEmpty then (defaults,m)
  else (defaults.merge (stripMeta m.readLocal),m)

end Functions

def Device.step (floatRepr : ℚ → List Char) (m : Device) : Move → Option Device
  | .push patch delivery now cachedAt =>
    if validatePatch floatRepr patch then some (m.push patch delivery now cachedAt).2 else none
  | .drain now attempts => some (m.drain now attempts)
  | .syncOnStartup answers cachedAt => some (m.pull answers cachedAt).2
  | .effectiveSettings answers cachedAt =>
    some { (m.pull answers cachedAt).2 with reads := ⟨(m.pull answers cachedAt).1,m.history⟩ :: m.reads }

def Device.opened (chapter : Settings) (cache : Option Settings) : Device := ⟨chapter,cache,.empty,1,[],[]⟩

end Orrery.Member
