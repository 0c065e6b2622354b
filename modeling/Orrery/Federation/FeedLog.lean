import Mathlib.Data.List.MinMax
import Orrery.Chapter.PgStore
import Orrery.Foundation.Procs
import Orrery.Foundation.Tables

/-! The log of the federation feed (server/federation_feed.py): appending to it, reading a
page of it, and the table that holds it. -/
namespace Orrery.Federation
open Foundation Json Chapter

/-- A row of `federation_feed_entries`: its columns are those of the signed entry, which
is stored with them as the text of a document. -/
structure FeedEntry where
  seq : ℕ
  feedId : String
  prevHash : Option String
  entryHash : String
  issuedAt : String
  text : String
deriving DecidableEq

def FeedEntry.key (entry : FeedEntry) : String × ℕ := (entry.feedId,entry.seq)

abbrev FeedTable := Table FeedEntry (String × ℕ) FeedEntry.key

/-- `publish_intelligence` on a log of the identity that holds at most its tip. The log
signs the entry that follows the tip, or the first one. -/
structure FeedSigner where
  publish : String → Option FeedEntry → Json → String → Except Exc FeedEntry
  owned : ∀ did tip envelope issuedAt entry, publish did tip envelope issuedAt = .ok entry → entry.feedId = did
  first : ∀ did envelope issuedAt entry, publish did none envelope issuedAt = .ok entry →
    entry.seq = 0 ∧ entry.prevHash = none
  next : ∀ did tip envelope issuedAt entry, publish did (some tip) envelope issuedAt = .ok entry →
    entry.seq = tip.seq+1 ∧ entry.prevHash = some tip.entryHash

inductive FeedAct
  | getHead (did : String)
  | getEntries (did : String) (since : Option Int) (limit : ℕ)
  | postEntry (entry : FeedEntry)

@[reducible] def FeedAct.Answer : FeedAct → Type
  | _ => Option (List FeedEntry)

structure FeedLanding where
  lands : Bool
  answers : Bool

section Table
variable (table : FeedTable)

def FeedTable.ofFeed (did : String) : List FeedEntry := table.rows.filter fun row => row.feedId = did

def FeedTable.head (did : String) : Option FeedEntry := (FeedTable.ofFeed table did).argmax FeedEntry.seq

def follows (since : Option Int) (seq : ℕ) : Bool :=
  match since with
  | none => true
  | some cursor => cursor < seq

def FeedTable.after (did : String) (since : Option Int) : List FeedEntry :=
  ((FeedTable.ofFeed table did).filter fun row => follows since row.seq).insertionSort fun a b => a.seq ≤ b.seq

def FeedTable.hashTaken (entry : FeedEntry) : Bool :=
  table.rows.any fun row => row.entryHash = entry.entryHash && row.key ≠ entry.key

end Table

section Effects
variable (table : FeedTable) (landing : FeedLanding)

def FeedLanding.answered {α : Type} (rows : List α) : Option (List α) :=
  if landing.lands && landing.answers then some rows else none

def feedAnswer : (act : FeedAct) → act.Answer
  | .getHead did => landing.answered (FeedTable.head table did).toList
  | .getEntries did since limit => landing.answered ((FeedTable.after table did since).take limit)
  | .postEntry entry => if FeedTable.hashTaken table entry then none else landing.answered [entry]

def feedAfter : FeedAct → FeedTable
  | .postEntry entry => if FeedTable.hashTaken table entry then table else table.put entry
  | _ => table

end Effects

def feedExec (landing : FeedLanding) (act : FeedAct) (table : FeedTable) : act.Answer × FeedTable :=
  (feedAnswer table landing act,if landing.lands then feedAfter table act else table)

abbrev FeedProgram (β : Type) := Proc FeedAct FeedAct.Answer β

end Orrery.Federation
