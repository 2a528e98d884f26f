import ModelTemplates.Counter
import ModelTemplates.Version
/-! The highest number that was given out for each template. An entry remembers the template it
counts for, so that a template made anew under an old name starts from nothing. -/
namespace ModelTemplates

namespace Ledger

structure Entry where
  /-- The template that is counted for, when only one is. -/
  owner : Option Uid
  latest : UInt32
deriving DecidableEq, Inhabited

/-- An unknown owner counts for any, and any entry counts for an unknown one. -/
def Entry.countsFor (e : Entry) (owner : Option Uid) : Bool :=
  e.owner = none ∨ owner = none ∨ e.owner = owner

end Ledger

structure Ledger where
  entries : Table Key Ledger.Entry
deriving DecidableEq, Inhabited

namespace Ledger

def empty : Ledger := ⟨.empty⟩

def size (l : Ledger) : Nat := l.entries.size

/-- The entry of a key, when it counts for the owner. -/
def entry? (l : Ledger) (k : Key) (owner : Option Uid) : Option Entry :=
  (l.entries.find? k).filter (·.countsFor owner)

/-- The highest number given out for a key under the owner, zero before the first. -/
def latest (l : Ledger) (k : Key) (owner : Option Uid) : UInt32 :=
  match l.entry? k owner with
  | some e => e.latest
  | none => 0

/-- The next number for a key under the owner, if there is one. -/
def next? (l : Ledger) (k : Key) (owner : Option Uid) : Option UInt32 :=
  Counter.next? (l.latest k owner)

/-- What asking for the next number leaves in the entry of a key. A known owner takes the entry
over, and does so even where the number overflows. -/
def advanced (l : Ledger) (k : Key) (owner : Option Uid) : Entry where
  owner := owner.or ((l.entry? k owner).bind Entry.owner)
  latest := (l.next? k owner).getD (l.latest k owner)

/-- Ask for the next number for a key. -/
def advance (l : Ledger) (k : Key) (owner : Option Uid) : Ledger :=
  ⟨l.entries.insert k (l.advanced k owner)⟩

/-- Remove the entry of a key. One that already counts for another owner stays. -/
def remove (l : Ledger) (k : Key) (owner : Option Uid) : Ledger :=
  match l.entry? k owner with
  | some _ => ⟨l.entries.erase k⟩
  | none => l

/-- Whether `remove` takes an entry away. -/
def removes (l : Ledger) (k : Key) (owner : Option Uid) : Bool := (l.entry? k owner).isSome

/-- Count a number that a version has. An entry of versions of several owners has none. -/
def observe (l : Ledger) (v : Version) : Ledger :=
  match v.assignedNumber with
  | none => l
  | some n =>
    let e := (l.entries.find? v.templateKey).getD ⟨v.ownerUid, 0⟩
    ⟨l.entries.insert v.templateKey ⟨if e.owner = v.ownerUid then e.owner else none,
      max e.latest n⟩⟩

/-- Count the numbers of all versions that are stored. -/
def rebuild (l : Ledger) (versions : List Version) : Ledger := versions.foldl observe l

theorem advanced_latest {l : Ledger} {k : Key} {owner : Option Uid} {n : UInt32}
    (h : l.next? k owner = some n) :
    (l.advanced k owner).latest = n := by
  rw [advanced, h, Option.getD_some]

end Ledger
end ModelTemplates
