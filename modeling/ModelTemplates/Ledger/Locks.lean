import ModelTemplates.Key
/-! Locks on keys, made when they are first asked for and thrown away when nobody has a handle on
them. -/
namespace ModelTemplates

namespace Locks

/-- Someone who waits for a lock or holds it. -/
structure Handle where
  id : Nat
  key : Key
  lock : Nat
  holds : Bool
deriving DecidableEq, Inhabited

end Locks

structure Locks where
  /-- The lock that stands for a key. -/
  table : Table Key Nat
  handles : List Locks.Handle
  /-- No lock and no handle has this number or a later one. -/
  fresh : Nat
deriving DecidableEq, Inhabited

namespace Locks

def empty : Locks := ⟨.empty, [], 0⟩

/-- The lock that stands for a key, a new one if there is none. -/
def lockOf (s : Locks) (k : Key) : Nat := (s.table.find? k).getD s.fresh

/-- Take a handle on the lock of a key; its number is the one that was fresh. -/
def request (s : Locks) (k : Key) : Locks where
  table := s.table.insert k (s.lockOf k)
  handles := s.handles ++ [⟨s.fresh, k, s.lockOf k, false⟩]
  fresh := s.fresh + 1

def handle? (s : Locks) (id : Nat) : Option Handle := s.handles.find? fun h => h.id = id

/-- Nobody holds the lock. -/
def isFree (s : Locks) (lock : Nat) : Bool := s.handles.all fun h => !(h.lock = lock ∧ h.holds)

/-- Hold the lock of a handle, if it is free. -/
def acquire? (s : Locks) (id : Nat) : Option Locks :=
  match s.handle? id with
  | some h =>
    if s.isFree h.lock then
      some
        { s with
          handles := s.handles.map fun g => if g.id = id then { g with holds := true } else g }
    else none
  | none => none

/-- Give a handle back, and with it the lock if it was held. -/
def release (s : Locks) (id : Nat) : Locks :=
  { s with handles := s.handles.filter fun h => h.id ≠ id }

/-- Forget the lock of a key, unless someone has a handle on it. -/
def sweep (s : Locks) (k : Key) : Locks :=
  match s.table.find? k with
  | some lock =>
    if s.handles.any fun h => h.lock = lock then s else { s with table := s.table.erase k }
  | none => s

/-- Hold the lock of a key now or not at all. -/
def tryLock (s : Locks) (k : Key) : Option Nat × Locks :=
  match (s.request k).acquire? s.fresh with
  | some held => (some s.fresh, held)
  | none => (none, (s.request k).release s.fresh)

end Locks
end ModelTemplates
