import ModelTemplates.Config
import ModelTemplates.Counter
import ModelTemplates.Key
/-! A queue of keys. A key waits at most once, is handed to one worker at a time, and comes back
when the work on it fails, after a wait that is doubled with every failure, up to a longest one.
Failures are counted in 32 bits. -/
namespace ModelTemplates

structure RetryPolicy where
  base : Duration
  max : Duration
deriving DecidableEq, Inhabited

namespace RetryPolicy

/-- How often the wait is doubled: once for every failure but the first, up to 31 times. -/
def doublings (failures : UInt32) : UInt32 := min (failures - min failures 1) 31

/-- The wait after that many failures in a row. -/
def delay (p : RetryPolicy) (failures : UInt32) : Duration :=
  min (p.base.saturatingMul ((1 : UInt32) <<< doublings failures).toNat) p.max

def ofConfig (c : RetryConfig) : RetryPolicy := ⟨c.baseDelay, c.maxDelay⟩

def standard : RetryPolicy := ofConfig .standard

end RetryPolicy

structure WorkQueue where
  retry : RetryPolicy
  /-- Keys to hand out, the next one first. -/
  ready : List Key
  /-- Keys that have been added and not handed out since. -/
  dirty : List Key
  /-- Keys that are worked on. -/
  processing : List Key
  failures : Table Key UInt32
  /-- Failed keys that wait to be added again. -/
  waiting : Nat
  closed : Bool
deriving DecidableEq

namespace WorkQueue

def empty (retry : RetryPolicy) : WorkQueue := ⟨retry, [], [], [], .empty, 0, false⟩

def size (q : WorkQueue) : Nat := q.ready.length

/-- Nothing waits and nothing is worked on. -/
def isIdle (q : WorkQueue) : Bool := q.ready.isEmpty && q.processing.isEmpty && q.waiting = 0

/-- Add a key. One that is worked on becomes ready when that work is done. -/
def add (q : WorkQueue) (k : Key) : WorkQueue :=
  if q.closed ∨ k ∈ q.dirty then q
  else if k ∈ q.processing then { q with dirty := k :: q.dirty }
  else { q with dirty := k :: q.dirty, ready := q.ready ++ [k] }

def addAll (q : WorkQueue) (ks : List Key) : WorkQueue := ks.foldl add q

/-- Hand out the next key. -/
def take? (q : WorkQueue) : Option (Key × WorkQueue) :=
  if q.closed then none
  else match q.ready with
    | [] => none
    | k :: ks =>
      some (k, { q with
        ready := ks
        dirty := q.dirty.filter (· ≠ k)
        processing := if k ∈ q.processing then q.processing else k :: q.processing })

/-- The work on a key is done. -/
def done (q : WorkQueue) (k : Key) : WorkQueue :=
  let p := q.processing.filter (· ≠ k)
  if k ∈ q.dirty ∧ ¬ q.closed then { q with processing := p, ready := q.ready ++ [k] }
  else { q with processing := p }

def failuresOf (q : WorkQueue) (k : Key) : UInt32 := (q.failures.find? k).getD 0

/-- Count a failure of a key that is to come back, and tell after which wait. There is no answer
when the failures of the key cannot be counted any more. -/
def fail (q : WorkQueue) (k : Key) : Option (Option Duration × WorkQueue) :=
  if q.closed then some (none, q)
  else (Counter.next? (q.failuresOf k)).map fun n =>
    (some (q.retry.delay n), { q with failures := q.failures.insert k n, waiting := q.waiting + 1 })

/-- The wait of a failed key is over. -/
def wake (q : WorkQueue) (k : Key) : WorkQueue := { q with waiting := q.waiting - 1 }.add k

/-- Forget the failures of a key. -/
def forget (q : WorkQueue) (k : Key) : WorkQueue := { q with failures := q.failures.erase k }

def close (q : WorkQueue) : WorkQueue := { q with closed := true }

end WorkQueue

end ModelTemplates
