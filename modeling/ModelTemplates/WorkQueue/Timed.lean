import ModelTemplates.WorkQueue
/-! A work queue with the timers of its failed keys. Time is counted in nanoseconds and moves only
when it is told to. -/
namespace ModelTemplates

structure Timer where
  due : Nat
  key : Key
deriving DecidableEq, Inhabited

structure TimedQueue where
  queue : WorkQueue
  /-- Timers that have not fired, the next one first. -/
  timers : List Timer
deriving DecidableEq

namespace TimedQueue

def empty (retry : RetryPolicy) : TimedQueue := ⟨.empty retry, []⟩

/-- A timer stands behind those that are due with it. -/
def arm (t : Timer) : List Timer → List Timer
  | [] => [t]
  | u :: us => if t.due < u.due then t :: u :: us else u :: arm t us

def modify (s : TimedQueue) (f : WorkQueue → WorkQueue) : TimedQueue :=
  { s with queue := f s.queue }

/-- Count a failure of a key and set the timer that brings it back, if the failure can be
counted. -/
def fail (s : TimedQueue) (now : Nat) (k : Key) : Option TimedQueue :=
  match s.queue.fail k with
  | some (some wait, q) => some ⟨q, arm ⟨now + wait.nanos, k⟩ s.timers⟩
  | some (none, q) => some { s with queue := q }
  | none => none

/-- Fire the timers that are due. -/
def fireAll (now : Nat) (q : WorkQueue) : List Timer → TimedQueue
  | [] => ⟨q, []⟩
  | t :: ts => if t.due ≤ now then fireAll now (q.wake t.key) ts else ⟨q, t :: ts⟩

def fire (s : TimedQueue) (now : Nat) : TimedQueue := fireAll now s.queue s.timers

def nextDue (s : TimedQueue) : Option Nat := s.timers.head?.map Timer.due

/-- Hand out the next key as soon as there is one, by the end at the latest: the key, or that the
queue is closed, and the moment of the answer. -/
def takeBy (now finish : Nat) (q : WorkQueue) (ts : List Timer) :
    Option (Option Key × Nat) × TimedQueue :=
  if q.closed then (some (none, now), ⟨q, ts⟩)
  else match q.take? with
    | some (k, q) => (some (some k, now), fireAll now q ts)
    | none => match ts with
      | [] => (none, ⟨q, []⟩)
      | t :: ts =>
        if t.due ≤ finish then takeBy (max now t.due) finish (q.wake t.key) ts
          else (none, ⟨q, t :: ts⟩)

end TimedQueue
end ModelTemplates
