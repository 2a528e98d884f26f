import ModelTemplates.Stores
import ModelTemplates.WorkQueue.Timed
import ModelTemplates.Plan
/-! A controller follows the watch of one store, queues every key that it tells of, and works on the
queue: handlers see the object as it is stored, or the last state of one that is gone. -/
namespace ModelTemplates

/-- A moment on the clock of timers and on the calendar. -/
structure Moment where
  /-- In nanoseconds. -/
  elapsed : Nat
  time : Timestamp
deriving Inhabited

structure Controller (σ τ : Type) where
  /-- The live objects as they were last seen. -/
  known : Table Key (Object σ τ)
  /-- The last states of objects that are gone, until their removal is handled. -/
  tombstones : Table Key (Object σ τ)
  queue : TimedQueue
  /-- The event of the watch that comes next. -/
  position : Nat
  /-- Keys whose worker broke off. They stay handed out. -/
  abandoned : List Key

namespace Controller

/-- What a controller of one kind of objects needs of a world `ω`. -/
structure Wiring (ω σ τ : Type) where
  read : Key → ω → Except StoreError (Option (Object σ τ)) × ω
  list : ω → Except StoreError (List (Object σ τ)) × ω
  watch : ω → Channel (WatchEvent σ τ)
  /-- Called in turn with a live object. -/
  change : List (Moment → Key → Object σ τ → ω → Verdict (Object σ τ) × ω)
  /-- Called in turn with the last state of an object that is gone. -/
  remove : List (Moment → Key → Object σ τ → ω → Except ReconcileError Unit × ω)

variable {ω σ τ : Type}

def empty (retry : RetryPolicy) : Controller σ τ := ⟨.empty, .empty, .empty retry, 0, []⟩

def onQueue (c : Controller σ τ) (f : WorkQueue → WorkQueue) : Controller σ τ :=
  { c with queue := c.queue.modify f }

def enqueue (c : Controller σ τ) (k : Key) : Controller σ τ := c.onQueue (·.add k)

/-- Take note of an object that is gone. -/
def bury (c : Controller σ τ) (o : Object σ τ) : Controller σ τ :=
  { c with known := c.known.erase o.key, tombstones := c.tombstones.insert o.key o }.enqueue o.key

/-- Take note of a live object. -/
def meet (c : Controller σ τ) (o : Object σ τ) : Controller σ τ :=
  { c with known := c.known.insert o.key o }.enqueue o.key

def observe (c : Controller σ τ) : WatchEvent σ τ → Controller σ τ
  | .applied o => c.meet o
  | .deleted o => c.bury o

/-- The last known state of an object whose deletion was not seen. -/
def vanished (now : Timestamp) (o : Object σ τ) : Object σ τ :=
  { o with
    metadata :=
      { o.metadata with deletionTimestamp := some (o.metadata.deletionTimestamp.getD now) } }

/-- Queue every object that is listed, and bury those that were known and are not. -/
def reconcileWith (c : Controller σ τ) (now : Timestamp) (listed : List (Object σ τ)) :
    Controller σ τ :=
  let gone := c.known.values.filter fun o => !(listed.any fun l => l.key = o.key)
  listed.foldl meet ((gone.map (vanished now)).foldl bury c)

def relist (wiring : Wiring ω σ τ) (m : Moment) (c : Controller σ τ) (w : ω) :
    Option StoreError × Controller σ τ × ω :=
  match wiring.list w with
  | (.ok listed, w) => (none, c.reconcileWith m.time listed, w)
  | (.error e, w) => (some e, c, w)

/-- Follow the watch from now on and queue what is already there. -/
def start (wiring : Wiring ω σ τ) (m : Moment) (c : Controller σ τ) (w : ω) :
    Option StoreError × Controller σ τ × ω :=
  relist wiring m { c with position := (wiring.watch w).subscribe } w

/-- Take the next event of the watch, if there is one. Missed events are made up for by a new list;
one that fails is not asked for again. -/
def feedOne? (wiring : Wiring ω σ τ) (m : Moment) (c : Controller σ τ) (w : ω) :
    Option (Controller σ τ × ω) :=
  match (wiring.watch w).receive c.position with
  | (.item e, p) => some ({ c with position := p }.observe e, w)
  | (.lagged _, p) => some (relist wiring m { c with position := p } w).2
  | (.empty, _) => none
  | (.closed, _) => none

/-- How many events wait. -/
def waiting (wiring : Wiring ω σ τ) (c : Controller σ τ) (w : ω) : Nat :=
  (wiring.watch w).sent - c.position

/-- Whether an object is gone, though another may have its key. -/
def isGone (tombstone : Object σ τ) (live : Option (Object σ τ)) : Bool :=
  match live with
  | none => true
  | some o => o.metadata.uid ≠ tombstone.metadata.uid

/-- Handlers are called one after the other, whether others fail or not: whether none did. There is
no answer when one of them breaks off. -/
def removeAll (m : Moment) (k : Key) (o : Object σ τ) :
    List (Moment → Key → Object σ τ → ω → Except ReconcileError Unit × ω) → Bool → ω →
      Option Bool × ω
  | [], ok, w => (some ok, w)
  | h :: hs, ok, w =>
    match h m k o w with
    | (.ok _, w) => removeAll m k o hs ok w
    | (.error e, w) => if e = .overflow then (none, w) else removeAll m k o hs false w

/-- Handlers are called one after the other, each with the object that those before it leave,
whether they fail or not: whether none did, and what they leave. There is no answer when one of them
breaks off. -/
def changeAll (m : Moment) (k : Key) :
    List (Moment → Key → Object σ τ → ω → Verdict (Object σ τ) × ω) → Bool → Object σ τ → ω →
      Option (Bool × Object σ τ) × ω
  | [], ok, o, w => (some (ok, o), w)
  | h :: hs, ok, o, w =>
    match h m k o w with
    | (.ok .unchanged, w) => changeAll m k hs ok o w
    | (.ok (.updated o), w) => changeAll m k hs ok o w
    | (.error e, w) => if e = .overflow then (none, w) else changeAll m k hs false o w

/-- Handle the removal that a tombstone stands for: whether that succeeded. The tombstone stays when
a handler fails. -/
def settleTombstone (wiring : Wiring ω σ τ) (m : Moment) (k : Key) (live : Option (Object σ τ))
    (c : Controller σ τ) (w : ω) : Option Bool × Controller σ τ × ω :=
  match c.tombstones.find? k with
  | none => (some true, c, w)
  | some t =>
    if isGone t live then
      match removeAll m k t wiring.remove true w with
      | (some true, w) => (some true, { c with tombstones := c.tombstones.erase k }, w)
      | (done, w) => (done, c, w)
    else (some true, { c with tombstones := c.tombstones.erase k }, w)

/-- Show the live object to the handlers and remember it as they leave it: whether all succeeded. -/
def settleLive (wiring : Wiring ω σ τ) (m : Moment) (k : Key) (live : Option (Object σ τ))
    (c : Controller σ τ) (w : ω) : Option Bool × Controller σ τ × ω :=
  match live with
  | none => (some true, { c with known := c.known.erase k }, w)
  | some o =>
    match changeAll m k wiring.change true o w with
    | (some (ok, o), w) => (some ok, { c with known := c.known.insert k o }, w)
    | (none, w) => (none, c, w)

/-- The worker on a key breaks off. -/
def abandon (k : Key) (c : Controller σ τ) : Controller σ τ :=
  { c with abandoned := k :: c.abandoned }

/-- Have a key come back after a wait. The worker breaks off when the failure cannot be counted. -/
def retry (m : Moment) (k : Key) (c : Controller σ τ) : Controller σ τ :=
  match c.queue.fail m.elapsed k with
  | some q => { c with queue := q }
  | none => c.abandon k

section Retry

variable (m : Moment) (k : Key) (c : Controller σ τ)

@[simp] theorem retry_known : (c.retry m k).known = c.known := by unfold retry; split <;> rfl

@[simp] theorem retry_tombstones : (c.retry m k).tombstones = c.tombstones := by
  unfold retry; split <;> rfl

@[simp] theorem retry_position : (c.retry m k).position = c.position := by
  unfold retry; split <;> rfl

end Retry

/-- The end of the work on a key: it comes back later unless everything succeeded. -/
def conclude (ok : Bool) (m : Moment) (k : Key) (c : Controller σ τ) : Controller σ τ :=
  if ok then c.onQueue (·.forget k) else c.retry m k

/-- Handle one key. -/
def process (wiring : Wiring ω σ τ) (m : Moment) (k : Key) (c : Controller σ τ) (w : ω) :
    Controller σ τ × ω :=
  match wiring.read k w with
  | (.error _, w) => (c.retry m k, w)
  | (.ok live, w) =>
    match settleTombstone wiring m k live c w with
    | (none, c, w) => (c.abandon k, w)
    | (some removed, c, w) =>
      match settleLive wiring m k live c w with
      | (none, c, w) => (c.abandon k, w)
      | (some changed, c, w) => (c.conclude (removed && changed) m k, w)

/-- The work on a key is over. A key stays with a worker that broke off. -/
def finish (k : Key) (c : Controller σ τ) : Controller σ τ :=
  if k ∈ c.abandoned then c else c.onQueue (·.done k)

/-- Take the next key and handle it, if there is one. -/
def workOne? (wiring : Wiring ω σ τ) (m : Moment) (c : Controller σ τ) (w : ω) :
    Option (Controller σ τ × ω) :=
  match c.queue.queue.take? with
  | none => none
  | some (k, q) =>
    let (c, w) := process wiring m k { c with queue := { c.queue with queue := q } } w
    some (c.finish k, w)

/-- Whether one of that many workers is left. -/
def staffed (workers : Nat) (c : Controller σ τ) : Bool := c.abandoned.length < workers

def fire (m : Moment) (c : Controller σ τ) : Controller σ τ :=
  { c with queue := c.queue.fire m.elapsed }

def isIdle (c : Controller σ τ) : Bool := c.queue.queue.isIdle

end Controller
end ModelTemplates
