import ModelTemplates.Controller
import ModelTemplates.Faults
import ModelTemplates.Schedule
/-! A controller of templates with handlers that do as they are told, to try how it calls them. -/
namespace ModelTemplates
namespace Trial

/-- What a handler does: fail a number of times, then count up the latest version to a target. -/
structure Script where
  name : String
  failures : Nat
  /-- Whether it fails as after a conflict. -/
  conflict : Bool
  target : Option UInt32
deriving DecidableEq, Inhabited

inductive Result where
  | ok
  | unchanged
  | updated
  /-- The object could not be written. -/
  | stale
  | failed (e : ReconcileError)
deriving DecidableEq

def Result.text : Result → String
  | ok => "ok"
  | unchanged => "unchanged"
  | updated => "updated"
  | stale => "stale"
  | failed e => e.message

structure Call where
  handler : Nat
  name : String
  /-- Whether it was called with the last state of an object that is gone. -/
  removal : Bool
  elapsed : Nat
  object : Template
  result : Result

structure Stage where
  state : FaultyWorld
  /-- The calls so far, the last one first. -/
  calls : List Call
  controller : Controller TemplateSpec TemplateStatus

/-- What handlers act on. -/
abbrev Log := FaultyWorld × List Call

def callsOf (id : Nat) (log : Log) : Nat := (log.2.filter fun c => c.handler = id).length

/-- The failure that is due, if one is. -/
def failure? (s : Script) (id : Nat) (k : Key) (log : Log) : Option ReconcileError :=
  if callsOf id log < s.failures then
    some (if s.conflict then .conflict .template k else .notFound .template k)
  else none

def record (id : Nat) (s : Script) (removal : Bool) (m : Moment) (t : Template) (r : Result)
    (log : Log) : Log :=
  (log.1, ⟨id, s.name, removal, m.elapsed, t, r⟩ :: log.2)

def raised (t : Template) : Template :=
  t.withStatus { t.status with latestVersion := t.status.latestVersion + 1 }

def onChange (id : Nat) (s : Script) (m : Moment) (k : Key) (t : Template) (log : Log) :
    Verdict Template × Log :=
  match failure? s id k log with
  | some e => (.error e, record id s false m t (.failed e) log)
  | none =>
    if s.target.any (t.status.latestVersion < ·) then
      match log.1.answer (.updateTemplateStatus (raised t)) with
      | (.ok o, w) => (.ok (.updated o), record id s false m t .updated (w, log.2))
      | (.error e, w) => (.error (.ofStore e), record id s false m t .stale (w, log.2))
    else (.ok .unchanged, record id s false m t .unchanged log)

def onRemove (id : Nat) (s : Script) (m : Moment) (k : Key) (t : Template) (log : Log) :
    Except ReconcileError Unit × Log :=
  match failure? s id k log with
  | some e => (.error e, record id s true m t (.failed e) log)
  | none => (.ok (), record id s true m t .ok log)

/-- A request of the controller itself. -/
def ask (r : Request) (log : Log) : r.Answer × Log :=
  ((log.1.answer r).1, ((log.1.answer r).2, log.2))

def wiring (change remove : List Script) : Controller.Wiring Log TemplateSpec TemplateStatus where
  read k := ask (.template k)
  list := ask (.templates none .empty)
  watch log := log.1.world.stores.templates.watch
  change := change.mapIdx onChange
  remove := remove.mapIdx fun i => onRemove (change.length + i)

inductive Task where
  | feed
  | work
  | timers
deriving DecidableEq

abbrev Wiring := Controller.Wiring Log TemplateSpec TemplateStatus

def Stage.step? (f : Controller TemplateSpec TemplateStatus → Log →
    Option (Controller TemplateSpec TemplateStatus × Log)) (s : Stage) : Option Stage :=
  (f s.controller (s.state, s.calls)).map fun (c, log) => ⟨log.1, log.2, c⟩

def start (wiring : Wiring) (m : Moment) (s : Stage) : Option StoreError × Stage :=
  match Controller.start wiring m s.controller (s.state, s.calls) with
  | (e, c, log) => (e, ⟨log.1, log.2, c⟩)

def tasks (wiring : Wiring) (workers : Nat) (time : Timestamp) : Tasks Stage Task where
  order := [.feed, .work, .timers]
  awake now s
    | .feed => Controller.waiting wiring s.controller (s.state, s.calls) ≠ 0
    | .work => s.controller.queue.queue.size ≠ 0 && s.controller.staffed workers
    | .timers => s.controller.queue.nextDue.any (· ≤ now)
  turn now
    | .feed => Schedule.exhaust (Stage.step? (Controller.feedOne? wiring ⟨now, time⟩))
    | .work => Schedule.exhaust fun s =>
      if s.controller.staffed workers then
        s.step? (Controller.workOne? wiring ⟨now, time⟩) else none
    | .timers => fun s => { s with controller := s.controller.fire ⟨now, time⟩ }
  nextDue s := s.controller.queue.nextDue

/-- End the tasks. Those that wait for their turn take it first, until the watch is given up and
with it the queue. -/
def stop (tasks : Tasks Stage Task) (s : Schedule Stage Task) : Schedule Stage Task :=
  let stage :=
    (s.ready.takeWhile (· ≠ .feed)).foldl (fun stage t => tasks.turn s.now t stage) s.state
  { s with
    ready := []
    state := { stage with controller := stage.controller.onQueue WorkQueue.close } }

/-- The calls after the first `seen`, by time, then by key. -/
def callsSince (seen : Nat) (calls : List Call) : List Call :=
  (calls.reverse.drop seen).mergeSort fun a b =>
    a.elapsed < b.elapsed ∨ (a.elapsed = b.elapsed ∧ a.object.key.text ≤ b.object.key.text)

end Trial
end ModelTemplates
