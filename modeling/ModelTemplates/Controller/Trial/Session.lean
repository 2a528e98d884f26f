import ModelTemplates.Controller.Trial
/-! A trial under its clock, from its start to its stop. -/
namespace ModelTemplates
namespace Trial

structure Session where
  schedule : Schedule Stage Task
  started : Bool
  /-- How many tasks run. -/
  tasks : Nat
  /-- How many calls were told of. -/
  told : Nat

namespace Session

def make (retry : RetryPolicy) (state : FaultyWorld) : Session :=
  ⟨⟨0, [], ⟨state, [], .empty retry⟩⟩, false, 0, 0⟩

def stage (s : Session) : Stage := s.schedule.state

def withStage (s : Session) (stage : Stage) : Session :=
  { s with schedule := { s.schedule with state := stage } }

def queue (s : Session) : WorkQueue := s.stage.controller.queue.queue

/-- Timers fire whether anybody works on the queue or not. -/
def tasksAt (s : Session) (wiring : Wiring) (time : Timestamp) : Tasks Stage Task :=
  if s.tasks = 0 then { Trial.tasks wiring 0 time with order := [.timers] }
  else Trial.tasks wiring (s.tasks - 1) time

/-- Line up the tasks that got something to do. -/
def wake (s : Session) (wiring : Wiring) (time : Timestamp) : Session :=
  { s with schedule := s.schedule.wake (s.tasksAt wiring time) }

/-- Start a feeder and workers, at least one. A failure counts as a start. -/
def start (s : Session) (wiring : Wiring) (time : Timestamp) (workers : Nat) :
    Option StoreError × Session :=
  match Trial.start wiring ⟨s.schedule.now, time⟩ s.stage with
  | (some e, stage) => (some e, { s.withStage stage with started := true })
  | (none, stage) =>
    (none, { s with
      schedule := { s.schedule with state := stage, ready := [.feed, .work] }
      started := true
      tasks := max 1 workers + 1 })

def stop (s : Session) (wiring : Wiring) (time : Timestamp) : Session :=
  { s with schedule := Trial.stop (s.tasksAt wiring time) s.schedule, tasks := 0 }

def enqueue (s : Session) (k : Key) : Session :=
  s.withStage { s.stage with controller := s.stage.controller.enqueue k }

/-- Let time pass: the calls that were not told of before. -/
def run (s : Session) (wiring : Wiring) (time : Timestamp) (length : Nat) : List Call × Session :=
  let schedule := s.schedule.run (s.tasksAt wiring time) length
  (callsSince s.told schedule.state.calls,
    { s with schedule := schedule, told := schedule.state.calls.length })

end Session
end Trial
end ModelTemplates
