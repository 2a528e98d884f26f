import ModelTemplates.Manager
/-! A manager under its clock, from one start to the next stop. -/
namespace ModelTemplates
namespace Manager

structure Session (ω : Type) where
  schedule : Schedule (Manager ω) Task
  running : Bool
  /-- Workers of each controller. -/
  workers : Nat

namespace Session

variable {ω : Type}

/-- There is at least one worker. -/
def make (retry : RetryPolicy) (workers : Nat) (state : ω) : Session ω :=
  ⟨⟨0, [], .make retry state⟩, false, max 1 workers⟩

def manager (s : Session ω) : Manager ω := s.schedule.state

def withManager (s : Session ω) (m : Manager ω) : Session ω :=
  { s with schedule := { s.schedule with state := m } }

def state (s : Session ω) : ω := s.manager.state

def withState (s : Session ω) (w : ω) : Session ω := s.withManager { s.manager with state := w }

/-- Line up the tasks that got something to do. -/
def wake (s : Session ω) (site : Site ω) (time : Timestamp) : Session ω :=
  if s.running then { s with schedule := s.schedule.wake (tasks site s.workers time) } else s

def start (s : Session ω) (site : Site ω) (time : Timestamp) : Except StartError Unit × Session ω :=
  match Manager.start site ⟨s.schedule.now, time⟩ s.manager with
  | (.ok _, m) =>
    (.ok (),
      { s with schedule := { s.schedule with state := m, ready := spawned }, running := true })
  | (.error e, m) => (.error e, s.withManager m)

/-- End the manager. Its successor finds what outlives the process: the stores. -/
def stop (s : Session ω) (site : Site ω) (retry : RetryPolicy) : Session ω :=
  { s with
    schedule := ⟨s.schedule.now, [], .make retry (site.modify World.forget s.state)⟩
    running := false }

def rebuild (s : Session ω) (site : Site ω) : Except StartError Unit × Session ω :=
  match Manager.rebuild site s.state with
  | (.ok _, w) => (.ok (), s.withState w)
  | (.error e, w) => (.error (.rebuild e), s.withState w)

def awaitIdle (s : Session ω) (site : Site ω) (time : Timestamp) (still timeout : Nat) :
    Bool × Session ω :=
  match Manager.awaitIdle site s.workers time still timeout s.schedule with
  | (settled, schedule) => (settled, { s with schedule := schedule })

def enqueue (s : Session ω) (kind : Kind) (k : Key) : Session ω :=
  s.withManager (s.manager.enqueue kind k)

/-- The highest number that was given out for each template, and for the template of each
version. -/
def numbers (s : Session ω) (site : Site ω) : List (Key × UInt32) :=
  let w := site.world s.state
  (w.stores.templates.all.map Object.key ++
    w.stores.versions.all.map Version.templateKey).map fun k =>
    (k, w.ledger.latest k none)

end Session
end Manager
end ModelTemplates
