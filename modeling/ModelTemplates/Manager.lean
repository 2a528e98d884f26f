import ModelTemplates.Controller
import ModelTemplates.Faults
import ModelTemplates.Handler.Template
import ModelTemplates.Handler.Version
import ModelTemplates.Schedule
/-! The two controllers that number, link and configure versions and keep the status of
templates. -/
namespace ModelTemplates

/-- States in which requests are answered, each with a world in it. -/
structure Site (ω : Type) where
  answer : (r : Request) → ω → r.Answer × ω
  world : ω → World
  modify : (World → World) → ω → ω
  generate : ServingGenerator

def World.site : Site World := ⟨World.answer, id, id, ServingConfig.generate⟩

def FaultyWorld.site (generate : ServingGenerator) : Site FaultyWorld where
  answer := FaultyWorld.answer
  world := FaultyWorld.world
  modify f s := { s with world := f s.world }
  generate := generate

structure Manager (ω : Type) where
  templates : Controller TemplateSpec TemplateStatus
  versions : Controller VersionSpec VersionStatus
  state : ω

namespace Manager

variable {ω : Type}

def templateController : String := "model-template"

def versionController : String := "model-template-version"

def templateWiring (site : Site ω) : Controller.Wiring ω TemplateSpec TemplateStatus where
  read k := site.answer (.template k)
  list := site.answer (.templates none .empty)
  watch w := (site.world w).stores.templates.watch
  change := [fun m _ t => (Template.resolveDefault t m.time).run site.answer,
    fun m k t => (Template.syncLatest k t m.time).run site.answer]
  remove := [fun m k t => (Template.forgetNumbers k t m.time).run site.answer]

def versionWiring (site : Site ω) : Controller.Wiring ω VersionSpec VersionStatus where
  read k := site.answer (.version k)
  list := site.answer (.versions none .empty)
  watch w := (site.world w).stores.versions.watch
  change := [fun m _ v => (Version.number v m.time).run site.answer,
    fun m _ v => (Version.configure site.generate v m.time).run site.answer]
  remove := []

def make (retry : RetryPolicy) (state : ω) : Manager ω := ⟨.empty retry, .empty retry, state⟩

/-- Queue the templates that handlers asked to be looked at again. -/
def passOn (site : Site ω) (s : Manager ω) : Manager ω :=
  { s with
    templates := s.templates.onQueue (·.addAll (site.world s.state).enqueued)
    state := site.modify (fun w => { w with enqueued := [] }) s.state }

def feedTemplate? (site : Site ω) (m : Moment) (s : Manager ω) : Option (Manager ω) :=
  (Controller.feedOne? (templateWiring site) m s.templates s.state).map fun (c, w) =>
    { s with templates := c, state := w }

def feedVersion? (site : Site ω) (m : Moment) (s : Manager ω) : Option (Manager ω) :=
  (Controller.feedOne? (versionWiring site) m s.versions s.state).map fun (c, w) =>
    { s with versions := c, state := w }

def workTemplate? (site : Site ω) (m : Moment) (s : Manager ω) : Option (Manager ω) :=
  (Controller.workOne? (templateWiring site) m s.templates s.state).map fun (c, w) =>
    { s with templates := c, state := w }

def workVersion? (site : Site ω) (m : Moment) (s : Manager ω) : Option (Manager ω) :=
  (Controller.workOne? (versionWiring site) m s.versions s.state).map fun (c, w) =>
    passOn site { s with versions := c, state := w }

/-- Why controllers do not start. -/
inductive StartError where
  | rebuild (e : StoreError)
  | start (controller : String) (e : StoreError)
deriving DecidableEq

namespace StartError

def message : StartError → String
  | rebuild e => "Failed to rebuild version ledger: " ++ e.message
  | start controller e => "Failed to start " ++ controller ++ " controller: " ++ e.message

/-- The message and that of its cause. -/
def causes : StartError → List String
  | rebuild e => [message (rebuild e), e.message]
  | start controller e => [message (start controller e), e.message]

end StartError

/-- Count the numbers of every version that is listed. -/
def rebuild (site : Site ω) (w : ω) : Except StoreError Unit × ω :=
  match site.answer (.versions none .empty) w with
  | (.ok vs, w) => (.ok (), site.modify (fun w => { w with ledger := w.ledger.rebuild vs }) w)
  | (.error e, w) => (.error e, w)

/-- Rebuild the ledger and start both controllers. What was done before a failure stays done. -/
def start (site : Site ω) (m : Moment) (s : Manager ω) :
    Except StartError Unit × Manager ω :=
  match rebuild site s.state with
  | (.error e, w) => (.error (.rebuild e), { s with state := w })
  | (.ok _, w) =>
    match Controller.start (templateWiring site) m s.templates w with
    | (some e, _, w) => (.error (.start templateController e), { s with state := w })
    | (none, templates, w) =>
      match Controller.start (versionWiring site) m s.versions w with
      | (some e, _, w) => (.error (.start versionController e), { s with state := w })
      | (none, versions, w) => (.ok (), ⟨templates, versions, w⟩)

def isIdle (s : Manager ω) : Bool := s.templates.isIdle && s.versions.isIdle

inductive Task where
  | feed (kind : Kind)
  | work (kind : Kind)
  | timers
deriving DecidableEq

/-- The tasks that a start sets going, in their order. -/
def spawned : List Task := [.feed .template, .work .template, .feed .version, .work .version]

/-- Have a key looked at again. -/
def enqueue (s : Manager ω) (kind : Kind) (k : Key) : Manager ω :=
  match kind with
  | .template => { s with templates := s.templates.enqueue k }
  | .version => { s with versions := s.versions.enqueue k }

/-- Every task takes all that there is for it in one turn. Each controller has that many workers to
begin with. -/
def tasks (site : Site ω) (workers : Nat) (time : Timestamp) : Tasks (Manager ω) Task where
  order := [.feed .version, .feed .template, .work .template, .work .version, .timers]
  awake now s
    | .feed .template => Controller.waiting (templateWiring site) s.templates s.state ≠ 0
    | .feed .version => Controller.waiting (versionWiring site) s.versions s.state ≠ 0
    | .work .template => s.templates.queue.queue.size ≠ 0 && s.templates.staffed workers
    | .work .version => s.versions.queue.queue.size ≠ 0 && s.versions.staffed workers
    | .timers => [s.templates.queue, s.versions.queue].any fun q => q.nextDue.any (· ≤ now)
  turn now
    | .feed .template => Schedule.exhaust (feedTemplate? site ⟨now, time⟩)
    | .feed .version => Schedule.exhaust (feedVersion? site ⟨now, time⟩)
    | .work .template => Schedule.exhaust fun s =>
      if s.templates.staffed workers then workTemplate? site ⟨now, time⟩ s else none
    | .work .version => Schedule.exhaust fun s =>
      if s.versions.staffed workers then workVersion? site ⟨now, time⟩ s else none
    | .timers => fun s =>
      { s with templates := s.templates.fire ⟨now, time⟩, versions := s.versions.fire ⟨now, time⟩ }
  nextDue s := [s.templates.queue.nextDue, s.versions.queue.nextDue].reduceOption.min?

/-- Workers of a controller, unless another number is asked for. -/
def defaultWorkers : Nat := 2

/-- How often idleness is looked at. -/
def defaultPoll : Nat := 10000000

/-- Wait until both queues have stayed idle for `still`, for no longer than `timeout`. -/
def awaitIdle (site : Site ω) (workers : Nat) (time : Timestamp) (still timeout : Nat)
    (s : Schedule (Manager ω) Task) : Bool × Schedule (Manager ω) Task :=
  Schedule.awaitIdle (tasks site workers time) isIdle (min defaultPoll still) still
    (s.now + timeout)
    Schedule.patience none s

end Manager
end ModelTemplates
