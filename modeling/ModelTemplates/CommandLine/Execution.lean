import ModelTemplates.CommandLine.Help
import ModelTemplates.Config.Overview
import ModelTemplates.Leadership
import ModelTemplates.Manager.Session
import ModelTemplates.Manifests
import ModelTemplates.Stores
/-! Carrying commands out: what is printed, which files are written and how the process ends. -/
namespace ModelTemplates
namespace CommandLine

/-- How a process ends and what it leaves. -/
structure Exit where
  code : Nat
  output : String
  errors : String
  disk : Disk

/-- What a process has, besides where it runs. -/
structure Host where
  surroundings : Surroundings
  /-- When it starts. -/
  clock : Instant
  /-- Identifiers and moments, each of which is used once. -/
  fresh : Nat → Uid × Timestamp

/-- What happens to a process. -/
inductive Outcome where
  | ends (e : Exit)
  /-- It works until it is stopped, and then ends well, with nothing to say. -/
  | hosts (s : Manager.Session World)

/-- Lines below the first one are set in as far as the first one. -/
def setIn (first others : String) (text : String) : String :=
  match text.splitOn "\n" with
  | [] => first
  | line :: lines => String.intercalate "\n" ((first ++ line) :: lines.map (others ++ ·))

/-- One cause, or the numbered causes of causes. -/
def causesText : List String → String
  | [] => ""
  | [cause] => "\n\nCaused by:\n" ++ setIn "    " "    " cause
  | causes => "\n\nCaused by:" ++ String.join (causes.mapIdx fun n cause =>
    let number := toString n
    "\n" ++ setIn (String.ofList (List.replicate (5 - number.length) ' ') ++ number ++
      ": ") "       " cause)

/-- What failed, and below it what that was caused by, outermost first. -/
def failureText : List String → String
  | [] => ""
  | what :: causes => "Error: " ++ what ++ causesText causes ++ "\n"

namespace Exit

def well (output : String) (disk : Disk) : Exit := ⟨0, output, "", disk⟩

def failed (output : String) (causes : List String) (disk : Disk) : Exit :=
  ⟨1, output, failureText causes, disk⟩

/-- Give up because time would run past the end of a clock. -/
def aborted (why : String) (disk : Disk) : Exit := ⟨101, "", why ++ "\n", disk⟩

end Exit

def lines (ls : List String) : String := String.join (ls.map (· ++ "\n"))

namespace Host

def disk (h : Host) : Disk := h.surroundings.disk

/-- The configuration at a path or elsewhere, or why there is none. -/
def config (h : Host) (path : Option String) : Except (List String) Config :=
  (Config.load h.surroundings path).mapError fun e => ["Failed to load configuration", e.message]

def validConfig (h : Host) (path : Option String) : Except (List String) Config := do
  let c ← h.config path
  match c.validate with
  | .ok _ => .ok c
  | .error e => .error ["Configuration validation failed", e.message]

/-- Read the manifests at a path. -/
def manifests (h : Host) (path : String) : Except (List String) Manifests :=
  match h.disk.read path with
  | .error e => .error ["Failed to read manifest file " ++ Text.quoted path, e.message]
  | .ok text =>
    (Manifests.ofYaml text).mapError fun e =>
      ("Failed to load manifests from " ++ Text.quoted path) :: e.causes

/-- Stores with the objects of the manifests at a path, if there is one. -/
def seeded (h : Host) (path : Option String) : Except (List String) Stores :=
  match path with
  | none => .ok .empty
  | some path => do
    let m ← h.manifests path
    match m.seed h.fresh .empty with
    | (s, none) => .ok s
    | (_, some e) => .error e.causes

/-- A moment after those of `seeded`. -/
def now (h : Host) (s : Stores) : Timestamp :=
  (h.fresh (s.templates.objects.size + s.versions.objects.size)).2

/-- A manager over stores, started. -/
def started (h : Host) (c : Config) (s : Stores) : Except (List String) (Manager.Session World) :=
  let session := Manager.Session.make (.ofConfig c.spec.retry) c.spec.controller.workers.toNat
    { World.empty with stores := s }
  match session.start World.site (h.now s) with
  | (.ok _, session) => .ok session
  | (.error e, _) => .error e.causes

/-- How long controllers have to stay idle: 200 ms. -/
def stillness : Nat := 200000000

/-- Beyond this many seconds no clock can tell when time is up. -/
def clockEnd : Nat := 9223372036854775807

def reconcile (h : Host) (c : Config) (path : String) (timeoutSecs : UInt64) :
    Except (List String) Exit := do
  let s ← h.seeded path
  let session ← h.started c s
  if timeoutSecs.toNat ≥ clockEnd then .ok (.aborted "the timeout ends after the clock does" h.disk)
  else
    let (settled, session) :=
      session.awaitIdle World.site (h.now s) stillness (timeoutSecs.toNat * Duration.nanosPerSecond)
    let report := lines session.state.stores.reportLines
    .ok (if settled then .well (report ++ "\n✓ Reconciled\n") h.disk
      else .failed report ["Controllers did not settle within " ++
        toString timeoutSecs.toNat ++ "s"] h.disk)

/-- Become the leader, unless elections are off, and host the controllers. A lease must end before
the calendar does. -/
def run (h : Host) (c : Config) (path : Option String) : Except (List String) Outcome := do
  let s ← h.seeded path
  let e := c.spec.election
  if e.enabled ∧ (Leases.expiry? (.empty e.leaseDuration) h.clock).isNone then
    .ok (.ends (.aborted "the lease ends after the calendar does" h.disk))
  else .ok (.hosts (← h.started c s))

def showConfig (h : Host) (path : Option String) (paths yaml : Bool) :
    Except (List String) Exit := do
  let c ← h.config path
  let head := if paths then lines (Config.placeLines h.surroundings path) else ""
  .ok (.well (head ++ if yaml then c.toYaml .standard else lines c.overviewLines) h.disk)

def validate (h : Host) (path : Option String) : Exit :=
  let head := "Validating configuration...\n"
  match h.validConfig path with
  | .ok _ => .well (head ++ "✓ Configuration is valid\n") h.disk
  | .error causes => .failed head causes h.disk

/-- Write the standard configuration, over what is there only when forced. -/
def generate (h : Host) (path : String) (force : Bool) : Except (List String) Exit :=
  if h.disk.exists? path ∧ !force then .error [path ++ " already exists (use --force to overwrite)"]
  else match Config.standard.writeFile .standard h.disk path with
    | .ok disk => .ok (.well ("✓ Configuration generated: " ++ path ++ "\n") disk)
    | .error e => .error [e.message]

/-- The exit of a command that may have failed before it said anything. -/
def ended (h : Host) : Except (List String) Exit → Outcome
  | .ok e => .ends e
  | .error causes => .ends (.failed "" causes h.disk)

def perform (h : Host) (i : Invocation) : Outcome :=
  match i.logFormat.map LogFormat.ofText with
  | some (.error text) => h.ended (.error [LogFormat.invalidMessage text])
  | _ =>
    match i.task with
    | .nothing => .ends ⟨1, "", "No command specified. Use --help for usage.\n", h.disk⟩
    | .run path =>
      match h.validConfig i.config >>= fun c => h.run c path with
      | .ok o => o
      | .error causes => h.ended (.error causes)
    | .reconcile path timeoutSecs =>
      h.ended (h.validConfig i.config >>= fun c => h.reconcile c path timeoutSecs)
    | .show paths yaml => h.ended (h.showConfig i.config paths yaml)
    | .validate file => .ends (h.validate (file.or i.config))
    | .generate path force => h.ended (h.generate path force)

/-- The paths that a call may read or write. -/
def paths (s : Surroundings) (words : List String) : List String :=
  Config.places s ++ match Invocation.ofWords s.environment words with
    | .error _ => []
    | .ok i => i.config.toList ++ match i.task with
      | .run path => path.toList
      | .reconcile path _ => [path]
      | .validate file => file.toList
      | .generate path _ => [path]
      | _ => []

/-- What happens to a process that is called with some words. -/
def call (h : Host) (words : List String) : Outcome :=
  let environment := h.surroundings.environment
  match Invocation.ofWords environment words with
  | .ok i => h.perform i
  | .error (.help c) => .ends (.well (c.help environment) h.disk)
  | .error (.version c) => .ends (.well c.releaseText h.disk)
  | .error (.incomplete c) => .ends ⟨2, "", c.help environment, h.disk⟩
  | .error (.misuse c why) => .ends ⟨2, "", misuseText c why, h.disk⟩

end Host
end CommandLine
end ModelTemplates
