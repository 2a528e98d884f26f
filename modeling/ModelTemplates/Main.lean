import ModelTemplates.CommandLine.Execution
import Std.Time.DateTime.Timestamp
/-! The program `vela`. -/
namespace ModelTemplates
namespace CommandLine

def variableNames : List String :=
  ["HOME", Config.pathVariable, Config.workersVariable, Config.logFormatVariable, "VELA_LOG_LEVEL",
    "VELA_INSTANCE_ID"]

/-- The variables of the environment that are looked at. -/
def theEnvironment : IO (Table String String) := do
  let found ← variableNames.filterMapM fun name => do
    return (← IO.getEnv name).map fun value => (name, value)
  return .ofList found

/-- What is at a path. -/
def nodeAt? (path : String) : IO (Option FileNode) := do
  try
    return some (.file (← IO.FS.readBinFile path))
  catch
    | .inappropriateType _ 21 _ => return some .directory
    | _ => return none

/-- A path with the paths of the directories that it goes through. -/
def stages (path : String) : List String :=
  let names := Disk.split path.toList
  ((List.range names.length).map fun n =>
    String.ofList (['/'].intercalate (names.take (n + 1)))).filter (· ≠ "")

/-- The part of the disk that some paths go through. -/
def diskAt (paths : List String) : IO Disk := do
  let found ← (paths.flatMap stages).filterMapM fun path => do
    return (← nodeAt? path).map fun node => (path, node)
  return .ofPaths found

/-- Write the files whose texts have changed. -/
def save (before after : Disk) (paths : List String) : IO Unit := do
  for path in paths do
    match before.read path, after.read path with
    | .ok old, .ok new => if old ≠ new then IO.FS.writeFile path new
    | .error _, .ok new => IO.FS.writeFile path new
    | _, .error _ => pure ()

/-- What time it is. -/
def now : IO Instant := do
  return (← Std.Time.Timestamp.now).toNanosecondsSinceUnixEpoch.val.toNat

/-- One identifier after the other from a random one on, and moments one nanosecond apart. -/
def supply (start : Instant) : IO (Nat → Uid × Timestamp) := do
  let seed := (← IO.getRandomBytes 15).foldl (fun n b => 256 * n + b.toNat) 0
  return fun n => (⟨BitVec.ofNat 128 (256 * seed + n)⟩, Timestamp.epoch.addNanos (start + n))

/-- Let the controllers work, second by second, until the process is stopped. -/
partial def host (s : Manager.Session World) : IO UInt32 := do
  IO.sleep 1000
  let tasks := Manager.tasks World.site s.workers (Timestamp.epoch.addNanos (← now))
  host { s with schedule := s.schedule.run tasks Duration.nanosPerSecond }

end CommandLine
end ModelTemplates

open ModelTemplates CommandLine

def main (words : List String) : IO UInt32 := do
  let environment ← theEnvironment
  let paths := Host.paths ⟨environment, .empty⟩ words
  let disk ← diskAt paths
  let start ← now
  match Host.call ⟨⟨environment, disk⟩, start, ← supply start⟩ words with
  | .hosts s => host s
  | .ends e =>
    save disk e.disk paths
    (← IO.getStdout).putStr e.output
    (← IO.getStderr).putStr e.errors
    return e.code.toUInt32
