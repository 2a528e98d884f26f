import ModelTemplates.Config.Yaml
import ModelTemplates.Disk
import ModelTemplates.Text
/-! Finding and loading the configuration of a process: from a path that is given, else from the
first place that holds one, else the standard one; the environment has the last word on some
values. -/
namespace ModelTemplates

/-- Where a process runs: its environment and its disk. -/
structure Surroundings where
  environment : Table String String
  disk : Disk

namespace Surroundings

def valueOf (s : Surroundings) (name : String) : Option String := s.environment.find? name

end Surroundings

/-- Why a configuration cannot be loaded. -/
inductive LoadError where
  | file (e : FileError)
  | yaml (e : Yaml.ReadError)
  /-- From a path that was given. -/
  | at (path : String) (e : LoadError)

def LoadError.message : LoadError → String
  | .file e => e.message
  | .yaml e => e.message
  | .at path e => "Failed to load config at " ++ Text.quoted path ++ ": " ++ e.message

namespace Config

def pathVariable : String := "VELA_CONFIG_PATH"

def workersVariable : String := "VELA_WORKERS"

def logFormatVariable : String := "VELA_LOG_FORMAT"

/-- A path below another. -/
def joined (parent child : String) : String :=
  if parent.endsWith "/" || parent = "" then parent ++ child else parent ++ "/" ++ child

/-- Where configurations are looked for, the first place first. -/
def places (s : Surroundings) : List String :=
  (s.valueOf pathVariable).toList ++ ["./vela-config.yaml"]
    ++ ((s.valueOf "HOME").filter (· ≠ "")).toList.map (fun home =>
      joined (joined home ".vela") "config.yaml")
    ++ ["/etc/vela/config.yaml"]

/-- The first place that holds anything. -/
def discover (s : Surroundings) : Option String := (places s).find? s.disk.exists?

/-- A count of 64 bits in digits, with an optional plus. -/
def count? (text : String) : Option UInt64 :=
  let digits := match text.toList with
    | '+' :: rest => rest
    | cs => cs
  if digits.isEmpty || !digits.all (fun c => '0' ≤ c && c ≤ '9') then none
  else
    let n := digits.foldl (fun n c => 10 * n + (c.toNat - 48)) 0
    if n < Nat.pow 2 64 then some (UInt64.ofNat n) else none

def withWorkers (c : Config) (n : UInt64) : Config :=
  { c with spec := { c.spec with controller := { c.spec.controller with workers := n } } }

def withLogFormat (c : Config) (f : LogFormat) : Config :=
  { c with spec := { c.spec with observability := { c.spec.observability with logFormat := f } } }

/-- Take over what the environment sets. Values that do not read are passed over. -/
def overridden (s : Surroundings) (c : Config) : Config :=
  let c := match (s.valueOf workersVariable).bind count? with
    | some n => c.withWorkers n
    | none => c
  match (s.valueOf logFormatVariable).map LogFormat.ofText with
  | some (.ok f) => c.withLogFormat f
  | _ => c

def readFile (y : Yaml.Library) (d : Disk) (path : String) : Except LoadError Config :=
  match d.read path with
  | .error e => .error (.file e)
  | .ok text =>
    match ofYaml y text with
    | .error e => .error (.yaml e)
    | .ok c => .ok c

def writeFile (y : Yaml.Library) (c : Config) (d : Disk) (path : String) : Except FileError Disk :=
  d.write path (c.toYaml y)

/-- The configuration at a path, or the one that is discovered, or the standard one. -/
def load (s : Surroundings) (path : Option String) : Except LoadError Config :=
  match path with
  | some path =>
    match readFile .standard s.disk path with
    | .ok c => .ok (overridden s c)
    | .error e => .error (.at path e)
  | none =>
    match discover s with
    | some path => (readFile .standard s.disk path).map (overridden s)
    | none => .ok (overridden s .standard)

end Config
end ModelTemplates
