import ModelTemplates.Config
import ModelTemplates.Yaml.Typed
/-! Configurations as YAML manifests. Members that are left out take their defaults. -/
namespace ModelTemplates

open Yaml (NodeReader Document Node Read Path)

namespace WorkerConfig

def nodeMember (d : Document) (path : Path) (c : WorkerConfig) (name : String) (n : Node) :
    Read WorkerConfig :=
  match name with
  | "workers" => do
    let k ← NodeReader.count "usize" (Nat.pow 2 64 - 1) d path n
    pure { c with workers := UInt64.ofNat k }
  | _ => do pure { c with releaseName := ← NodeReader.string d path n }

def ofNode : NodeReader WorkerConfig :=
  NodeReader.record "struct ControllerSettings" ["workers", "release_name"] standard nodeMember .ok

end WorkerConfig

/-- A count of 64 bits. -/
def uint64OfNode : NodeReader UInt64 := fun d path n => do
  pure (UInt64.ofNat (← NodeReader.count "u64" (Nat.pow 2 64 - 1) d path n))

namespace RetryConfig

def nodeMember (d : Document) (path : Path) (c : RetryConfig) (name : String) (n : Node) :
    Read RetryConfig :=
  match name with
  | "base_delay_ms" => do pure { c with baseDelayMs := ← uint64OfNode d path n }
  | _ => do pure { c with maxDelayMs := ← uint64OfNode d path n }

def ofNode : NodeReader RetryConfig :=
  NodeReader.record "struct RetryConfig" ["base_delay_ms", "max_delay_ms"] standard nodeMember .ok

end RetryConfig

namespace ElectionConfig

def nodeMember (d : Document) (path : Path) (c : ElectionConfig) (name : String) (n : Node) :
    Read ElectionConfig :=
  match name with
  | "enabled" => do pure { c with enabled := ← NodeReader.boolean d path n }
  | "lock_name" => do pure { c with lockName := ← NodeReader.string d path n }
  | "lease_duration_secs" => do pure { c with leaseDurationSecs := ← uint64OfNode d path n }
  | "renew_period_secs" => do pure { c with renewPeriodSecs := ← uint64OfNode d path n }
  | _ => do pure { c with retryPeriodSecs := ← uint64OfNode d path n }

def ofNode : NodeReader ElectionConfig :=
  NodeReader.record "struct LeaderElectionConfig"
    ["enabled", "lock_name", "lease_duration_secs", "renew_period_secs",
      "retry_period_secs"] standard nodeMember .ok

end ElectionConfig

namespace MetricsConfig

def nodeMember (d : Document) (path : Path) (c : MetricsConfig) (name : String) (n : Node) :
    Read MetricsConfig :=
  match name with
  | "enabled" => do pure { c with enabled := ← NodeReader.boolean d path n }
  | _ => do
    let k ← NodeReader.count "u16" (Nat.pow 2 16 - 1) d path n
    pure { c with port := UInt16.ofNat k }

def ofNode : NodeReader MetricsConfig :=
  NodeReader.record "struct MetricsConfig" ["enabled", "port"] standard nodeMember .ok

end MetricsConfig

namespace ObservabilityConfig

def nodeMember (d : Document) (path : Path) (c : ObservabilityConfig) (name : String) (n : Node) :
    Read ObservabilityConfig :=
  match name with
  | "log_level" => do pure { c with logLevel := ← NodeReader.string d path n }
  | "log_format" => do pure { c with logFormat := ← NodeReader.variant LogFormat.variants d path n }
  | _ => do pure { c with metrics := ← NodeReader.optional MetricsConfig.ofNode d path n }

def ofNode : NodeReader ObservabilityConfig :=
  NodeReader.record "struct ObservabilityConfig" ["log_level", "log_format",
    "metrics"] standard nodeMember .ok

end ObservabilityConfig

namespace ConfigSpec

def nodeMember (d : Document) (path : Path) (c : ConfigSpec) (name : String) (n : Node) :
    Read ConfigSpec :=
  match name with
  | "controller" => do pure { c with controller := ← WorkerConfig.ofNode d path n }
  | "retry" => do pure { c with retry := ← RetryConfig.ofNode d path n }
  | "leader_election" => do pure { c with election := ← ElectionConfig.ofNode d path n }
  | _ => do pure { c with observability := ← ObservabilityConfig.ofNode d path n }

def ofNode : NodeReader ConfigSpec :=
  NodeReader.record "struct ControllerConfigSpec" ["controller", "retry", "leader_election",
    "observability"] standard
    nodeMember .ok

end ConfigSpec

namespace Config

/-- The name, which is all that the metadata hold. -/
def nameOfNode : NodeReader String :=
  NodeReader.record "struct ManifestMetadata" ["name"] none
    (fun d path _ _ n => do pure (some (← NodeReader.string d path n)))
    (Data.require .missingField "name")

structure Draft where
  apiVersion : Option String
  kind : Option String
  name : Option String
  spec : ConfigSpec

def nodeMember (d : Document) (path : Path) (c : Draft) (name : String) (n : Node) : Read Draft :=
  match name with
  | "apiVersion" => do pure { c with apiVersion := some (← NodeReader.string d path n) }
  | "kind" => do pure { c with kind := some (← NodeReader.string d path n) }
  | "metadata" => do pure { c with name := some (← nameOfNode d path n) }
  | _ => do pure { c with spec := ← ConfigSpec.ofNode d path n }

def finish (c : Draft) : Decoded Config := do
  let apiVersion ← Data.require .missingField "apiVersion" c.apiVersion
  let kind ← Data.require .missingField "kind" c.kind
  let name ← Data.require .missingField "metadata" c.name
  .ok ⟨apiVersion, kind, name, c.spec⟩

def ofNode : NodeReader Config :=
  NodeReader.record "struct ControllerConfigManifest" ["apiVersion", "kind", "metadata", "spec"]
    ⟨none, none, none, .standard⟩ nodeMember finish

/-- Read a manifest. -/
def ofYaml (y : Yaml.Library) (s : String) : Except Yaml.ReadError Config :=
  y.readOne s fun d node => ofNode d .root node

def toYaml (y : Yaml.Library) (c : Config) : String := y.write c.toData

end Config
end ModelTemplates
