import ModelTemplates.Data.Decode
import ModelTemplates.Duration
import ModelTemplates.Text.Lowercase
/-! The configuration of a controller process: its values, their defaults and what makes them
valid. -/
namespace ModelTemplates

inductive LogFormat where
  | text
  | json
deriving DecidableEq, Inhabited

structure WorkerConfig where
  /-- Workers of each controller. -/
  workers : UInt64
  releaseName : String
deriving DecidableEq, Inhabited

/-- Waits between attempts at a failed key. -/
structure RetryConfig where
  baseDelayMs : UInt64
  maxDelayMs : UInt64
deriving DecidableEq, Inhabited

structure ElectionConfig where
  enabled : Bool
  lockName : String
  leaseDurationSecs : UInt64
  renewPeriodSecs : UInt64
  /-- Between two attempts of a standby. -/
  retryPeriodSecs : UInt64
deriving DecidableEq, Inhabited

structure MetricsConfig where
  enabled : Bool
  port : UInt16
deriving DecidableEq, Inhabited

structure ObservabilityConfig where
  logLevel : String
  logFormat : LogFormat
  metrics : Option MetricsConfig
deriving DecidableEq, Inhabited

structure ConfigSpec where
  controller : WorkerConfig
  retry : RetryConfig
  election : ElectionConfig
  observability : ObservabilityConfig
deriving DecidableEq, Inhabited

structure Config where
  apiVersion : String
  kind : String
  name : String
  spec : ConfigSpec
deriving DecidableEq, Inhabited

namespace LogFormat

def variants : List (String × LogFormat) := [("text", .text), ("json", .json)]

def name : LogFormat → String
  | .text => "text"
  | .json => "json"

/-- A name in letters of any case, or its lower case when it is none. -/
def ofText (s : String) : Except String LogFormat :=
  let lower := Text.lower s
  match variants.lookup lower with
  | some f => .ok f
  | none => .error lower

def invalidMessage (lower : String) : String :=
  "Invalid log format '" ++ lower ++ "'. Expected text or json"

end LogFormat

namespace WorkerConfig

def standard : WorkerConfig := ⟨2, "vela"⟩

def toData (c : WorkerConfig) : Data :=
  .object [("workers", .int c.workers.toNat), ("release_name", .text c.releaseName)]

end WorkerConfig

namespace RetryConfig

def standard : RetryConfig := ⟨5, 60000⟩

def baseDelay (c : RetryConfig) : Duration := .ofMillis c.baseDelayMs

def maxDelay (c : RetryConfig) : Duration := .ofMillis c.maxDelayMs

def toData (c : RetryConfig) : Data :=
  .object [("base_delay_ms", .int c.baseDelayMs.toNat), ("max_delay_ms", .int c.maxDelayMs.toNat)]

def member (dialect : Dialect) (c : RetryConfig) (name : String) (d : Data) : Decoded RetryConfig :=
  match name with
  | "base_delay_ms" => do .ok { c with baseDelayMs := ← Data.uint64 dialect d }
  | "max_delay_ms" => do .ok { c with maxDelayMs := ← Data.uint64 dialect d }
  | _ => .ok c

def ofData : Decoder RetryConfig :=
  Data.members "struct RetryConfig" ["base_delay_ms", "max_delay_ms"] standard member fun _ => .ok

end RetryConfig

namespace ElectionConfig

def standard : ElectionConfig := ⟨true, "vela-controllers", 15, 5, 2⟩

def leaseDuration (c : ElectionConfig) : Duration := .ofSecs c.leaseDurationSecs

def renewPeriod (c : ElectionConfig) : Duration := .ofSecs c.renewPeriodSecs

def retryPeriod (c : ElectionConfig) : Duration := .ofSecs c.retryPeriodSecs

def toData (c : ElectionConfig) : Data :=
  .object [("enabled", .bool c.enabled), ("lock_name", .text c.lockName),
    ("lease_duration_secs", .int c.leaseDurationSecs.toNat),
    ("renew_period_secs", .int c.renewPeriodSecs.toNat),
    ("retry_period_secs", .int c.retryPeriodSecs.toNat)]

def member (dialect : Dialect) (c : ElectionConfig) (name : String) (d : Data) :
    Decoded ElectionConfig :=
  match name with
  | "enabled" => do .ok { c with enabled := ← Data.boolean dialect d }
  | "lock_name" => do .ok { c with lockName := ← Data.string dialect d }
  | "lease_duration_secs" => do .ok { c with leaseDurationSecs := ← Data.uint64 dialect d }
  | "renew_period_secs" => do .ok { c with renewPeriodSecs := ← Data.uint64 dialect d }
  | "retry_period_secs" => do .ok { c with retryPeriodSecs := ← Data.uint64 dialect d }
  | _ => .ok c

def ofData : Decoder ElectionConfig :=
  Data.members "struct LeaderElectionConfig"
    ["enabled", "lock_name", "lease_duration_secs", "renew_period_secs",
      "retry_period_secs"] standard member
    fun _ => .ok

end ElectionConfig

namespace MetricsConfig

def standard : MetricsConfig := ⟨true, 9090⟩

def toData (c : MetricsConfig) : Data :=
  .object [("enabled", .bool c.enabled), ("port", .int c.port.toNat)]

end MetricsConfig

namespace ObservabilityConfig

def standard : ObservabilityConfig := ⟨"info", .text, none⟩

def toData (c : ObservabilityConfig) : Data :=
  .object ([("log_level", .text c.logLevel), ("log_format", .text c.logFormat.name)]
    ++ match c.metrics with | some m => [("metrics", m.toData)] | none => [])

end ObservabilityConfig

namespace ConfigSpec

def standard : ConfigSpec := ⟨.standard, .standard, .standard, .standard⟩

def toData (c : ConfigSpec) : Data :=
  .object [("controller", c.controller.toData), ("retry", c.retry.toData),
    ("leader_election", c.election.toData), ("observability", c.observability.toData)]

end ConfigSpec

/-- Why a configuration is refused. -/
inductive ConfigError where
  | wrongApiVersion (found : String)
  | wrongKind (found : String)
  | noName
  | noWorkers
  | badRetry (base max : UInt64)
  | noLockName
  | badRenewal (renew lease : UInt64)
deriving DecidableEq

namespace Config

def requiredApiVersion : String := "vela.dev/v1"

def requiredKind : String := "ControllerConfig"

def standard : Config := ⟨requiredApiVersion, requiredKind, "vela", .standard⟩

def toData (c : Config) : Data :=
  .object [("apiVersion", .text c.apiVersion), ("kind", .text c.kind),
    ("metadata", .object [("name", .text c.name)]), ("spec", c.spec.toData)]

/-- The first fault of a configuration. -/
def validate (c : Config) : Except ConfigError Unit :=
  let retry := c.spec.retry
  let election := c.spec.election
  if c.apiVersion ≠ requiredApiVersion then .error (.wrongApiVersion c.apiVersion)
  else if c.kind ≠ requiredKind then .error (.wrongKind c.kind)
  else if c.name = "" then .error .noName
  else if c.spec.controller.workers = 0 then .error .noWorkers
  else if retry.baseDelayMs = 0 ∨ retry.baseDelayMs > retry.maxDelayMs then
    .error (.badRetry retry.baseDelayMs retry.maxDelayMs)
  else if election.enabled ∧ election.lockName = "" then .error .noLockName
  else if election.enabled ∧
      (election.renewPeriodSecs = 0 ∨ election.renewPeriodSecs ≥ election.leaseDurationSecs) then
    .error (.badRenewal election.renewPeriodSecs election.leaseDurationSecs)
  else .ok ()

end Config

def ConfigError.message : ConfigError → String
  | .wrongApiVersion found =>
    "Invalid apiVersion: '" ++ found ++ "'. Must be '" ++ Config.requiredApiVersion ++ "'"
  | .wrongKind found => "Invalid kind: '" ++ found ++ "'. Must be '" ++ Config.requiredKind ++ "'"
  | .noName => "metadata.name cannot be empty"
  | .noWorkers => "spec.controller.workers must be at least 1"
  | .badRetry base max =>
    "spec.retry.base_delay_ms (" ++ toString base.toNat ++
      ") must be positive and not exceed max_delay_ms ("
      ++ toString max.toNat ++ ")"
  | .noLockName => "spec.leader_election.lock_name cannot be empty"
  | .badRenewal renew lease =>
    "spec.leader_election.renew_period_secs (" ++ toString renew.toNat
      ++ ") must be positive and shorter than lease_duration_secs (" ++ toString lease.toNat ++ ")"

end ModelTemplates
