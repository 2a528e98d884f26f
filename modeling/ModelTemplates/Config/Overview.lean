import ModelTemplates.Config.Load
/-! A configuration as it is shown to people. -/
namespace ModelTemplates

def LogFormat.title : LogFormat → String
  | text => "Text"
  | json => "Json"

namespace Config

def electionLines (e : ElectionConfig) : List String :=
  if e.enabled then
    ["  Lock: " ++ e.lockName, "  Lease duration: " ++ e.leaseDuration.text,
      "  Renew period: " ++ e.renewPeriod.text, "  Retry period: " ++ e.retryPeriod.text]
  else ["  (disabled)"]

def metricsText : Option MetricsConfig → String
  | some m => if m.enabled then "port " ++ toString m.port.toNat else "(disabled)"
  | none => "(disabled)"

def overviewLines (c : Config) : List String :=
  ["Current configuration:", "",
    "Controllers:",
    "  Release: " ++ c.spec.controller.releaseName,
    "  Workers per controller: " ++ toString c.spec.controller.workers.toNat, "",
    "Retry backoff:",
    "  Base delay: " ++ c.spec.retry.baseDelay.text,
    "  Max delay: " ++ c.spec.retry.maxDelay.text, "",
    "Leader election:"] ++ electionLines c.spec.election ++ ["",
    "Observability:",
    "  Log level: " ++ c.spec.observability.logLevel,
    "  Log format: " ++ c.spec.observability.logFormat.title,
    "  Metrics: " ++ metricsText c.spec.observability.metrics, ""]

/-- Where configurations are looked for, when a path was given or none. -/
def placeLines (s : Surroundings) (path : Option String) : List String :=
  ["Configuration discovery paths:",
    "  1. --config flag: " ++ path.getD "(not set)",
    "  2. " ++ pathVariable ++ ": " ++ (s.valueOf pathVariable).getD "(not set)",
    "  3. ./vela-config.yaml",
    "  4. ~/.vela/config.yaml",
    "  5. /etc/vela/config.yaml", ""]

end Config
end ModelTemplates
