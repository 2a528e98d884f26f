import ModelTemplates.Config.Load
/-! The commands of `vela` and the parameters that each of them takes. -/
namespace ModelTemplates
namespace CommandLine

inductive Parameter where
  | config
  | logLevel
  | logFormat
  | manifests
  | instanceId
  | timeoutSecs
  | paths
  | yaml
  | output
  | force
  | help
  | version
deriving DecidableEq, Inhabited

namespace Parameter

def long : Parameter → String
  | config => "config"
  | logLevel => "log-level"
  | logFormat => "log-format"
  | manifests => "manifests"
  | instanceId => "instance-id"
  | timeoutSecs => "timeout-secs"
  | paths => "paths"
  | yaml => "yaml"
  | output => "output"
  | force => "force"
  | help => "help"
  | version => "version"

def short? : Parameter → Option Char
  | config => some 'c'
  | output => some 'o'
  | help => some 'h'
  | version => some 'V'
  | _ => none

/-- What the value is called. Flags have none. -/
def value? : Parameter → Option String
  | config => some "FILE"
  | logLevel => some "LOG_LEVEL"
  | logFormat => some "FORMAT"
  | manifests => some "FILE"
  | instanceId => some "INSTANCE_ID"
  | timeoutSecs => some "TIMEOUT_SECS"
  | output => some "OUTPUT"
  | _ => none

/-- The variable of the environment that gives the value when the command line does not. -/
def fromEnv? : Parameter → Option String
  | config => some Config.pathVariable
  | logLevel => some "VELA_LOG_LEVEL"
  | instanceId => some "VELA_INSTANCE_ID"
  | _ => none

/-- The value when nothing gives one. -/
def standard? : Parameter → Option String
  | timeoutSecs => some "30"
  | output => some "./vela-config.yaml"
  | _ => none

/-- Whether a value fits: paths are not empty, and counts are numbers. -/
def accepts (p : Parameter) (value : String) : Bool :=
  match p with
  | config => value ≠ ""
  | manifests => value ≠ ""
  | output => value ≠ ""
  | timeoutSecs => (Config.count? value).isSome
  | _ => true

end Parameter

inductive Command where
  | vela
  | run
  | reconcile
  | config
  | show
  | validate
  | generate
deriving DecidableEq, Inhabited

namespace Command

/-- The words that call a command. -/
def words : Command → List String
  | vela => ["vela"]
  | run => ["vela", "run"]
  | reconcile => ["vela", "reconcile"]
  | config => ["vela", "config"]
  | «show» => ["vela", "config", "show"]
  | validate => ["vela", "config", "validate"]
  | generate => ["vela", "config", "generate"]

def name (c : Command) : String := c.words.getLast?.getD ""

def children : Command → List Command
  | vela => [run, reconcile, config]
  | config => [«show», validate, generate]
  | _ => []

/-- The parameters of a command alone. -/
def own : Command → List Parameter
  | run => [.manifests, .instanceId]
  | reconcile => [.manifests, .timeoutSecs]
  | «show» => [.paths, .yaml]
  | generate => [.output, .force]
  | _ => []

/-- The parameters of every command. -/
def shared : List Parameter := [.config, .logLevel, .logFormat]

def parameters (c : Command) : List Parameter := shared ++ c.own ++ [.help, .version]

/-- Whether a command takes the path of a file after its parameters. -/
def takesFile (c : Command) : Bool := c = validate

/-- The parameters that must be given. -/
def required : Command → List Parameter
  | reconcile => [.manifests]
  | _ => []

end Command
end CommandLine
end ModelTemplates
