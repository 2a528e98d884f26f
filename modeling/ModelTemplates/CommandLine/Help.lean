import ModelTemplates.CommandLine.Invocation
/-! What `vela` tells of its commands and parameters. -/
namespace ModelTemplates
namespace CommandLine

def release : String := "0.3.0-pre-alpha"

namespace Command

def about : Command → String
  | vela =>
    "Vela model template controller binary: runs the reconcilers and manages their configuration"
  | run => "Run the controllers until Ctrl+C or SIGTERM"
  | reconcile => "Reconcile a manifest file until the controllers are idle"
  | config => "Configuration management"
  | «show» => "Show current configuration"
  | validate => "Validate configuration file"
  | generate => "Generate a configuration file with every default spelled out"

/-- The words that must or may follow those of a command. -/
def operands : Command → List String
  | vela => ["[OPTIONS]", "[COMMAND]"]
  | reconcile => ["[OPTIONS]", "--manifests <FILE>"]
  | config => ["[OPTIONS]", "<COMMAND>"]
  | validate => ["[OPTIONS]", "[FILE]"]
  | _ => ["[OPTIONS]"]

def usage (c : Command) : String :=
  "Usage: " ++ String.intercalate " " (c.words ++ c.operands) ++ "\n"

/-- The name that goes with the release. -/
def releaseText (c : Command) : String := String.intercalate "-" c.words ++ " " ++ release ++ "\n"

end Command

namespace Parameter

def about : Parameter → String
  | config => "Path to configuration file (overrides discovery)"
  | logLevel => "Log level (trace, debug, info, warn, error). Defaults to the config file value"
  | logFormat => "Log output format (text, json). Defaults to the config file value"
  | manifests => "Multi-document YAML of ModelTemplate and ModelTemplateVersion objects"
  | instanceId => "Leader election identity (default: hostname and process id)"
  | timeoutSecs => "Give up when the controllers are still busy after this many seconds"
  | paths => "Show config file paths checked"
  | yaml => "Print the resolved manifest as YAML"
  | output => "Output path (default: ./vela-config.yaml)"
  | force => "Overwrite an existing file"
  | help => "Print help"
  | version => "Print version"

/-- The place in a list of parameters: those of a command and the shared ones are counted apart, and
help and version come last. -/
def rank (c : Command) (p : Parameter) : Nat :=
  if p = .help ∨ p = .version then 999
  else match c.own.idxOf? p with
    | some n => n
    | none => (Command.shared.idxOf? p).getD 0

/-- Parameters of one rank go by their letters, or else by their names. -/
def sortKey (p : Parameter) : String :=
  match p.short? with
  | some l => String.ofList [l.toLower, if l.isLower then '0' else '1']
  | none => p.long

def precedes (c : Command) (p q : Parameter) : Bool :=
  p.rank c < q.rank c ∨ (p.rank c = q.rank c ∧ p.sortKey ≤ q.sortKey)

/-- How a parameter is written. -/
def spelling (p : Parameter) : String :=
  (match p.short? with
    | some l => "-" ++ String.ofList [l] ++ ", "
    | none => "    ")
    ++ "--" ++ p.long
    ++ (match p.value? with
      | some v => " <" ++ v ++ ">"
      | none => "")

/-- What a parameter is for, in a command, and where its value comes from otherwise. -/
def meaning (environment : Table String String) (c : Command) (p : Parameter) : String :=
  p.about ++ (if p = .manifests ∧ c = .run then " to seed" else "")
    ++ (match p.fromEnv? with
      | some v => " [env: " ++ v ++ "=" ++ (environment.find? v).getD "" ++ "]"
      | none => "")
    ++ (match p.standard? with
      | some v => " [default: " ++ v ++ "]"
      | none => "")

end Parameter

/-- Lines of two columns. -/
def columns (rows : List (String × String)) : String :=
  let width := rows.foldl (fun w r => max w r.1.length) 0
  String.join (rows.map fun r =>
    "  " ++ r.1 ++ String.ofList (List.replicate (width + 2 - r.1.length) ' ') ++ r.2 ++ "\n")

def section? (title : String) (rows : List (String × String)) : String :=
  if rows.isEmpty then "" else "\n" ++ title ++ ":\n" ++ columns rows

def Command.help (environment : Table String String) (c : Command) : String :=
  c.about ++ "\n\n" ++ c.usage
    ++ section? "Commands" (if c.children.isEmpty then []
      else c.children.map (fun sub => (sub.name, sub.about))
        ++ [("help", "Print this message or the help of the given subcommand(s)")])
    ++ section? "Arguments" (if c.takesFile then
      [("[FILE]", "Path to config file (default: discover)")] else [])
    ++ section? "Options" ((c.parameters.mergeSort (Parameter.precedes c)).map fun p =>
      (p.spelling, p.meaning environment c))

def misuseText (c : Command) (why : String) : String :=
  "error: " ++ why ++ "\n\n" ++ c.usage ++ "\nFor more information, try '--help'.\n"

end CommandLine
end ModelTemplates
