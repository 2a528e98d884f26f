import ModelTemplates.CommandLine.Command
/-! Reading the words of a command line. Parameters of a command may stand before, between and after
its other words, the shared ones at every command on the way. -/
namespace ModelTemplates
namespace CommandLine

/-- Why no command is carried out. -/
inductive Refusal where
  | help (c : Command)
  | version (c : Command)
  /-- A word that does not fit. -/
  | misuse (c : Command) (why : String)
  /-- A command of the command has to be named. -/
  | incomplete (c : Command)
deriving DecidableEq

abbrev Values := List (Parameter × String)

/-- The words read so far. -/
structure Given where
  /-- What the command at hand was given. -/
  here : Values
  /-- The commands before it with what they were given, the nearest one first. -/
  above : List (Command × Values)
  file : Option String
  /-- After `--` no word is a parameter. -/
  plain : Bool
deriving DecidableEq

namespace Given

def empty : Given := ⟨[], [], none, false⟩

/-- Go on with a command of a command. -/
def enter (g : Given) (c : Command) : Given := { empty with above := (c, g.here) :: g.above }

end Given

/-- How the letters of one word end. -/
inductive Rest where
  | done
  /-- The value is the next word. -/
  | waits (p : Parameter)
  | stray (why : String)
deriving DecidableEq

def unexpected (word : String) : String := "unexpected argument '" ++ word ++ "' found"

/-- Parameters by their letters, all in one word. The rest of the word is the value of the first one
that takes any. -/
def letters (c : Command) : List Char → Values × Rest
  | [] => ([], .done)
  | l :: ls =>
    match c.parameters.find? fun p => p.short? = some l with
    | none => ([], .stray (unexpected (String.ofList ['-', l])))
    | some p =>
      if p.value?.isNone then ((p, "") :: (letters c ls).1, (letters c ls).2)
      else match ls with
        | [] => ([], .waits p)
        | '=' :: value => ([(p, String.ofList value)], .done)
        | value => ([(p, String.ofList value)], .done)

/-- A parameter by its name, with its value after `=` or in the next word. -/
def spelled (c : Command) (word : List Char) : Values × Rest :=
  let name := String.ofList (word.takeWhile (· ≠ '='))
  let value := (word.dropWhile (· ≠ '=')).tail
  match c.parameters.find? fun p => p.long = name with
  | none => ([], .stray (unexpected ("--" ++ name)))
  | some p =>
    if word.contains '=' then
      if p.value?.isSome then ([(p, String.ofList value)], .done)
      else
        ([], .stray ("unexpected value '" ++ String.ofList value ++ "' for '--" ++ name ++
          "' found"))
    else if p.value?.isSome then ([], .waits p)
    else ([(p, "")], .done)

/-- The parameters that a word stands for, if it is not a plain word. -/
def parametersOf? (c : Command) (word : String) : Option (Values × Rest) :=
  match word.toList with
  | '-' :: '-' :: name => some (spelled c name)
  | ['-'] => none
  | '-' :: ls => some (letters c ls)
  | _ => none

/-- Take in one parameter. -/
def take (c : Command) (g : Given) (v : Parameter × String) : Except Refusal Given :=
  if v.1 = .help then .error (.help c)
  else if v.1 = .version then .error (.version c)
  else if g.here.any (·.1 = v.1) then
    .error (.misuse c ("the argument '--" ++ v.1.long ++ "' cannot be used multiple times"))
  else if v.1.accepts v.2 then .ok { g with here := g.here ++ [v] }
  else .error (.misuse c ("invalid value '" ++ v.2 ++ "' for '--" ++ v.1.long ++ "'"))

/-- A plain word that names no command. -/
def takeFile (c : Command) (g : Given) (word : String) : Except Refusal Given :=
  if c.takesFile ∧ g.file = none then
    if word = "" then .error (.misuse c "a value is required for '[FILE]' but none was supplied")
    else .ok { g with file := some word }
  else if c.children.isEmpty then .error (.misuse c (unexpected word))
  else .error (.misuse c ("unrecognized subcommand '" ++ word ++ "'"))

/-- The command that words lead to, for its help. -/
def helped (c : Command) : List String → Refusal
  | [] => .help c
  | word :: words =>
    match c.children.find? fun sub => sub.name = word with
    | some sub => helped sub words
    | none => .misuse c ("unrecognized subcommand '" ++ word ++ "'")

/-- Read the words after those that called a command. -/
def read (c : Command) (g : Given) : List String → Except Refusal (Command × Given)
  | [] => .ok (c, g)
  | word :: words =>
    if g.plain then do read c (← takeFile c g word) words
    else if word = "--" then read c { g with plain := true } words
    else match parametersOf? c word with
      | some (vs, .done) => do read c (← vs.foldlM (take c) g) words
      | some (vs, .stray why) => do
        let _ ← vs.foldlM (take c) g
        .error (.misuse c why)
      | some (vs, .waits p) => do
        let g ← vs.foldlM (take c) g
        match words with
        | [] =>
          .error (.misuse c ("a value is required for '--" ++ p.long ++ "' but none was supplied"))
        | value :: words =>
          if value = "--" ∨ (parametersOf? c value).isSome then
            .error
              (.misuse c ("a value is required for '--" ++ p.long ++ "' but none was supplied"))
          else read c (← take c g (p, value)) words
      | none =>
        match c.children.find? fun sub => sub.name = word with
        | some sub => read sub (g.enter c) words
        | none =>
          if word = "help" ∧ !c.children.isEmpty then .error (helped c words)
          else do read c (← takeFile c g word) words

/-- What is to be done. -/
inductive Task where
  | nothing
  | run (manifests : Option String)
  | reconcile (manifests : String) (timeoutSecs : UInt64)
  | show (paths yaml : Bool)
  | validate (file : Option String)
  | generate (output : String) (force : Bool)
deriving DecidableEq

structure Invocation where
  task : Task
  config : Option String
  logFormat : Option String
deriving DecidableEq

namespace Invocation

/-- Every command on the way with what it was given, the last one first. -/
def levels (c : Command) (g : Given) : List (Command × Values) := (c, g.here) :: g.above

/-- The value of a parameter: the one given last on the way to the command, else that of the
environment. -/
def valueOf (environment : Table String String) (levels : List (Command × Values)) (p : Parameter) :
    Option String :=
  match levels.findSome? fun l => l.2.lookup p with
  | some v => some v
  | none =>
    match p.fromEnv?.bind environment.find? with
    | some v => some v
    | none => p.standard?

/-- Every command needs the variables of the parameters that it was not given to fit, and some need
parameters. -/
def check (environment : Table String String) (l : Command × Values) : Except Refusal Unit :=
  let unfit := l.1.parameters.any fun p =>
    (l.2.lookup p).isNone && (p.fromEnv?.bind environment.find?).any fun v => !p.accepts v
  if unfit then .error (.misuse l.1 "a variable of the environment has an invalid value")
  else match l.1.required.find? fun p => (l.2.lookup p).isNone with
    | some p =>
      .error (.misuse l.1 ("the following required arguments were not provided:\n  --" ++
        p.long ++ " <" ++ p.value?.getD "" ++ ">"))
    | none => .ok ()

def ofWords (environment : Table String String) (words : List String) :
    Except Refusal Invocation := do
  let (c, g) ← read .vela .empty words
  let levels := levels c g
  if c = .config then .error (.incomplete c)
  levels.forM (check environment)
  let valueOf := valueOf environment levels
  let isGiven (p : Parameter) : Bool := (g.here.lookup p).isSome
  let task : Task := match c with
    | .run => .run (valueOf .manifests)
    | .reconcile =>
      .reconcile ((valueOf .manifests).getD "") (((valueOf .timeoutSecs).bind Config.count?).getD 0)
    | .show => .show (isGiven .paths) (isGiven .yaml)
    | .validate => .validate g.file
    | .generate => .generate ((valueOf .output).getD "") (isGiven .force)
    | _ => .nothing
  .ok ⟨task, valueOf .config, valueOf .logFormat⟩

end Invocation
end CommandLine
end ModelTemplates
