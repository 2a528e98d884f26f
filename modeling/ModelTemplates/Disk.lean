import ModelTemplates.Table
/-! A tree of files and directories, read and written by paths from its working directory. -/
namespace ModelTemplates

inductive FileError where
  | notFound
  | notDirectory
  | isDirectory
  | nameTooLong
  | badName
  | notText
deriving DecidableEq

def FileError.message : FileError → String
  | .notFound => "No such file or directory (os error 2)"
  | .notDirectory => "Not a directory (os error 20)"
  | .isDirectory => "Is a directory (os error 21)"
  | .nameTooLong => "File name too long (os error 36)"
  | .badName => "file name contained an unexpected NUL byte"
  | .notText => "stream did not contain valid UTF-8"

inductive FileNode where
  | file (bytes : ByteArray)
  | directory

/-- Files and directories by the names on the way to them, parents included. The way starts in the
working directory, or at the root with the name `/`. -/
structure Disk where
  nodes : List (List String × FileNode)

namespace Disk

/-- Nothing but the working directory. -/
def empty : Disk := ⟨[]⟩

/-- The working directory and those above it. -/
def isAbove (names : List String) : Bool := names.all (· = "..")

def node? (d : Disk) (names : List String) : Option FileNode :=
  if isAbove names ∨ names = ["/"] then some .directory else d.nodes.lookup names

def put (d : Disk) (names : List String) (n : FileNode) : Disk :=
  ⟨(names, n) :: d.nodes.filter fun e => e.1 ≠ names⟩

/-- The names of a path between its slashes. -/
def split (path : List Char) : List (List Char) :=
  match path with
  | [] => [[]]
  | '/' :: rest => [] :: split rest
  | c :: rest =>
    match split rest with
    | [] => [[c]]
    | name :: names => (c :: name) :: names

/-- Go on from a directory by one name. -/
def go (here : List String) (name : String) : List String :=
  if name = "." then here
  else if name ≠ ".." then here ++ [name]
  else if here = ["/"] then here
  else if isAbove here then here ++ [".."]
  else here.dropLast

/-- Follow names from a directory. The last of them need not be there. -/
def walk (d : Disk) : List String → List String → Except FileError (List String)
  | here, [] => .ok here
  | here, name :: names =>
    match d.node? here with
    | none => .error .notFound
    | some (.file _) => .error .notDirectory
    | some .directory =>
      if name.utf8ByteSize > 255 then .error .nameTooLong else d.walk (go here name) names

/-- The place of a path, and whether the path asks for a directory. -/
def resolve (d : Disk) (path : String) : Except FileError (List String × Bool) := do
  let cs := path.toList
  if cs.isEmpty then .error .notFound
  else if cs.contains '\x00' then .error .badName
  else if path.utf8ByteSize ≥ 4096 then .error .nameTooLong
  else
    let names := ((split cs).filter fun n => !n.isEmpty).map String.ofList
    let here ← d.walk (if cs.head? = some '/' then ["/"] else []) names
    .ok (here, cs.getLast? = some '/')

def find (d : Disk) (path : String) : Except FileError FileNode := do
  let (here, wantsDirectory) ← d.resolve path
  match d.node? here with
  | none => .error .notFound
  | some (.file bytes) => if wantsDirectory then .error .notDirectory else .ok (.file bytes)
  | some .directory => .ok .directory

/-- Whether anything is at a path. -/
def exists? (d : Disk) (path : String) : Bool :=
  match d.find path with
  | .ok _ => true
  | .error _ => false

def read (d : Disk) (path : String) : Except FileError String := do
  match ← d.find path with
  | .directory => .error .isDirectory
  | .file bytes =>
    match String.fromUTF8? bytes with
    | some s => .ok s
    | none => .error .notText

/-- Write a text over what is at a path. -/
def write (d : Disk) (path text : String) : Except FileError Disk := do
  let (here, wantsDirectory) ← d.resolve path
  match d.node? here with
  | some .directory => .error .isDirectory
  | some (.file _) =>
    if wantsDirectory then .error .notDirectory else .ok (d.put here (.file text.toUTF8))
  | none =>
    match d.node? here.dropLast with
    | none => .error .notFound
    | some (.file _) => .error .notDirectory
    | some .directory =>
      if wantsDirectory then .error .isDirectory else .ok (d.put here (.file text.toUTF8))

/-- Every directory on the way to a place. -/
def withParents (d : Disk) (names : List String) : Disk :=
  (List.range names.length).foldl (fun d n =>
    let here := names.take n
    if n = 0 || (d.node? here).isSome then d else d.put here .directory) d

/-- A disk that holds a node at each path, in the directories that the paths name. -/
def ofPaths (nodes : List (String × FileNode)) : Disk :=
  nodes.foldl (fun d e =>
    let cs := e.1.toList
    let names := ((split cs).filter fun n => !n.isEmpty).map String.ofList
    let place := names.foldl go (if cs.head? = some '/' then ["/"] else [])
    (d.withParents place).put place e.2) empty

end Disk
end ModelTemplates
