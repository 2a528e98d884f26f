import ModelTemplates.Data.Decode
import ModelTemplates.Yaml.Node
import ModelTemplates.Yaml.Writer
/-! Reading documents as untyped trees, and what every reading of a document shares: its faults with
their places, the limits on nesting and on the use of aliases. -/
namespace ModelTemplates
namespace Yaml

/-- The place of a node in its document. -/
inductive Path where
  | root
  | item (parent : Path) (index : Nat)
  | member (parent : Path) (name : String)
  /-- Below a key that is no scalar. -/
  | unnamed (parent : Path)
deriving DecidableEq, Inhabited

namespace Path

def isRoot : Path → Bool
  | root => true
  | _ => false

def text : Path → String
  | root => "."
  | item p i => p.text ++ "[" ++ toString i ++ "]"
  | member p name => (if p.isRoot then "" else p.text ++ ".") ++ name
  | unnamed p => (if p.isRoot then "" else p.text ++ ".") ++ "?"

end Path

/-- What a document says that cannot be read. -/
inductive Problem where
  | decode (e : DecodeError)
  | duplicateField (name : String)
  | duplicateKey (key : Data)
deriving Inhabited

def Problem.message : Problem → String
  | .decode e => e.message
  | .duplicateField name => "duplicate field " ++ DecodeError.ticked name
  | .duplicateKey key =>
    "duplicate entry " ++ match key with
      | .null => "with null key"
      | .bool b => "with key " ++ DecodeError.ticked (if b then "true" else "false")
      | .int n => "with key " ++ toString n
      | .float x => "with key " ++ floatKey x
      | .text s => "with key " ++ Text.quoted s
      | _ => "in YAML map"
where
  floatKey (x : Binary64) : String :=
    if x.isNaN then ".nan" else if x.isInfinite then (if x.negative then "-.inf" else ".inf")
      else x.toText

inductive ReadError where
  | fault (f : Fault)
  | endOfText
  | moreDocuments
  | tooDeep (mark : Mark)
  | tooManyAliases
  | emptyTag
  | problem (p : Problem) (place : Option (Mark × Path))
deriving Inhabited

namespace ReadError

def atMark (m : Mark) : String :=
  if m.line = 0 && m.column = 0 then ""
  else " at line " ++ toString (m.line + 1) ++ " column " ++ toString (m.column + 1)

def message : ReadError → String
  | fault (.malformed e) => e.message
  | fault (.unknownAnchor m) => "unknown anchor" ++ atMark m
  | endOfText => "EOF while parsing a value"
  | moreDocuments => "deserializing from YAML containing more than one document is not supported"
  | tooDeep m => "recursion limit exceeded" ++ atMark m
  | tooManyAliases => "repetition limit exceeded"
  | emptyTag => "empty YAML tag is not allowed"
  | problem p none => p.message
  | problem p (some (m, path)) =>
    (if path.isRoot then "" else path.text ++ ": ") ++ p.message ++ atMark m

/-- Give a problem its place, unless it has one. -/
def placed (m : Mark) (path : Path) : ReadError → ReadError
  | problem p none => problem p (some (m, path))
  | e => e

end ReadError

/-- A reading that counts the aliases it follows. -/
abbrev Read := StateT Nat (Except ReadError)

namespace Read

def fail {α : Type} (e : ReadError) : Read α := fun _ => .error e

def decodeFail {α : Type} (e : DecodeError) : Read α := fail (.problem (.decode e) none)

/-- Problems of a reading belong to this place, unless they have one. -/
def located {α : Type} (m : Mark) (path : Path) (r : Read α) : Read α := fun n =>
  match r n with
  | .ok x => .ok x
  | .error e => .error (e.placed m path)

end Read

namespace Document

/-- How deep collections may nest. -/
def maxDepth : Nat := 128

/-- The fault that a missing node stands for. -/
def missingError (d : Document) : ReadError :=
  match d.fault with
  | some f => .fault f
  | none => .endOfText

/-- The node itself, or the one that an alias stands for. -/
def resolve (d : Document) : Node → Read Node
  | .aliasTo _ slot => fun n =>
    if n + 1 > d.eventCount * 100 then .error .tooManyAliases
    else .ok ((d.anchored.lookup slot).getD .missing, n + 1)
  | node => fun n => .ok (node, n)

end Document

/-- The name of a tag that stands for a variant, and not for a type of the standard. -/
def variantTag? : Option String → Option String
  | some tag =>
    match tag.toList with
    | '!' :: name => some (String.ofList name)
    | _ => none
  | none => none

def standardTag (name : String) : String := "tag:yaml.org,2002:" ++ name

def intTooWide (n : Int) : Bool := n < -(Nat.pow 2 63 : Int) || n ≥ (Nat.pow 2 64 : Int)

def foundText : Data → String
  | .int n =>
    if intTooWide n then "integer " ++ DecodeError.ticked (toString n) ++
      (if n < 0 then " as i128" else " as u128")
    else Data.foundText .yaml (.int n)
  | d => Data.foundText .yaml d

/-- What a scalar stands for. The tags of the standard force a type; with any other tag a scalar is
a text, except a plain one whose tag has been dealt with. -/
def scalarData (tag : Option String) (text : String) (style : ScalarStyle) :
    Except DecodeError Data :=
  let forced (expected : String) : Option Data → Except DecodeError Data
    | some d => .ok d
    | none => .error (.invalidValue ("string " ++ Text.quoted text) expected)
  match tag with
  | some t =>
    if t = standardTag "bool" then forced "a boolean" ((Plain.truth? text).map Data.bool)
    else if t = standardTag "int" then
      forced "an integer" (((Plain.integer? text.toList).filter Plain.isWide).map Data.int)
    else if t = standardTag "float" then
      forced "a float" ((Plain.float? text.toList).map Data.float)
    else if t = standardTag "null" then
      forced "null" (if Plain.isNull text.toList then some Data.null else none)
    else if (variantTag? tag).isSome && style = .plain then .ok (Plain.read text)
    else .ok (.text text)
  | none => if style = .plain then .ok (Plain.read text) else .ok (.text text)

/-- The error for a scalar that is not what was expected. -/
def scalarMismatch (tag : Option String) (text : String) (style : ScalarStyle) (expected : String) :
    DecodeError :=
  match scalarData tag text style with
  | .ok d => .invalidType (foundText d) expected
  | .error e => e

namespace Document

/-- A scalar as any value. -/
def anyScalar (tag : Option String) (text : String) (style : ScalarStyle) : Read Data :=
  match scalarData tag text style with
  | .error e => Read.decodeFail e
  | .ok (.int n) =>
    if intTooWide n then Read.decodeFail (.invalidType (foundText (.int n)) "any YAML value")
    else fun k => .ok (.int n, k)
  | .ok d => fun k => .ok (d, k)

/-- The variant of a tag around the reading of its content. -/
def underTag (tag : Option String) (content : Read Data) : Read Data :=
  match variantTag? tag with
  | none => content
  | some "" => Read.fail .emptyTag
  | some name => do
    let d ← content
    pure (.tagged ("!" ++ name) d)

/-- The path of a value by its key. -/
def memberPath (path : Path) : Node → Path
  | .scalar _ _ text _ => .member path text
  | _ => .unnamed path

/-- The tag of a scalar without the part that was dealt with. -/
def contentTag (tag : Option String) : Option String :=
  if (variantTag? tag).isSome then none else tag

/-- A node as an untyped tree. -/
def any (d : Document) : Nat → Path → Node → Read Data
  | depth, path, node => do
    match ← d.resolve node with
    | .scalar m tag text style =>
      Read.located m path (underTag tag (anyScalar (contentTag tag) text style))
    | .sequence m tag items =>
      Read.located m path (underTag tag (match depth with
        | 0 => Read.fail (.tooDeep m)
        | depth + 1 => do
          let xs ← items.zipIdx.mapM fun (x, i) => any d depth (.item path i) x
          pure (.list xs)))
    | .mapping m tag entries =>
      Read.located m path (underTag tag (match depth with
        | 0 => Read.fail (.tooDeep m)
        | depth + 1 => do
          let ms ← entries.foldlM (fun (ms : List (Data × Data)) (entry : Node × Node) => do
            let k ← any d depth path entry.1
            if ms.any fun e => Data.sameKey e.1 k then Read.fail (.problem (.duplicateKey k) none)
            else do
              let v ← any d depth (memberPath path entry.1) entry.2
              pure ((k, v) :: ms)) []
          pure (.record ms.reverse)))
    | .void _ => pure .null
    | .aliasTo _ _ => Read.fail d.missingError
    | .missing => Read.fail d.missingError

/-- Run a reading of a whole document; its own fault comes last. -/
def read {α : Type} (d : Document) (r : Node → Read α) : Except ReadError α :=
  match r d.root 0 with
  | .error e => .error e
  | .ok (a, _) =>
    match d.fault with
    | some f => .error (.fault f)
    | none => .ok a

def toData (d : Document) : Except ReadError Data := d.read (any d maxDepth .root)

end Document

/-- How trees are written, and what documents a text holds. -/
structure Library where
  write : Data → String
  documents : String → List Document

namespace Library

def standard : Library := ⟨Writer.write, Yaml.documents⟩

/-- Read a text that holds one document. -/
def readOne {α : Type} (y : Library) (s : String) (r : Document → Node → Read α) :
    Except ReadError α :=
  match y.documents s with
  | [] => .error .endOfText
  | d :: rest =>
    match d.read (r d) with
    | .error e => .error e
    | .ok a => if rest.isEmpty then .ok a else .error .moreDocuments

end Library

/-- A text that holds one mapping, as an untyped tree; an empty text holds an empty one. -/
def readMapping (s : String) : Except ReadError Data :=
  Library.standard.readOne s fun d node => do
    match ← d.resolve node with
    | .mapping m _ entries =>
      let ms ← d.any Document.maxDepth .root (.mapping m none entries)
      pure ms
    | .scalar m tag text style =>
      if text = "" && style = .plain then pure (.record [])
      else Read.located m .root (Read.decodeFail (scalarMismatch tag text style "a YAML mapping"))
    | .sequence m _ _ =>
      Read.located m .root (Read.decodeFail (.invalidType "sequence" "a YAML mapping"))
    | .void _ => pure (.record [])
    | .aliasTo _ _ => Read.fail d.missingError
    | .missing => Read.fail d.missingError

end Yaml
end ModelTemplates
