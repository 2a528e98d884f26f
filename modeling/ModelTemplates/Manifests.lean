import ModelTemplates.Stores
import ModelTemplates.Yaml.Read
/-! Manifests: texts of several documents, each a template or a version, that are created in empty
stores. -/
namespace ModelTemplates

structure Manifests where
  templates : List Template
  versions : List Version
deriving DecidableEq, Inhabited

/-- Why a document is no object. -/
inductive DocumentError where
  | unreadable (e : Yaml.ReadError)
  | untyped (e : DecodeError)
  | wrongApiVersion (found : String)
  | wrongKind (found : String)
  | invalid (kind : Kind) (e : DecodeError)

/-- A document that is no object, by its place from 1. -/
structure ManifestError where
  position : Nat
  why : DocumentError

/-- What failed, and what that was caused by, outermost first. Texts that do not read as YAML are
told of by `tell`. -/
def ManifestError.causesWith (tell : Yaml.ReadError → String) (e : ManifestError) : List String :=
  let document := "Document " ++ toString e.position
  match e.why with
  | .unreadable r => ["Failed to parse YAML document " ++ toString e.position, tell r]
  | .untyped d => [document ++ " is missing apiVersion or kind", d.message]
  | .wrongApiVersion found =>
    [document ++ ": unsupported apiVersion '" ++ found ++ "'. Must be '" ++ apiVersion ++ "'"]
  | .wrongKind found => [document ++ ": unsupported kind '" ++ found ++ "'"]
  | .invalid kind d => [document ++ ": invalid " ++ kind.text, d.message]

def ManifestError.causes : ManifestError → List String := causesWith Yaml.ReadError.message

/-- What a document says that it is. -/
structure TypeLabel where
  apiVersion : String
  kind : String

namespace TypeLabel

def member (dialect : Dialect) (p : Option String × Option String) (name : String) (d : Data) :
    Decoded (Option String × Option String) :=
  match name with
  | "apiVersion" => do .ok (some (← Data.string dialect d), p.2)
  | "kind" => do .ok (p.1, some (← Data.string dialect d))
  | _ => .ok p

def finish (missing : String → DecodeError) (p : Option String × Option String) :
    Decoded TypeLabel := do
  let apiVersion ← Data.require missing "apiVersion" p.1
  let kind ← Data.require missing "kind" p.2
  .ok ⟨apiVersion, kind⟩

def ofData : Decoder TypeLabel :=
  Data.members "struct TypeMeta" ["apiVersion", "kind"] (none, none) member finish

end TypeLabel

/-- Why manifests cannot be created in full: the first object that a store refuses. -/
structure SeedError where
  kind : Kind
  key : Key
  why : StoreError
deriving DecidableEq

def SeedError.causes (e : SeedError) : List String :=
  ["Failed to create " ++ e.kind.text ++ " " ++ e.key.text, e.why.message]

namespace Manifests

def empty : Manifests := ⟨[], []⟩

def size (m : Manifests) : Nat := m.templates.length + m.versions.length

def isEmpty (m : Manifests) : Bool := m.size = 0

/-- The namespace of objects that name none. -/
def defaultNamespace : String := "default"

def placed {σ τ : Type} (o : Object σ τ) : Object σ τ :=
  if o.metadata.space = "" then
    { o with metadata := { o.metadata with space := defaultNamespace } } else o

/-- Take in the object of one document. -/
def add (m : Manifests) (d : Data) : Except DocumentError Manifests :=
  match TypeLabel.ofData .yaml d with
  | .error e => .error (.untyped e)
  | .ok label =>
    if label.apiVersion ≠ apiVersion then .error (.wrongApiVersion label.apiVersion)
    else if label.kind = Kind.template.text then
      match Template.ofData .yaml d with
      | .error e => .error (.invalid .template e)
      | .ok t => .ok { m with templates := m.templates ++ [placed t] }
    else if label.kind = Kind.version.text then
      match Version.ofData .yaml d with
      | .error e => .error (.invalid .version e)
      | .ok v => .ok { m with versions := m.versions ++ [placed v] }
    else .error (.wrongKind label.kind)

/-- Take in documents, the first of which stands at `position`. Empty ones are passed over. -/
def addDocuments (m : Manifests) (position : Nat) :
    List Yaml.Document → Except ManifestError Manifests
  | [] => .ok m
  | d :: ds =>
    match d.toData with
    | .error e => .error ⟨position, .unreadable e⟩
    | .ok .null => m.addDocuments (position + 1) ds
    | .ok x =>
      match m.add x with
      | .error e => .error ⟨position, e⟩
      | .ok m => m.addDocuments (position + 1) ds

def ofYaml (s : String) : Except ManifestError Manifests := empty.addDocuments 1 (Yaml.documents s)

/-- Create objects in order, up to the first that is refused. `fresh n` is for the object that is
`n`-th in order. -/
def seedAll {σ τ : Type} (fresh : Nat → Uid × Timestamp) :
    Nat → List (Object σ τ) → Store σ τ → Store σ τ × Option SeedError
  | _, [], s => (s, none)
  | n, o :: os, s =>
    match s.create o (fresh n).1 (fresh n).2 with
    | .error e => (s, some ⟨s.kind, o.key, e⟩)
    | .ok (_, s) => seedAll fresh (n + 1) os s

/-- Create every object, templates first. -/
def seed (m : Manifests) (fresh : Nat → Uid × Timestamp) (s : Stores) : Stores × Option SeedError :=
  match seedAll fresh 0 m.templates s.templates with
  | (templates, some e) => ({ s with templates := templates }, some e)
  | (templates, none) =>
    let (versions, failed) := seedAll fresh m.templates.length m.versions s.versions
    (⟨templates, versions⟩, failed)

end Manifests
end ModelTemplates
