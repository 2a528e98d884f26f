import ModelTemplates.Data.Decode
/-! Stored objects: their identity and bookkeeping, what is asked for, and what was found. -/
namespace ModelTemplates

/-- The group and version that owner references carry. -/
def apiVersion : String := "ml.vela.dev/v1"

/-- The label of a version that names its template. -/
def templateLabel : String := "ml.vela.dev/model-template-name"

structure OwnerReference where
  apiVersion : String
  kind : String
  name : String
  uid : Uid
deriving DecidableEq, Inhabited

structure Meta where
  name : String
  space : String
  uid : Option Uid
  /-- Changed by every write of the object, and of no other. -/
  resourceVersion : UInt64
  /-- Counts the changes of the spec. -/
  generation : Int64
  creationTimestamp : Option Timestamp
  deletionTimestamp : Option Timestamp
  labels : Table String String
  owners : List OwnerReference
deriving DecidableEq, Inhabited

/-- Labels that a set of labels must carry; none ask for nothing. -/
abbrev Selector := Table String String

def Selector.matches (s : Selector) (labels : Table String String) : Bool :=
  s.entries.all fun e => labels.find? e.1 = some e.2

namespace OwnerReference

def toData (o : OwnerReference) : Data :=
  .object [("apiVersion", .text o.apiVersion), ("kind", .text o.kind), ("name", .text o.name),
    ("uid", .text o.uid.text)]

structure Draft where
  apiVersion : Option String
  kind : Option String
  name : Option String
  uid : Option Uid

def member (dialect : Dialect) (p : Draft) (name : String) (d : Data) : Decoded Draft :=
  match name with
  | "apiVersion" => do .ok { p with apiVersion := some (← Data.string dialect d) }
  | "kind" => do .ok { p with kind := some (← Data.string dialect d) }
  | "name" => do .ok { p with name := some (← Data.string dialect d) }
  | "uid" => do .ok { p with uid := some (← Data.uid dialect d) }
  | _ => .ok p

def finish (missing : String → DecodeError) (p : Draft) : Decoded OwnerReference := do
  let apiVersion ← Data.require missing "apiVersion" p.apiVersion
  let kind ← Data.require missing "kind" p.kind
  let name ← Data.require missing "name" p.name
  let uid ← Data.require missing "uid" p.uid
  .ok ⟨apiVersion, kind, name, uid⟩

def ofData : Decoder OwnerReference :=
  Data.members "struct OwnerReference" ["apiVersion", "kind", "name", "uid"] ⟨none, none, none,
    none⟩ member finish

end OwnerReference

namespace Meta

def named (space name : String) : Meta := ⟨name, space, none, 0, 0, none, none, .empty, []⟩

def key (m : Meta) : Key := ⟨m.space, m.name⟩

def deleting (m : Meta) : Bool := m.deletionTimestamp.isSome

def ownedBy (m : Meta) (kind : Kind) (uid : Uid) : Bool :=
  m.owners.any fun o => o.kind = kind.text ∧ o.uid = uid

/-- A member that is written only when there is one. -/
def optionalMember {α : Type} (name : String) (write : α → Data) (a : Option α) :
    List (String × Data) :=
  match a with
  | some a => [(name, write a)]
  | none => []

/-- A member that is written only when it holds something. -/
def listMember (name : String) (items : List Data) : List (String × Data) :=
  if items.isEmpty then [] else [(name, .list items)]

def tableMember (name : String) (t : Table String String) : List (String × Data) :=
  if t.isEmpty then [] else [(name, .object (t.entries.map fun e => (e.1, .text e.2)))]

def timeData (t : Timestamp) : Data := .text t.text

def toData (m : Meta) : Data :=
  .object ([("name", .text m.name), ("namespace", .text m.space)]
    ++ optionalMember "uid" (fun u => .text u.text) m.uid
    ++ [("resourceVersion", .int m.resourceVersion.toNat), ("generation", .int m.generation.toInt)]
    ++ optionalMember "creationTimestamp" timeData m.creationTimestamp
    ++ optionalMember "deletionTimestamp" timeData m.deletionTimestamp
    ++ tableMember "labels" m.labels
    ++ listMember "ownerReferences" (m.owners.map OwnerReference.toData))

/-- The name is the only member that must be given. -/
def member (dialect : Dialect) (p : Option String × Meta) (name : String) (d : Data) :
    Decoded (Option String × Meta) :=
  let m := p.2
  match name with
  | "name" => do .ok (some (← Data.string dialect d), m)
  | "namespace" => do .ok (p.1, { m with space := ← Data.string dialect d })
  | "uid" => do .ok (p.1, { m with uid := ← Data.optional Data.uid dialect d })
  | "resourceVersion" => do .ok (p.1, { m with resourceVersion := ← Data.uint64 dialect d })
  | "generation" => do .ok (p.1, { m with generation := ← Data.int64 dialect d })
  | "creationTimestamp" => do
    .ok (p.1, { m with creationTimestamp := ← Data.optional Data.timestamp dialect d })
  | "deletionTimestamp" => do
    .ok (p.1, { m with deletionTimestamp := ← Data.optional Data.timestamp dialect d })
  | "labels" => do .ok (p.1, { m with labels := ← Data.textTable dialect d })
  | "ownerReferences" => do
      .ok (p.1, { m with owners := ← Data.listOf OwnerReference.ofData dialect d })
  | _ => .ok p

def finish (missing : String → DecodeError) (p : Option String × Meta) : Decoded Meta := do
  let name ← Data.require missing "name" p.1
  .ok { p.2 with name := name }

def ofData : Decoder Meta :=
  Data.members "struct ObjectMeta"
    ["name", "namespace", "uid", "resourceVersion", "generation", "creationTimestamp",
      "deletionTimestamp", "labels", "ownerReferences"] (none, named "" "") member finish

end Meta

structure Object (σ τ : Type) where
  metadata : Meta
  /-- Written by clients. -/
  spec : σ
  /-- Written by handlers. -/
  status : τ
deriving DecidableEq, Inhabited

namespace Object

variable {σ τ : Type}

def key (o : Object σ τ) : Key := o.metadata.key

def deleting (o : Object σ τ) : Bool := o.metadata.deleting

def withStatus (o : Object σ τ) (s : τ) : Object σ τ := { o with status := s }

def toData (spec : σ → Data) (status : τ → Data) (o : Object σ τ) : Data :=
  .object [("metadata", o.metadata.toData), ("spec", spec o.spec), ("status", status o.status)]

end Object

end ModelTemplates
