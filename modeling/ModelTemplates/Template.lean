import ModelTemplates.Condition
import ModelTemplates.Meta
/-! Model templates: the roots that own numbered versions. -/
namespace ModelTemplates

structure TemplateSpec where
  description : Option String
  /-- A version's name in the template's namespace, or `namespace/name`. -/
  defaultVersionRef : Option String
deriving DecidableEq, Inhabited

structure TemplateStatus where
  defaultVersion : UInt32
  latestVersion : UInt32
  observedGeneration : Int64
  conditions : Conditions
deriving DecidableEq, Inhabited

abbrev Template := Object TemplateSpec TemplateStatus

namespace TemplateSpec

def empty : TemplateSpec := ⟨none, none⟩

def toData (s : TemplateSpec) : Data :=
  .object (Meta.optionalMember "description" .text s.description
    ++ Meta.optionalMember "defaultVersionRef" .text s.defaultVersionRef)

def member (dialect : Dialect) (s : TemplateSpec) (name : String) (d : Data) :
    Decoded TemplateSpec :=
  match name with
  | "description" => do .ok { s with description := ← Data.optional Data.string dialect d }
  | "defaultVersionRef" => do
      .ok { s with defaultVersionRef := ← Data.optional Data.string dialect d }
  | _ => .ok s

def ofData : Decoder TemplateSpec :=
  Data.members "struct ModelTemplateSpec" ["description", "defaultVersionRef"] empty member fun _ =>
    .ok

end TemplateSpec

namespace TemplateStatus

def empty : TemplateStatus := ⟨0, 0, 0, []⟩

def toData (s : TemplateStatus) : Data :=
  .object ([("defaultVersion", .int s.defaultVersion.toNat),
    ("latestVersion", .int s.latestVersion.toNat),
      ("observedGeneration", .int s.observedGeneration.toInt)]
    ++ Meta.listMember "conditions" (s.conditions.map Condition.toData))

def member (dialect : Dialect) (s : TemplateStatus) (name : String) (d : Data) :
    Decoded TemplateStatus :=
  match name with
  | "defaultVersion" => do .ok { s with defaultVersion := ← Data.uint32 dialect d }
  | "latestVersion" => do .ok { s with latestVersion := ← Data.uint32 dialect d }
  | "observedGeneration" => do .ok { s with observedGeneration := ← Data.int64 dialect d }
  | "conditions" => do .ok { s with conditions := ← Data.listOf Condition.ofData dialect d }
  | _ => .ok s

def ofData : Decoder TemplateStatus :=
  Data.members "struct ModelTemplateStatus"
    ["defaultVersion", "latestVersion", "observedGeneration", "conditions"] empty member fun _ =>
      .ok

end TemplateStatus

namespace Template

def withDefaultVersionRef (t : Template) (reference : String) : Template :=
  { t with spec := { t.spec with defaultVersionRef := some reference } }

/-- The version that the spec asks for, if it asks for one. -/
def defaultVersionKey (t : Template) : Option Key :=
  match t.spec.defaultVersionRef with
  | some reference =>
    if reference = "" then none else some (Key.ofReference reference t.metadata.space)
  | none => none

/-- What a version of this template carries, once the template has an identifier. -/
def ownerReference (t : Template) : Option OwnerReference :=
  t.metadata.uid.map fun uid => ⟨apiVersion, Kind.template.text, t.metadata.name, uid⟩

def resolved (t : Template) : Bool := Conditions.holds t.status.conditions .defaultVersionResolved

def toData (t : Template) : Data := Object.toData TemplateSpec.toData TemplateStatus.toData t

def member (dialect : Dialect) (p : Option Meta × TemplateSpec × TemplateStatus)
    (name : String) (d : Data) :
    Decoded (Option Meta × TemplateSpec × TemplateStatus) :=
  match name with
  | "metadata" => do .ok (some (← Meta.ofData dialect d), p.2)
  | "spec" => do .ok (p.1, ← TemplateSpec.ofData dialect d, p.2.2)
  | "status" => do .ok (p.1, p.2.1, ← TemplateStatus.ofData dialect d)
  | _ => .ok p

def finish (missing : String → DecodeError) (p : Option Meta × TemplateSpec × TemplateStatus) :
    Decoded Template := do
  let metadata ← Data.require missing "metadata" p.1
  .ok ⟨metadata, p.2.1, p.2.2⟩

def ofData : Decoder Template :=
  Data.members "struct ModelTemplate" ["metadata", "spec", "status"]
    (none, TemplateSpec.empty, TemplateStatus.empty) member finish

end Template
end ModelTemplates
