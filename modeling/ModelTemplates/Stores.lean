import ModelTemplates.Store
import ModelTemplates.Version
/-! The stores of both kinds of objects, and what became of those, as it is shown to people. -/
namespace ModelTemplates

abbrev TemplateStore := Store TemplateSpec TemplateStatus

abbrev VersionStore := Store VersionSpec VersionStatus

structure Stores where
  templates : TemplateStore
  versions : VersionStore

namespace Stores

def empty : Stores := ⟨.empty .template, .empty .version⟩

/-- Empty stores, watched over channels of that capacity. -/
def make? (watchCapacity : Nat) : Option Stores := do
  .some ⟨← Store.make? .template watchCapacity, ← Store.make? .version watchCapacity⟩

/-- An object, and below it the message of a condition that has one. -/
def entry (text : String) (c : Option Condition) : List String :=
  ("  " ++ text) :: (c.toList.filter fun c => c.message ≠ "").map fun c => "    " ++ c.message

def templateEntry (t : Template) : List String :=
  entry (t.key.text ++ " default=" ++ toString t.status.defaultVersion.toNat ++ " latest="
      ++ toString t.status.latestVersion.toNat ++ " ref=" ++ t.spec.defaultVersionRef.getD "-"
      ++ (if t.resolved then " (resolved)" else " (unresolved)"))
    (Conditions.get? t.status.conditions .defaultVersionResolved)

def versionEntry (v : Version) : List String :=
  entry (v.key.text ++ " template=" ++ v.spec.templateName ++ " version="
      ++ (match Version.assignedNumber v with
        | some n => toString n.toNat
        | none => "-")
      ++ (if Version.configured v then " (configured)" else " (not configured)"))
    (Conditions.get? v.status.conditions .configured)

def reportLines (s : Stores) : List String :=
  "ModelTemplates:" :: s.templates.all.flatMap templateEntry
    ++ "" :: "ModelTemplateVersions:" :: s.versions.all.flatMap versionEntry

end Stores

end ModelTemplates
