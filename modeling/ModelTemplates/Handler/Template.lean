import ModelTemplates.Handler.Condition
import ModelTemplates.Plan
/-! A template without a default version takes its earliest numbered member; the default of one that
has it is resolved to a number. A template's status follows the ledger, and the ledger forgets
templates that are gone. -/
namespace ModelTemplates

namespace Template

/-- Orders versions by the time of their creation, then by name. One without a time comes first. -/
def precedes (a b : Version) : Bool :=
  match a.metadata.creationTimestamp, b.metadata.creationTimestamp with
  | none, none => a.metadata.name ≤ b.metadata.name
  | none, some _ => true
  | some _, none => false
  | some s, some t => s < t ∨ (s = t ∧ a.metadata.name ≤ b.metadata.name)

/-- Versions that are numbered under the template. -/
def isMember (t : Template) (v : Version) : Bool := v.ownedBy t && v.assigned

/-- The earliest member among those listed. -/
def earliest? (t : Template) (vs : List Version) : Option Version :=
  ((vs.filter t.isMember).mergeSort precedes).head?

def selectDefault (t : Template) (now : Timestamp) : Plan (Verdict Template) := do
  match ← Plan.request
    (.versions (some t.metadata.space) (Table.empty.insert templateLabel t.metadata.name)) with
  | .error e => pure (.error (.ofStore e))
  | .ok vs =>
    match t.earliest? vs with
    | none => pure (.ok .unchanged)
    | some v =>
      .commit
        (.request (.updateTemplate
          { t with spec := { t.spec with defaultVersionRef := some v.metadata.name } }))
        (.request (.publish (.defaultVersionSelected t.key v.metadata.name now)))

/-- Why the default of a template has no number. -/
inductive Unresolved where
  | missing
  | elsewhere (template : Key)
  | unassigned
  | outdated
deriving DecidableEq

def Unresolved.message (key : Key) : Unresolved → String
  | .missing => "default version " ++ key.text ++ " not found"
  | .elsewhere template =>
    "default version " ++ key.text ++ " belongs to " ++ Kind.template.text ++ " " ++ template.text
  | .unassigned => "default version " ++ key.text ++ " has not been assigned a version number yet"
  | .outdated => "default version " ++ key.text ++ " is owned by an earlier " ++ Kind.template.text

/-- The number of the version that is the template's default. -/
def resolution (t : Template) : Option Version → Except Unresolved UInt32
  | none => .error .missing
  | some v =>
    if v.templateKey ≠ t.key then .error (.elsewhere v.templateKey)
    else match v.assignedNumber with
      | none => .error .unassigned
      | some n => if v.ownedBy t then .ok n else .error .outdated

/-- The template with a resolved default. -/
def withDefault (t : Template) (n : UInt32) (now : Timestamp) : Template :=
  Template.withCondition (t.withStatus
      { t.status with defaultVersion := n, observedGeneration := t.metadata.generation })
    .defaultVersionResolved true "" "" now

/-- Whether the status already says that the default is resolved to the number. -/
def hasDefault (t : Template) (n : UInt32) : Bool :=
  t.status.defaultVersion = n ∧ t.status.observedGeneration = t.metadata.generation ∧
    Conditions.agrees t.status.conditions .defaultVersionResolved true ""

def resolveRef (t : Template) (key : Key) (now : Timestamp) : Plan (Verdict Template) := do
  match ← Plan.request (.version key) with
  | .error e => pure (.error (.ofStore e))
  | .ok v =>
    match t.resolution v with
    | .error why =>
      t.settle .defaultVersionResolved false (why.message key) now
        (.request (.publish (.defaultVersionUnresolved t.key (why.message key) now)))
    | .ok n =>
      if t.hasDefault n then pure (.ok .unchanged)
      else
        .commit (.request (.updateTemplateStatus (t.withDefault n now)))
          (.request (.publish (.defaultVersionResolved t.key n now)))

/-- Select a default or resolve the one that is there. -/
def resolveDefault (t : Template) (now : Timestamp) : Plan (Verdict Template) :=
  if t.deleting then pure (.ok .unchanged)
  else match t.defaultVersionKey with
    | none => t.selectDefault now
    | some key => t.resolveRef key now

def withLatest (t : Template) (n : UInt32) : Template :=
  t.withStatus { t.status with latestVersion := n, observedGeneration := t.metadata.generation }

/-- Write the highest number given out into the status. -/
def syncLatest (key : Key) (t : Template) (now : Timestamp) : Plan (Verdict Template) :=
  if t.deleting then pure (.ok .unchanged)
  else do
    let latest ← Plan.request (.latest key t.metadata.uid)
    if latest = t.status.latestVersion then pure (.ok .unchanged)
    else
      .commit (.request (.updateTemplateStatus (t.withLatest latest)))
        (.request (.publish (.latestVersionSynced key latest now)))

/-- Forget what was counted for a template that is gone. -/
def forgetNumbers (key : Key) (t : Template) (now : Timestamp) :
    Plan (Except ReconcileError Unit) := do
  if ← Plan.request (.removeEntry key t.metadata.uid) then
    let _ ← Plan.request (.publish (.ledgerEntryRemoved key now))
  pure (.ok ())

end Template

end ModelTemplates
