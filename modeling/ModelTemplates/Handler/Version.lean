import ModelTemplates.Handler.Condition
import ModelTemplates.Serving
/-! Versions are first linked to their template, then given its next number. They get the serving
configuration that their spec describes, or the reason why there is none. -/
namespace ModelTemplates

namespace Version

/-- A reference to an earlier template of the owner's name. -/
def isOutdated (owner r : OwnerReference) : Bool :=
  r.kind = Kind.template.text ∧ r.name = owner.name ∧ r.uid ≠ owner.uid

/-- The version with the label of the template and a reference to it, and none to an earlier one. -/
def linked (v : Version) (t : Template) (owner : OwnerReference) : Version :=
  let owners := v.metadata.owners.filter fun r => !isOutdated owner r
  let kept : Version :=
    { v with metadata :=
      { v.metadata with
        labels := v.metadata.labels.insert templateLabel t.metadata.name
        owners := owners } }
  if kept.ownedBy t then kept
    else { kept with metadata := { kept.metadata with owners := owners ++ [owner] } }

def link (v : Version) (t : Template) (now : Timestamp) : Plan (Verdict Version) :=
  match t.ownerReference with
  | none => pure (.error (.invalid (Kind.template.text ++ " " ++ t.key.text ++ " has no uid")))
  | some owner =>
    .commit (.request (.updateVersion (v.linked t owner)))
      (.request (.publish (.versionLinked v.key t.key now)))

/-- The version with a number. -/
def numbered (v : Version) (n : UInt32) (now : Timestamp) : Version :=
  Version.withCondition (v.withStatus { v.status with version := n }) .assigned true "" "" now

/-- Store a number for the version and have it counted. -/
def record (v : Version) (t : Template) (n : UInt32) (now : Timestamp) :
    Plan (Verdict Version) := do
  match ← Plan.request (.updateVersionStatus (v.numbered n now)) with
  | .error e => do
    let _ ← Plan.request (.unlock t.key)
    pure (.error (.ofStore e))
  | .ok stored => do
    -- The ledger has no more than what was read under the lock, so that counting cannot overflow
    -- here.
    let _ ← Plan.request (.advance t.key t.metadata.uid)
    let _ ← Plan.request (.unlock t.key)
    let _ ← Plan.request (.enqueue t.key)
    let _ ← Plan.request (.publish (.versionAssigned v.key t.key n now))
    pure (.ok (.updated stored))

/-- Give the version the number after the latest of its template, if there is one. -/
def recordAfter (v : Version) (t : Template) (latest : UInt32) (now : Timestamp) :
    Plan (Verdict Version) :=
  match Counter.next? latest with
  | none => do
    let _ ← Plan.request (.unlock t.key)
    pure (.error .overflow)
  | some n => v.record t n now

/-- Give the version the next number of its template. The ledger moves on only when the number is
stored, and nobody else numbers versions of the template meanwhile. -/
def assign (v : Version) (t : Template) (now : Timestamp) : Plan (Verdict Version) := do
  let _ ← Plan.request (.lock t.key)
  v.recordAfter t (← Plan.request (.latest t.key t.metadata.uid)) now

/-- Link a version or, once it is linked, number it. -/
def number (v : Version) (now : Timestamp) : Plan (Verdict Version) :=
  if v.deleting || v.assigned then pure (.ok .unchanged)
  else do
    match ← Plan.request (.template v.templateKey) with
    | .error e => pure (.error (.ofStore e))
    | .ok none => pure (.error (.notFound .template v.templateKey))
    | .ok (some t) => if v.linkedTo t then v.assign t now else v.link t now

/-- The version with its configuration. -/
def withConfig (v : Version) (config : String) (now : Timestamp) : Version :=
  Version.withCondition (v.withStatus { v.status with generatedModelConfig := some config })
    .configured true "" "" now

/-- Configure a version that is not yet configured. -/
def configure (generate : ServingGenerator) (v : Version) (now : Timestamp) :
    Plan (Verdict Version) :=
  if v.deleting || v.configured then pure (.ok .unchanged)
  else match generate v with
    | .ok config =>
      .commit (.request (.updateVersionStatus (v.withConfig config now)))
        (.request (.publish (.versionConfigured v.key true "" now)))
    | .error e =>
      v.settle .configured false e.message now
        (.request (.publish (.versionConfigured v.key false e.message now)))

end Version

end ModelTemplates
