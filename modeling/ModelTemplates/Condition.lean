import ModelTemplates.Meta
/-! Conditions: what is known of an object, with the time of the last change and of the last
turn. -/
namespace ModelTemplates

namespace Condition

inductive Name where
  /-- A version has its number. -/
  | assigned
  /-- A version has its serving configuration. -/
  | configured
  /-- A template's default version is one of its numbered versions. -/
  | defaultVersionResolved
deriving DecidableEq, Inhabited

def Name.variants : List (String × Name) :=
  [("assigned", .assigned), ("configured", .configured),
    ("defaultVersionResolved", .defaultVersionResolved)]

def Name.text : Name → String
  | .assigned => "assigned"
  | .configured => "configured"
  | .defaultVersionResolved => "defaultVersionResolved"

inductive Truth where
  | yes
  | no
  | unknown
deriving DecidableEq, Inhabited

def Truth.variants : List (String × Truth) :=
  [("True", .yes), ("False", .no), ("Unknown", .unknown)]

def Truth.text : Truth → String
  | .yes => "True"
  | .no => "False"
  | .unknown => "Unknown"

def Truth.ofBool (b : Bool) : Truth := if b then .yes else .no

/-- The reason given with a condition that does not hold. -/
def errorReason : String := "Error"

end Condition

structure Condition where
  name : Condition.Name
  truth : Condition.Truth
  reason : String
  message : String
  lastUpdate : Timestamp
  lastTransition : Timestamp
deriving DecidableEq, Inhabited

namespace Condition

def toData (c : Condition) : Data :=
  .object [("type", .text c.name.text), ("status", .text c.truth.text), ("reason", .text c.reason),
    ("message", .text c.message), ("lastUpdateTime", .text c.lastUpdate.text),
    ("lastTransitionTime", .text c.lastTransition.text)]

structure Draft where
  name : Option Name
  truth : Option Truth
  reason : String
  message : String
  lastUpdate : Option Timestamp
  lastTransition : Option Timestamp

def member (dialect : Dialect) (p : Draft) (name : String) (d : Data) : Decoded Draft :=
  match name with
  | "type" => do .ok { p with name := some (← Data.variant Name.variants dialect d) }
  | "status" => do .ok { p with truth := some (← Data.variant Truth.variants dialect d) }
  | "reason" => do .ok { p with reason := ← Data.string dialect d }
  | "message" => do .ok { p with message := ← Data.string dialect d }
  | "lastUpdateTime" => do .ok { p with lastUpdate := some (← Data.timestamp dialect d) }
  | "lastTransitionTime" => do .ok { p with lastTransition := some (← Data.timestamp dialect d) }
  | _ => .ok p

def finish (missing : String → DecodeError) (p : Draft) : Decoded Condition := do
  let name ← Data.require missing "type" p.name
  let truth ← Data.require missing "status" p.truth
  let lastUpdate ← Data.require missing "lastUpdateTime" p.lastUpdate
  let lastTransition ← Data.require missing "lastTransitionTime" p.lastTransition
  .ok ⟨name, truth, p.reason, p.message, lastUpdate, lastTransition⟩

def ofData : Decoder Condition :=
  Data.members "struct Condition"
    ["type", "status", "reason", "message", "lastUpdateTime", "lastTransitionTime"]
    ⟨none, none, "", "", none, none⟩ member finish

end Condition

/-- The conditions of one object, in the order in which they were first set. -/
abbrev Conditions := List Condition

namespace Conditions

def get? (cs : Conditions) (name : Condition.Name) : Option Condition :=
  cs.find? fun c => c.name = name

def holds (cs : Conditions) (name : Condition.Name) : Bool :=
  match get? cs name with
  | some c => c.truth = .yes
  | none => false

/-- Whether the condition already has this truth and message, whatever its reason. -/
def agrees (cs : Conditions) (name : Condition.Name) (truth : Bool) (message : String) : Bool :=
  match get? cs name with
  | some c => c.truth = .ofBool truth ∧ c.message = message
  | none => false

/-- Whether the condition already has this truth, reason and message. -/
def recorded (cs : Conditions) (name : Condition.Name) (truth : Bool) (reason message : String) :
    Bool :=
  match get? cs name with
  | some c => c.truth = .ofBool truth ∧ c.reason = reason ∧ c.message = message
  | none => false

/-- The first condition of that name, changed by `f`. -/
def modify (cs : Conditions) (name : Condition.Name) (f : Condition → Condition) : Conditions :=
  match cs with
  | [] => []
  | c :: cs => if c.name = name then f c :: cs else c :: modify cs name f

/-- Record a condition. The time of its last turn moves only when its truth does. -/
def set (cs : Conditions) (name : Condition.Name) (truth : Bool) (reason message : String)
    (now : Timestamp) :
    Conditions :=
  match get? cs name with
  | none => cs ++ [⟨name, .ofBool truth, reason, message, now, now⟩]
  | some _ =>
    if recorded cs name truth reason message then cs
    else modify cs name fun c =>
      { c with
        truth := .ofBool truth, reason := reason, message := message, lastUpdate := now
        lastTransition := if c.truth = .ofBool truth then c.lastTransition else now }

end Conditions
end ModelTemplates
