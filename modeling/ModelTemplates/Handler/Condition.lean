import ModelTemplates.Plan
/-! Recording a condition in the status of a stored object. -/
namespace ModelTemplates

namespace Condition

/-- The reason given with a condition. -/
def reasonFor (truth : Bool) : String := if truth then "" else errorReason

end Condition

namespace Template

def withCondition (t : Template) (name : Condition.Name) (truth : Bool) (reason message : String)
    (now : Timestamp) :
    Template :=
  t.withStatus
    { t.status with conditions := Conditions.set t.status.conditions name truth reason message now }

/-- Record a condition unless the template already has it with that truth and message. -/
def settle (t : Template) (name : Condition.Name) (truth : Bool) (message : String)
    (now : Timestamp) (follow : Plan Unit) : Plan (Verdict Template) :=
  if Conditions.agrees t.status.conditions name truth message then pure (.ok .unchanged)
  else
    .commit (.request
      (.updateTemplateStatus (t.withCondition name truth (Condition.reasonFor truth) message now)))
      follow

end Template

namespace Version

def withCondition (v : Version) (name : Condition.Name) (truth : Bool) (reason message : String)
    (now : Timestamp) :
    Version :=
  v.withStatus
    { v.status with conditions := Conditions.set v.status.conditions name truth reason message now }

/-- Record a condition unless the version already has it with that truth and message. -/
def settle (v : Version) (name : Condition.Name) (truth : Bool) (message : String) (now : Timestamp)
    (follow : Plan Unit) : Plan (Verdict Version) :=
  if Conditions.agrees v.status.conditions name truth message then pure (.ok .unchanged)
  else
    .commit (.request
      (.updateVersionStatus (v.withCondition name truth (Condition.reasonFor truth) message now)))
      follow

end Version
end ModelTemplates
