import ModelTemplates.Channel
import ModelTemplates.Event
/-! The channel over which events are told. -/
namespace ModelTemplates

abbrev EventBus := Channel Event

namespace EventBus

def defaultCapacity : Nat := 1000

def empty : EventBus := ⟨Channel.roundUp defaultCapacity, [], 0, false⟩

end EventBus

/-- Why a receiver gets no event. -/
inductive MissedEvent where
  | none
  | closed
  | lagged (missed : Nat)
deriving DecidableEq

namespace MissedEvent

def message : MissedEvent → String
  | none => "No events available"
  | closed => "Event bus is closed"
  | lagged n => "Receiver lagged by " ++ toString n ++ " events (events were dropped)"

end MissedEvent

/-- What a receipt brings, or why it brings nothing. -/
def EventBus.outcome : Channel.Receipt Event → Except MissedEvent Event
  | .item e => .ok e
  | .empty => .error .none
  | .closed => .error .closed
  | .lagged n => .error (.lagged n)

end ModelTemplates
