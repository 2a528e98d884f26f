/-! Broadcast channels that keep only their latest items. A receiver is the position of the item it
takes next. -/
namespace ModelTemplates

structure Channel (α : Type) where
  capacity : Nat
  /-- The latest items, the last sent first. -/
  kept : List α
  /-- How many items were sent. -/
  sent : Nat
  closed : Bool
deriving Inhabited

namespace Channel

variable {α : Type}

/-- The least power of two that is not less than `n`. -/
def roundUp (n : Nat) : Nat := if n ≤ 1 then 1 else Nat.pow 2 ((n - 1).log2 + 1)

/-- A channel for at least `capacity` items. None can be made for no items, or for more than half of
all words. -/
def make? (capacity : Nat) : Option (Channel α) :=
  if capacity = 0 ∨ capacity ≥ Nat.pow 2 63 then none else some ⟨roundUp capacity, [], 0, false⟩

def send (c : Channel α) (x : α) : Channel α :=
  { c with kept := (x :: c.kept).take c.capacity, sent := c.sent + 1 }

def close (c : Channel α) : Channel α := { c with closed := true }

/-- A receiver of what is sent from now on. -/
def subscribe (c : Channel α) : Nat := c.sent

/-- The position of the oldest item that is kept. -/
def oldest (c : Channel α) : Nat := c.sent - c.kept.length

inductive Receipt (α : Type) where
  | item (x : α)
  | empty
  | closed
  /-- The next items are no longer kept. -/
  | lagged (missed : Nat)

/-- Take the next item. After a lag the oldest item that is kept comes next. -/
def receive (c : Channel α) (position : Nat) : Receipt α × Nat :=
  if position < c.oldest then (.lagged (c.oldest - position), c.oldest)
  else match c.kept.reverse[position - c.oldest]? with
    | some x => (.item x, position + 1)
    | none => (if c.closed then .closed else .empty, position)

end Channel
end ModelTemplates
