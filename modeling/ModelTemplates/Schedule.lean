/-! Tasks that take turns under a clock that stands still while any of them has something to do, and
jumps to the next timer when none has. -/
namespace ModelTemplates

/-- Tasks that act on a state `ω`. Times are in nanoseconds. -/
structure Tasks (ω τ : Type) where
  /-- The order in which tasks that wake up together take their turns. -/
  order : List τ
  /-- Whether a task has something to do. -/
  awake : Nat → ω → τ → Bool
  /-- What a task does until it has nothing to do. -/
  turn : Nat → τ → ω → ω
  nextDue : ω → Option Nat

structure Schedule (ω τ : Type) where
  now : Nat
  /-- Tasks that wait for their turn. -/
  ready : List τ
  state : ω

namespace Schedule

variable {ω τ : Type} [DecidableEq τ]

/-- No run takes more turns than this. -/
def patience : Nat := 1000000

/-- One step after another while there is one. -/
def stepWhile {α : Type} (f : α → Option α) : Nat → α → α
  | 0, a => a
  | fuel + 1, a =>
    match f a with
    | some b => stepWhile f fuel b
    | none => a

def exhaust {α : Type} (f : α → Option α) (a : α) : α := stepWhile f patience a

/-- Line up the tasks that have something to do. -/
def wake (tasks : Tasks ω τ) (s : Schedule ω τ) : Schedule ω τ :=
  { s with
    ready := s.ready ++ tasks.order.filter fun t => t ∉ s.ready ∧ tasks.awake s.now s.state t }

/-- Turns until nothing is left to do now. -/
def settleNow (tasks : Tasks ω τ) : Nat → Schedule ω τ → Schedule ω τ
  | 0, s => s
  | fuel + 1, s =>
    match s.ready with
    | [] => s
    | t :: ts =>
      settleNow tasks fuel (wake tasks { s with ready := ts, state := tasks.turn s.now t s.state })

/-- Let time pass up to a moment, which is included. -/
def runTo (tasks : Tasks ω τ) (finish : Nat) : Nat → Schedule ω τ → Schedule ω τ
  | 0, s => s
  | fuel + 1, s =>
    let s := settleNow tasks patience (wake tasks s)
    match tasks.nextDue s.state with
    | some due => if due ≤ finish then runTo tasks finish fuel { s with now := max s.now due }
        else { s with now := finish }
    | none => { s with now := finish }

/-- Let that much time pass, with what is due at its end. -/
def run (tasks : Tasks ω τ) (length : Nat) (s : Schedule ω τ) : Schedule ω τ :=
  runTo tasks (s.now + length) patience s

/-- Let that much time pass, without what is due at its end. -/
def sleep (tasks : Tasks ω τ) (length : Nat) (s : Schedule ω τ) : Schedule ω τ :=
  match length with
  | 0 => settleNow tasks patience (wake tasks s)
  | n + 1 => { runTo tasks (s.now + n) patience s with now := s.now + n + 1 }

/-- Look at the state every so often until it has been idle for `still`, up to a moment, which is
excluded: whether it was. -/
def awaitIdle (tasks : Tasks ω τ) (idle : ω → Bool) (poll still finish : Nat) :
    Nat → Option Nat → Schedule ω τ → Bool × Schedule ω τ
  | 0, _, s => (false, s)
  | fuel + 1, since, s =>
    if finish ≤ s.now then (false, s)
    else if idle s.state then
      let since := since.getD s.now
      if still ≤ s.now - since then (true, s)
      else awaitIdle tasks idle poll still finish fuel (some since) (sleep tasks poll s)
    else awaitIdle tasks idle poll still finish fuel none (sleep tasks poll s)

end Schedule
end ModelTemplates
