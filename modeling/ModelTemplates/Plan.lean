import ModelTemplates.Event
import ModelTemplates.Ledger
import ModelTemplates.Store.Error
/-! What handlers do, as trees of requests to the world around them. Every request is one step: what
happens between two of them is not part of the tree. -/
namespace ModelTemplates

inductive Request where
  | template (k : Key)
  | version (k : Key)
  | templates (space : Option String) (selector : Selector)
  | versions (space : Option String) (selector : Selector)
  | updateTemplate (t : Template)
  | updateTemplateStatus (t : Template)
  | updateVersion (v : Version)
  | updateVersionStatus (v : Version)
  /-- Wait for the right to number the versions of a template. -/
  | lock (k : Key)
  | unlock (k : Key)
  /-- The highest number given out. -/
  | latest (k : Key) (owner : Option Uid)
  /-- Give out the next number, if there is one. -/
  | advance (k : Key) (owner : Option Uid)
  /-- Remove what the ledger has of a template; the answer is whether it had anything. -/
  | removeEntry (k : Key) (owner : Option Uid)
  | publish (e : Event)
  /-- Have a template looked at again. -/
  | enqueue (k : Key)

abbrev Request.Answer : Request → Type
  | template _ => Except StoreError (Option Template)
  | version _ => Except StoreError (Option Version)
  | templates .. => Except StoreError (List Template)
  | versions .. => Except StoreError (List Version)
  | updateTemplate _ => Except StoreError Template
  | updateTemplateStatus _ => Except StoreError Template
  | updateVersion _ => Except StoreError Version
  | updateVersionStatus _ => Except StoreError Version
  | lock _ => Unit
  | unlock _ => Unit
  | latest .. => UInt32
  | advance .. => Option UInt32
  | removeEntry .. => Bool
  | publish _ => Unit
  | enqueue _ => Unit

inductive Plan (α : Type) where
  | done (a : α)
  | ask (r : Request) (next : r.Answer → Plan α)

/-- What a handler did to its object. -/
inductive Outcome (α : Type) where
  | unchanged
  | updated (o : α)
deriving DecidableEq

abbrev Verdict (α : Type) := Except ReconcileError (Outcome α)

namespace Plan

variable {α β σ : Type}

def bind (p : Plan α) (f : α → Plan β) : Plan β :=
  match p with
  | done a => f a
  | ask r next => ask r fun a => (next a).bind f

instance : Monad Plan where
  pure := done
  bind := bind

def request (r : Request) : Plan r.Answer := ask r done

/-- Carry a plan out where requests are answered by `answer`. -/
def run (answer : (r : Request) → σ → r.Answer × σ) : Plan α → σ → α × σ
  | done a, s => (a, s)
  | ask r next, s => run answer (next (answer r s).1) (answer r s).2

@[simp] theorem run_done (answer : (r : Request) → σ → r.Answer × σ) (a : α) (s : σ) :
    (done a).run answer s = (a, s) := rfl

@[simp] theorem run_ask (answer : (r : Request) → σ → r.Answer × σ) (r : Request)
    (next : r.Answer → Plan α) (s : σ) :
    (ask r next).run answer s = (next (answer r s).1).run answer (answer r s).2 := rfl

@[simp] theorem run_pure (answer : (r : Request) → σ → r.Answer × σ) (a : α) (s : σ) :
    (pure a : Plan α).run answer s = (a, s) := rfl

@[simp] theorem run_request (answer : (r : Request) → σ → r.Answer × σ) (r : Request) (s : σ) :
    (request r).run answer s = answer r s := rfl

@[simp] theorem run_bind (answer : (r : Request) → σ → r.Answer × σ) (p : Plan α)
    (f : α → Plan β) (s : σ) :
    (p >>= f).run answer s = (f (p.run answer s).1).run answer (p.run answer s).2 := by
  show (p.bind f).run answer s = _
  induction p generalizing s with
  | done a => rfl
  | ask r next ih => exact ih _ _

/-- A write and, when it succeeds, what follows from it. -/
def commit (write : Plan (Except StoreError α)) (follow : Plan Unit) : Plan (Verdict α) := do
  match ← write with
  | .ok o => do
    follow
    pure (.ok (.updated o))
  | .error e => pure (.error (.ofStore e))

end Plan
end ModelTemplates
