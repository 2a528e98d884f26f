import ModelTemplates.Event.Bus
import ModelTemplates.Plan
import ModelTemplates.Stores
/-! The world in which plans are carried out: the stores, the ledger, the bus and the templates to
look at again. -/
namespace ModelTemplates

structure World where
  stores : Stores
  ledger : Ledger
  /-- Templates whose versions are being numbered. -/
  locked : List Key
  bus : EventBus
  /-- Templates to look at again, the first asked for first. -/
  enqueued : List Key

namespace World

def empty : World := ⟨.empty, .empty, [], .empty, []⟩

def withTemplates (w : World) (s : TemplateStore) : World :=
  { w with stores := { w.stores with templates := s } }

def withVersions (w : World) (s : VersionStore) : World :=
  { w with stores := { w.stores with versions := s } }

/-- The answer to a write, and the world after it. A refused write leaves the world alone. -/
def settle {α β : Type} (w : World) (put : β → World) :
    Except StoreError (α × β) → Except StoreError α × World
  | .ok (o, s) => (.ok o, put s)
  | .error e => (.error e, w)

/-- One request. -/
def answer : (r : Request) → World → r.Answer × World
  | .template k, w => (.ok (w.stores.templates.get? k), w)
  | .version k, w => (.ok (w.stores.versions.get? k), w)
  | .templates space selector, w => (.ok (w.stores.templates.list space selector), w)
  | .versions space selector, w => (.ok (w.stores.versions.list space selector), w)
  | .updateTemplate t, w => w.settle w.withTemplates (w.stores.templates.update t)
  | .updateTemplateStatus t, w => w.settle w.withTemplates (w.stores.templates.updateStatus t)
  | .updateVersion v, w => w.settle w.withVersions (w.stores.versions.update v)
  | .updateVersionStatus v, w => w.settle w.withVersions (w.stores.versions.updateStatus v)
  | .lock k, w => ((), { w with locked := k :: w.locked })
  | .unlock k, w => ((), { w with locked := w.locked.filter (· ≠ k) })
  | .latest k owner, w => (w.ledger.latest k owner, w)
  | .advance k owner, w => (w.ledger.next? k owner, { w with ledger := w.ledger.advance k owner })
  | .removeEntry k owner, w =>
    (w.ledger.removes k owner, { w with ledger := w.ledger.remove k owner })
  | .publish e, w => ((), { w with bus := w.bus.send e })
  | .enqueue k, w => ((), { w with enqueued := w.enqueued ++ [k] })

/-- Carry a plan out with nobody else at work. -/
def perform {α : Type} (w : World) (p : Plan α) : α × World := p.run answer w

/-- Count the numbers of every version that is stored. -/
def rebuilt (w : World) : World := { w with ledger := w.ledger.rebuild w.stores.versions.all }

/-- What is left when the process ends: the stores. -/
def forget (w : World) : World := { w with ledger := .empty, locked := [], enqueued := [] }

end World
end ModelTemplates
