import ModelTemplates.Channel
import ModelTemplates.Meta
import ModelTemplates.Store.Error
/-! A store of the objects of one kind. Every write is checked against the resource version that was
read, and every write is told to those who watch. -/
namespace ModelTemplates

/-- What a write did. -/
inductive WatchEvent (σ τ : Type) where
  | applied (o : Object σ τ)
  /-- The last state, with the time of the deletion. -/
  | deleted (o : Object σ τ)
deriving DecidableEq

namespace WatchEvent

variable {σ τ : Type}

def object : WatchEvent σ τ → Object σ τ
  | applied o => o
  | deleted o => o

def key (e : WatchEvent σ τ) : Key := e.object.key

end WatchEvent

structure Store (σ τ : Type) where
  kind : Kind
  objects : Table Key (Object σ τ)
  /-- The resource version that was given last. -/
  lastVersion : UInt64
  writes : Nat
  watch : Channel (WatchEvent σ τ)

namespace Store

variable {σ τ : Type}

def defaultWatchCapacity : Nat := 1024

/-- An empty store, watched over a channel of that capacity. -/
def make? (kind : Kind) (watchCapacity : Nat) : Option (Store σ τ) :=
  (Channel.make? watchCapacity).map fun c => ⟨kind, .empty, 0, 0, c⟩

/-- An empty store. -/
def empty (kind : Kind) : Store σ τ := ⟨kind, .empty, 0, 0, ⟨defaultWatchCapacity, [], 0, false⟩⟩

def get? (s : Store σ τ) (k : Key) : Option (Object σ τ) := s.objects.find? k

/-- The objects of a namespace, or of all, that carry the labels, in the order of their keys. -/
def list (s : Store σ τ) (space : Option String) (selector : Selector) : List (Object σ τ) :=
  s.objects.values.filter fun o =>
    (match space with | some n => o.metadata.space = n | none => true) &&
      selector.matches o.metadata.labels

/-- Every object. -/
def all (s : Store σ τ) : List (Object σ τ) := s.list none .empty

def nextVersion (s : Store σ τ) : UInt64 := s.lastVersion + 1

/-- Count a write and tell it. -/
def emit (s : Store σ τ) (e : WatchEvent σ τ) : Store σ τ :=
  { s with writes := s.writes + 1, watch := s.watch.send e }

/-- Put an object under its key as the write of a new resource version. -/
def put (s : Store σ τ) (o : Object σ τ) : Store σ τ :=
  { s with objects := s.objects.insert o.key o, lastVersion := s.nextVersion }.emit (.applied o)

/-- What is stored of a new object: its identity is fresh. -/
def created (s : Store σ τ) (o : Object σ τ) (uid : Uid) (now : Timestamp) : Object σ τ :=
  { o with metadata :=
    { o.metadata with
      uid := some uid
      resourceVersion := s.nextVersion
      generation := 1
      deletionTimestamp := none
      creationTimestamp := some (o.metadata.creationTimestamp.getD now) } }

def create (s : Store σ τ) (o : Object σ τ) (uid : Uid) (now : Timestamp) :
    Except StoreError (Object σ τ × Store σ τ) :=
  if s.objects.contains o.key then .error (.alreadyExists s.kind o.key)
  else .ok (s.created o uid now, s.put (s.created o uid now))

/-- The stored object, when it is still the one that was read. -/
def fenced (s : Store σ τ) (o : Object σ τ) : Except StoreError (Object σ τ) :=
  match s.get? o.key with
  | none => .error (.notFound s.kind o.key)
  | some current =>
    if o.metadata.resourceVersion = current.metadata.resourceVersion then .ok current
    else .error (.conflict s.kind o.key o.metadata.resourceVersion current.metadata.resourceVersion)

/-- What is stored of an update: the spec, labels and owners of the update beside the status and
identity that are stored. A changed spec is a new generation. -/
def updated [DecidableEq σ] (s : Store σ τ) (current o : Object σ τ) : Object σ τ where
  metadata :=
    { o.metadata with
      uid := current.metadata.uid
      creationTimestamp := current.metadata.creationTimestamp
      resourceVersion := s.nextVersion
      generation := if o.spec = current.spec then current.metadata.generation
        else current.metadata.generation + 1 }
  spec := o.spec
  status := current.status

def update [DecidableEq σ] (s : Store σ τ) (o : Object σ τ) :
    Except StoreError (Object σ τ × Store σ τ) := do
  let current ← s.fenced o
  .ok (s.updated current o, s.put (s.updated current o))

/-- What is stored of a status update: everything that is stored but the status. -/
def restated (s : Store σ τ) (current o : Object σ τ) : Object σ τ where
  metadata := { current.metadata with resourceVersion := s.nextVersion }
  spec := current.spec
  status := o.status

def updateStatus (s : Store σ τ) (o : Object σ τ) : Except StoreError (Object σ τ × Store σ τ) := do
  let current ← s.fenced o
  .ok (s.restated current o, s.put (s.restated current o))

/-- The last state of an object that is removed. -/
def buried (o : Object σ τ) (now : Timestamp) : Object σ τ :=
  { o with metadata := { o.metadata with deletionTimestamp := some now } }

def delete (s : Store σ τ) (k : Key) (now : Timestamp) : Except StoreError (Store σ τ) :=
  match s.get? k with
  | none => .error (.notFound s.kind k)
  | some current =>
    .ok ({ s with objects := s.objects.erase k }.emit (.deleted (buried current now)))

end Store
end ModelTemplates
