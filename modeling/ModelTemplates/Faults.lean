import ModelTemplates.World
/-! Stores that fail on demand, to try how handlers and controllers cope. -/
namespace ModelTemplates

namespace Fault

inductive Method where
  | get
  | list
  | create
  | update
  | updateStatus
  | delete
deriving DecidableEq

inductive Effect where
  | notFound
  | conflict
  | alreadyExists
  | backend (text : String)
  /-- An object is read without its uid. -/
  | withoutUid
  /-- Nothing is listed. -/
  | emptyList
deriving DecidableEq

def Method.names : List (String × Method) :=
  [("get", .get), ("list", .list), ("create", .create), ("update", .update),
    ("update_status", .updateStatus), ("delete", .delete)]

/-- Effects by name, with the text of a failing backend. -/
def Effect.names (text : String) : List (String × Effect) :=
  [("NotFound", .notFound), ("Conflict", .conflict), ("AlreadyExists", .alreadyExists),
    ("Backend", .backend text), ("StripUid", .withoutUid), ("EmptyList", .emptyList)]

/-- The refusal of a call on a key. -/
def Effect.error? (kind : Kind) (key : Key) : Effect → Option StoreError
  | notFound => some (.notFound kind key)
  | conflict => some (.conflict kind key 0 0)
  | alreadyExists => some (.alreadyExists kind key)
  | backend text => some (.backend text)
  | withoutUid => none
  | emptyList => none

end Fault

/-- After `skip` more calls of a method, the next `times` calls go wrong. -/
structure Fault where
  kind : Kind
  method : Fault.Method
  skip : Nat
  times : Nat
  effect : Fault.Effect
deriving DecidableEq

namespace Fault

/-- What goes wrong with the next call of a method. Faults of one method wait for each other. -/
def next (kind : Kind) (method : Method) : List Fault → Option Effect × List Fault
  | [] => (none, [])
  | f :: fs =>
    if f.kind = kind ∧ f.method = method then
      match f.skip, f.times with
      | skip + 1, _ => (none, { f with skip := skip } :: fs)
      | 0, times + 2 => (some f.effect, { f with times := times + 1 } :: fs)
      | 0, 1 => (some f.effect, fs)
      | 0, 0 => next kind method fs
    else ((next kind method fs).1, f :: (next kind method fs).2)

end Fault

structure FaultyWorld where
  world : World
  faults : List Fault

namespace Request

/-- The call of a store that a request makes, and its key. -/
def call? : Request → Option (Kind × Fault.Method × Key)
  | template k => some (.template, .get, k)
  | version k => some (.version, .get, k)
  | templates space _ => some (.template, .list, ⟨space.getD "", ""⟩)
  | versions space _ => some (.version, .list, ⟨space.getD "", ""⟩)
  | updateTemplate t => some (.template, .update, t.key)
  | updateTemplateStatus t => some (.template, .updateStatus, t.key)
  | updateVersion v => some (.version, .update, v.key)
  | updateVersionStatus v => some (.version, .updateStatus, v.key)
  | _ => none

def refused (e : StoreError) : (r : Request) → Option r.Answer
  | template _ => some (.error e)
  | version _ => some (.error e)
  | templates .. => some (.error e)
  | versions .. => some (.error e)
  | updateTemplate _ => some (.error e)
  | updateTemplateStatus _ => some (.error e)
  | updateVersion _ => some (.error e)
  | updateVersionStatus _ => some (.error e)
  | lock _ => none
  | unlock _ => none
  | latest .. => none
  | advance .. => none
  | removeEntry .. => none
  | publish _ => none
  | enqueue _ => none

def withoutUid {σ τ : Type} (o : Object σ τ) : Object σ τ :=
  { o with metadata := { o.metadata with uid := none } }

/-- An answer that is spoilt but no refusal. -/
def spoilt (effect : Fault.Effect) : (r : Request) → r.Answer → r.Answer
  | template _, .ok t => if effect = .withoutUid then .ok (t.map withoutUid) else .ok t
  | version _, .ok v => if effect = .withoutUid then .ok (v.map withoutUid) else .ok v
  | templates .., .ok ts => if effect = .emptyList then .ok [] else .ok ts
  | versions .., .ok vs => if effect = .emptyList then .ok [] else .ok vs
  | _, a => a

end Request

namespace FaultyWorld

def sound (w : World) : FaultyWorld := ⟨w, []⟩

/-- One request to stores that may fail. A refused request leaves the world alone. -/
def answer (r : Request) (s : FaultyWorld) : r.Answer × FaultyWorld :=
  match r.call? with
  | none => ((s.world.answer r).1, { s with world := (s.world.answer r).2 })
  | some (kind, method, key) =>
    let (effect, faults) := Fault.next kind method s.faults
    let plain : r.Answer × FaultyWorld := ((s.world.answer r).1, ⟨(s.world.answer r).2, faults⟩)
    match effect with
    | none => plain
    | some effect =>
      match (effect.error? kind key).bind fun e => r.refused e with
      | some a => (a, { s with faults := faults })
      | none => (r.spoilt effect plain.1, plain.2)

def perform {α : Type} (s : FaultyWorld) (p : Plan α) : α × FaultyWorld := p.run answer s

end FaultyWorld
end ModelTemplates
