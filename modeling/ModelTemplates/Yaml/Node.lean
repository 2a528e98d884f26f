import ModelTemplates.Yaml.Event
/-! Documents as trees of nodes. A text that breaks off in the middle of a document leaves a tree
with missing nodes, so that what stands before the fault can still be read. -/
namespace ModelTemplates
namespace Yaml

inductive Node where
  | scalar (mark : Mark) (tag : Option String) (text : String) (style : ScalarStyle)
  | sequence (mark : Mark) (tag : Option String) (items : List Node)
  | mapping (mark : Mark) (tag : Option String) (entries : List (Node × Node))
  /-- The node that an anchor marks. -/
  | aliasTo (mark : Mark) (slot : Nat)
  /-- The content of an empty text. -/
  | void (mark : Mark)
  | missing
deriving Inhabited

/-- Why a document breaks off. -/
inductive Fault where
  | malformed (e : SyntaxError)
  | unknownAnchor (mark : Mark)
deriving DecidableEq, Inhabited

structure Document where
  root : Node
  /-- Nodes with an anchor, by slot. -/
  anchored : List (Nat × Node)
  eventCount : Nat
  fault : Option Fault
deriving Inhabited

/-- Where the reading of a document stands. -/
structure Building where
  rest : List Event
  /-- The slot of each anchor name. A name takes the slot after the names in use. -/
  names : List (String × Nat)
  /-- The node that each slot stands for, the latest first. -/
  slots : List (Nat × Nat)
  /-- Anchored nodes begun and finished so far, by their place. -/
  begun : Nat
  finished : List (Nat × Node)
  consumed : Nat
  unknown : Option Mark

namespace Building

def ofEvents (es : List Event) : Building := ⟨es, [], [], 0, [], 0, none⟩

def next (b : Building) : Building := { b with rest := b.rest.drop 1, consumed := b.consumed + 1 }

/-- Give a slot to the anchor of a node that begins. -/
def start (b : Building) : Option String → Building × Option Nat
  | none => (b, none)
  | some name =>
    let slot := b.names.length
    let names := (name, slot) :: b.names.filter fun n => n.1 ≠ name
    ({ b with names := names, slots := (slot, b.begun) :: b.slots, begun := b.begun + 1 },
      some b.begun)

def finish (b : Building) (place : Option Nat) (n : Node) : Building × Node :=
  match place with
  | some i => ({ b with finished := (i, n) :: b.finished }, n)
  | none => (b, n)

mutual

/-- One node; `missing` where the events end. -/
def node : Nat → Building → Building × Node
  | 0, b => (b, .missing)
  | fuel + 1, b =>
    match b.rest with
    | [] => (b, .missing)
    | e :: _ =>
      match e.kind with
      | .aliasTo name =>
        match b.names.lookup name with
        | some slot => (b.next, .aliasTo e.mark slot)
        | none => ({ b with rest := [], unknown := some e.mark }, .missing)
      | .scalar anchor tag text style =>
        let (b, place) := b.next.start anchor
        b.finish place (.scalar e.mark tag text style)
      | .sequenceStart anchor tag =>
        let (b, place) := b.next.start anchor
        let (b, items) := sequenceItems fuel [] b
        b.finish place (.sequence e.mark tag items)
      | .mappingStart anchor tag =>
        let (b, place) := b.next.start anchor
        let (b, entries) := mappingEntries fuel [] b
        b.finish place (.mapping e.mark tag entries)
      | _ => (b, .missing)

def sequenceItems : Nat → List Node → Building → Building × List Node
  | 0, done, b => (b, done.reverse)
  | fuel + 1, done, b =>
    match b.rest with
    | [] => (b, (Node.missing :: done).reverse)
    | e :: _ =>
      if e.kind = .sequenceEnd then (b.next, done.reverse)
      else
        let (b, item) := node fuel b
        sequenceItems fuel (item :: done) b

def mappingEntries : Nat → List (Node × Node) → Building → Building × List (Node × Node)
  | 0, done, b => (b, done.reverse)
  | fuel + 1, done, b =>
    match b.rest with
    | [] => (b, ((Node.missing, Node.missing) :: done).reverse)
    | e :: _ =>
      if e.kind = .mappingEnd then (b.next, done.reverse)
      else
        let (b, k) := node fuel b
        let (b, v) := node fuel b
        mappingEntries fuel ((k, v) :: done) b

end

/-- The node of each slot. -/
def anchored (b : Building) : List (Nat × Node) :=
  b.slots.filterMap fun (slot, place) => (b.finished.lookup place).map fun n => (slot, n)

end Building

/-- The documents of a text, up to the first one that breaks off. -/
def documentsFrom (fault : Option SyntaxError) : Nat → Bool → List Event → List Document
  | 0, _, _ => []
  | fuel + 1, first, es =>
    match es.dropWhile fun e => e.kind = .streamStart || e.kind = .documentStart with
    | [] => match fault with
      | some e => [⟨.missing, [], 0, some (.malformed e)⟩]
      | none => []
    | e :: rest =>
      if e.kind = .streamEnd then (if first then [⟨.void e.mark, [], 1, none⟩] else [])
      else
        let (b, root) := Building.node (2 * (e :: rest).length + 2) (.ofEvents (e :: rest))
        match b.unknown, b.rest with
        | some m, _ => [⟨root, b.anchored, b.consumed, some (.unknownAnchor m)⟩]
        | none, [] => [⟨root, b.anchored, b.consumed, fault.map .malformed⟩]
        | none, _ :: rest =>
          ⟨root, b.anchored, b.consumed, none⟩ :: documentsFrom fault fuel false rest

def documents (s : String) : List Document :=
  let (es, fault) := events s
  documentsFrom fault (es.length + 1) true es

end Yaml
end ModelTemplates
