import ModelTemplates.Yaml.Read
/-! Reading nodes as values of a known type: texts, counts, truth values, variants and records. -/
namespace ModelTemplates
namespace Yaml

/-- Reads a node at a path of a document as a value of one type. -/
abbrev NodeReader (α : Type) := Document → Path → Node → Read α

namespace NodeReader

/-- Where a missing node or a stray alias stands. -/
def absent {α : Type} (d : Document) : Read α := Read.fail d.missingError

/-- A scalar that is written without quotes, or as a block with the tag of its type. -/
def isLiteral (type : String) (tag : Option String) (style : ScalarStyle) : Bool :=
  style = .plain || (style = .literal && tag = some (standardTag type))

/-- Refuse a node that is no scalar, or no scalar of the type. -/
def mismatch {α : Type} (d : Document) (expected : String) : Node → Read α
  | .scalar _ tag text style => Read.decodeFail (scalarMismatch tag text style expected)
  | .sequence _ _ _ => Read.decodeFail (.invalidType "sequence" expected)
  | .mapping _ _ _ => Read.decodeFail (.invalidType "map" expected)
  | .void _ => Read.fail .endOfText
  | .aliasTo _ _ => absent d
  | .missing => absent d

def markOf : Node → Mark
  | .scalar m _ _ _ => m
  | .sequence m _ _ => m
  | .mapping m _ _ => m
  | .aliasTo m _ => m
  | .void m => m
  | .missing => ⟨0, 0, 0⟩

/-- Read what a node resolves to; problems belong to its place. -/
def onNode {α : Type} (read : Node → Read α) : NodeReader α := fun d path node => do
  let node ← d.resolve node
  Read.located (markOf node) path (read node)

/-- Any scalar, by its text. -/
def textOf (expected : String) : NodeReader String := fun d =>
  onNode (fun node => match node with
    | .scalar _ _ text _ => pure text
    | node => mismatch d expected node) d

def string : NodeReader String := textOf "a string"

def boolean : NodeReader Bool := fun d =>
  onNode (fun node => match node with
    | .scalar _ tag text style =>
      match (if isLiteral "bool" tag style then Plain.truth? text else none) with
      | some b => pure b
      | none => mismatch d "a boolean" node
    | node => mismatch d "a boolean" node) d

/-- A count of 64 bits that also stays within the bound of its type. -/
def count (type : String) (bound : Nat) : NodeReader Nat := fun d =>
  onNode (fun node => match node with
    | .scalar _ tag text style =>
      match (if isLiteral "int" tag style then Plain.integer? text.toList else none) with
      | some n =>
        if text.startsWith "-" || n ≥ (Nat.pow 2 64 : Int) then mismatch d type node
        else if n > bound then Read.decodeFail (.invalidValue (Data.intText n) type)
        else pure n.toNat
      | none => mismatch d type node
    | node => mismatch d type node) d

/-- Null is none. -/
def optional {α : Type} (read : NodeReader α) : NodeReader (Option α) := fun d path node => do
  let node ← d.resolve node
  match node with
  | .scalar _ tag text style =>
    let isNull := text = "" || Plain.isNull text.toList
    match tag with
    | some t =>
      if style = .plain && t = standardTag "null" then
        if Plain.isNull text.toList then pure none
        else Read.decodeFail (.invalidValue ("string " ++ Text.quoted text) "null")
      else do pure (some (← read d path node))
    | none => if style = .plain && isNull then pure none else do pure (some (← read d path node))
  | .void _ => pure none
  | node => do pure (some (← read d path node))

/-- A variant that carries nothing: its name, or a tag of its name on null. -/
def variant {α : Type} (variants : List (String × α)) : NodeReader α := fun d =>
  let named (name : String) : Read α :=
    match Data.named variants name with
    | .ok a => pure a
    | .error e => Read.decodeFail e
  onNode (fun node => match node with
    | .scalar _ tag text style =>
      match variantTag? tag with
      | none => named text
      | some name => do
        let a ← named name
        if style = .plain && (text = "" || Plain.isNull text.toList) then pure a
        else Read.decodeFail (.invalidValue ("string " ++ Text.quoted text) "null")
    | .sequence _ tag _ => tagged "sequence" named tag
    | .mapping _ tag _ => tagged "map" named tag
    | .void _ => Read.fail .endOfText
    | .aliasTo _ _ => absent d
    | .missing => absent d) d
where
  tagged (found : String) (named : String → Read α) (tag : Option String) : Read α :=
    match variantTag? tag with
    | none => Read.decodeFail (.invalidType found "a YAML tag starting with '!'")
    | some name => do
      let _ ← named name
      Read.decodeFail (.invalidType found "unit")

mutual

/-- Whether a node that is passed over breaks off. -/
def isWhole : Node → Bool
  | .missing => false
  | .sequence _ _ items => areWhole items
  | .mapping _ _ entries => entriesWhole entries
  | _ => true

def areWhole : List Node → Bool
  | [] => true
  | n :: ns => isWhole n && areWhole ns

def entriesWhole : List (Node × Node) → Bool
  | [] => true
  | (k, v) :: es => isWhole k && isWhole v && entriesWhole es

end

/-- A record, from a mapping in which no member of the type occurs twice; other members are passed
over. -/
def record {σ α : Type} (type : String) (names : List String) (start : σ)
    (member : Document → Path → σ → String → Node → Read σ) (finish : σ → Decoded α) :
    NodeReader α :=
  fun d path => onNode (fun node =>
    let done (s : σ) : Read α :=
      match finish s with
      | .ok a => pure a
      | .error e => Read.decodeFail e
    match node with
    | .mapping _ _ entries => do
      let (s, _) ← entries.foldlM (fun (p : σ × List String) (entry : Node × Node) => do
        let name ← textOf "field identifier" d path entry.1
        if !names.contains name then
          if isWhole entry.2 then pure p else absent d
        else if p.2.contains name then Read.fail (.problem (.duplicateField name) none)
        else do
          let s ← member d (Document.memberPath path entry.1) p.1 name entry.2
          pure (s, name :: p.2)) (start, [])
      done s
    | .scalar _ _ "" .plain => done start
    | .void _ => done start
    | node => mismatch d type node) d path

end NodeReader
end Yaml
end ModelTemplates
