import ModelTemplates.Data
import ModelTemplates.Key
import ModelTemplates.Timestamp
import ModelTemplates.Uid
/-! Reading domain values from untyped trees. Members are read in the order in which the tree holds
them, and the first one that does not fit is reported. -/
namespace ModelTemplates

/-- Why a tree is no value of the wanted type. -/
inductive DecodeError where
  | missingField (name : String)
  | invalidType (found expected : String)
  | invalidValue (found expected : String)
  | invalidLength (count : Nat) (expected : String)
  | unknownVariant (name : String) (known : List String)
  | badUid (why : UidError)
  | badTime (why : TimeError)
deriving DecidableEq

namespace DecodeError

def ticked (s : String) : String := "\x60" ++ s ++ "\x60"

def oneOf : List String → String
  | [] => "there are no variants"
  | [a] => "expected " ++ ticked a
  | [a, b] => "expected " ++ ticked a ++ " or " ++ ticked b
  | names => "expected one of " ++ String.intercalate ", " (names.map ticked)

def message : DecodeError → String
  | missingField n => "missing field " ++ ticked n
  | invalidType found expected => "invalid type: " ++ found ++ ", expected " ++ expected
  | invalidValue found expected => "invalid value: " ++ found ++ ", expected " ++ expected
  | invalidLength n expected => "invalid length " ++ toString n ++ ", expected " ++ expected
  | unknownVariant n known => "unknown variant " ++ ticked n ++ ", " ++ oneOf known
  | badUid e => "UUID parsing failed: " ++ e.message
  | badTime e => e.message

end DecodeError

/-- What the formats that carry trees do differently. -/
structure Dialect where
  /-- The name of null. -/
  nullText : String
  floatText : Binary64 → String
  /-- Whether null reads as an empty list or mapping. -/
  nullIsEmpty : Bool
  /-- Whether a value with named members may be a list of them. -/
  recordsAsLists : Bool
  /-- The forms that a value with variants takes. -/
  variantForms : String
  /-- What is expected of a list with more items than are wanted. -/
  fewerItems : Nat → String

namespace Dialect

def json : Dialect where
  nullText := "null"
  floatText := Binary64.toText
  nullIsEmpty := false
  recordsAsLists := true
  variantForms := "string or map"
  fewerItems _ := "fewer elements in array"

/-- Trees that were set aside until a tag was found. -/
def buffered : Dialect :=
  { json with
    fewerItems :=
      fun n => toString n ++ (if n = 1 then " element in sequence" else " elements in sequence") }

def yaml : Dialect where
  nullText := "unit value"
  floatText := Binary64.toPlainText
  nullIsEmpty := true
  recordsAsLists := false
  variantForms := "a Value::Tagged enum"
  fewerItems _ := "fewer elements in sequence"

end Dialect

abbrev Decoded (α : Type) := Except DecodeError α

/-- Reads values of one type. -/
abbrev Decoder (α : Type) := Dialect → Data → Decoded α

namespace Data

def intText (n : Int) : String := "integer " ++ DecodeError.ticked (toString n)

/-- What was found, as messages name it. -/
def foundText (dialect : Dialect) : Data → String
  | .null => dialect.nullText
  | .bool b => "boolean " ++ DecodeError.ticked (if b then "true" else "false")
  | .int n => intText n
  | .float x => "floating point " ++ DecodeError.ticked (dialect.floatText x)
  | .text s => "string " ++ Text.quoted s
  | .list _ => "sequence"
  | .record _ => "map"
  | .tagged _ _ => "enum"

def mismatch (dialect : Dialect) (expected : String) (d : Data) : DecodeError :=
  .invalidType (d.foundText dialect) expected

def asText (expected : String) : Decoder String := fun dialect d =>
  match d.untagged with
  | .text s => .ok s
  | d => .error (mismatch dialect expected d)

def string : Decoder String := asText "a string"

def boolean : Decoder Bool := fun dialect d =>
  match d.untagged with
  | .bool b => .ok b
  | d => .error (mismatch dialect "a boolean" d)

/-- An integer between two bounds. -/
def integer (type : String) (low high : Int) : Decoder Int := fun dialect d =>
  match d.untagged with
  | .int n => if low ≤ n ∧ n ≤ high then .ok n else .error (.invalidValue (intText n) type)
  | d => .error (mismatch dialect type d)

def uint32 : Decoder UInt32 := fun dialect d =>
  (integer "u32" 0 (Nat.pow 2 32 - 1 : Nat) dialect d).map fun n => UInt32.ofNat n.toNat

def uint64 : Decoder UInt64 := fun dialect d =>
  (integer "u64" 0 (Nat.pow 2 64 - 1 : Nat) dialect d).map fun n => UInt64.ofNat n.toNat

def int32 : Decoder Int32 := fun dialect d =>
  (integer "i32" (-(Nat.pow 2 31 : Int)) (Nat.pow 2 31 - 1 : Nat) dialect d).map Int32.ofInt

def int64 : Decoder Int64 := fun dialect d =>
  (integer "i64" (-(Nat.pow 2 63 : Int)) (Nat.pow 2 63 - 1 : Nat) dialect d).map Int64.ofInt

def uid : Decoder Uid := fun dialect d => do
  let s ← asText "a formatted UUID string" dialect d
  match Uid.ofText s with
  | .ok u => .ok u
  | .error e => .error (.badUid e)

def timestamp : Decoder Timestamp := fun dialect d => do
  let s ← asText "an RFC 3339 formatted date and time string" dialect d
  match Timestamp.ofText s with
  | .ok t => .ok t
  | .error e => .error (.badTime e)

/-- Null is none. -/
def optional {α : Type} (decode : Decoder α) : Decoder (Option α) := fun dialect d =>
  match d with
  | .null => .ok none
  | d => (decode dialect d).map some

def listOf {α : Type} (decode : Decoder α) : Decoder (List α) := fun dialect d =>
  match d.untagged with
  | .list xs => xs.mapM (decode dialect)
  | .null => if dialect.nullIsEmpty then .ok [] else .error (mismatch dialect "a sequence" .null)
  | d => .error (mismatch dialect "a sequence" d)

/-- A mapping from text to text. -/
def textTable : Decoder (Table String String) := fun dialect d =>
  match d.untagged with
  | .record ms =>
    ms.foldlM (fun t m => do
      let k ← string dialect m.1
      let v ← string dialect m.2
      .ok (t.insert k v)) Table.empty
  | .null => if dialect.nullIsEmpty then .ok .empty else .error (mismatch dialect "a map" .null)
  | d => .error (mismatch dialect "a map" d)

def unit : Decoder Unit := fun dialect d =>
  match d with
  | .null => .ok ()
  | d => .error (mismatch dialect "unit" d)

/-- The variant that a name stands for. -/
def named {α : Type} (variants : List (String × α)) (name : String) : Decoded α :=
  match variants.lookup name with
  | some a => .ok a
  | none => .error (.unknownVariant name (variants.map Prod.fst))

/-- A variant that carries nothing: its name, or its name as tag or only member of an empty
value. -/
def variant {α : Type} (variants : List (String × α)) : Decoder α := fun dialect d =>
  match d with
  | .text s => named variants s
  | .tagged tag v => do
    let a ← named variants (String.ofList (tag.toList.dropWhile (· = '!')))
    unit dialect v
    .ok a
  | .record ms =>
    if dialect.nullIsEmpty then .error (mismatch dialect dialect.variantForms d)
    else match ms with
      | [(.text s, v)] => do
        let a ← named variants s
        unit dialect v
        .ok a
      | _ => .error (.invalidValue "map" "map with a single key")
  | d => .error (mismatch dialect dialect.variantForms d)

/-- The name of a member. -/
def memberName (dialect : Dialect) (d : Data) : Decoded String :=
  asText "field identifier" dialect d

/-- Reads a value with named members, also given as a list of them in order. `member` takes in one
of them, `finish` the whole, with the error for one that is missing. -/
def members {σ α : Type} (type : String) (names : List String) (start : σ)
    (member : Dialect → σ → String → Data → Decoded σ)
    (finish : (String → DecodeError) → σ → Decoded α) : Decoder α := fun dialect d =>
  match d.untagged with
  | .record ms => do
    let s ← ms.foldlM (fun s m => do member dialect s (← memberName dialect m.1) m.2) start
    finish .missingField s
  | .list xs =>
    if !dialect.recordsAsLists then .error (mismatch dialect type d.untagged)
    else do
      let s ← (names.zip xs).foldlM (fun s m => member dialect s m.1 m.2) start
      let a ← finish (fun name => .invalidLength (names.idxOf name)
        (type ++ " with " ++ toString names.length ++ (if names.length = 1 then " element"
          else " elements"))) s
      if xs.length > names.length then
        .error (.invalidLength xs.length (dialect.fewerItems names.length))
      else .ok a
  | .null => if dialect.nullIsEmpty then finish .missingField start
      else .error (mismatch dialect type .null)
  | d => .error (mismatch dialect type d)

/-- A member that must be there. -/
def require {α : Type} (missing : String → DecodeError) (name : String) : Option α → Decoded α
  | some a => .ok a
  | none => .error (missing name)

end Data

namespace Key

def toData (k : Key) : Data := .object [("namespace", .text k.space), ("name", .text k.name)]

def ofData : Decoder Key :=
  Data.members "struct ObjectKey" ["namespace",
    "name"] ((none, none) : Option String × Option String)
    (fun dialect s name d => match name with
      | "namespace" => do .ok (some (← Data.string dialect d), s.2)
      | "name" => do .ok (s.1, some (← Data.string dialect d))
      | _ => .ok s)
    fun missing s => do
      let space ← Data.require missing "namespace" s.1
      let name ← Data.require missing "name" s.2
      .ok ⟨space, name⟩

end Key
end ModelTemplates
