import ModelTemplates.Data
/-! The JSON text form of untyped trees. -/
namespace ModelTemplates
namespace Json

def escape (c : Char) : String :=
  if c = '"' then "\\\""
  else if c = '\\' then "\\\\"
  else if c.toNat < 32 then
    "\\u" ++ String.ofList (List.replicate (4 - (Nat.toDigits 16 c.toNat).length) '0' ++
      Nat.toDigits 16 c.toNat)
  else String.ofList [c]

def renderText (s : String) : String := "\"" ++ String.join (s.toList.map escape) ++ "\""

mutual

/-- Tags are not written; a key that is no text is written as the text of its value. -/
def render : Data → String
  | .null => "null"
  | .bool b => if b then "true" else "false"
  | .int n => toString n
  | .float x => if x.isNaN || x.isInfinite then "null" else x.toText
  | .text s => renderText s
  | .list xs => "[" ++ String.intercalate "," (renderItems xs) ++ "]"
  | .record ms => "\x7b" ++ String.intercalate "," (renderMembers ms) ++ "\x7d"
  | .tagged _ v => render v

def renderItems : List Data → List String
  | [] => []
  | x :: xs => render x :: renderItems xs

def renderMembers : List (Data × Data) → List String
  | [] => []
  | (.text k, v) :: ms => (renderText k ++ ":" ++ render v) :: renderMembers ms
  | (k, v) :: ms => (renderText (render k) ++ ":" ++ render v) :: renderMembers ms

end

def isSpace (c : Char) : Bool := c = ' ' || c = '\n' || c = '\r' || c = '\t'

def skipSpace (cs : List Char) : List Char := cs.dropWhile isSpace

def isDigit (c : Char) : Bool := '0' ≤ c && c ≤ '9'

def hexValue? (c : Char) : Option Nat :=
  if isDigit c then some (c.toNat - 48)
  else if 'a' ≤ c ∧ c ≤ 'f' then some (c.toNat - 87)
  else if 'A' ≤ c ∧ c ≤ 'F' then some (c.toNat - 55)
  else none

def hex4? : List Char → Option (Nat × List Char)
  | a :: b :: c :: d :: rest => do
    let a ← hexValue? a
    let b ← hexValue? b
    let c ← hexValue? c
    let d ← hexValue? d
    some (((a * 16 + b) * 16 + c) * 16 + d, rest)
  | _ => none

/-- The rest of an escape after `\u`: one unit, or two that make a pair. -/
def unicodeEscape? (cs : List Char) : Option (Char × List Char) := do
  let (n, rest) ← hex4? cs
  if 0xD800 ≤ n ∧ n < 0xDC00 then
    match rest with
    | '\\' :: 'u' :: rest => do
      let (m, rest) ← hex4? rest
      if 0xDC00 ≤ m ∧ m < 0xE000 then
        some (Char.ofNat (0x10000 + (n - 0xD800) * 1024 + (m - 0xDC00)), rest)
      else none
    | _ => none
  else if 0xDC00 ≤ n ∧ n < 0xE000 then none
  else some (Char.ofNat n, rest)

/-- The rest of a text after its opening quote; `done` holds what was read, last first. -/
def string? : Nat → List Char → List Char → Option (String × List Char)
  | 0, _, _ => none
  | fuel + 1, done, cs =>
    match cs with
    | '"' :: rest => some (String.ofList done.reverse, rest)
    | '\\' :: 'u' :: rest =>
      match unicodeEscape? rest with
      | some (c, rest) => string? fuel (c :: done) rest
      | none => none
    | '\\' :: e :: rest =>
      match [('"', '"'), ('\\', '\\'), ('/', '/'), ('b', '\x08'), ('f', '\x0c'),
        ('n', '\n'), ('r', '\r'),
          ('t', '\t')].lookup e with
      | some c => string? fuel (c :: done) rest
      | none => none
    | c :: rest => if c.toNat < 32 then none else string? fuel (c :: done) rest
    | [] => none

def natOfDigits (cs : List Char) : Nat := cs.foldl (fun n c => 10 * n + (c.toNat - 48)) 0

/-- An exponent: its mark, an optional sign and digits. -/
def exponent? : List Char → Option (Option Int × List Char)
  | c :: rest =>
    if c = 'e' ∨ c = 'E' then
      let (negative, rest) := match rest with
        | '-' :: rest => (true, rest)
        | '+' :: rest => (false, rest)
        | rest => (false, rest)
      let run := rest.takeWhile isDigit
      if run.isEmpty then none
      else
        let n : Int := natOfDigits run
        some (some (if negative then -n else n), rest.drop run.length)
    else some (none, c :: rest)
  | [] => some (none, [])

/-- A number without a fraction and an exponent is an integer when it fits 64 bits. -/
def number? (cs : List Char) : Option (Data × List Char) :=
  let (negative, cs) := match cs with
    | '-' :: rest => (true, rest)
    | cs => (false, cs)
  let whole := cs.takeWhile isDigit
  let rest := cs.drop whole.length
  if whole.isEmpty ∨ (whole.length > 1 ∧ whole.head? = some '0') then none
  else do
    let (fraction, rest) ← match rest with
      | '.' :: rest =>
        let run := rest.takeWhile isDigit
        if run.isEmpty then none else some (some run, rest.drop run.length)
      | rest => some (none, rest)
    let (exponent, rest) ← exponent? rest
    let n : Int := natOfDigits whole
    let value := if negative then -n else n
    if fraction.isNone ∧ exponent.isNone ∧ -(Nat.pow 2 63 : Int) ≤ value ∧
      value < (Nat.pow 2 64 : Int) ∧ ¬ (negative ∧ n = 0) then
      some (.int value, rest)
    else
      let places := fraction.getD []
      let x := Binary64.ofDecimal negative (natOfDigits (whole ++ places))
        (exponent.getD 0 - (places.length : Int))
      if x.isInfinite then none else some (.float x, rest)

/-- Put a member in its place by name, over one of the same name. -/
def insertMember (k : String) (v : Data) : List (Data × Data) → List (Data × Data)
  | [] => [(.text k, v)]
  | (.text l, w) :: ms =>
    if k < l then (.text k, v) :: (.text l, w) :: ms
    else if k = l then (.text k, v) :: ms
    else (.text l, w) :: insertMember k v ms
  | m :: ms => m :: insertMember k v ms

mutual

/-- A value and what follows it. `depth` bounds the nesting. -/
def value? : Nat → Nat → List Char → Option (Data × List Char)
  | 0, _, _ => none
  | fuel + 1, depth, cs =>
    match skipSpace cs with
    | 'n' :: 'u' :: 'l' :: 'l' :: rest => some (.null, rest)
    | 't' :: 'r' :: 'u' :: 'e' :: rest => some (.bool true, rest)
    | 'f' :: 'a' :: 'l' :: 's' :: 'e' :: rest => some (.bool false, rest)
    | '"' :: rest => (string? (rest.length + 1) [] rest).map fun (s, rest) => (.text s, rest)
    | '[' :: rest =>
      match depth with
      | 0 => none
      | depth + 1 =>
        match skipSpace rest with
        | ']' :: rest => some (.list [], rest)
        | rest => items? fuel depth [] rest
    | '\x7b' :: rest =>
      match depth with
      | 0 => none
      | depth + 1 =>
        match skipSpace rest with
        | '\x7d' :: rest => some (.record [], rest)
        | rest => members? fuel depth [] rest
    | cs => number? cs

def items? : Nat → Nat → List Data → List Char → Option (Data × List Char)
  | 0, _, _, _ => none
  | fuel + 1, depth, done, cs =>
    match value? fuel depth cs with
    | none => none
    | some (x, rest) =>
      match skipSpace rest with
      | ',' :: rest => items? fuel depth (x :: done) rest
      | ']' :: rest => some (.list (x :: done).reverse, rest)
      | _ => none

def members? : Nat → Nat → List (Data × Data) → List Char → Option (Data × List Char)
  | 0, _, _, _ => none
  | fuel + 1, depth, done, cs =>
    match skipSpace cs with
    | '"' :: rest =>
      match string? (rest.length + 1) [] rest with
      | none => none
      | some (k, rest) =>
        match skipSpace rest with
        | ':' :: rest =>
          match value? fuel depth rest with
          | none => none
          | some (x, rest) =>
            match skipSpace rest with
            | ',' :: rest => members? fuel depth (insertMember k x done) rest
            | '\x7d' :: rest => some (.record (insertMember k x done), rest)
            | _ => none
        | _ => none
    | _ => none

end

/-- How deep lists and records may nest. -/
def maxDepth : Nat := 127

/-- One value, with its members sorted by name and the last of a name kept. -/
def parse? (s : String) : Option Data :=
  let cs := s.toList
  match value? (3 * cs.length + 3) maxDepth cs with
  | some (x, rest) => if (skipSpace rest).isEmpty then some x else none
  | none => none

end Json

/-- The named members of a record, sorted by name. -/
def Json.sortedMembers (d : Data) : List (Data × Data) :=
  match d with
  | .record ms => ms.foldl (fun done m => match m.1 with
    | .text k => Json.insertMember k m.2 done
    | _ => done) []
  | _ => []

/-- A tree with a patch laid over it: members of a patch that is a record replace or, when null,
remove those of the same name; any other patch replaces all. -/
def Data.patch : Data → Data → Data
  | target, .record changes => .record (patchMembers (Json.sortedMembers target) changes)
  | _, change => change
where
  patchMembers (base : List (Data × Data)) : List (Data × Data) → List (Data × Data)
    | [] => base
    | (.text k, v) :: rest =>
      let next := match v with
        | .null => base.filter fun m => !Data.sameKey m.1 (.text k)
        | v => Json.insertMember k (Data.patch ((Data.member? k base).getD .null) v) base
      patchMembers next rest
    | _ :: rest => patchMembers base rest

end ModelTemplates
