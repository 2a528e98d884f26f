import ModelTemplates.Yaml.Plain
/-! Writing untyped trees as YAML in block style. -/
namespace ModelTemplates
namespace Yaml
namespace Writer

/-- The text so far, last first, and where its last line stands. -/
structure Pen where
  done : List Char
  column : Nat
  /-- The last thing written separates. -/
  spaced : Bool
  /-- Only indentation and indicators stand on the line. -/
  fresh : Bool

namespace Pen

def start : Pen := ⟨[], 0, true, true⟩

def put (p : Pen) (cs : List Char) : Pen :=
  { p with done := cs.reverse ++ p.done, column := p.column + cs.length }

def newline (p : Pen) : Pen := { p with done := '\n' :: p.done, column := 0 }

/-- A line break of a scalar. -/
def lineBreak (p : Pen) (c : Char) : Pen := { p with done := c :: p.done, column := 0 }

def space (p : Pen) : Pen := if p.spaced then p else p.put [' ']

/-- To the indent, on a new line unless the line is fresh and not past it. -/
def indent (p : Pen) (n : Nat) : Pen :=
  let p := if !p.fresh || p.column > n || (p.column = n && !p.spaced) then p.newline else p
  { p.put (List.replicate (n - p.column) ' ') with spaced := true, fresh := true }

/-- An indicator, after a space if it needs one; `separates` and `keepsFresh` say what it leaves
behind. -/
def indicator (p : Pen) (s : String) (needsSpace separates keepsFresh : Bool) : Pen :=
  let p := if needsSpace then p.space else p
  { p.put s.toList with spaced := separates, fresh := p.fresh && keepsFresh }

def text (p : Pen) : String := String.ofList p.done.reverse

end Pen

/-- Characters that only a double quoted scalar can hold. -/
def isSpecial (c : Char) : Bool :=
  let n := c.toNat
  !(n == 10 || (0x20 ≤ n && n ≤ 0x7E) || (0xA0 ≤ n && n ≤ 0xD7FF) ||
    (0xE000 ≤ n && n ≤ 0xFFFD && n != 0xFEFF) || 0x10000 ≤ n)

/-- What is known of the characters of a scalar. -/
structure Shape where
  multiline : Bool
  plainAllowed : Bool
  quotedAllowed : Bool
  blockAllowed : Bool

def isLeadIndicator (c : Char) : Bool :=
  c ∈ ['#', ',', '[', ']', '{', '}', '&', '*', '!', '|', '>', '\'', '"', '%', '@', '\x60']

/-- Whether the characters from here on show an indicator, `first` at the start of the scalar. -/
def hasIndicator (first afterBlank : Bool) : List Char → Bool
  | [] => false
  | c :: cs =>
    let blankNext := isBlankOrEnd cs.head?
    (if first then isLeadIndicator c || ((c = '?' || c = ':' || c = '-') && blankNext)
      else (c = ':' && blankNext) || (c = '#' && afterBlank))
      || hasIndicator false (isBlank c || isBreak c) cs

def adjacent (p : Char → Char → Bool) : List Char → Bool
  | a :: b :: cs => p a b || adjacent p (b :: cs)
  | _ => false

def shape (cs : List Char) : Shape :=
  if cs.isEmpty then ⟨false, true, true, false⟩
  else
    let breaks := cs.any isBreak
    let marker := "---".toList.isPrefixOf cs || "...".toList.isPrefixOf cs
    let edge (o : Option Char) : Bool :=
      match o with | some c => c = ' ' || isBreak c | none => false
    let breakSpace := adjacent (fun a b => isBreak a && b = ' ') cs
    let spaceBreak := adjacent (fun a b => a = ' ' && isBreak b) cs
    let special := cs.any isSpecial || spaceBreak
    { multiline := breaks
      plainAllowed :=
        !(breaks || marker || edge cs.head? || edge cs.getLast? || special ||
          hasIndicator true true cs)
      quotedAllowed := !(breakSpace || special)
      blockAllowed := !(special || cs.getLast? = some ' ') }

def upperHex (width n : Nat) : List Char :=
  let digits := (Nat.toDigits 16 n).map Char.toUpper
  List.replicate (width - digits.length) '0' ++ digits

def doubleEscape (c : Char) : List Char :=
  match [('\x00', '0'), ('\x07', 'a'), ('\x08', 'b'), ('\t', 't'), ('\n', 'n'), ('\x0b', 'v'),
    ('\x0c', 'f'),
      ('\r', 'r'), ('\x1b', 'e'), ('"', '"'), ('\\', '\\'), ('\u0085', 'N'), ('\u2028', 'L'),
      ('\u2029', 'P')].lookup c with
  | some e => ['\\', e]
  | none =>
    if isSpecial c then
      if c.toNat ≤ 0xFF then '\\' :: 'x' :: upperHex 2 c.toNat
      else if c.toNat ≤ 0xFFFF then '\\' :: 'u' :: upperHex 4 c.toNat
      else '\\' :: 'U' :: upperHex 8 c.toNat
    else [c]

def writeDouble (p : Pen) (cs : List Char) : Pen :=
  let p := (p.indicator "\"" true false false).put (cs.flatMap doubleEscape)
  p.indicator "\"" false false false

/-- Quotes are doubled, and what follows a line break is indented. -/
def singleChars (n : Nat) : Bool → List Char → Pen → Pen
  | breaks, [], p => if breaks then p.indent n else p
  | breaks, c :: cs, p =>
    if c = ' ' then singleChars n breaks cs (p.put [' '])
    else if isBreak c then
      let p := if !breaks && c = '\n' then p.newline else p
      singleChars n true cs { p.lineBreak c with fresh := true }
    else
      let p := if breaks then p.indent n else p
      singleChars n false cs { p.put (if c = '\'' then ['\'', '\''] else [c]) with fresh := false }

def writeSingle (p : Pen) (n : Nat) (cs : List Char) : Pen :=
  let p := singleChars n false cs (p.indicator "'" true false false)
  p.indicator "'" false false false

def blockChars (n : Nat) : Bool → List Char → Pen → Pen
  | _, [], p => p
  | breaks, c :: cs, p =>
    if isBreak c then blockChars n true cs { p.lineBreak c with fresh := true }
    else
      let p := if breaks then p.indent n else p
      blockChars n false cs { p.put [c] with fresh := false }

/-- The signs after `|`: an indent where the text starts with a space, and what becomes of its last
breaks. -/
def blockHints (cs : List Char) : String :=
  let width := match cs.head? with
    | some c => if c = ' ' || isBreak c then "2" else ""
    | none => ""
  let chomp := match cs.reverse with
    | [] => "-"
    | [c] => if isBreak c then "+" else "-"
    | c :: d :: _ => if !isBreak c then "-" else if isBreak d then "+" else ""
  width ++ chomp

def writeBlock (p : Pen) (n : Nat) (cs : List Char) : Pen :=
  let p := (p.indicator "|" true false false).put (blockHints cs).toList
  blockChars n true cs { p.newline with spaced := true, fresh := true }

def writePlain (p : Pen) (cs : List Char) : Pen :=
  let p := if cs.isEmpty then p else p.space
  { p.put cs with spaced := false, fresh := false }

/-- Whether a text would not be read back as a text without quotes. -/
def readsOtherwise (s : String) : Bool :=
  Plain.hasLeadingZero s.toList || match Plain.read s with | .text _ => false | _ => true

inductive Wish where
  | plain
  | quoted
  | block
deriving DecidableEq

/-- A scalar in the style it asks for, or in the next one that can hold it. -/
def writeScalar (p : Pen) (n : Nat) (isKey : Bool) (wish : Wish) (s : String) : Pen :=
  let cs := s.toList
  let sh := shape cs
  let quoted (p : Pen) : Pen := if sh.quotedAllowed then writeSingle p n cs else writeDouble p cs
  if isKey && sh.multiline then writeDouble p cs
  else match wish with
    | .plain =>
      if sh.plainAllowed && !(cs.isEmpty && isKey) then writePlain p cs else quoted p
    | .quoted => quoted p
    | .block => if sh.blockAllowed && !isKey then writeBlock p n cs else writeDouble p cs

def wishFor (s : String) : Wish :=
  if s.toList.contains '\n' then .block else if readsOtherwise s then .quoted else .plain

def floatText (x : Binary64) : String :=
  if x.isNaN then ".nan"
  else if x.isInfinite then (if x.negative then "-.inf" else ".inf")
  else x.toText

/-- The text of a scalar and the style it asks for. -/
def scalarText : Data → Option (String × Wish)
  | .null => some ("null", .plain)
  | .bool b => some (if b then "true" else "false", .plain)
  | .int i => some (toString i, .plain)
  | .float x => some (floatText x, .plain)
  | .text s => some (s, wishFor s)
  | _ => none

def tagChar (c : Char) : List Char :=
  if isWordChar c || c ∈ [';', '/', '?', ':', '@', '&', '=', '+', '$', '.', '!', '~', '*', '\'',
    '(', ')', ',', '[', ']'] then
    [c]
  else (String.ofList [c]).toUTF8.toList.flatMap fun b => '%' :: upperHex 2 b.toNat

def writeTag (p : Pen) (tag : String) : Pen :=
  let p := p.space
  { p.put ('!' :: (tag.toList.drop 1).flatMap tagChar) with spaced := false, fresh := false }

/-- Keys of at most 128 bytes on one line stand before their colon; others get a line of their
own. -/
def isSimpleKey (tagLength : Nat) : Data → Bool
  | .list xs => xs.isEmpty && tagLength ≤ 128
  | .record ms => ms.isEmpty && tagLength ≤ 128
  | .tagged tag v => isSimpleKey (tagLength + tag.utf8ByteSize) v
  | d =>
    match scalarText d with
    | some (s, _) => !(s.toList.any isBreak) && tagLength + s.utf8ByteSize ≤ 128
    | none => false

mutual

/-- A node of a tree. `indent` is the indent of the collection around it, none at the root;
`inMapping` and `isKey` say where the node stands. -/
def writeNode : Option Nat → Bool → Bool → Data → Pen → Pen
  | indent, _, _, .record ms, p =>
    if ms.isEmpty then (p.indicator "\x7b" true true false).indicator "\x7d" false false false
    else
      let n := match indent with | none => 0 | some n => n + 2
      writeMembers n ms p
  | indent, inMapping, _, .list xs, p =>
    if xs.isEmpty then (p.indicator "[" true true false).indicator "]" false false false
    else
      let n := match indent with
        | none => 0
        | some n => if inMapping && !p.fresh then n else n + 2
      writeItems n xs p
  | indent, inMapping, isKey, .tagged tag v, p =>
    writeNode indent inMapping isKey v (writeTag p tag)
  | indent, _, isKey, d, p =>
    match scalarText d with
    | some (s, wish) => writeScalar p (match indent with | none => 2 | some n => n + 2) isKey wish s
    | none => p

def writeItems (n : Nat) : List Data → Pen → Pen
  | [], p => p
  | x :: xs, p =>
    let p := (p.indent n).indicator "-" true false true
    writeItems n xs (writeNode (some n) false false x p)

def writeMembers (n : Nat) : List (Data × Data) → Pen → Pen
  | [], p => p
  | (k, v) :: ms, p =>
    let p := p.indent n
    let p :=
      if isSimpleKey 0 k then (writeNode (some n) true true k p).indicator ":" false false false
      else
        let p := writeNode (some n) true false k (p.indicator "?" true false true)
        (p.indent n).indicator ":" true false true
    writeMembers n ms (writeNode (some n) true false v p)

end

/-- A tree as a text of one document. -/
def write (d : Data) : String := ((writeNode none false false d .start).indent 0).text

end Writer
end Yaml
end ModelTemplates
