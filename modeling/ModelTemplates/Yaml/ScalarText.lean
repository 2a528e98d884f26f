import ModelTemplates.Yaml.Token
/-! The texts of plain, quoted and block scalars. -/
namespace ModelTemplates
namespace Yaml

/-- White space inside a scalar, not yet part of its text. -/
structure Gap where
  blanks : List Char
  /-- Whether a line ended in the gap. -/
  broken : Bool
  firstBreak : List Char
  moreBreaks : List Char

namespace Gap

def empty : Gap := ⟨[], false, [], []⟩

/-- What the gap becomes when text follows: one line break folds into a space, more lose the
first. -/
def folded (g : Gap) : List Char :=
  if g.broken then
    if g.firstBreak = ['\n'] then (if g.moreBreaks.isEmpty then [' '] else g.moreBreaks)
    else g.firstBreak ++ g.moreBreaks
  else g.blanks

/-- The blanks and line breaks ahead. A tab in the indentation of a continued plain scalar, which
has to pass a column, is refused. -/
def take (tabLimit : Option (Int × Mark)) : Nat → Gap → Cursor → Except SyntaxError (Gap × Cursor)
  | 0, g, c => .ok (g, c)
  | fuel + 1, g, c =>
    match c.peek with
    | none => .ok (g, c)
    | some x =>
      if isBlank x then
        match tabLimit with
        | some (limit, start) =>
          if g.broken && (c.mark.column : Int) < limit && x = '\t' then
            c.fail .tabInPlain ⟨.plainScalar, start⟩
          else take tabLimit fuel (if g.broken then g
            else { g with blanks := g.blanks ++ [x] }) c.skip
        | none =>
          take tabLimit fuel (if g.broken then g else { g with blanks := g.blanks ++ [x] }) c.skip
      else if isBreak x then
        let (text, next) := c.takeBreak
        take tabLimit fuel
          (if g.broken then { g with moreBreaks := g.moreBreaks ++ text }
            else ⟨[], true, text, g.moreBreaks⟩) next
      else .ok (g, c)

end Gap

def isFlowIndicator (c : Char) : Bool := c = ',' || c = '[' || c = ']' || c = '{' || c = '}'

/-- One word of a plain scalar; `done` is the text so far, last first. -/
def plainWord (inFlow : Bool) (start : Mark) : Nat → List Char → Gap → Cursor →
    Except SyntaxError (List Char × Gap × Cursor)
  | 0, done, g, c => .ok (done, g, c)
  | fuel + 1, done, g, c =>
    match c.peek with
    | none => .ok (done, g, c)
    | some x =>
      if isBlank x || isBreak x then .ok (done, g, c)
      else if inFlow && x = ':' &&
        (match c.peekAt 1 with | some y => isFlowIndicator y || y = '?' | none => false) then
        c.fail .colonInPlain ⟨.plainScalar, start⟩
      else if (x = ':' && isBlankOrEnd (c.peekAt 1)) || (inFlow && isFlowIndicator x) then
        .ok (done, g, c)
      else plainWord inFlow start fuel (x :: (g.folded.reverse ++ done)) .empty c.skip

/-- Words and the gaps between them, as long as they are indented far enough. -/
def plainWords (inFlow : Bool) (indent : Int) (start : Mark) : Nat → List Char → Gap → Cursor →
    Except SyntaxError (List Char × Gap × Cursor)
  | 0, done, g, c => .ok (done, g, c)
  | fuel + 1, done, g, c =>
    if c.atDocumentMarker || c.isAt '#' then .ok (done, g, c)
    else do
      let (done, g, c) ← plainWord inFlow start (c.rest.length + 1) done g c
      match c.peek with
      | none => .ok (done, g, c)
      | some x =>
        if !(isBlank x || isBreak x) then .ok (done, g, c)
        else
          let (g, c) ← g.take (some (indent, start)) (c.rest.length + 1) c
          if !inFlow && (c.mark.column : Int) < indent then .ok (done, g, c)
          else plainWords inFlow indent start fuel done g c

/-- A plain scalar, and whether it ended after a line break. -/
def plainScalar (inFlow : Bool) (indent : Int) (c : Cursor) :
    Except SyntaxError (String × Bool × Cursor) := do
  let (done, g, next) ← plainWords inFlow indent c.mark (c.rest.length + 1) [] .empty c
  .ok (String.ofList done.reverse, g.broken, next)

def hexValue? (c : Char) : Option Nat :=
  if '0' ≤ c ∧ c ≤ '9' then some (c.toNat - 48)
  else if 'a' ≤ c ∧ c ≤ 'f' then some (c.toNat - 87)
  else if 'A' ≤ c ∧ c ≤ 'F' then some (c.toNat - 55)
  else none

/-- Escapes of one character. -/
def shortEscapes : List (Char × Char) :=
  [('0', '\x00'), ('a', '\x07'), ('b', '\x08'), ('t', '\t'), ('\t', '\t'), ('n', '\n'),
    ('v', '\x0b'), ('f', '\x0c'), ('r', '\r'), ('e', '\x1b'), (' ', ' '), ('"', '"'), ('/', '/'),
    ('\\', '\\'), ('N', '\u0085'), ('_', '\u00a0'), ('L', '\u2028'), ('P', '\u2029')]

/-- Escapes by code point, with their number of hexadecimal digits. -/
def longEscapes : List (Char × Nat) := [('x', 2), ('u', 4), ('U', 8)]

/-- The character of an escape whose backslash is at the cursor. -/
def escapedChar (start : Mark) (c : Cursor) : Except SyntaxError (Char × Cursor) :=
  match c.peekAt 1 with
  | none => c.fail .unknownEscape ⟨.escape, start⟩
  | some e =>
    match shortEscapes.lookup e with
    | some x => .ok (x, c.skipMany 2)
    | none =>
      match longEscapes.lookup e with
      | none => c.fail .unknownEscape ⟨.escape, start⟩
      | some width =>
        let c := c.skipMany 2
        match (c.rest.take width).mapM hexValue? with
        | none => c.fail .noHexNumber ⟨.escape, start⟩
        | some values =>
          let n := values.foldl (fun n v => 16 * n + v) 0
          if values.length < width then c.fail .noHexNumber ⟨.escape, start⟩
          else if (0xD800 ≤ n && n ≤ 0xDFFF) || n > 0x10FFFF then
            c.fail .badCodePoint ⟨.escape, start⟩
          else .ok (Char.ofNat n, c.skipMany width)

/-- Characters up to a blank, a line break, the closing quote, or an escaped line break (then
`true`). -/
def quotedWord (single : Bool) (start : Mark) :
    Nat → List Char → Cursor → Except SyntaxError (List Char × Bool × Cursor)
  | 0, done, c => .ok (done, false, c)
  | fuel + 1, done, c =>
    match c.peek with
    | none => .ok (done, false, c)
    | some x =>
      if isBlank x || isBreak x then .ok (done, false, c)
      else if single && x = '\'' && c.peekAt 1 = some '\'' then
        quotedWord single start fuel ('\'' :: done) (c.skipMany 2)
      else if x = (if single then '\'' else '"') then .ok (done, false, c)
      else if !single && x = '\\' then
        match c.peekAt 1 with
        | some y =>
          if isBreak y then .ok (done, true, c.skip.takeBreak.2)
          else do
            let (z, c) ← escapedChar start c
            quotedWord single start fuel (z :: done) c
        | none => c.fail .unknownEscape ⟨.escape, start⟩
      else quotedWord single start fuel (x :: done) c.skip

def quotedWords (single : Bool) (start : Mark) : Nat → List Char → Cursor →
    Except SyntaxError (List Char × Cursor)
  | 0, _, c => c.fail .endInQuotes ⟨.quotedScalar, start⟩
  | fuel + 1, done, c =>
    if c.atDocumentMarker then c.fail .documentMarkerInQuotes ⟨.quotedScalar, start⟩
    else if c.rest.isEmpty then c.fail .endInQuotes ⟨.quotedScalar, start⟩
    else do
      let (done, escapedBreak, c) ← quotedWord single start (c.rest.length + 1) done c
      if c.isAt (if single then '\'' else '"') then .ok (done, c.skip)
      else
        let (g, c) ← Gap.take none (c.rest.length + 1) ⟨[], escapedBreak, [], []⟩ c
        quotedWords single start fuel (g.folded.reverse ++ done) c

/-- A quoted scalar from its opening quote to past its closing one. -/
def quotedScalar (single : Bool) (c : Cursor) : Except SyntaxError (String × Cursor) := do
  let (done, next) ← quotedWords single c.mark (c.rest.length + 1) [] c.skip
  .ok (String.ofList done.reverse, next)

inductive Chomping where
  | strip
  | clip
  | keep
deriving DecidableEq

def isDigit (c : Char) : Bool := '0' ≤ c && c ≤ '9'

def chompingAt (c : Cursor) : Option (Chomping × Cursor) :=
  match c.peek with
  | some '+' => some (.keep, c.skip)
  | some '-' => some (.strip, c.skip)
  | _ => none

def indentationAt (start : Mark) (c : Cursor) : Except SyntaxError (Option Nat × Cursor) :=
  match c.peek with
  | some x =>
    if x = '0' then c.fail .zeroIndentation ⟨.blockScalar, start⟩
    else if isDigit x then .ok (some (x.toNat - 48), c.skip)
    else .ok (none, c)
  | none => .ok (none, c)

/-- The indicators after `|` or `>`, in either order. -/
def blockHeader (start : Mark) (c : Cursor) : Except SyntaxError (Chomping × Option Nat × Cursor) :=
  match chompingAt c with
  | some (chomping, c) => do
    let (width, c) ← indentationAt start c
    .ok (chomping, width, c)
  | none => do
    let (width, c) ← indentationAt start c
    match chompingAt c with
    | some (chomping, next) =>
      if width.isSome then .ok (chomping, width, next) else .ok (.clip, width, c)
    | none => .ok (.clip, width, c)

/-- The indentation and empty lines before a line of a block scalar. An `indent` of 0 is not yet
known; `widest` is the widest indentation seen. -/
def blockBreaks (start : Mark) (indent : Nat) :
    Nat → Nat → List Char → Cursor → Except SyntaxError (Nat × List Char × Cursor)
  | 0, widest, breaks, c => .ok (widest, breaks, c)
  | fuel + 1, widest, breaks, c =>
    let c := if indent = 0 then c.skipWhile (· = ' ')
      else c.skipMany ((c.rest.take (indent - c.mark.column)).takeWhile (· = ' ')).length
    let widest := max widest c.mark.column
    if (indent = 0 || c.mark.column < indent) && c.isAt '\t' then
      c.fail .tabAsIndentation ⟨.blockScalar, start⟩
    else match c.peek with
      | some x =>
        if isBreak x then
          let (text, c) := c.takeBreak
          blockBreaks start indent fuel widest (breaks ++ text) c
        else .ok (widest, breaks, c)
      | none => .ok (widest, breaks, c)

/-- Lines of a block scalar; `lead` is the break before the next line, `breaks` the empty lines
after it. -/
def blockLines (start : Mark) (literal : Bool) (indent : Nat) :
    Nat → List Char → List Char → List Char → Bool → Cursor →
      Except SyntaxError (List Char × List Char × List Char × Cursor)
  | 0, done, lead, breaks, _, c => .ok (done, lead, breaks, c)
  | fuel + 1, done, lead, breaks, leadingBlank, c =>
    if c.mark.column ≠ indent || c.rest.isEmpty then .ok (done, lead, breaks, c)
    else do
      let blank := match c.peek with | some x => isBlank x | none => false
      let joined :=
        if !literal && lead = ['\n'] && !leadingBlank && !blank then
          (if breaks.isEmpty then [' '] else [])
        else lead
      let (line, c) := c.takeWhile fun x => !isBreak x
      let (lead, c) := c.takeBreak
      let (_, next, c) ← blockBreaks start indent (c.rest.length + 1) 0 [] c
      blockLines start literal indent fuel
        (line.reverse ++ (breaks.reverse ++ (joined.reverse ++ done))) lead next blank c

/-- A block scalar from its indicator, inside a collection indented by `parent`. -/
def blockScalar (literal : Bool) (parent : Int) (c : Cursor) :
    Except SyntaxError (String × Cursor) := do
  let start := c.mark
  let (chomping, width, c) ← blockHeader start c.skip
  let c := c.skipWhile isBlank
  let c := if c.isAt '#' then c.skipWhile fun x => !isBreak x else c
  if !isBreakOrEnd c.peek then c.fail .noCommentOrBreak ⟨.blockScalar, start⟩
  else
    let c := c.takeBreak.2
    let given : Nat := match width with
      | some n => if parent ≥ 0 then parent.toNat + n else n
      | none => 0
    let (widest, breaks, c) ← blockBreaks start given (c.rest.length + 1) 0 [] c
    let indent := if given = 0 then max (max widest (parent + 1).toNat) 1 else given
    let (done, lead, breaks, c) ←
      blockLines start literal indent (c.rest.length + 1) [] [] breaks false c
    let tail := match chomping with
      | .strip => []
      | .clip => lead
      | .keep => lead ++ breaks
    .ok (String.ofList (done.reverse ++ tail), c)

end Yaml
end ModelTemplates
