/-! Tokens of YAML text, and a cursor that knows its line and column. -/
namespace ModelTemplates
namespace Yaml

/-- A position in a text, counted in characters from 0. -/
structure Mark where
  index : Nat
  line : Nat
  column : Nat
deriving DecidableEq, Inhabited

/-- How a text breaks the rules of YAML. -/
inductive Breach where
  | noToken
  | noColon
  | entryNotAllowed
  | keyNotAllowed
  | valueNotAllowed
  | noDirectiveName
  | badDirectiveName
  | unknownDirective
  | noVersionNumber
  | longVersionNumber
  | noVersionPoint
  | noSpace
  | noSpaceOrBreak
  | noCommentOrBreak
  | badAnchorName
  | noTagMark
  | noTagClose
  | noTagUri
  | noTagOctet
  | badLeadOctet
  | badTailOctet
  | zeroIndentation
  | tabAsIndentation
  | tabInPlain
  | colonInPlain
  | documentMarkerInQuotes
  | endInQuotes
  | unknownEscape
  | noHexNumber
  | badCodePoint
  | noDocumentStart
  | noEntry
  | noKey
  | noNode
  | noCommaOrBracket
  | noCommaOrBrace
  | unknownHandle
  | secondVersion
  | wrongVersion
  | secondHandle
deriving DecidableEq, Inhabited

def Breach.text : Breach → String
  | noToken => "found character that cannot start any token"
  | noColon => "could not find expected ':'"
  | entryNotAllowed => "block sequence entries are not allowed in this context"
  | keyNotAllowed => "mapping keys are not allowed in this context"
  | valueNotAllowed => "mapping values are not allowed in this context"
  | noDirectiveName => "could not find expected directive name"
  | badDirectiveName => "found unexpected non-alphabetical character"
  | unknownDirective => "found unknown directive name"
  | noVersionNumber => "did not find expected version number"
  | longVersionNumber => "found extremely long version number"
  | noVersionPoint => "did not find expected digit or '.' character"
  | noSpace => "did not find expected whitespace"
  | noSpaceOrBreak => "did not find expected whitespace or line break"
  | noCommentOrBreak => "did not find expected comment or line break"
  | badAnchorName => "did not find expected alphabetic or numeric character"
  | noTagMark => "did not find expected '!'"
  | noTagClose => "did not find the expected '>'"
  | noTagUri => "did not find expected tag URI"
  | noTagOctet => "did not find URI escaped octet"
  | badLeadOctet => "found an incorrect leading UTF-8 octet"
  | badTailOctet => "found an incorrect trailing UTF-8 octet"
  | zeroIndentation => "found an indentation indicator equal to 0"
  | tabAsIndentation => "found a tab character where an indentation space is expected"
  | tabInPlain => "found a tab character that violates indentation"
  | colonInPlain => "found unexpected ':'"
  | documentMarkerInQuotes => "found unexpected document indicator"
  | endInQuotes => "found unexpected end of stream"
  | unknownEscape => "found unknown escape character"
  | noHexNumber => "did not find expected hexdecimal number"
  | badCodePoint => "found invalid Unicode character escape code"
  | noDocumentStart => "did not find expected <document start>"
  | noEntry => "did not find expected '-' indicator"
  | noKey => "did not find expected key"
  | noNode => "did not find expected node content"
  | noCommaOrBracket => "did not find expected ',' or ']'"
  | noCommaOrBrace => "did not find expected ',' or '\x7d'"
  | unknownHandle => "found undefined tag handle"
  | secondVersion => "found duplicate %YAML directive"
  | wrongVersion => "found incompatible YAML document"
  | secondHandle => "found duplicate %TAG directive"

/-- What was being read. -/
inductive Activity where
  | nextToken
  | simpleKey
  | directive
  | versionDirective
  | tagDirective
  | tagDirectiveStart
  | tagDirectiveHandle
  | tagDirectiveUri
  | anchor
  | aliasTo
  | tag
  | tagUri
  | blockScalar
  | quotedScalar
  | escape
  | plainScalar
  | node
  | blockNode
  | flowNode
  | blockSequence
  | blockMapping
  | flowSequence
  | flowMapping
deriving DecidableEq, Inhabited

def Activity.text : Activity → String
  | nextToken => "while scanning for the next token"
  | simpleKey => "while scanning a simple key"
  | directive => "while scanning a directive"
  | versionDirective => "while scanning a %YAML directive"
  | tagDirective => "while scanning a %TAG directive"
  | tagDirectiveStart => "while scanning a tag directive"
  | tagDirectiveHandle => "while parsing a tag directive"
  | tagDirectiveUri => "while parsing a %TAG directive"
  | anchor => "while scanning an anchor"
  | aliasTo => "while scanning an alias"
  | tag => "while scanning a tag"
  | tagUri => "while parsing a tag"
  | blockScalar => "while scanning a block scalar"
  | quotedScalar => "while scanning a quoted scalar"
  | escape => "while parsing a quoted scalar"
  | plainScalar => "while scanning a plain scalar"
  | node => "while parsing a node"
  | blockNode => "while parsing a block node"
  | flowNode => "while parsing a flow node"
  | blockSequence => "while parsing a block collection"
  | blockMapping => "while parsing a block mapping"
  | flowSequence => "while parsing a flow sequence"
  | flowMapping => "while parsing a flow mapping"

/-- An activity and where it began. -/
structure During where
  activity : Activity
  start : Mark
deriving DecidableEq, Inhabited

/-- Why a text is no YAML. -/
inductive SyntaxError where
  | breach (what : Breach) (mark : Mark) (during : Option During)
  /-- A character that no text may hold, by its place in bytes. -/
  | forbiddenCharacter (offset : Nat)
deriving DecidableEq, Inhabited

def Mark.isStart (m : Mark) : Bool := m.line = 0 && m.column = 0

def Mark.text (m : Mark) : String :=
  "line " ++ toString (m.line + 1) ++ " column " ++ toString (m.column + 1)

/-- Marks at the start of the text are not told, nor is the start of an activity that is where the
breach is. -/
def SyntaxError.message : SyntaxError → String
  | .breach what mark during =>
    what.text ++ (if mark.isStart then "" else " at " ++ mark.text) ++
      match during with
      | none => ""
      | some d =>
        ", " ++ d.activity.text ++
          if d.start.isStart || (d.start.line = mark.line && d.start.column = mark.column) then ""
          else " at " ++ d.start.text
  | .forbiddenCharacter offset =>
    "control characters are not allowed" ++
      (if offset = 0 then "" else " at position " ++ toString offset)

inductive ScalarStyle where
  | plain
  | singleQuoted
  | doubleQuoted
  | literal
  | folded
deriving DecidableEq, Inhabited

inductive TokenKind where
  | streamStart
  | streamEnd
  | versionDirective (major minor : Nat)
  | tagDirective (handle lead : String)
  | documentStart
  | documentEnd
  | blockSequenceStart
  | blockMappingStart
  | blockEnd
  | flowSequenceStart
  | flowSequenceEnd
  | flowMappingStart
  | flowMappingEnd
  | blockEntry
  | flowEntry
  | key
  | value
  | aliasTo (name : String)
  | anchor (name : String)
  | tag (handle suffix : String)
  | scalar (text : String) (style : ScalarStyle)
deriving DecidableEq, Inhabited

structure Token where
  kind : TokenKind
  start : Mark
  stop : Mark
deriving DecidableEq, Inhabited

def isBlank (c : Char) : Bool := c = ' ' || c = '\t'

def isBreak (c : Char) : Bool :=
  c = '\n' || c = '\r' || c = '\u0085' || c = '\u2028' || c = '\u2029'

/-- A blank, a line break, or the end of the text. -/
def isBlankOrEnd : Option Char → Bool
  | some c => isBlank c || isBreak c
  | none => true

def isBreakOrEnd : Option Char → Bool
  | some c => isBreak c
  | none => true

def isWordChar (c : Char) : Bool := c.isAlphanum || c = '_' || c = '-'

/-- Characters that a text may hold. -/
def isAllowed (c : Char) : Bool :=
  let n := c.toNat
  n == 9 || n == 10 || n == 13 || (0x20 ≤ n && n ≤ 0x7E) || n == 0x85 || (0xA0 ≤ n && n ≤ 0xD7FF) ||
    (0xE000 ≤ n && n ≤ 0xFFFD) || 0x10000 ≤ n

structure Cursor where
  rest : List Char
  mark : Mark
deriving Inhabited

namespace Cursor

def ofText (s : String) : Cursor := ⟨s.toList, ⟨0, 0, 0⟩⟩

def peek (c : Cursor) : Option Char := c.rest.head?

def peekAt (c : Cursor) (n : Nat) : Option Char := c.rest[n]?

def isAt (c : Cursor) (x : Char) : Bool := c.peek = some x

/-- Past one character. -/
def skip (c : Cursor) : Cursor :=
  match c.rest with
  | [] => c
  | _ :: rest => ⟨rest, ⟨c.mark.index + 1, c.mark.line, c.mark.column + 1⟩⟩

def skipMany : Nat → Cursor → Cursor
  | 0, c => c
  | n + 1, c => skipMany n c.skip

/-- Past one line break, with what stands for it in a scalar. -/
def takeBreak (c : Cursor) : List Char × Cursor :=
  let next (rest : List Char) (n : Nat) : Cursor := ⟨rest, ⟨c.mark.index + n, c.mark.line + 1, 0⟩⟩
  match c.rest with
  | '\r' :: '\n' :: rest => (['\n'], next rest 2)
  | '\r' :: rest => (['\n'], next rest 1)
  | '\n' :: rest => (['\n'], next rest 1)
  | '\u0085' :: rest => (['\n'], next rest 1)
  | '\u2028' :: rest => (['\u2028'], next rest 1)
  | '\u2029' :: rest => (['\u2029'], next rest 1)
  | _ => ([], c)

/-- The longest run of characters with a property. -/
def takeWhile (p : Char → Bool) (c : Cursor) : List Char × Cursor :=
  let run := c.rest.takeWhile p
  (run, ⟨c.rest.drop run.length,
    ⟨c.mark.index + run.length, c.mark.line, c.mark.column + run.length⟩⟩)

def skipWhile (p : Char → Bool) (c : Cursor) : Cursor := (c.takeWhile p).2

/-- A line that starts with three of a character, and a blank or nothing after them. -/
def atMarker (c : Cursor) (x : Char) : Bool :=
  c.mark.column = 0 && c.peekAt 0 = some x && c.peekAt 1 = some x && c.peekAt 2 = some x &&
    isBlankOrEnd (c.peekAt 3)

def atDocumentMarker (c : Cursor) : Bool := c.atMarker '-' || c.atMarker '.'

def fail {α : Type} (c : Cursor) (what : Breach) (during : During) : Except SyntaxError α :=
  .error (.breach what c.mark (some during))

end Cursor
end Yaml
end ModelTemplates
