import ModelTemplates.Yaml.ScalarText
/-! The tokens of a text, fetched as they are asked for. A token that may turn out to be the key of
a mapping is held back until that is decided. -/
namespace ModelTemplates
namespace Yaml

/-- A place where the key of a mapping may have begun. -/
structure SimpleKey where
  possible : Bool
  required : Bool
  /-- The token that would be the key, counted from the start of the text. -/
  tokenNumber : Nat
  mark : Mark
deriving Inhabited

def SimpleKey.none : SimpleKey := ⟨false, false, 0, ⟨0, 0, 0⟩⟩

structure TokenStream where
  cursor : Cursor
  started : Bool
  flowLevel : Nat
  /-- The column of the innermost block collection, -1 outside of all. -/
  indent : Int
  outerIndents : List Int
  keyAllowed : Bool
  /-- One place for each flow level, the innermost first. -/
  keys : List SimpleKey
  queue : List Token
  /-- Tokens handed out so far. -/
  taken : Nat
deriving Inhabited

namespace TokenStream

def ofText (s : String) : TokenStream := ⟨.ofText s, false, 0, -1, [], false, [], [], 0⟩

abbrev Step := Except SyntaxError TokenStream

def mark (s : TokenStream) : Mark := s.cursor.mark

def fail {α : Type} (s : TokenStream) (what : Breach) (during : Option During) :
    Except SyntaxError α :=
  .error (.breach what s.mark during)

def push (s : TokenStream) (t : Token) : TokenStream := { s with queue := s.queue ++ [t] }

def topKey (s : TokenStream) : SimpleKey := s.keys.headD .none

def setTopKey (s : TokenStream) (k : SimpleKey) : TokenStream :=
  { s with keys := match s.keys with | _ :: ks => k :: ks | [] => [k] }

/-- Keys end on their line and within 1024 characters. -/
def dropStaleKeys (s : TokenStream) : Step :=
  let stale (k : SimpleKey) : Bool :=
    k.possible && (k.mark.line < s.mark.line || k.mark.index + 1024 < s.mark.index)
  match s.keys.reverse.find? fun k => stale k && k.required with
  | some k => s.fail .noColon (some ⟨.simpleKey, k.mark⟩)
  | none =>
    .ok { s with keys := s.keys.map fun k => if stale k then { k with possible := false } else k }

/-- Give up the place of the current flow level. -/
def dropKey (s : TokenStream) : Step :=
  let k := s.topKey
  if k.possible && k.required then s.fail .noColon (some ⟨.simpleKey, k.mark⟩)
    else .ok (s.setTopKey { k with possible := false })

/-- Note that a key may begin here. -/
def saveKey (s : TokenStream) : Step :=
  if s.keyAllowed then do
    let s ← s.dropKey
    .ok (s.setTopKey ⟨true, s.flowLevel = 0 && s.indent = (s.mark.column : Int),
      s.taken + s.queue.length, s.mark⟩)
  else .ok s

def insertAt (t : Token) : Nat → List Token → List Token
  | 0, ts => t :: ts
  | _ + 1, [] => [t]
  | n + 1, u :: ts => u :: insertAt t n ts

/-- Open a block collection when the column is further in; `number` is the token before which it
starts. -/
def openBlock (s : TokenStream) (column : Nat) (number : Option Nat) (kind : TokenKind) (m : Mark) :
    TokenStream :=
  if s.flowLevel = 0 && s.indent < (column : Int) then
    let t : Token := ⟨kind, m, m⟩
    { s with
      indent := column, outerIndents := s.indent :: s.outerIndents
      queue :=
        match number with | some n => insertAt t (n - s.taken) s.queue | none => s.queue ++ [t] }
  else s

/-- Close the block collections that are further in than the column. -/
def closeBlocks (column : Int) : List Int → TokenStream → TokenStream
  | [], s => s
  | outer :: rest, s =>
    if s.flowLevel = 0 && s.indent > column then
      closeBlocks column rest
        { s.push ⟨.blockEnd, s.mark, s.mark⟩ with indent := outer, outerIndents := rest }
    else s

def unroll (s : TokenStream) (column : Int) : TokenStream := closeBlocks column s.outerIndents s

/-- A token of `width` characters at the cursor. -/
def take (s : TokenStream) (kind : TokenKind) (width : Nat) : TokenStream :=
  let c := s.cursor.skipMany width
  { s.push ⟨kind, s.mark, c.mark⟩ with cursor := c }

/-- Past blanks, comments and line breaks. -/
def toNextToken : Nat → TokenStream → TokenStream
  | 0, s => s
  | fuel + 1, s =>
    let c := s.cursor
    let c := if c.mark.index = 0 && c.isAt '\ufeff' then c.skip else c
    let c := c.skipWhile fun x => x = ' ' || ((s.flowLevel > 0 || !s.keyAllowed) && x = '\t')
    let c := if c.isAt '#' then c.skipWhile fun x => !isBreak x else c
    match c.peek with
    | some x =>
      if isBreak x then
        toNextToken fuel
          { s with cursor := c.takeBreak.2, keyAllowed := s.keyAllowed || s.flowLevel = 0 }
      else { s with cursor := c }
    | none => { s with cursor := c }

def digitsAt (start : Mark) (c : Cursor) : Except SyntaxError (Nat × Cursor) :=
  let (run, next) := c.takeWhile isDigit
  if run.isEmpty then c.fail .noVersionNumber ⟨.versionDirective, start⟩
  else if run.length > 9 then (c.skipMany 9).fail .longVersionNumber ⟨.versionDirective, start⟩
  else .ok (run.foldl (fun n x => 10 * n + (x.toNat - 48)) 0, next)

def tagHandle (inDirective : Bool) (start : Mark) (c : Cursor) :
    Except SyntaxError (List Char × Cursor) :=
  if !c.isAt '!' then c.fail .noTagMark ⟨if inDirective then .tagDirectiveStart else .tag, start⟩
  else
    let (word, c) := c.skip.takeWhile isWordChar
    if c.isAt '!' then .ok ('!' :: word ++ ['!'], c.skip)
    else if inDirective && !word.isEmpty then c.fail .noTagMark ⟨.tagDirectiveHandle, start⟩
    else .ok ('!' :: word, c)

def isUriChar (verbatim : Bool) (c : Char) : Bool :=
  isWordChar c || c ∈ [';', '/', '?', ':', '@', '&', '=', '+', '$', '.', '%', '!', '~', '*',
    '\'', '(', ')'] || (verbatim && (c = ',' || c = '[' || c = ']'))

/-- An octet written with `%`. -/
def escapedOctet (during : During) (c : Cursor) : Except SyntaxError Nat :=
  match c.peekAt 0, (c.peekAt 1).bind hexValue?, (c.peekAt 2).bind hexValue? with
  | some '%', some a, some b => .ok (16 * a + b)
  | _, _, _ => c.fail .noTagOctet during

/-- Octets that go on with a character whose leading bits are `n`. -/
def escapedTail (during : During) : Nat → Nat → Cursor → Except SyntaxError (Char × Cursor)
  | 0, n, c => .ok (Char.ofNat n, c)
  | count + 1, n, c => do
    let octet ← escapedOctet during c
    if octet / 64 ≠ 2 then c.fail .badTailOctet during
    else escapedTail during count (64 * n + octet % 64) (c.skipMany 3)

/-- The character of an escape in a tag, from its octets. -/
def escapedTagChar (during : During) (c : Cursor) : Except SyntaxError (Char × Cursor) := do
  let lead ← escapedOctet during c
  let next := c.skipMany 3
  if lead < 0x80 then .ok (Char.ofNat lead, next)
  else if lead / 32 = 6 then escapedTail during 1 (lead % 32) next
  else if lead / 16 = 14 then escapedTail during 2 (lead % 16) next
  else if lead / 8 = 30 then escapedTail during 3 (lead % 8) next
  else c.fail .badLeadOctet during

def uriChars (verbatim : Bool) (during : During) : Nat → List Char → Cursor →
    Except SyntaxError (List Char × Cursor)
  | 0, done, c => .ok (done.reverse, c)
  | fuel + 1, done, c =>
    match c.peek with
    | some x =>
      if x = '%' then do
        let (y, c) ← escapedTagChar during c
        uriChars verbatim during fuel (y :: done) c
      else if isUriChar verbatim x then uriChars verbatim during fuel (x :: done) c.skip
      else .ok (done.reverse, c)
    | none => .ok (done.reverse, c)

/-- The rest of a tag after the `head` that was read as a handle and is none. -/
def tagUri (verbatim : Bool) (during : During) (head : List Char) (c : Cursor) :
    Except SyntaxError (String × Cursor) := do
  let (run, next) ← uriChars verbatim during (c.rest.length + 1) [] c
  if head.isEmpty && run.isEmpty then c.fail .noTagUri during
  else .ok (String.ofList (head.drop 1 ++ run), next)

def endOfDirective (start : Mark) (c : Cursor) : Except SyntaxError Cursor :=
  let c := c.skipWhile isBlank
  let c := if c.isAt '#' then c.skipWhile fun x => !isBreak x else c
  if isBreakOrEnd c.peek then .ok c.takeBreak.2 else c.fail .noCommentOrBreak ⟨.directive, start⟩

/-- A directive from its `%` to past its line. -/
def directive (c : Cursor) : Except SyntaxError (TokenKind × Mark × Cursor) := do
  let start := c.mark
  let (name, c) := c.skip.takeWhile isWordChar
  if name.isEmpty then c.fail .noDirectiveName ⟨.directive, start⟩
  else if !isBlankOrEnd c.peek then c.fail .badDirectiveName ⟨.directive, start⟩
  else if name = "YAML".toList then
    let (major, c) ← digitsAt start (c.skipWhile isBlank)
    if !c.isAt '.' then c.fail .noVersionPoint ⟨.versionDirective, start⟩
    else
      let (minor, c) ← digitsAt start c.skip
      .ok (.versionDirective major minor, c.mark, ← endOfDirective start c)
  else if name = "TAG".toList then
    let (handle, c) ← tagHandle true start (c.skipWhile isBlank)
    match c.peek with
    | some x =>
      if !isBlank x then c.fail .noSpace ⟨.tagDirective, start⟩
      else
        let (lead, c) ← tagUri true ⟨.tagDirectiveUri, start⟩ [] (c.skipWhile isBlank)
        if !isBlankOrEnd c.peek then c.fail .noSpaceOrBreak ⟨.tagDirective, start⟩
        else .ok (.tagDirective (String.ofList handle) lead, c.mark, ← endOfDirective start c)
    | none => c.fail .noSpace ⟨.tagDirective, start⟩
  else c.fail .unknownDirective ⟨.directive, start⟩

/-- The name after `&` or `*`. -/
def anchorName (activity : Activity) (c : Cursor) : Except SyntaxError (String × Cursor) :=
  let start := c.mark
  let (name, c) := c.skip.takeWhile isWordChar
  let ended := match c.peek with
    | some x => isBlank x || isBreak x || x ∈ ['?', ':', ',', ']', '}', '%', '@', '\x60']
    | none => true
  if name.isEmpty || !ended then c.fail .badAnchorName ⟨activity, start⟩
    else .ok (String.ofList name, c)

/-- A tag from its `!`, as handle and suffix. -/
def tag (inFlow : Bool) (c : Cursor) : Except SyntaxError (TokenKind × Cursor) := do
  let start := c.mark
  let uri : During := ⟨.tagUri, start⟩
  let (kind, c) ←
    if c.peekAt 1 = some '<' then do
      let (suffix, c) ← tagUri true uri [] (c.skipMany 2)
      if c.isAt '>' then .ok (TokenKind.tag "" suffix, c.skip) else c.fail .noTagClose ⟨.tag, start⟩
    else do
      let (handle, c) ← tagHandle false start c
      if handle.length > 1 && handle.getLast? = some '!' then
        let (suffix, c) ← tagUri false uri [] c
        .ok (TokenKind.tag (String.ofList handle) suffix, c)
      else
        let (suffix, c) ← tagUri false uri handle c
        .ok (if suffix = "" then TokenKind.tag "" "!" else TokenKind.tag "!" suffix, c)
  if isBlankOrEnd c.peek || (inFlow && c.isAt ',') then .ok (kind, c)
    else c.fail .noSpaceOrBreak ⟨.tag, start⟩

/-- The end of the text, on a line of its own. -/
def fetchEnd (s : TokenStream) : Step := do
  let c := s.cursor
  let c := if c.mark.column = 0 then c else { c with mark := ⟨c.mark.index, c.mark.line + 1, 0⟩ }
  let s ← (({ s with cursor := c }).unroll (-1)).dropKey
  .ok ({ s with keyAllowed := false }.push ⟨.streamEnd, s.mark, s.mark⟩)

def fetchDirective (s : TokenStream) : Step := do
  let s ← (s.unroll (-1)).dropKey
  let (kind, stop, c) ← directive s.cursor
  .ok { s.push ⟨kind, s.mark, stop⟩ with cursor := c, keyAllowed := false }

def fetchDocumentMarker (s : TokenStream) (kind : TokenKind) : Step := do
  let s ← (s.unroll (-1)).dropKey
  .ok ({ s with keyAllowed := false }.take kind 3)

def fetchFlowStart (s : TokenStream) (kind : TokenKind) : Step := do
  let s ← s.saveKey
  let s := { s with keys := .none :: s.keys, flowLevel := s.flowLevel + 1, keyAllowed := true }
  .ok (s.take kind 1)

def fetchFlowEnd (s : TokenStream) (kind : TokenKind) : Step := do
  let s ← s.dropKey
  let s :=
    if s.flowLevel > 0 then { s with flowLevel := s.flowLevel - 1, keys := s.keys.drop 1 } else s
  .ok ({ s with keyAllowed := false }.take kind 1)

def fetchFlowEntry (s : TokenStream) : Step := do
  let s ← s.dropKey
  .ok ({ s with keyAllowed := true }.take .flowEntry 1)

def fetchBlockEntry (s : TokenStream) : Step := do
  if s.flowLevel = 0 && !s.keyAllowed then s.fail .entryNotAllowed none
  else
    let s ← (s.openBlock s.mark.column none .blockSequenceStart s.mark).dropKey
    .ok ({ s with keyAllowed := true }.take .blockEntry 1)

def fetchKey (s : TokenStream) : Step := do
  if s.flowLevel = 0 && !s.keyAllowed then s.fail .keyNotAllowed none
  else
    let s ← (s.openBlock s.mark.column none .blockMappingStart s.mark).dropKey
    .ok ({ s with keyAllowed := s.flowLevel = 0 }.take .key 1)

def fetchValue (s : TokenStream) : Step :=
  let k := s.topKey
  if k.possible then
    let s := { s with queue := insertAt ⟨.key, k.mark, k.mark⟩ (k.tokenNumber - s.taken) s.queue }
    let s := s.openBlock k.mark.column (some k.tokenNumber) .blockMappingStart k.mark
    .ok ({ s.setTopKey { k with possible := false } with keyAllowed := false }.take .value 1)
  else if s.flowLevel = 0 && !s.keyAllowed then s.fail .valueNotAllowed none
  else
    let s := s.openBlock s.mark.column none .blockMappingStart s.mark
    .ok ({ s with keyAllowed := s.flowLevel = 0 }.take .value 1)

/-- A token whose text was read up to a cursor. -/
def pushText (s : TokenStream) (kind : TokenKind) (c : Cursor) : TokenStream :=
  { s.push ⟨kind, s.mark, c.mark⟩ with cursor := c }

def fetchAnchor (s : TokenStream) (activity : Activity) (kind : String → TokenKind) : Step := do
  let s ← s.saveKey
  let (name, c) ← anchorName activity s.cursor
  .ok ({ s with keyAllowed := false }.pushText (kind name) c)

def fetchTag (s : TokenStream) : Step := do
  let s ← s.saveKey
  let (kind, c) ← tag (s.flowLevel > 0) s.cursor
  .ok ({ s with keyAllowed := false }.pushText kind c)

def fetchBlockScalar (s : TokenStream) (literal : Bool) : Step := do
  let s ← s.dropKey
  let (text, c) ← blockScalar literal s.indent s.cursor
  .ok ({ s with keyAllowed := true }.pushText
    (.scalar text (if literal then .literal else .folded)) c)

def fetchQuoted (s : TokenStream) (single : Bool) : Step := do
  let s ← s.saveKey
  let (text, c) ← quotedScalar single s.cursor
  .ok ({ s with keyAllowed := false }.pushText
    (.scalar text (if single then .singleQuoted else .doubleQuoted)) c)

def fetchPlain (s : TokenStream) : Step := do
  let s ← s.saveKey
  let (text, broken, c) ← plainScalar (s.flowLevel > 0) (s.indent + 1) s.cursor
  .ok ({ s with keyAllowed := broken }.pushText (.scalar text .plain) c)

/-- Characters that start no plain scalar. -/
def isIndicator (c : Char) : Bool :=
  c ∈ ['-', '?', ':', ',', '[', ']', '{', '}', '#', '&', '*', '!', '|', '>', '\'', '"',
    '%', '@', '\x60']

def startsPlain (s : TokenStream) (x : Char) : Bool :=
  !(isBlank x || isBreak x || isIndicator x) ||
    (x = '-' && !(match s.cursor.peekAt 1 with | some y => isBlank y | none => false)) ||
    (s.flowLevel = 0 && (x = '?' || x = ':') && !isBlankOrEnd (s.cursor.peekAt 1))

/-- The next token goes to the end of the queue. -/
def fetch (s : TokenStream) : Step :=
  if !s.started then
    .ok ({ s with started := true, keyAllowed := true, keys := [.none] }.push ⟨.streamStart,
      s.mark, s.mark⟩)
  else do
    let s ← (s.toNextToken (s.cursor.rest.length + 1)).dropStaleKeys
    let s := s.unroll s.mark.column
    let c := s.cursor
    let inFlow := s.flowLevel > 0
    let ends := isBlankOrEnd (c.peekAt 1)
    match c.peek with
    | none => s.fetchEnd
    | some x =>
      if c.mark.column = 0 && x = '%' then s.fetchDirective
      else if c.atMarker '-' then s.fetchDocumentMarker .documentStart
      else if c.atMarker '.' then s.fetchDocumentMarker .documentEnd
      else if x = '[' then s.fetchFlowStart .flowSequenceStart
      else if x = '\x7b' then s.fetchFlowStart .flowMappingStart
      else if x = ']' then s.fetchFlowEnd .flowSequenceEnd
      else if x = '\x7d' then s.fetchFlowEnd .flowMappingEnd
      else if x = ',' then s.fetchFlowEntry
      else if x = '-' && ends then s.fetchBlockEntry
      else if x = '?' && (inFlow || ends) then s.fetchKey
      else if x = ':' && (inFlow || ends) then s.fetchValue
      else if x = '*' then s.fetchAnchor .aliasTo .aliasTo
      else if x = '&' then s.fetchAnchor .anchor .anchor
      else if x = '!' then s.fetchTag
      else if x = '|' && !inFlow then s.fetchBlockScalar true
      else if x = '>' && !inFlow then s.fetchBlockScalar false
      else if x = '\'' then s.fetchQuoted true
      else if x = '"' then s.fetchQuoted false
      else if s.startsPlain x then s.fetchPlain
      else s.fail .noToken (some ⟨.nextToken, s.mark⟩)

/-- Fetch until the first token of the queue can no longer become a key. -/
def fill : Nat → TokenStream → Step
  | 0, s => s.fail .noToken none
  | fuel + 1, s =>
    if s.queue.isEmpty then do fill fuel (← s.fetch)
    else do
      let s ← s.dropStaleKeys
      if s.keys.any fun k => k.possible && k.tokenNumber = s.taken then fill fuel (← s.fetch)
      else .ok s

/-- The next token, left in the queue. -/
def peek (s : TokenStream) : Except SyntaxError (Token × TokenStream) := do
  let s ← fill (s.cursor.rest.length + 4) s
  match s.queue with
  | t :: _ => .ok (t, s)
  | [] => s.fail .noToken none

/-- Past the next token. -/
def skip (s : TokenStream) : TokenStream := { s with queue := s.queue.drop 1, taken := s.taken + 1 }

end TokenStream
end Yaml
end ModelTemplates
