import ModelTemplates.Yaml.TokenStream
/-! The events of a text: the grammar of documents, nodes and collections, read from its tokens. -/
namespace ModelTemplates
namespace Yaml

inductive EventKind where
  | streamStart
  | streamEnd
  | documentStart
  | documentEnd
  | aliasTo (name : String)
  | scalar (anchor tag : Option String) (text : String) (style : ScalarStyle)
  | sequenceStart (anchor tag : Option String)
  | sequenceEnd
  | mappingStart (anchor tag : Option String)
  | mappingEnd
deriving DecidableEq, Inhabited

structure Event where
  kind : EventKind
  mark : Mark
deriving DecidableEq, Inhabited

/-- What comes next in a text. -/
inductive Expectation where
  | streamStart
  | documentStart (implicit : Bool)
  | documentContent
  | documentEnd
  | blockNode
  /-- After the first entry, with where the collection was opened. -/
  | blockSequenceEntry (opened : Option Mark)
  | indentlessSequenceEntry
  | blockMappingKey (opened : Option Mark)
  | blockMappingValue (opened : Mark)
  | flowSequenceEntry (opened : Option Mark)
  | flowSequencePairKey (opened : Mark)
  | flowSequencePairValue (opened : Mark)
  | flowSequencePairEnd (opened : Mark)
  | flowMappingKey (opened : Option Mark)
  | flowMappingValue (opened : Mark) (empty : Bool)
  | done
deriving DecidableEq, Inhabited

structure Grammar where
  tokens : TokenStream
  next : Expectation
  /-- What comes after the node being read, the innermost first. -/
  after : List Expectation
  /-- Handles of tags, with what they stand for. -/
  handles : List (String × String)
deriving Inhabited

namespace Grammar

abbrev Result := Except SyntaxError (Event × Grammar)

def ofText (s : String) : Grammar := ⟨.ofText s, .streamStart, [], []⟩

def peek (g : Grammar) : Except SyntaxError (Token × Grammar) := do
  let (t, s) ← g.tokens.peek
  .ok (t, { g with tokens := s })

def skip (g : Grammar) : Grammar := { g with tokens := g.tokens.skip }

/-- Past a token, to the one after it. -/
def advance (g : Grammar) : Except SyntaxError (Token × Grammar) := g.skip.peek

/-- Back to what follows the node. -/
def pop (g : Grammar) : Grammar :=
  match g.after with
  | e :: es => { g with next := e, after := es }
  | [] => { g with next := .done }

def push (g : Grammar) (e : Expectation) : Grammar := { g with after := e :: g.after }

def expect (g : Grammar) (e : Expectation) : Grammar := { g with next := e }

def emit (g : Grammar) (kind : EventKind) (mark : Mark) : Result := .ok (⟨kind, mark⟩, g)

def refuse {α : Type} (t : Token) (what : Breach) (during : Option During) : Except SyntaxError α :=
  .error (.breach what t.start during)

/-- A node that is not there. -/
def emptyScalar (g : Grammar) (mark : Mark) (next : Expectation) : Result :=
  (g.expect next).emit (.scalar none none "" .plain) mark

/-- Anchor and tag of a node, in either order, with the marks of the first of them and of the
tag. -/
structure Properties where
  anchor : Option String
  tag : Option (String × String × Mark)
  start : Option Mark

def properties (g : Grammar) : Except SyntaxError (Properties × Token × Grammar) := do
  let (t, g) ← g.peek
  match t.kind with
  | .anchor name =>
    let (u, g) ← g.advance
    match u.kind with
    | .tag handle suffix =>
      let (v, g) ← g.advance
      .ok (⟨some name, some (handle, suffix, u.start), some t.start⟩, v, g)
    | _ => .ok (⟨some name, none, some t.start⟩, u, g)
  | .tag handle suffix =>
    let (u, g) ← g.advance
    match u.kind with
    | .anchor name =>
      let (v, g) ← g.advance
      .ok (⟨some name, some (handle, suffix, t.start), some t.start⟩, v, g)
    | _ => .ok (⟨none, some (handle, suffix, t.start), some t.start⟩, u, g)
  | _ => .ok (⟨none, none, none⟩, t, g)

/-- The whole tag of a handle and a suffix. -/
def resolveTag (g : Grammar) (start : Mark) :
    Option (String × String × Mark) → Except SyntaxError (Option String)
  | none => .ok none
  | some ("", suffix, _) => .ok (some suffix)
  | some (handle, suffix, mark) =>
    match g.handles.lookup handle with
    | some lead => .ok (some (lead ++ suffix))
    | none => .error (.breach .unknownHandle mark (some ⟨.node, start⟩))

/-- A node. `indentless` allows a sequence at the indent of its key. -/
def node (g : Grammar) (block indentless : Bool) : Result := do
  let (t, g) ← g.peek
  match t.kind with
  | .aliasTo name => g.pop.skip.emit (.aliasTo name) t.start
  | _ =>
    let (p, t, g) ← g.properties
    let start := p.start.getD t.start
    let tag ← g.resolveTag start p.tag
    match t.kind with
    | .blockEntry =>
      if indentless then
        (g.expect .indentlessSequenceEntry).emit (.sequenceStart p.anchor tag) start
      else bare g p tag start t
    | .scalar text style =>
      -- The tag `!` leaves a scalar as it is written.
      let tag := if tag = some "!" then none else tag
      g.pop.skip.emit (.scalar p.anchor tag text style) start
    | .flowSequenceStart =>
      (g.expect (.flowSequenceEntry none)).emit (.sequenceStart p.anchor tag) start
    | .flowMappingStart => (g.expect (.flowMappingKey none)).emit (.mappingStart p.anchor tag) start
    | .blockSequenceStart =>
      if block then (g.expect (.blockSequenceEntry none)).emit (.sequenceStart p.anchor tag) start
      else bare g p tag start t
    | .blockMappingStart =>
      if block then (g.expect (.blockMappingKey none)).emit (.mappingStart p.anchor tag) start
      else bare g p tag start t
    | _ => bare g p tag start t
where
  /-- An anchor or a tag alone makes an empty scalar. -/
  bare (g : Grammar) (p : Properties) (tag : Option String) (start : Mark) (t : Token) : Result :=
    if p.anchor.isSome || tag.isSome then g.pop.emit (.scalar p.anchor tag "" .plain) start
    else refuse t .noNode (some ⟨if block then .blockNode else .flowNode, start⟩)

/-- The standard handles, unless a directive set them. -/
def standardHandles : List (String × String) := [("!", "!"), ("!!", "tag:yaml.org,2002:")]

/-- Directives before a document. -/
def directives : Nat → Bool → List (String × String) → Grammar →
    Except SyntaxError (Grammar × Token)
  | 0, _, _, g => g.tokens.fail .noToken none
  | fuel + 1, versioned, handles, g => do
    let (t, g) ← g.peek
    match t.kind with
    | .versionDirective major minor =>
      if versioned then refuse t .secondVersion none
      else if major ≠ 1 || !(minor = 1 || minor = 2) then refuse t .wrongVersion none
      else directives fuel true handles g.skip
    | .tagDirective handle lead =>
      if (handles.lookup handle).isSome then refuse t .secondHandle none
      else directives fuel versioned (handles ++ [(handle, lead)]) g.skip
    | _ => .ok ({ g with handles := handles ++ standardHandles }, t)

/-- Past markers of the end of a document. -/
def skipDocumentEnds : Nat → Grammar → Except SyntaxError (Token × Grammar)
  | 0, g => g.tokens.fail .noToken none
  | fuel + 1, g => do
    let (t, g) ← g.peek
    if t.kind = .documentEnd then skipDocumentEnds fuel g.skip else .ok (t, g)

def isDirective : TokenKind → Bool
  | .versionDirective _ _ => true
  | .tagDirective _ _ => true
  | _ => false

def documentStart (g : Grammar) (implicit : Bool) : Result := do
  let fuel := g.tokens.cursor.rest.length + g.tokens.queue.length + 4
  let (t, g) ← if implicit then g.peek else skipDocumentEnds fuel g
  if implicit && !isDirective t.kind && t.kind ≠ .documentStart && t.kind ≠ .streamEnd then
    ({ g with handles := standardHandles }.push .documentEnd |>.expect .blockNode).emit
      .documentStart t.start
  else if t.kind ≠ .streamEnd then
    let (g, u) ← directives fuel false [] g
    if u.kind ≠ .documentStart then refuse u .noDocumentStart none
    else ((g.push .documentEnd).expect .documentContent).skip.emit .documentStart t.start
  else (g.expect .done).skip.emit .streamEnd t.start

def documentContent (g : Grammar) : Result := do
  let (t, g) ← g.peek
  if isDirective t.kind || t.kind = .documentStart || t.kind = .documentEnd ||
    t.kind = .streamEnd then
    g.pop.emit (.scalar none none "" .plain) t.start
  else g.node true false

def documentEnd (g : Grammar) : Result := do
  let (t, g) ← g.peek
  let g := if t.kind = .documentEnd then g.skip else g
  ({ g with handles := [] }.expect (.documentStart false)).emit .documentEnd t.start

/-- The token to go on with, past the one that opens a collection, and where the collection was
opened. -/
def enter (g : Grammar) (opened : Option Mark) : Except SyntaxError (Token × Mark × Grammar) := do
  let (t, g) ← g.peek
  match opened with
  | some m => .ok (t, m, g)
  | none =>
    let (u, g) ← g.advance
    .ok (u, t.start, g)

def blockSequenceEntry (g : Grammar) (opened : Option Mark) : Result := do
  let (t, m, g) ← g.enter opened
  match t.kind with
  | .blockEntry =>
    let (u, g) ← g.advance
    if u.kind = .blockEntry || u.kind = .blockEnd then
      g.emptyScalar t.stop (.blockSequenceEntry (some m))
    else (g.push (.blockSequenceEntry (some m))).node true false
  | .blockEnd => g.pop.skip.emit .sequenceEnd t.start
  | _ => refuse t .noEntry (some ⟨.blockSequence, m⟩)

def indentlessSequenceEntry (g : Grammar) : Result := do
  let (t, g) ← g.peek
  match t.kind with
  | .blockEntry =>
    let (u, g) ← g.advance
    if u.kind = .blockEntry || u.kind = .key || u.kind = .value || u.kind = .blockEnd then
      g.emptyScalar t.stop .indentlessSequenceEntry
    else (g.push .indentlessSequenceEntry).node true false
  | _ => g.pop.emit .sequenceEnd t.start

def endsEntry (k : TokenKind) : Bool := k = .key || k = .value || k = .blockEnd

def blockMappingKey (g : Grammar) (opened : Option Mark) : Result := do
  let (t, m, g) ← g.enter opened
  match t.kind with
  | .key =>
    let (u, g) ← g.advance
    if endsEntry u.kind then g.emptyScalar t.stop (.blockMappingValue m)
    else (g.push (.blockMappingValue m)).node true true
  | .blockEnd => g.pop.skip.emit .mappingEnd t.start
  | _ => refuse t .noKey (some ⟨.blockMapping, m⟩)

def blockMappingValue (g : Grammar) (m : Mark) : Result := do
  let (t, g) ← g.peek
  match t.kind with
  | .value =>
    let (u, g) ← g.advance
    if endsEntry u.kind then g.emptyScalar t.stop (.blockMappingKey (some m))
    else (g.push (.blockMappingKey (some m))).node true true
  | _ => g.emptyScalar t.start (.blockMappingKey (some m))

/-- Past the comma between two entries of a flow collection. -/
def separated (g : Grammar) (t : Token) (first : Bool) (what : Breach) (during : During) :
    Except SyntaxError (Token × Grammar) :=
  if first then .ok (t, g)
  else if t.kind = .flowEntry then g.advance
  else refuse t what (some during)

def flowSequenceEntry (g : Grammar) (opened : Option Mark) : Result := do
  let (t, m, g) ← g.enter opened
  if t.kind = .flowSequenceEnd then g.pop.skip.emit .sequenceEnd t.start
  else
    let (t, g) ← g.separated t opened.isNone .noCommaOrBracket ⟨.flowSequence, m⟩
    if t.kind = .key then
      (g.expect (.flowSequencePairKey m)).skip.emit (.mappingStart none none) t.start
    else if t.kind = .flowSequenceEnd then g.pop.skip.emit .sequenceEnd t.start
    else (g.push (.flowSequenceEntry (some m))).node false false

def flowSequencePairKey (g : Grammar) (m : Mark) : Result := do
  let (t, g) ← g.peek
  if t.kind = .value || t.kind = .flowEntry || t.kind = .flowSequenceEnd then
    g.skip.emptyScalar t.stop (.flowSequencePairValue m)
  else (g.push (.flowSequencePairValue m)).node false false

def flowSequencePairValue (g : Grammar) (m : Mark) : Result := do
  let (t, g) ← g.peek
  if t.kind = .value then
    let (u, g) ← g.advance
    if u.kind = .flowEntry || u.kind = .flowSequenceEnd then
      g.emptyScalar u.start (.flowSequencePairEnd m)
    else (g.push (.flowSequencePairEnd m)).node false false
  else g.emptyScalar t.start (.flowSequencePairEnd m)

def flowSequencePairEnd (g : Grammar) (m : Mark) : Result := do
  let (t, g) ← g.peek
  (g.expect (.flowSequenceEntry (some m))).emit .mappingEnd t.start

def flowMappingKey (g : Grammar) (opened : Option Mark) : Result := do
  let (t, m, g) ← g.enter opened
  if t.kind = .flowMappingEnd then g.pop.skip.emit .mappingEnd t.start
  else
    let (t, g) ← g.separated t opened.isNone .noCommaOrBrace ⟨.flowMapping, m⟩
    if t.kind = .key then
      let (u, g) ← g.advance
      if u.kind = .value || u.kind = .flowEntry || u.kind = .flowMappingEnd then
        g.emptyScalar u.start (.flowMappingValue m false)
      else (g.push (.flowMappingValue m false)).node false false
    else if t.kind = .flowMappingEnd then g.pop.skip.emit .mappingEnd t.start
    else (g.push (.flowMappingValue m true)).node false false

def flowMappingValue (g : Grammar) (m : Mark) (empty : Bool) : Result := do
  let (t, g) ← g.peek
  if !empty && t.kind = .value then
    let (u, g) ← g.advance
    if u.kind = .flowEntry || u.kind = .flowMappingEnd then
      g.emptyScalar u.start (.flowMappingKey (some m))
    else (g.push (.flowMappingKey (some m))).node false false
  else g.emptyScalar t.start (.flowMappingKey (some m))

/-- The next event. -/
def step (g : Grammar) : Result :=
  match g.next with
  | .streamStart => do
    let (t, g) ← g.peek
    (g.expect (.documentStart true)).skip.emit .streamStart t.start
  | .documentStart implicit => g.documentStart implicit
  | .documentContent => g.documentContent
  | .documentEnd => g.documentEnd
  | .blockNode => g.node true false
  | .blockSequenceEntry opened => g.blockSequenceEntry opened
  | .indentlessSequenceEntry => g.indentlessSequenceEntry
  | .blockMappingKey opened => g.blockMappingKey opened
  | .blockMappingValue m => g.blockMappingValue m
  | .flowSequenceEntry opened => g.flowSequenceEntry opened
  | .flowSequencePairKey m => g.flowSequencePairKey m
  | .flowSequencePairValue m => g.flowSequencePairValue m
  | .flowSequencePairEnd m => g.flowSequencePairEnd m
  | .flowMappingKey opened => g.flowMappingKey opened
  | .flowMappingValue m empty => g.flowMappingValue m empty
  | .done => g.tokens.fail .noToken none

/-- All events up to the end of the text or the first breach of its rules. -/
def run : Nat → Grammar → List Event → List Event × Option SyntaxError
  | 0, g, done => (done.reverse, some (.breach .noToken g.tokens.mark none))
  | fuel + 1, g, done =>
    match g.step with
    | .error e => (done.reverse, some e)
    | .ok (e, g) => if g.next = .done then ((e :: done).reverse, none) else run fuel g (e :: done)

end Grammar

/-- The events of a text, and the fault that ended them. -/
def events (s : String) : List Event × Option SyntaxError :=
  let allowed := s.toList.takeWhile isAllowed
  if allowed.length < s.length then
    ([], some (.forbiddenCharacter (allowed.foldl (fun n c => n + c.utf8Size) 0)))
  else Grammar.run (8 * s.length + 64) (.ofText s) []

end Yaml
end ModelTemplates
