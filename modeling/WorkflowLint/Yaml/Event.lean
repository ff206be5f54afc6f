import WorkflowLint.Yaml.Token.Stream

/-! The events of a document: its scalars and aliases, and where its collections start and end. They
are found by a machine whose stack holds what is expected next, innermost first.
-/

namespace WorkflowLint.Yaml

/-- The anchor and the tag in front of a node. -/
structure Properties where
  anchor : Option (List Char)
  tag : Option TagText
  deriving DecidableEq

def Properties.none : Properties := ⟨.none, .none⟩

inductive Event where
  | alias (name : List Char)
  | scalar (properties : Properties) (text : List Char) (plain : Bool)
  | sequenceStart (properties : Properties)
  | sequenceEnd
  | mappingStart (properties : Properties)
  | mappingEnd
  deriving DecidableEq

/-- What is expected next. Collections carry the place where they start, for faults. -/
inductive Expectation where
  /-- The node of a document that starts without a mark, or with one. -/
  | bareNode
  | markedNode
  | blockItem (start : Mark)
  | looseItem
  | blockKey (start : Mark)
  | blockValue (start : Mark)
  | flowItem (start : Mark) (first : Bool)
  | pairKey
  | pairValue
  | pairEnd
  | flowKey (start : Mark) (first : Bool)
  | flowValue (start : Mark)
  | flowMissingValue (start : Mark)
  deriving DecidableEq

/-- The tokens to come, the fault behind them, the tag handles in force, and the stack. -/
structure Machine where
  tokens : List Token
  failure : Option SyntaxError
  handles : List (TagText × TagText)
  stack : List Expectation

namespace Machine

/-- The next token; after the last one, the fault or the end of the stream. -/
def peek (m : Machine) : Except SyntaxError Token :=
  match m.tokens, m.failure with
  | t :: _, _ => .ok t
  | [], some e => .error e
  | [], none => .ok ⟨.streamEnd, .origin, .origin⟩

def advance (m : Machine) : Machine :=
  { m with tokens := m.tokens.drop 1 }

def goto (m : Machine) (stack : List Expectation) : Machine :=
  { m with stack }

/-- An event, the place where its node starts, and the machine after it. -/
abbrev Emission := Except SyntaxError (Event × Mark × Machine)

def emptyScalar (m : Machine) (mark : Mark) : Emission :=
  .ok (.scalar .none [] true, mark, m)

def fail (t : Token) (problem : Problem) (activity : Activity) (start : Mark) : Emission :=
  .error (.fault problem t.start (some (activity, start)))

/-- What may stand before a node: an anchor, and a tag as its handle and suffix with its place. -/
structure Prelude where
  anchor : Option (List Char)
  tag : Option (TagText × TagText × Mark)
  start : Mark

/-- Reads an anchor and a tag in either order. -/
def readPrelude (m : Machine) : Except SyntaxError (Prelude × Machine) := do
  let t ← m.peek
  match t.kind with
  | .anchor name =>
      let m := m.advance
      let u ← m.peek
      match u.kind with
      | .tag handle suffix => .ok (⟨some name, some (handle, suffix, u.start), t.start⟩, m.advance)
      | _ => .ok (⟨some name, none, t.start⟩, m)
  | .tag handle suffix =>
      let m := m.advance
      let u ← m.peek
      match u.kind with
      | .anchor name => .ok (⟨some name, some (handle, suffix, t.start), t.start⟩, m.advance)
      | _ => .ok (⟨none, some (handle, suffix, t.start), t.start⟩, m)
  | _ => .ok (⟨none, none, t.start⟩, m)

/-- The full tag; its handle has to be in force. -/
def resolveTag (m : Machine) (start : Mark)
    : Option (TagText × TagText × Mark) → Except SyntaxError (Option TagText)
  | none => .ok none
  | some (handle, suffix, mark) =>
      if handle.isEmpty then .ok (some suffix)
      else
        match m.handles.lookup handle with
        | some address => .ok (some (address ++ suffix))
        | none => .error (.fault .tagHandleUndefined mark (some (.node, start)))

/-- Reads a node. In a block it may be a block collection, and where `loose` also a sequence that is
not indented. The stack is what is expected after it. -/
def node (m : Machine) (block loose : Bool) : Emission := do
  let t ← m.peek
  match t.kind with
  | .alias name => .ok (.alias name, t.start, m.advance)
  | _ => do
      let (before, m) ← m.readPrelude
      let tag ← m.resolveTag before.start before.tag
      let start := before.start
      let properties : Properties := ⟨before.anchor, tag⟩
      let t ← m.peek
      let enter (event : Event) (inner : Expectation) : Emission :=
        .ok (event, start, m.advance.goto (inner :: m.stack))
      match t.kind, block with
      | .scalar text plain, _ =>
          .ok (.scalar properties text plain, start, m.advance)
      | .flowSequenceStart, _ => enter (.sequenceStart properties) (.flowItem t.start true)
      | .flowMappingStart, _ => enter (.mappingStart properties) (.flowKey t.start true)
      | .blockSequenceStart, true => enter (.sequenceStart properties) (.blockItem t.start)
      | .blockMappingStart, true => enter (.mappingStart properties) (.blockKey t.start)
      | kind, _ =>
          if loose && kind = .blockEntry then
            .ok (.sequenceStart properties, start, m.goto (.looseItem :: m.stack))
          else if before.anchor.isSome || tag.isSome then
            .ok (.scalar properties [] true, start, m)
          else fail t .nodeExpected (if block then .blockNode else .flowNode) start

/-- Reads a node unless the next token is one of those that leave it out. -/
def nodeUnless (m : Machine) (left : List Token.Kind) (block loose : Bool) (mark : Mark)
    : Emission := do
  let t ← m.peek
  if t.kind ∈ left then m.emptyScalar mark else m.node block loose

/-- The same where an empty node stands at the token that leaves it out. -/
def nodeUnlessHere (m : Machine) (left : List Token.Kind) : Emission := do
  let t ← m.peek
  m.nodeUnless left false false t.start

/-- Reads an item of a block sequence that starts at a mark, or its end. -/
def blockItem (m : Machine) (start : Mark) (below : List Expectation) : Emission := do
  let t ← m.peek
  match t.kind with
  | .blockEntry =>
      (m.advance.goto (.blockItem start :: below)).nodeUnless [.blockEntry, .blockEnd] true false
        t.finish
  | .blockEnd => .ok (.sequenceEnd, t.start, m.advance.goto below)
  | _ => fail t .dashExpected .blockSequence start

/-- Reads an item of a sequence that stands at the indentation of the mapping around it. -/
def looseItem (m : Machine) (below : List Expectation) : Emission := do
  let t ← m.peek
  match t.kind with
  | .blockEntry =>
      (m.advance.goto (.looseItem :: below)).nodeUnless [.blockEntry, .key, .value, .blockEnd]
        true false t.finish
  | _ => .ok (.sequenceEnd, t.start, m.goto below)

def blockKey (m : Machine) (start : Mark) (below : List Expectation) : Emission := do
  let t ← m.peek
  match t.kind with
  | .key =>
      (m.advance.goto (.blockValue start :: below)).nodeUnless [.key, .value, .blockEnd] true true
        t.finish
  | .blockEnd => .ok (.mappingEnd, t.start, m.advance.goto below)
  | _ => fail t .blockKeyExpected .blockMapping start

def blockValue (m : Machine) (start : Mark) (below : List Expectation) : Emission := do
  let t ← m.peek
  let m := m.goto (.blockKey start :: below)
  match t.kind with
  | .value => m.advance.nodeUnless [.key, .value, .blockEnd] true true t.finish
  | _ => m.emptyScalar t.start

/-- Moves over the comma that all but the first item or entry of a flow collection need. -/
def skipComma (m : Machine) (first : Bool) (closing : Token.Kind) (problem : Problem)
    (activity : Activity) (start : Mark)
    : Except SyntaxError Machine := do
  let t ← m.peek
  if first || t.kind = closing then .ok m
  else if t.kind = .flowEntry then .ok m.advance
  else .error (.fault problem t.start (some (activity, start)))

/-- Reads an item of a flow sequence, which may be a pair without braces. -/
def flowItem (m : Machine) (start : Mark) (first : Bool) (below : List Expectation) : Emission := do
  let m ← m.skipComma first .flowSequenceEnd .commaOrBracketExpected .flowSequence start
  let t ← m.peek
  let m := m.goto (.flowItem start false :: below)
  match t.kind with
  | .flowSequenceEnd => .ok (.sequenceEnd, t.start, m.advance.goto below)
  | .key => .ok (.mappingStart .none, t.start, m.advance.goto (.pairKey :: m.stack))
  | _ => m.node false false

/-- Reads the key of a pair. The token that leaves a key out is passed over. -/
def pairKey (m : Machine) (below : List Expectation) : Emission := do
  let t ← m.peek
  let m := m.goto (.pairValue :: below)
  if t.kind ∈ [Token.Kind.value, .flowEntry, .flowSequenceEnd] then
    m.advance.emptyScalar t.finish
  else m.node false false

def pairValue (m : Machine) (below : List Expectation) : Emission := do
  let t ← m.peek
  let m := m.goto (.pairEnd :: below)
  match t.kind with
  | .value => m.advance.nodeUnlessHere [.flowEntry, .flowSequenceEnd]
  | _ => m.emptyScalar t.start

def pairEnd (m : Machine) (below : List Expectation) : Emission := do
  let t ← m.peek
  .ok (.mappingEnd, t.start, m.goto below)

/-- Reads a key of a flow mapping; without the mark of a key it stands for an entry without a
value. -/
def flowKey (m : Machine) (start : Mark) (first : Bool) (below : List Expectation) : Emission := do
  let m ← m.skipComma first .flowMappingEnd .commaOrBraceExpected .flowMapping start
  let t ← m.peek
  match t.kind with
  | .flowMappingEnd => .ok (.mappingEnd, t.start, m.advance.goto below)
  | .key =>
      (m.advance.goto (.flowValue start :: below)).nodeUnlessHere
        [.value, .flowEntry, .flowMappingEnd]
  | _ => (m.goto (.flowMissingValue start :: below)).node false false

def flowValue (m : Machine) (start : Mark) (below : List Expectation) : Emission := do
  let t ← m.peek
  let m := m.goto (.flowKey start false :: below)
  match t.kind with
  | .value => m.advance.nodeUnlessHere [.flowEntry, .flowMappingEnd]
  | _ => m.emptyScalar t.start

def flowMissingValue (m : Machine) (start : Mark) (below : List Expectation) : Emission := do
  let t ← m.peek
  (m.goto (.flowKey start false :: below)).emptyScalar t.start

/-- Reads the node of a document that starts with a mark; it may be left out. -/
def markedNode (m : Machine) (below : List Expectation) : Emission := do
  let t ← m.peek
  let m := m.goto below
  match t.kind with
  | .version _ _ | .tagHandle _ _ | .documentStart | .documentEnd | .streamEnd =>
      m.emptyScalar t.start
  | _ => m.node true false

/-- One event, for what is on top of the stack. -/
def step (m : Machine) (top : Expectation) (below : List Expectation) : Emission :=
  match top with
  | .bareNode => (m.goto below).node true false
  | .markedNode => m.markedNode below
  | .blockItem start => m.blockItem start below
  | .looseItem => m.looseItem below
  | .blockKey start => m.blockKey start below
  | .blockValue start => m.blockValue start below
  | .flowItem start first => m.flowItem start first below
  | .pairKey => m.pairKey below
  | .pairValue => m.pairValue below
  | .pairEnd => m.pairEnd below
  | .flowKey start first => m.flowKey start first below
  | .flowValue start => m.flowValue start below
  | .flowMissingValue start => m.flowMissingValue start below

/-- The events until the stack is empty, or up to a fault. Every event takes a token or empties the
stack by one of at most three entries that a token brought. -/
def run : Nat → Machine → List (Event × Mark) × Except SyntaxError Machine
  | 0, m => ([], .ok m)
  | fuel + 1, m =>
      match m.stack with
      | [] => ([], .ok m)
      | top :: below =>
          match m.step top below with
          | .error e => ([], .error e)
          | .ok (event, mark, next) =>
              let (events, ending) := run fuel next
              ((event, mark) :: events, ending)

/-- Declares a tag handle once. -/
def declareHandle (m : Machine) (handle address : TagText) (mark : Mark)
    : Except SyntaxError Machine :=
  if (m.handles.lookup handle).isSome then .error (.fault .tagHandleRepeated mark none)
  else .ok { m with handles := (handle, address) :: m.handles }

/-- Reads directives; each counts as one token. The version may be given once, and has to be one of
the two that are known. -/
def readDirectives : Nat → Bool → Machine → Except SyntaxError Machine
  | 0, _, m => .ok m
  | fuel + 1, hasVersion, m => do
      let t ← m.peek
      match t.kind with
      | .version major minor =>
          if hasVersion then .error (.fault .versionRepeated t.start none)
          else if major = 1 ∧ (minor = 1 ∨ minor = 2) then readDirectives fuel true m.advance
          else .error (.fault .versionIncompatible t.start none)
      | .tagHandle handle address =>
          let m ← m.declareHandle handle address t.start
          readDirectives fuel hasVersion m.advance
      | _ => .ok m

/-- Handles that are always in force, unless a directive redefines them. -/
def defaultHandles : List (TagText × TagText) :=
  [
    (Tag.bytes ['!'], Tag.bytes ['!']),
    (Tag.bytes ['!', '!'], Tag.bytes "tag:yaml.org,2002:".toList)
  ]

/-- Starts the first document; `none` when the stream holds none. -/
def start? (m : Machine) : Except SyntaxError (Option Machine) := do
  let t ← m.peek
  match t.kind with
  | .streamEnd => .ok none
  | .version _ _ | .tagHandle _ _ | .documentStart => do
      let m ← m.readDirectives (m.tokens.length + 1) false
      let t ← m.peek
      if t.kind = .documentStart then
        .ok (some ({ m with handles := m.handles ++ defaultHandles }.advance.goto [.markedNode]))
      else .error (.fault .documentStartExpected t.start none)
  | _ => .ok (some ({ m with handles := defaultHandles }.goto [.bareNode]))

/-- Whether nothing follows a document but marks of its end. -/
def isOver (m : Machine) : Bool :=
  match (m.tokens.dropWhile (fun t => t.kind = .documentEnd)), m.failure with
  | t :: _, _ => t.kind = .streamEnd
  | [], failure => failure.isNone

end Machine

end WorkflowLint.Yaml
