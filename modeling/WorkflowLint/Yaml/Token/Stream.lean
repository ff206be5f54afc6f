import WorkflowLint.Yaml.Token.Block
import WorkflowLint.Yaml.Token.Directive
import WorkflowLint.Yaml.Token.Plain
import WorkflowLint.Yaml.Token.Quoted

/-! The token stream of a text. A key is recognised only by the colon after it, so the token that
may start one is remembered until the colon comes or it is too late, and tokens from it on are held
back.
-/

namespace WorkflowLint.Yaml

/-- A token that a colon would turn into a key: its number in the stream and where it starts. In a
block, one at the indentation has to turn into a key. -/
structure KeyCandidate where
  number : Nat
  mark : Mark
  required : Bool

structure Scanner where
  cursor : Cursor
  /-- The tokens so far, the last one first, and how many they are. -/
  tokens : List Token
  count : Nat
  /-- How many tokens have been handed out. -/
  delivered : Nat
  /-- The column of the innermost block, and those of the blocks around it. -/
  indent : Int
  outerIndents : List Int
  /-- The candidate of the innermost flow collection, or of the block outside all of them. -/
  candidate : Option KeyCandidate
  outerCandidates : List (Option KeyCandidate)
  keyAllowed : Bool
  ended : Bool

namespace Scanner

def ofText (text : List Char) : Scanner :=
  ⟨.ofText text, [], 0, 0, -1, [], none, [], true, false⟩

def inFlow (s : Scanner) : Bool :=
  !s.outerCandidates.isEmpty

def push (s : Scanner) (t : Token) : Scanner :=
  { s with tokens := t :: s.tokens, count := s.count + 1 }

/-- Puts a token in front of the one with a given number. -/
def insert (s : Scanner) (number : Nat) (t : Token) : Scanner :=
  let later := s.count - number
  { s with
    tokens := s.tokens.take later ++ t :: s.tokens.drop later
    count := s.count + 1 }

/-- Emits a token of some characters of the current line and moves over them. -/
def pushMark (s : Scanner) (kind : Token.Kind) (length : Nat) : Scanner :=
  let behind := s.cursor.skip length
  { s.push ⟨kind, s.cursor.mark, behind.mark⟩ with cursor := behind }

def fail (s : Scanner) (problem : Problem) : SyntaxError :=
  .fault problem s.cursor.mark none

def missingColon (s : Scanner) (k : KeyCandidate) : SyntaxError :=
  s.cursor.fault .colonExpected .simpleKey k.mark

/-- A key stays within one line and within 1024 characters. -/
def isStale (s : Scanner) (k : KeyCandidate) : Bool :=
  k.mark.line < s.cursor.mark.line || k.mark.index + 1024 < s.cursor.mark.index

def keepFresh (s : Scanner) : Option KeyCandidate → Except SyntaxError (Option KeyCandidate)
  | none => .ok none
  | some k =>
      if s.isStale k then (if k.required then .error (s.missingColon k) else .ok none)
      else .ok (some k)

/-- Forgets the candidates for which it is too late, the outermost first. -/
def dropStale (s : Scanner) : Except SyntaxError Scanner := do
  let outer ← s.outerCandidates.reverse.mapM s.keepFresh
  let inner ← s.keepFresh s.candidate
  .ok { s with candidate := inner, outerCandidates := outer.reverse }

/-- Gives up the innermost candidate. -/
def dropCandidate (s : Scanner) : Except SyntaxError Scanner :=
  match s.candidate with
  | some k => if k.required then .error (s.missingColon k) else .ok { s with candidate := none }
  | none => .ok s

/-- Remembers the coming token as a candidate where a key may stand. -/
def saveCandidate (s : Scanner) : Except SyntaxError Scanner :=
  if s.keyAllowed then do
    let required := !s.inFlow && s.indent = s.cursor.mark.column
    let s ← s.dropCandidate
    .ok { s with candidate := some ⟨s.count, s.cursor.mark, required⟩ }
  else .ok s

/-- Opens a block at a column that is deeper than the current one. -/
def openBlock (s : Scanner) (column : Nat) (number : Option Nat) (kind : Token.Kind) (mark : Mark)
    : Scanner :=
  if s.inFlow || column ≤ s.indent then s
  else
    let t : Token := ⟨kind, mark, mark⟩
    let s := { s with outerIndents := s.indent :: s.outerIndents, indent := column }
    match number with
    | none => s.push t
    | some n => s.insert n t

/-- Closes the blocks of a stack that are deeper than a column. -/
def closeBlocksIn (column : Int) : List Int → Scanner → Scanner
  | [], s => s
  | outer :: more, s =>
      if column < s.indent then
        closeBlocksIn column more
          { s.push ⟨.blockEnd, s.cursor.mark, s.cursor.mark⟩ with
            indent := outer, outerIndents := more }
      else s

/-- Closes the blocks that are deeper than a column; flow collections have no indentation. -/
def closeBlocks (s : Scanner) (column : Int) : Scanner :=
  if s.inFlow then s else closeBlocksIn column s.outerIndents s

/-- Skips blanks, comments and line breaks. A tab counts as a blank only where no key may start. A
mark of byte order may stand at the start of a line. -/
def skipToToken : Nat → Scanner → Scanner
  | 0, s => s
  | fuel + 1, s =>
      let c := s.cursor
      let c := if c.mark.column = 0 ∧ c.rest.head? = some '\ufeff' then c.skip 1 else c
      let tabs := s.inFlow || !s.keyAllowed
      let c := c.skipWhile (fun x => x = ' ' || (tabs && x = '\t'))
      let c := c.skipComment
      match c.lineBreak? with
      | some (_, behind) =>
          skipToToken fuel { s with cursor := behind, keyAllowed := s.keyAllowed || !s.inFlow }
      | none => { s with cursor := c }

def fetchEnd (s : Scanner) : Except SyntaxError Scanner := do
  let m := s.cursor.mark
  let m := if m.column = 0 then m else { m with line := m.line + 1, column := 0 }
  let s := { s with cursor := { s.cursor with mark := m } }
  let s ← (s.closeBlocks (-1)).dropCandidate
  .ok { s.pushMark .streamEnd 0 with keyAllowed := false, ended := true }

def fetchDirective (s : Scanner) : Except SyntaxError Scanner := do
  let s ← (s.closeBlocks (-1)).dropCandidate
  let (t, behind) ← Directive.read s.cursor
  .ok { s.push t with keyAllowed := false, cursor := behind }

def fetchDocumentMark (s : Scanner) (kind : Token.Kind) : Except SyntaxError Scanner := do
  let s ← (s.closeBlocks (-1)).dropCandidate
  .ok { s.pushMark kind 3 with keyAllowed := false }

def fetchFlowStart (s : Scanner) (kind : Token.Kind) : Except SyntaxError Scanner := do
  let s ← s.saveCandidate
  .ok
    { s.pushMark kind 1 with
      outerCandidates := s.candidate :: s.outerCandidates
      candidate := none
      keyAllowed := true }

def fetchFlowEnd (s : Scanner) (kind : Token.Kind) : Except SyntaxError Scanner := do
  let s ← s.dropCandidate
  let s := { s.pushMark kind 1 with keyAllowed := false }
  match s.outerCandidates with
  | [] => .ok s
  | outer :: more => .ok { s with candidate := outer, outerCandidates := more }

def fetchFlowEntry (s : Scanner) : Except SyntaxError Scanner := do
  let s ← s.dropCandidate
  .ok { s.pushMark .flowEntry 1 with keyAllowed := true }

/-- Opens a block at the cursor for an indicator that may only stand where a key may. -/
def openBlockHere (s : Scanner) (kind : Token.Kind) (problem : Problem)
    : Except SyntaxError Scanner :=
  if s.inFlow then .ok s
  else if s.keyAllowed then .ok (s.openBlock s.cursor.mark.column none kind s.cursor.mark)
  else .error (s.fail problem)

def fetchBlockEntry (s : Scanner) : Except SyntaxError Scanner := do
  let s ← s.openBlockHere .blockSequenceStart .blockEntryNotAllowed
  let s ← s.dropCandidate
  .ok { s.pushMark .blockEntry 1 with keyAllowed := true }

def fetchKey (s : Scanner) : Except SyntaxError Scanner := do
  let s ← s.openBlockHere .blockMappingStart .keyNotAllowed
  let s ← s.dropCandidate
  .ok { s.pushMark .key 1 with keyAllowed := !s.inFlow }

/-- A colon turns the candidate into a key; without one it stands for an empty key. -/
def fetchValue (s : Scanner) : Except SyntaxError Scanner :=
  match s.candidate with
  | some k =>
      let s := s.insert k.number ⟨.key, k.mark, k.mark⟩
      let s := s.openBlock k.mark.column (some k.number) .blockMappingStart k.mark
      .ok { s.pushMark .value 1 with candidate := none, keyAllowed := false }
  | none => do
      let s ← s.openBlockHere .blockMappingStart .valueNotAllowed
      .ok { s.pushMark .value 1 with keyAllowed := !s.inFlow }

/-- Reads the name of an anchor or an alias. -/
def fetchAnchor (s : Scanner) (kind : List Char → Token.Kind) (activity : Activity)
    : Except SyntaxError Scanner := do
  let s ← s.saveCandidate
  let start := s.cursor.mark
  let (name, behind) := (s.cursor.skip 1).takeWhile isNameChar
  let closed :=
    isPause behind.rest || behind.rest.head?.any (fun c => "?:,]\x7d%@`".toList.contains c)
  if name.isEmpty || !closed then
    .error (behind.fault .anchorNameExpected activity start)
  else .ok { s.push ⟨kind name, start, behind.mark⟩ with keyAllowed := false, cursor := behind }

def fetchTag (s : Scanner) : Except SyntaxError Scanner := do
  let s ← s.saveCandidate
  let (handle, suffix, behind) ← Tag.read s.inFlow s.cursor
  .ok
    { s.push ⟨.tag handle suffix, s.cursor.mark, behind.mark⟩ with
      keyAllowed := false
      cursor := behind }

def fetchBlockScalar (s : Scanner) (folded : Bool) : Except SyntaxError Scanner := do
  let s ← s.dropCandidate
  let (text, behind) ← Block.read folded s.indent s.cursor
  .ok
    { s.push ⟨.scalar text false, s.cursor.mark, behind.mark⟩ with
      keyAllowed := true
      cursor := behind }

def fetchQuoted (s : Scanner) (single : Bool) : Except SyntaxError Scanner := do
  let s ← s.saveCandidate
  let (text, behind) ← Quoted.read single s.cursor
  .ok
    { s.push ⟨.scalar text false, s.cursor.mark, behind.mark⟩ with
      keyAllowed := false
      cursor := behind }

def fetchPlain (s : Scanner) : Except SyntaxError Scanner := do
  let s ← s.saveCandidate
  let scalar ← Plain.read s.inFlow s.indent s.cursor
  .ok
    { s.push ⟨.scalar scalar.text true, s.cursor.mark, scalar.after.mark⟩ with
      keyAllowed := scalar.broken
      cursor := scalar.after }

/-- Characters with which no plain scalar starts, a dash, a question mark and a colon apart. -/
def isIndicator (c : Char) : Bool :=
  ",[]\x7b\x7d#&*!|>'\"%@`".toList.contains c

/-- Whether a plain scalar starts here: a dash needs a character after it that is no blank, and a
question mark or a colon one that is no pause, outside flow collections. -/
def startsPlain (inFlow : Bool) : List Char → Bool
  | [] => false
  | c :: rest =>
      if c = '-' then !rest.head?.any isBlank
      else if c = '?' || c = ':' then !inFlow && !isPause rest
      else !isBlank c && !isBreak c && !isIndicator c

/-- Reads the token that starts at the cursor. -/
def fetchHere (s : Scanner) : Except SyntaxError Scanner :=
  let c := s.cursor
  match c.rest with
  | [] => s.fetchEnd
  | x :: rest =>
      if c.mark.column = 0 ∧ x = '%' then s.fetchDirective
      else if c.mark.column = 0 ∧ isDocumentMark '-' c.rest then
        s.fetchDocumentMark .documentStart
      else if c.mark.column = 0 ∧ isDocumentMark '.' c.rest then
        s.fetchDocumentMark .documentEnd
      else if x = '[' then s.fetchFlowStart .flowSequenceStart
      else if x = '{' then s.fetchFlowStart .flowMappingStart
      else if x = ']' then s.fetchFlowEnd .flowSequenceEnd
      else if x = '}' then s.fetchFlowEnd .flowMappingEnd
      else if x = ',' then s.fetchFlowEntry
      else if x = '-' ∧ isPause rest then s.fetchBlockEntry
      else if x = '?' ∧ (s.inFlow || isPause rest) then s.fetchKey
      else if x = ':' ∧ (s.inFlow || isPause rest) then s.fetchValue
      else if x = '*' then s.fetchAnchor .alias .alias
      else if x = '&' then s.fetchAnchor .anchor .anchor
      else if x = '!' then s.fetchTag
      else if x = '|' ∧ !s.inFlow then s.fetchBlockScalar false
      else if x = '>' ∧ !s.inFlow then s.fetchBlockScalar true
      else if x = '\'' then s.fetchQuoted true
      else if x = '"' then s.fetchQuoted false
      else if startsPlain s.inFlow c.rest then s.fetchPlain
      else .error (c.fault .noTokenStartsHere .nextToken c.mark)

/-- Reads the next token, and what has to be inserted before it. -/
def fetch (s : Scanner) : Except SyntaxError Scanner := do
  let s ← (skipToToken (s.cursor.rest.length + 1) s).dropStale
  (s.closeBlocks s.cursor.mark.column).fetchHere

/-- The number of the first token that may still get a key in front of it. -/
def firstHeld (s : Scanner) : Nat :=
  (s.candidate :: s.outerCandidates).foldl
    (fun least k => match k with | some k => min least k.number | none => least) s.count

/-- Tokens in order, and the fault that ends them. -/
def handedOut (s : Scanner) (e : SyntaxError) : List Token × Option SyntaxError :=
  (s.tokens.reverse.take s.delivered, some e)

/-- Reads tokens until the stream ends. Where tokens wait, those held back for a key are looked
over first. Each round takes a character, apart from the one that ends the stream. -/
def run : Nat → Scanner → List Token × Option SyntaxError
  | 0, s => (s.tokens.reverse, none)
  | fuel + 1, s =>
      match (if s.delivered < s.count then s.dropStale else .ok s) with
      | .error e => s.handedOut e
      | .ok s =>
          let s := { s with delivered := max s.delivered s.firstHeld }
          if s.ended then (s.tokens.reverse, none)
          else
            match s.fetch with
            | .error e => s.handedOut e
            | .ok next => run fuel next

end Scanner

/-- The tokens of a text, and the fault that ends them early. -/
def Token.scan (text : List Char) : List Token × Option SyntaxError :=
  Scanner.run (text.length + 2) (.ofText text)

end WorkflowLint.Yaml
