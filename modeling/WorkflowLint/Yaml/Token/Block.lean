import WorkflowLint.Yaml.Token

/-! Block scalars: a header after `|` or `>`, then all lines indented far enough. Literal scalars
keep their line breaks; folded ones join lines that do not start with a blank.
-/

namespace WorkflowLint.Yaml.Block

/-- What becomes of the line breaks at the end: `strip` drops all, `clip` keeps one. -/
inductive Chomping where
  | strip
  | clip
  | keep
  deriving DecidableEq

def chomping? : Char → Option Chomping
  | '+' => some .keep
  | '-' => some .strip
  | _ => none

structure Header where
  chomping : Chomping
  /-- The indentation relative to the enclosing block, where the header gives it. -/
  increment : Option Nat

def readChomping (c : Cursor) : Option (Chomping × Cursor) := do
  let chomping ← c.rest.head?.bind chomping?
  return (chomping, c.skip 1)

/-- Reads a digit that gives the indentation; zero is refused. -/
def readIncrement (start : Mark) (c : Cursor)
    : Except SyntaxError (Option Nat × Cursor) :=
  match c.rest with
  | [] => .ok (none, c)
  | x :: _ =>
      if x = '0' then .error (c.fault .indentationZero .blockScalar start)
      else if isDigit x then .ok (some (x.toNat - 48), c.skip 1)
      else .ok (none, c)

/-- Chomping and indentation come in either order. -/
def readMarks (start : Mark) (c : Cursor) : Except SyntaxError (Header × Cursor) :=
  match readChomping c with
  | some (chomping, c) => do
      let (increment, c) ← readIncrement start c
      .ok (⟨chomping, increment⟩, c)
  | none => do
      let (increment, c) ← readIncrement start c
      match increment, readChomping c with
      | some _, some (chomping, c) => .ok (⟨chomping, increment⟩, c)
      | _, _ => .ok (⟨.clip, increment⟩, c)

/-- Reads the header line to its end. -/
def readHeader (start : Mark) (c : Cursor) : Except SyntaxError (Header × Cursor) := do
  let (header, c) ← readMarks start c
  let c := (c.skipWhile isBlank).skipComment
  if isLineEnd c.rest then .ok (header, c.skipBreak)
  else .error (c.fault .lineEndExpected .blockScalar start)

/-- Skips spaces up to the indentation; all of them while it is not known. -/
def skipIndentation (indentation : Option Nat) (c : Cursor) : Cursor :=
  let spaces := (c.rest.takeWhile (· = ' ')).length
  c.skip (match indentation with
    | none => spaces
    | some n => min spaces (n - c.mark.column))

/-- Whether the indentation of a line is still incomplete. -/
def withinIndentation (indentation : Option Nat) (c : Cursor) : Bool :=
  indentation.all (fun n => c.mark.column < n)

/-- Reads empty lines: their breaks, and the widest indentation that occurs. Each round takes a
line break or ends. -/
def readEmptyLines (indentation : Option Nat) (start : Mark)
    : Nat → List Char → Nat → Cursor → Except SyntaxError (List Char × Nat × Cursor)
  | 0, breaks, widest, c => .ok (breaks, widest, c)
  | fuel + 1, breaks, widest, c =>
      let c := skipIndentation indentation c
      let widest := max widest c.mark.column
      if withinIndentation indentation c && c.rest.head? = some '\t' then
        .error (c.fault .tabForSpace .blockScalar start)
      else
        match c.lineBreak? with
        | none => .ok (breaks, widest, c)
        | some (lineBreak, behind) =>
            readEmptyLines indentation start fuel (breaks ++ lineBreak) widest behind

structure Lines where
  text : List Char
  /-- The break after the last line, if it had one. -/
  pending : List Char
  /-- The breaks of the empty lines after that. -/
  trailing : List Char
  startsBlank : Bool

/-- What joins the lines so far to the next one. -/
def Lines.joint (folded : Bool) (lines : Lines) (nextStartsBlank : Bool) : List Char :=
  if folded && lines.pending = ['\n'] && !lines.startsBlank && !nextStartsBlank then
    if lines.trailing.isEmpty then [' '] else lines.trailing
  else lines.pending ++ lines.trailing

/-- Reads the lines that start at the indentation. Each round takes a character. -/
def readLines (folded : Bool) (indentation : Nat) (start : Mark)
    : Nat → Lines → Cursor → Except SyntaxError (Lines × Cursor)
  | 0, lines, c => .ok (lines, c)
  | fuel + 1, lines, c =>
      if c.mark.column ≠ indentation ∨ c.rest.isEmpty then .ok (lines, c)
      else do
        let blank := c.rest.head?.any isBlank
        let (line, behind) := c.takeWhile (fun x => !isBreak x)
        let text := lines.text ++ lines.joint folded blank ++ line
        let (pending, next) := behind.lineBreak?.getD ([], behind)
        let (trailing, _, next) ←
          readEmptyLines (some indentation) start (next.rest.length + 1) [] 0 next
        readLines folded indentation start fuel ⟨text, pending, trailing, blank⟩ next

def Lines.chomped (chomping : Chomping) (lines : Lines) : List Char :=
  match chomping with
  | .strip => lines.text
  | .clip => lines.text ++ lines.pending
  | .keep => lines.text ++ lines.pending ++ lines.trailing

/-- Reads a scalar from its indicator, in a block with the given indentation. Without a given one
the first line that is not empty sets the indentation of the scalar, or the widest of the empty
lines before it, and it is always deeper than the block. -/
def read (folded : Bool) (blockIndent : Int) (c : Cursor)
    : Except SyntaxError (List Char × Cursor) := do
  let start := c.mark
  let (header, c) ← readHeader start (c.skip 1)
  let given := header.increment.map (fun n => n + blockIndent.toNat)
  let (trailing, widest, c) ← readEmptyLines given start (c.rest.length + 1) [] 0 c
  let indentation := given.getD (max widest (max (blockIndent + 1).toNat 1))
  let (lines, c) ←
    readLines folded indentation start (c.rest.length + 1) ⟨[], [], trailing, false⟩ c
  .ok (lines.chomped header.chomping, c)

end WorkflowLint.Yaml.Block
