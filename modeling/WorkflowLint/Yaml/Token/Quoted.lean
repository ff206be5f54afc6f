import WorkflowLint.Yaml.Token

/-! Quoted scalars. In single quotes a quote is written twice; in double quotes a backslash starts
an escape, and one at the end of a line joins it to the next.
-/

namespace WorkflowLint.Yaml.Quoted

/-- What the letter of an escape stands for. -/
def namedEscape? : Char → Option Char
  | '0' => some '\x00'
  | 'a' => some '\x07'
  | 'b' => some '\x08'
  | 't' | '\t' => some '\t'
  | 'n' => some '\n'
  | 'v' => some '\x0b'
  | 'f' => some '\x0c'
  | 'r' => some '\r'
  | 'e' => some '\x1b'
  | ' ' => some ' '
  | '"' => some '"'
  | '/' => some '/'
  | '\\' => some '\\'
  | 'N' => some '\x85'
  | '_' => some '\xa0'
  | 'L' => some '\u2028'
  | 'P' => some '\u2029'
  | _ => none

/-- How many hexadecimal digits follow the letter of a numeric escape. -/
def escapeWidth? : Char → Option Nat
  | 'x' => some 2
  | 'u' => some 4
  | 'U' => some 8
  | _ => none

def hexNumber (digits : List Nat) : Nat :=
  digits.foldl (fun n d => 16 * n + d) 0

/-- Reads an escape after its backslash; faults in its letter show at the backslash. -/
def readEscape (start : Mark) (c : Cursor) (letter : Char)
    : Except SyntaxError (Char × Cursor) :=
  let behind := c.skip 2
  match namedEscape? letter, escapeWidth? letter with
  | some x, _ => .ok (x, behind)
  | none, none => .error (c.fault .escapeUnknown .quotedEscape start)
  | none, some width =>
      let digits := (behind.rest.take width).filterMap hexValue?
      if digits.length < width then
        .error (behind.fault .hexDigitExpected .quotedEscape start)
      else
        let n := hexNumber digits
        if (0xD800 ≤ n ∧ n ≤ 0xDFFF) ∨ 0x10FFFF < n then
          .error (behind.fault .codePointInvalid .quotedEscape start)
        else .ok (Char.ofNat n, behind.skip width)

/-- Reads the characters of a line up to a pause or the closing quote. The last part of the answer
says whether the line ended in a joining backslash. -/
def readRun (single : Bool) (start : Mark)
    : Nat → Cursor → Except SyntaxError (List Char × Cursor × Bool)
  | 0, c => .ok ([], c, false)
  | fuel + 1, c =>
      if isPause c.rest then .ok ([], c, false)
      else
        match single, c.rest with
        | true, '\'' :: '\'' :: _ => do
            let (text, after) ← readRun single start fuel (c.skip 2)
            .ok ('\'' :: text, after)
        | true, '\'' :: _ => .ok ([], c, false)
        | false, '"' :: _ => .ok ([], c, false)
        | false, '\\' :: x :: _ =>
            if isBreak x then .ok ([], (c.skip 1).skipBreak, true)
            else do
              let (char, behind) ← readEscape start c x
              let (text, after) ← readRun single start fuel behind
              .ok (char :: text, after)
        | false, ['\\'] => .error (c.fault .escapeUnknown .quotedEscape start)
        | _, x :: _ => do
            let (text, after) ← readRun single start fuel (c.skip 1)
            .ok (x :: text, after)
        | _, [] => .ok ([], c, false)

/-- Reads on to the closing quote. Each round takes a character, ends or fails. -/
def readOn (single : Bool) (start : Mark)
    : Nat → List Char → Cursor → Except SyntaxError (List Char × Cursor)
  | 0, _, c => .error (c.fault .streamEnds .quotedScalar start)
  | fuel + 1, text, c =>
      if c.atDocumentMark then .error (c.fault .documentMark .quotedScalar start)
      else if c.rest.isEmpty then .error (c.fault .streamEnds .quotedScalar start)
      else do
        let (run, behind, joined) ← readRun single start c.rest.length c
        let text := text ++ run
        if behind.rest.head? = some (if single then '\'' else '"') then
          .ok (text, behind.skip 1)
        else
          let refuse (tab : Cursor) := tab.fault .streamEnds .quotedScalar start
          let (gap, next) ←
            Gap.read none refuse behind.rest.length { Gap.empty with broken := joined } behind
          readOn single start fuel (text ++ gap.text) next

/-- Reads a scalar from its opening quote. -/
def read (single : Bool) (c : Cursor) : Except SyntaxError (List Char × Cursor) :=
  readOn single c.mark (c.rest.length + 1) [] (c.skip 1)

end WorkflowLint.Yaml.Quoted
