import WorkflowLint.Yaml.SyntaxError

/-! Reading positions in a YAML text: the characters that are left and the mark of the first of
them, with the character classes of the format.
-/

namespace WorkflowLint.Yaml

/-- The characters that end a line. -/
def isBreak (c : Char) : Bool :=
  c = '\n' || c = '\r' || c = '\x85' || c = '\u2028' || c = '\u2029'

def isBlank (c : Char) : Bool :=
  c = ' ' || c = '\t'

def isDigit (c : Char) : Bool :=
  '0' ≤ c && c ≤ '9'

/-- The characters of names. -/
def isNameChar (c : Char) : Bool :=
  isDigit c || ('a' ≤ c && c ≤ 'z') || ('A' ≤ c && c ≤ 'Z') || c = '_' || c = '-'

def hexValue? (c : Char) : Option Nat :=
  if '0' ≤ c ∧ c ≤ '9' then some (c.toNat - 48)
  else if 'a' ≤ c ∧ c ≤ 'f' then some (c.toNat - 87)
  else if 'A' ≤ c ∧ c ≤ 'F' then some (c.toNat - 55)
  else none

/-- Whether a text stops here: it is over, or goes on with a blank or a line break. -/
def isPause : List Char → Bool
  | [] => true
  | c :: _ => isBlank c || isBreak c

/-- Whether a line is over here. -/
def isLineEnd : List Char → Bool
  | [] => true
  | c :: _ => isBreak c

/-- The line marks between documents, at the start of a line. -/
def isDocumentMark (dash : Char) : List Char → Bool
  | a :: b :: c :: rest => a = dash && b = dash && c = dash && isPause rest
  | _ => false

structure Cursor where
  rest : List Char
  mark : Mark

namespace Cursor

def ofText (text : List Char) : Cursor :=
  ⟨text, .origin⟩

/-- Moves over characters of the same line. -/
def skip (count : Nat) (c : Cursor) : Cursor :=
  ⟨c.rest.drop count,
    { c.mark with index := c.mark.index + count, column := c.mark.column + count }⟩

def skipWhile (p : Char → Bool) (c : Cursor) : Cursor :=
  c.skip (c.rest.takeWhile p).length

/-- The line break that comes next, as it is kept in scalars, and the place behind it. -/
def lineBreak? (c : Cursor) : Option (List Char × Cursor) :=
  let behind (count : Nat) (rest : List Char) : Cursor :=
    ⟨rest, ⟨c.mark.index + count, c.mark.line + 1, 0⟩⟩
  match c.rest with
  | '\r' :: '\n' :: rest => some (['\n'], behind 2 rest)
  | '\r' :: rest | '\n' :: rest | '\x85' :: rest => some (['\n'], behind 1 rest)
  | '\u2028' :: rest => some (['\u2028'], behind 1 rest)
  | '\u2029' :: rest => some (['\u2029'], behind 1 rest)
  | _ => none

/-- Moves over a line break if there is one. -/
def skipBreak (c : Cursor) : Cursor :=
  match c.lineBreak? with
  | some (_, behind) => behind
  | none => c

def skipComment (c : Cursor) : Cursor :=
  match c.rest with
  | '#' :: _ => c.skipWhile (fun x => !isBreak x)
  | _ => c

/-- Whether a mark between documents stands here. -/
def atDocumentMark (c : Cursor) : Bool :=
  c.mark.column == 0 && (isDocumentMark '-' c.rest || isDocumentMark '.' c.rest)

/-- A fault at the cursor in something that began at a mark. -/
def fault (c : Cursor) (problem : Problem) (activity : Activity) (start : Mark) : SyntaxError :=
  .fault problem c.mark (some (activity, start))

/-- The characters up to the first one that fails a test. -/
def takeWhile (p : Char → Bool) (c : Cursor) : List Char × Cursor :=
  (c.rest.takeWhile p, c.skipWhile p)

end Cursor

/-- What stands between two parts of a scalar that may run over several lines: blanks, or line
breaks with the blanks around them dropped. -/
structure Gap where
  blanks : List Char
  first : List Char
  more : List Char
  broken : Bool

namespace Gap

def empty : Gap := ⟨[], [], [], false⟩

/-- A gap within a line is kept. A single line break folds into a space, and the first of several
is dropped; the two separators of lines and paragraphs never fold. -/
def text (g : Gap) : List Char :=
  if g.broken then
    if g.first = ['\n'] then (if g.more.isEmpty then [' '] else g.more)
    else g.first ++ g.more
  else g.blanks

/-- Reads on over blanks and line breaks. With an indentation to keep, a tab in front of it on a
later line is refused. Each round takes a character, so the length of the text is fuel enough. -/
def read (indentation : Option Int) (refuse : Cursor → SyntaxError)
    : Nat → Gap → Cursor → Except SyntaxError (Gap × Cursor)
  | 0, g, c => .ok (g, c)
  | fuel + 1, g, c =>
      match c.rest with
      | [] => .ok (g, c)
      | x :: _ =>
          if isBlank x then
            if g.broken then
              if x = '\t' && indentation.any (fun (i : Int) => decide (c.mark.column < i)) then
                .error (refuse c)
              else read indentation refuse fuel g (c.skip 1)
            else read indentation refuse fuel { g with blanks := g.blanks ++ [x] } (c.skip 1)
          else
            match c.lineBreak? with
            | none => .ok (g, c)
            | some (lineBreak, behind) =>
                if g.broken then
                  read indentation refuse fuel { g with more := g.more ++ lineBreak } behind
                else
                  read indentation refuse fuel ⟨[], lineBreak, g.more, true⟩ behind

end Gap

end WorkflowLint.Yaml
