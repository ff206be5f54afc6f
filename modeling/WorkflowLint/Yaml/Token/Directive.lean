import WorkflowLint.Yaml.Token.Tag

/-! Directives: lines that give the version of the format or declare a tag handle. -/

namespace WorkflowLint.Yaml.Directive

/-- Reads the rest of a version number, of at most nine digits. -/
def readDigits (start : Mark)
    : Nat → Nat → Nat → Cursor → Except SyntaxError (Nat × Cursor)
  | 0, _, n, c => .ok (n, c)
  | fuel + 1, length, n, c =>
      match c.rest with
      | x :: _ =>
          if !isDigit x then .ok (n, c)
          else if length = 9 then .error (c.fault .versionTooLong .versionDirective start)
          else readDigits start fuel (length + 1) (10 * n + (x.toNat - 48)) (c.skip 1)
      | [] => .ok (n, c)

def readNumber (start : Mark) (c : Cursor) : Except SyntaxError (Nat × Cursor) :=
  if c.rest.head?.any isDigit then readDigits start (c.rest.length + 1) 0 0 c
  else .error (c.fault .versionExpected .versionDirective start)

def readVersion (start : Mark) (c : Cursor) : Except SyntaxError (Token.Kind × Cursor) := do
  let (major, c) ← readNumber start (c.skipWhile isBlank)
  if c.rest.head? = some '.' then
    let (minor, c) ← readNumber start (c.skip 1)
    .ok (.version major minor, c)
  else .error (c.fault .versionDotExpected .versionDirective start)

/-- Reads a handle that has to end in an exclamation mark and the address it stands for. -/
def readTagHandle (start : Mark) (c : Cursor) : Except SyntaxError (Token.Kind × Cursor) := do
  let (handle, c) ← Tag.readHandle .tagDirectiveHandle start (c.skipWhile isBlank)
  if handle.length ≠ 1 ∧ !Tag.isClosedHandle handle then
    .error (c.fault .tagMarkExpected .brokenTagDirectiveHandle start)
  else if !c.rest.head?.any isBlank then
    .error (c.fault .blankExpected .tagDirective start)
  else
    let (address, c) ←
      Tag.readAddress true .tagDirectiveAddress start [] (c.skipWhile isBlank)
    if isPause c.rest then .ok (.tagHandle (Tag.bytes handle) address, c)
    else .error (c.fault .blankOrBreakExpected .tagDirective start)

def readName (start : Mark) (c : Cursor) : Except SyntaxError (List Char × Cursor) :=
  let (name, behind) := c.takeWhile isNameChar
  if name.isEmpty then .error (behind.fault .directiveNameExpected .directive start)
  else if isPause behind.rest then .ok (name, behind)
  else .error (behind.fault .directiveNameBroken .directive start)

/-- Reads a directive from its percent sign to the end of the line. -/
def read (c : Cursor) : Except SyntaxError (Token × Cursor) := do
  let start := c.mark
  let (name, c) ← readName start (c.skip 1)
  let (kind, c) ←
    if name = "YAML".toList then readVersion start c
    else if name = "TAG".toList then readTagHandle start c
    else .error (c.fault .directiveUnknown .directive start)
  let finish := c.mark
  let c := (c.skipWhile isBlank).skipComment
  if isLineEnd c.rest then .ok (⟨kind, start, finish⟩, c.skipBreak)
  else .error (c.fault .lineEndExpected .directive start)

end WorkflowLint.Yaml.Directive
