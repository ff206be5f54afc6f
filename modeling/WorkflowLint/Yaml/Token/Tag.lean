import WorkflowLint.Yaml.Token

/-! Tags and tag handles. The address part of a tag may hold bytes written as a percent sign and two
hexadecimal digits; these have to follow one another as the bytes of one character do.
-/

namespace WorkflowLint.Yaml.Tag

def bytes (text : List Char) : TagText :=
  text.map (fun c => UInt8.ofNat c.toNat)

def isAddressChar (verbatim : Bool) (c : Char) : Bool :=
  isNameChar c || ";/?:@&=+$.%!~*'()".toList.contains c
    || (verbatim && (c = ',' || c = '[' || c = ']'))

/-- How many bytes a character takes whose first byte is given. -/
def octetWidth? (octet : Nat) : Option Nat :=
  if octet < 0x80 then some 1
  else if 0xC0 ≤ octet ∧ octet < 0xE0 then some 2
  else if 0xE0 ≤ octet ∧ octet < 0xF0 then some 3
  else if 0xF0 ≤ octet ∧ octet < 0xF8 then some 4
  else none

/-- A byte written in hexadecimal digits. -/
def readOctet? (c : Cursor) : Option (Nat × Cursor) :=
  match c.rest with
  | '%' :: a :: b :: _ => do
      let high ← hexValue? a
      let low ← hexValue? b
      return (16 * high + low, c.skip 3)
  | _ => none

/-- The bytes that follow the first one of a character. -/
def readMoreOctets (activity : Activity) (start : Mark)
    : Nat → Cursor → Except SyntaxError (TagText × Cursor)
  | 0, c => .ok ([], c)
  | count + 1, c =>
      match readOctet? c with
      | none => .error (c.fault .octetExpected activity start)
      | some (octet, behind) =>
          if octet / 64 = 2 then do
            let (more, c) ← readMoreOctets activity start count behind
            .ok (UInt8.ofNat octet :: more, c)
          else .error (c.fault .trailingOctetWrong activity start)

/-- A character written byte by byte. -/
def readOctets (activity : Activity) (start : Mark) (c : Cursor)
    : Except SyntaxError (TagText × Cursor) :=
  match readOctet? c with
  | none => .error (c.fault .octetExpected activity start)
  | some (octet, behind) =>
      match octetWidth? octet with
      | none => .error (c.fault .leadingOctetWrong activity start)
      | some width => do
          let (more, c) ← readMoreOctets activity start (width - 1) behind
          .ok (UInt8.ofNat octet :: more, c)

/-- Reads address characters, each of which takes up at least one character of the text. -/
def readAddressChars (verbatim : Bool) (activity : Activity) (start : Mark)
    : Nat → Cursor → Except SyntaxError (TagText × Cursor)
  | 0, c => .ok ([], c)
  | fuel + 1, c =>
      match c.rest with
      | [] => .ok ([], c)
      | x :: _ =>
          if !isAddressChar verbatim x then .ok ([], c)
          else do
            let (here, behind) ←
              if x = '%' then readOctets activity start c
              else .ok (bytes [x], c.skip 1)
            let (more, after) ← readAddressChars verbatim activity start fuel behind
            .ok (here ++ more, after)

/-- Reads an address, of which the head has been read already and may stand for all of it. What
follows a zero byte does not count. -/
def readAddress (verbatim : Bool) (activity : Activity) (start : Mark) (head : List Char)
    (c : Cursor)
    : Except SyntaxError (TagText × Cursor) := do
  let (address, behind) ← readAddressChars verbatim activity start (c.rest.length + 1) c
  if head.isEmpty && address.isEmpty then
    .error (behind.fault .tagAddressExpected activity start)
  else .ok ((bytes (head.drop 1) ++ address).takeWhile (· != 0), behind)

/-- Reads a handle: an exclamation mark, a name, and perhaps another exclamation mark. -/
def readHandle (during : Activity) (start : Mark) (c : Cursor)
    : Except SyntaxError (List Char × Cursor) :=
  match c.rest with
  | '!' :: _ =>
      let (name, behind) := (c.skip 1).takeWhile isNameChar
      match behind.rest with
      | '!' :: _ => .ok ('!' :: name ++ ['!'], behind.skip 1)
      | _ => .ok ('!' :: name, behind)
  | _ => .error (c.fault .tagMarkExpected during start)

/-- A handle that refers to a directive ends in the exclamation mark that it does not start with. -/
def isClosedHandle (handle : List Char) : Bool :=
  1 < handle.length && handle.getLast? = some '!'

/-- Reads the parts of a tag: `!<address>`, `!handle!suffix`, `!suffix` or `!` alone, which has no
handle. -/
def readParts (start : Mark) (c : Cursor)
    : Except SyntaxError (TagText × TagText × Cursor) :=
  match c.rest with
  | _ :: '<' :: _ => do
      let (address, c) ← readAddress true .tagAddress start [] (c.skip 2)
      match c.rest with
      | '>' :: _ => .ok ([], address, c.skip 1)
      | _ => .error (c.fault .closingAngleExpected .tag start)
  | _ => do
      let (handle, c) ← readHandle .tag start c
      if isClosedHandle handle then
        let (suffix, c) ← readAddress false .tagAddress start [] c
        .ok (bytes handle, suffix, c)
      else
        let (suffix, c) ← readAddress false .tagAddress start handle c
        .ok (if suffix.isEmpty then ([], bytes ['!'], c) else (bytes ['!'], suffix, c))

/-- Reads a tag, which has to be followed by a pause or, in a flow collection, by a comma. -/
def read (inFlow : Bool) (c : Cursor) : Except SyntaxError (TagText × TagText × Cursor) := do
  let (handle, suffix, behind) ← readParts c.mark c
  if isPause behind.rest || (inFlow && behind.rest.head? = some ',') then
    .ok (handle, suffix, behind)
  else .error (behind.fault .blankOrBreakExpected .tag c.mark)

end WorkflowLint.Yaml.Tag
