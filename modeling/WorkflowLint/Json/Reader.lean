import WorkflowLint.Json.Number

/-! Reading JSON text. A container takes up one level of depth, and the levels are limited. -/

namespace WorkflowLint.Json

/-- A reader takes what it reads off the front of a text. -/
abbrev Reader (α : Type) := List Char → Except Failure (α × List Char)

/-- How many containers may stand inside one another. -/
def depthLimit : Nat := 127

def isBlank (c : Char) : Bool :=
  c = ' ' || c = '\t' || c = '\n' || c = '\r'

def skipBlanks (text : List Char) : List Char :=
  text.dropWhile isBlank

/-- Reads the rest of a word of which the first letter is known. -/
def readWord (value : Value) : List Char → Reader Value
  | [], rest => .ok (value, rest)
  | _ :: _, [] => .error (.at .endInValue [])
  | expected :: word, c :: rest =>
      if c = expected then readWord value word rest
      else .error (.at .wordExpected (c :: rest))

def hexValue? (c : Char) : Option Nat :=
  if '0' ≤ c ∧ c ≤ '9' then some (c.toNat - 48)
  else if 'a' ≤ c ∧ c ≤ 'f' then some (c.toNat - 87)
  else if 'A' ≤ c ∧ c ≤ 'F' then some (c.toNat - 55)
  else none

/-- Four hexadecimal digits. Fewer than four bytes count as the end of the text. -/
def readHex : Reader Nat := fun text =>
  match text.take 4 |>.mapM hexValue? with
  | some [a, b, c, d] => .ok (((a * 16 + b) * 16 + c) * 16 + d, text.drop 4)
  | _ =>
      let cause := if (utf8 text).length < 4 then Cause.endInString else .invalidEscape
      .error ⟨cause, text, 4⟩

/-- The second half of a surrogate pair, of which the first half is known. -/
def readLowSurrogate (high : Nat) : Reader Char
  | [] => .error (.at .endInString [])
  | '\\' :: [] => .error (.at .endInString [])
  | '\\' :: 'u' :: rest => do
      let (low, after) ← readHex rest
      if 0xDC00 ≤ low ∧ low ≤ 0xDFFF then
        .ok (Char.ofNat ((high - 0xD800) * 1024 + (low - 0xDC00) + 0x10000), after)
      else .error ⟨.loneSurrogate, after, 0⟩
  | '\\' :: rest => .error (.at .brokenSurrogatePair rest)
  | rest => .error (.at .brokenSurrogatePair rest)

/-- A character written by its number; one outside the first plane takes a pair of numbers. -/
def readCodePoint : Reader Char := fun text => do
  let (n, rest) ← readHex text
  if 0xDC00 ≤ n ∧ n ≤ 0xDFFF then .error ⟨.loneSurrogate, rest, 0⟩
  else if 0xD800 ≤ n ∧ n ≤ 0xDBFF then readLowSurrogate n rest
  else .ok (Char.ofNat n, rest)

/-- What follows a backslash. -/
def readEscape : Reader Char
  | [] => .error (.at .endInString [])
  | '"' :: rest => .ok ('"', rest)
  | '\\' :: rest => .ok ('\\', rest)
  | '/' :: rest => .ok ('/', rest)
  | 'b' :: rest => .ok ('\x08', rest)
  | 'f' :: rest => .ok ('\x0c', rest)
  | 'n' :: rest => .ok ('\n', rest)
  | 'r' :: rest => .ok ('\r', rest)
  | 't' :: rest => .ok ('\t', rest)
  | 'u' :: rest => readCodePoint rest
  | rest => .error (.at .invalidEscape rest)

/-- The characters of a string up to its closing quote. Each takes up at least one character of
the text, so the length of the text is fuel enough. -/
def readChars : Nat → Reader (List Char)
  | 0, rest => .error (.at .endInString rest)
  | _ + 1, [] => .error (.at .endInString [])
  | _ + 1, '"' :: rest => .ok ([], rest)
  | fuel + 1, '\\' :: rest => do
      let (c, rest) ← readEscape rest
      let (cs, rest) ← readChars fuel rest
      .ok (c :: cs, rest)
  | fuel + 1, c :: rest =>
      if c.toNat < 32 then .error (.at .controlCharacter (c :: rest))
      else do
        let (cs, rest) ← readChars fuel rest
        .ok (c :: cs, rest)

/-- A string after its opening quote. -/
def readString : Reader String := fun text => do
  let (cs, rest) ← readChars text.length text
  .ok (String.ofList cs, rest)

/-- What follows an item of a list: the end, or a comma and more items. -/
def readMoreItems (item : Reader Value) : Nat → Reader (List Value)
  | 0, rest => .error (.at .endInList rest)
  | fuel + 1, rest =>
      match skipBlanks rest with
      | [] => .error (.at .endInList [])
      | ']' :: rest => .ok ([], rest)
      | ',' :: rest =>
          match skipBlanks rest with
          | ']' :: rest => .error (.at .trailingComma (']' :: rest))
          | rest => do
              let (v, rest) ← item rest
              let (vs, rest) ← readMoreItems item fuel rest
              .ok (v :: vs, rest)
      | rest => .error (.at .commaOrBracketExpected rest)

/-- The items of a list after its opening bracket. -/
def readItems (item : Reader Value) : Reader (List Value) := fun rest =>
  match skipBlanks rest with
  | [] => .error (.at .endInList [])
  | ']' :: rest => .ok ([], rest)
  | rest => do
      let (v, rest) ← item rest
      let (vs, rest) ← readMoreItems item rest.length rest
      .ok (v :: vs, rest)

/-- A key after its opening quote, a colon and a value. -/
def readField (item : Reader Value) : Reader (String × Value) := fun rest => do
  let (key, rest) ← readString rest
  match skipBlanks rest with
  | [] => .error (.at .endInMap [])
  | ':' :: rest => do
      let (v, rest) ← item rest
      .ok ((key, v), rest)
  | rest => .error (.at .colonExpected rest)

/-- What follows an entry of a map: the end, or a comma and more entries. -/
def readMoreFields (item : Reader Value) : Nat → Reader (List (String × Value))
  | 0, rest => .error (.at .endInMap rest)
  | fuel + 1, rest =>
      match skipBlanks rest with
      | [] => .error (.at .endInMap [])
      | '}' :: rest => .ok ([], rest)
      | ',' :: rest =>
          match skipBlanks rest with
          | [] => .error (.at .endInValue [])
          | '}' :: rest => .error (.at .trailingComma ('}' :: rest))
          | '"' :: rest => do
              let (f, rest) ← readField item rest
              let (fs, rest) ← readMoreFields item fuel rest
              .ok (f :: fs, rest)
          | rest => .error (.at .keyNotString rest)
      | rest => .error (.at .commaOrBraceExpected rest)

/-- The entries of a map after its opening brace. -/
def readFields (item : Reader Value) : Reader (List (String × Value)) := fun rest =>
  match skipBlanks rest with
  | [] => .error (.at .endInMap [])
  | '}' :: rest => .ok ([], rest)
  | '"' :: rest => do
      let (f, rest) ← readField item rest
      let (fs, rest) ← readMoreFields item rest.length rest
      .ok (f :: fs, rest)
  | rest => .error (.at .keyNotString rest)

/-- A value with at most `depth` containers inside one another. -/
def readValue (depth : Nat) (text : List Char) : Except Failure (Value × List Char) :=
  match skipBlanks text with
  | [] => .error (.at .endInValue [])
  | 'n' :: rest => readWord .null ['u', 'l', 'l'] rest
  | 't' :: rest => readWord (.bool true) ['r', 'u', 'e'] rest
  | 'f' :: rest => readWord (.bool false) ['a', 'l', 's', 'e'] rest
  | '"' :: rest => do
      let (s, rest) ← readString rest
      .ok (.string s, rest)
  | '-' :: rest => do
      let (n, rest) ← readNumber true rest
      .ok (.number n, rest)
  | '[' :: rest =>
      match depth with
      | 0 => .error (.at .tooDeep ('[' :: rest))
      | depth + 1 => do
          let (vs, rest) ← readItems (readValue depth) rest
          .ok (.list vs, rest)
  | '{' :: rest =>
      match depth with
      | 0 => .error (.at .tooDeep ('{' :: rest))
      | depth + 1 => do
          let (fs, rest) ← readFields (readValue depth) rest
          .ok (Value.ofFields fs, rest)
  | c :: rest =>
      if isDigit c then do
        let (n, rest) ← readNumber false (c :: rest)
        .ok (.number n, rest)
      else .error (.at .valueExpected (c :: rest))

/-- A value and nothing after it. -/
def readText (depth : Nat) (text : List Char) : Except Failure Value := do
  let (v, rest) ← readValue depth text
  match skipBlanks rest with
  | [] => .ok v
  | rest => .error (.at .trailingCharacters rest)

/-- Reads a whole text, or words what is wrong with it. -/
def read (text : List Char) : Except String Value :=
  (readText depthLimit text).mapError (Failure.message text)

end WorkflowLint.Json
