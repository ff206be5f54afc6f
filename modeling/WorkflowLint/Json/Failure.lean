/-! Why a text is not JSON, and where: the cause, and the text that was left. -/

namespace WorkflowLint.Json

inductive Cause where
  | endInValue
  | endInList
  | endInMap
  | endInString
  | valueExpected
  | wordExpected
  | commaOrBracketExpected
  | commaOrBraceExpected
  | colonExpected
  | trailingComma
  | trailingCharacters
  | keyNotString
  | invalidNumber
  | numberOutOfRange
  | invalidEscape
  | controlCharacter
  | loneSurrogate
  | brokenSurrogatePair
  | tooDeep
  deriving DecidableEq

def Cause.message : Cause → String
  | .endInValue => "EOF while parsing a value"
  | .endInList => "EOF while parsing a list"
  | .endInMap => "EOF while parsing an object"
  | .endInString => "EOF while parsing a string"
  | .valueExpected => "expected value"
  | .wordExpected => "expected ident"
  | .commaOrBracketExpected => "expected `,` or `]`"
  | .commaOrBraceExpected => "expected `,` or `\x7d`"
  | .colonExpected => "expected `:`"
  | .trailingComma => "trailing comma"
  | .trailingCharacters => "trailing characters"
  | .keyNotString => "key must be a string"
  | .invalidNumber => "invalid number"
  | .numberOutOfRange => "number out of range"
  | .invalidEscape => "invalid escape"
  | .controlCharacter => "control character (\\u0000-\\u001F) found while parsing a string"
  | .loneSurrogate => "lone leading surrogate in hex escape"
  | .brokenSurrogatePair => "unexpected end of hex escape"
  | .tooDeep => "recursion limit exceeded"

/-- A cause, the text left when it was met, and how many bytes of that text belong to the fault. -/
structure Failure where
  cause : Cause
  rest : List Char
  bytes : Nat

/-- A fault at the character that comes next. -/
def Failure.at (cause : Cause) (rest : List Char) : Failure :=
  ⟨cause, rest, 1⟩

def utf8 (text : List Char) : List UInt8 :=
  text.flatMap String.utf8EncodeChar

/-- The line, from one, and the number of bytes in it that come before the end of a text. -/
def lineAndColumn (bytes : List UInt8) : Nat × Nat :=
  (bytes.count 10 + 1, (bytes.reverse.takeWhile (fun b => b != 10)).length)

/-- The wording of a failure in a text, with the place where the faulty bytes end. -/
def Failure.message (text : List Char) (f : Failure) : String :=
  let bytes := utf8 text
  let before := bytes.length - (utf8 f.rest).length
  let (line, column) := lineAndColumn (bytes.take (before + f.bytes))
  f.cause.message ++ " at line " ++ toString line ++ " column " ++ toString column

end WorkflowLint.Json
