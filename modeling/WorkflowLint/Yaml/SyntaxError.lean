/-! Places in a YAML text, and what can be wrong with its form: the problem and where it shows, and
what was being read there and where that began.
-/

namespace WorkflowLint.Yaml

/-- A place in a text, all counts from zero and in characters. -/
structure Mark where
  index : Nat
  line : Nat
  column : Nat
  deriving DecidableEq

def Mark.origin : Mark := ⟨0, 0, 0⟩

/-- Whether two marks are in the same place of the same line. -/
def Mark.samePlace (a b : Mark) : Bool :=
  a.line == b.line && a.column == b.column

/-- The words for a mark, which the very first place goes without. -/
def Mark.suffix (m : Mark) : String :=
  if m.samePlace .origin then ""
  else " at line " ++ toString (m.line + 1) ++ " column " ++ toString (m.column + 1)

inductive Problem where
  | colonExpected
  | blockEntryNotAllowed
  | keyNotAllowed
  | valueNotAllowed
  | noTokenStartsHere
  | directiveNameExpected
  | directiveNameBroken
  | directiveUnknown
  | lineEndExpected
  | versionDotExpected
  | versionTooLong
  | versionExpected
  | blankExpected
  | blankOrBreakExpected
  | anchorNameExpected
  | closingAngleExpected
  | tagMarkExpected
  | tagAddressExpected
  | octetExpected
  | leadingOctetWrong
  | trailingOctetWrong
  | indentationZero
  | tabForSpace
  | tabBreaksIndentation
  | streamEnds
  | documentMark
  | escapeUnknown
  | hexDigitExpected
  | codePointInvalid
  | colonUnexpected
  | documentStartExpected
  | versionRepeated
  | versionIncompatible
  | tagHandleRepeated
  | tagHandleUndefined
  | nodeExpected
  | dashExpected
  | blockKeyExpected
  | commaOrBracketExpected
  | commaOrBraceExpected
  deriving DecidableEq

def Problem.message : Problem → String
  | .colonExpected => "could not find expected ':'"
  | .blockEntryNotAllowed => "block sequence entries are not allowed in this context"
  | .keyNotAllowed => "mapping keys are not allowed in this context"
  | .valueNotAllowed => "mapping values are not allowed in this context"
  | .noTokenStartsHere => "found character that cannot start any token"
  | .directiveNameExpected => "could not find expected directive name"
  | .directiveNameBroken => "found unexpected non-alphabetical character"
  | .directiveUnknown => "found unknown directive name"
  | .lineEndExpected => "did not find expected comment or line break"
  | .versionDotExpected => "did not find expected digit or '.' character"
  | .versionTooLong => "found extremely long version number"
  | .versionExpected => "did not find expected version number"
  | .blankExpected => "did not find expected whitespace"
  | .blankOrBreakExpected => "did not find expected whitespace or line break"
  | .anchorNameExpected => "did not find expected alphabetic or numeric character"
  | .closingAngleExpected => "did not find the expected '>'"
  | .tagMarkExpected => "did not find expected '!'"
  | .tagAddressExpected => "did not find expected tag URI"
  | .octetExpected => "did not find URI escaped octet"
  | .leadingOctetWrong => "found an incorrect leading UTF-8 octet"
  | .trailingOctetWrong => "found an incorrect trailing UTF-8 octet"
  | .indentationZero => "found an indentation indicator equal to 0"
  | .tabForSpace => "found a tab character where an indentation space is expected"
  | .tabBreaksIndentation => "found a tab character that violates indentation"
  | .streamEnds => "found unexpected end of stream"
  | .documentMark => "found unexpected document indicator"
  | .escapeUnknown => "found unknown escape character"
  | .hexDigitExpected => "did not find expected hexadecimal number"
  | .codePointInvalid => "found invalid Unicode character escape code"
  | .colonUnexpected => "found unexpected ':'"
  | .documentStartExpected => "did not find expected <document start>"
  | .versionRepeated => "found duplicate %YAML directive"
  | .versionIncompatible => "found incompatible YAML document"
  | .tagHandleRepeated => "found duplicate %TAG directive"
  | .tagHandleUndefined => "found undefined tag handle"
  | .nodeExpected => "did not find expected node content"
  | .dashExpected => "did not find expected '-' indicator"
  | .blockKeyExpected => "did not find expected key"
  | .commaOrBracketExpected => "did not find expected ',' or ']'"
  | .commaOrBraceExpected => "did not find expected ',' or '\x7d'"

/-- What was being read. -/
inductive Activity where
  | simpleKey
  | nextToken
  | directive
  | versionDirective
  | tagDirective
  | tagDirectiveHandle
  | tagDirectiveAddress
  | brokenTagDirectiveHandle
  | anchor
  | alias
  | tag
  | tagAddress
  | blockScalar
  | quotedScalar
  | quotedEscape
  | plainScalar
  | node
  | blockNode
  | flowNode
  | blockSequence
  | blockMapping
  | flowSequence
  | flowMapping
  deriving DecidableEq

def Activity.words : Activity → String
  | .simpleKey => "while scanning a simple key"
  | .nextToken => "while scanning for the next token"
  | .directive => "while scanning a directive"
  | .versionDirective => "while scanning a %YAML directive"
  | .tagDirective => "while scanning a %TAG directive"
  | .tagDirectiveHandle => "while scanning a tag directive"
  | .tagDirectiveAddress => "while parsing a %TAG directive"
  | .brokenTagDirectiveHandle => "while parsing a tag directive"
  | .anchor => "while scanning an anchor"
  | .alias => "while scanning an alias"
  | .tag => "while scanning a tag"
  | .tagAddress => "while parsing a tag"
  | .blockScalar => "while scanning a block scalar"
  | .quotedScalar => "while scanning a quoted scalar"
  | .quotedEscape => "while parsing a quoted scalar"
  | .plainScalar => "while scanning a plain scalar"
  | .node => "while parsing a node"
  | .blockNode => "while parsing a block node"
  | .flowNode => "while parsing a flow node"
  | .blockSequence => "while parsing a block collection"
  | .blockMapping => "while parsing a block mapping"
  | .flowSequence => "while parsing a flow sequence"
  | .flowMapping => "while parsing a flow mapping"

/-- A fault in the form of a text; or, before any reading, a character that may not occur in one,
by its byte. -/
inductive SyntaxError where
  | forbiddenCharacter (byte : Nat)
  | fault (problem : Problem) (mark : Mark) (during : Option (Activity × Mark))
  deriving DecidableEq

def SyntaxError.message : SyntaxError → String
  | .forbiddenCharacter byte =>
      "control characters are not allowed"
        ++ (if byte = 0 then "" else " at position " ++ toString byte)
  | .fault problem mark none => problem.message ++ mark.suffix
  | .fault problem mark (some (activity, start)) =>
      problem.message ++ mark.suffix ++ ", " ++ activity.words
        ++ (if start.samePlace mark then "" else start.suffix)

end WorkflowLint.Yaml
