import WorkflowLint.Yaml.Cursor

/-! The tokens of a YAML text. -/

namespace WorkflowLint.Yaml

/-- Tags are bytes, since their escapes can spell any. -/
abbrev TagText := List UInt8

inductive Token.Kind where
  | streamEnd
  | version (major minor : Nat)
  | tagHandle (handle address : TagText)
  | documentStart
  | documentEnd
  | blockSequenceStart
  | blockMappingStart
  | blockEnd
  | flowSequenceStart
  | flowSequenceEnd
  | flowMappingStart
  | flowMappingEnd
  | blockEntry
  | flowEntry
  | key
  | value
  | alias (name : List Char)
  | anchor (name : List Char)
  | tag (handle suffix : TagText)
  | scalar (text : List Char) (plain : Bool)
  deriving DecidableEq

/-- A token with the places where it starts and where it ends. -/
structure Token where
  kind : Token.Kind
  start : Mark
  finish : Mark

end WorkflowLint.Yaml
