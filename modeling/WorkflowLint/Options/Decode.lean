import WorkflowLint.Binary64.Shortest
import WorkflowLint.Options
import WorkflowLint.Text.Quoted

/-! Options given as a tree: a map with any of the two fields, or a list of their values in order.
-/

namespace WorkflowLint.Options

/-- Why a tree does not give options. -/
inductive DecodeError where
  | wrongType (found : Value) (expected : String)
  | tooLong (length : Nat)

/-- Numbers in these messages are never written with an exponent. -/
def floatLayout : FloatLayout := ⟨-400, 400, []⟩

/-- What a value is, for a message. -/
def describe : Value → String
  | .null => "null"
  | .bool b => "boolean `" ++ toString b ++ "`"
  | .number (.int n) => "integer `" ++ toString n ++ "`"
  | .number (.float x) => "floating point `" ++ String.ofList (x.text floatLayout) ++ "`"
  | .string s => "string " ++ Text.quoted s
  | .list _ => "sequence"
  | .map _ => "map"

def DecodeError.message : DecodeError → String
  | .wrongType found expected => "invalid type: " ++ describe found ++ ", expected " ++ expected
  | .tooLong length => "invalid length " ++ toString length ++ ", expected fewer elements in array"

def decodeText : Value → Except DecodeError String
  | .string s => .ok s
  | v => .error (.wrongType v "a string")

def decodeLanguages : Option Value → Except DecodeError (List String)
  | none => .ok Options.default.codeLanguages
  | some (.list items) => items.mapM decodeText
  | some v => .error (.wrongType v "a sequence")

def decodeChecks : Option Value → Except DecodeError Bool
  | none => .ok Options.default.topologyChecks
  | some (.bool b) => .ok b
  | some v => .error (.wrongType v "a boolean")

/-- The options whose two values are given; a missing one has its default. -/
def ofParts (languages checks : Option Value) : Except DecodeError Options := do
  let codeLanguages ← decodeLanguages languages
  let topologyChecks ← decodeChecks checks
  .ok ⟨codeLanguages, topologyChecks⟩

/-- Reads options from a tree. Other fields of a map are left alone, but a list may not go on. -/
def decode : Value → Except DecodeError Options
  | .map fields => ofParts (fields.lookup "code_languages") (fields.lookup "topology_checks")
  | .list items => do
      let options ← ofParts items[0]? items[1]?
      if items.length ≤ 2 then .ok options else .error (.tooLong items.length)
  | v => .error (.wrongType v "struct ValidatorOptions")

end WorkflowLint.Options
