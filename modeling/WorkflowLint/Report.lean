import WorkflowLint.Finding

/-! Reports: the errors and the warnings of a validation, each in the order of discovery, and the
two forms in which a report is written out.
-/

namespace WorkflowLint

structure Diagnostic where
  code : String
  message : String
  nodeId : Option String
  deriving DecidableEq

structure Report where
  errors : List Diagnostic
  warnings : List Diagnostic
  deriving DecidableEq

def Finding.diagnostic (f : Finding) : Diagnostic :=
  ⟨f.code, f.message, f.nodeId?⟩

/-- The diagnostics of the findings of one severity. -/
def diagnostics (severity : Severity) (findings : List Finding) : List Diagnostic :=
  (findings.filter (fun f => f.severity = severity)).map Finding.diagnostic

def Diagnostic.toValue (d : Diagnostic) : Value :=
  .map
    ([("code", .string d.code), ("message", .string d.message)]
      ++ (d.nodeId.map (fun id => ("node_id", Value.string id))).toList)

namespace Report

def empty : Report := ⟨[], []⟩

/-- Adds findings at the ends of the two lists. -/
def add (r : Report) (findings : List Finding) : Report :=
  ⟨r.errors ++ diagnostics .error findings, r.warnings ++ diagnostics .warning findings⟩

def ofFindings (findings : List Finding) : Report :=
  empty.add findings

/-- Warnings do not count against a document. -/
def isValid (r : Report) : Bool :=
  r.errors.isEmpty

def line (label : String) (d : Diagnostic) : String :=
  label ++ "[" ++ d.code ++ "]: " ++ d.message ++ "\n"

/-- One line for each warning, then one for each error. -/
def text (r : Report) : String :=
  String.join (r.warnings.map (line "warning") ++ r.errors.map (line "error"))

def toValue (r : Report) : Value :=
  .map
    [
      ("is_valid", .bool r.isValid),
      ("errors", .list (r.errors.map Diagnostic.toValue)),
      ("warnings", .list (r.warnings.map Diagnostic.toValue))
    ]

end Report

end WorkflowLint
