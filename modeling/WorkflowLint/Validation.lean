import WorkflowLint.Log
import WorkflowLint.Report
import WorkflowLint.StructureRules

/-! Validation: reports on documents, nodes and graphs, each added to what a report already holds.
-/

namespace WorkflowLint

namespace Report

/-- Adds what the rules find in a document. -/
def checkDocument (options : Options) (document : Value) (r : Report) : Report :=
  r.add (documentFindings options document)

/-- Adds what the rules of a kind find in the data of a node. -/
def checkNode (options : Options) (kind : NodeKind) (id : String) (data : Value) (r : Report)
    : Report :=
  r.add (nodeDataFindings kind options id data)

/-- Adds what the rules on the graph find. -/
def checkTopology (nodes edges : List Value) (r : Report) : Report :=
  r.add (topologyFindings nodes edges)

end Report

/-- The report on a document. -/
def validate (options : Options) (document : Value) : Report :=
  Report.empty.checkDocument options document

namespace Validation

def event (level : Log.Level) (source message : String) (fields : List (String × String))
    : Log.Event :=
  ⟨level, some "validate", source, message, fields⟩

def rulesSource : String := "dsl_validator::validate::structural"

/-- What is told about a node: whether its type has rules. -/
def nodeEvents (node : Value) : List Log.Event :=
  match StructureRules.outline node with
  | .known id kind _ =>
      [event .trace rulesSource "checking node"
        [("node_id", id), ("node_type", "\"" ++ kind.tag ++ "\"")]]
  | .unknownType id type =>
      [event .trace rulesSource "no rules for node type"
        [("node_id", id), ("node_type", type.jsonText)]]
  | _ => []

/-- The nodes that the rules come to. -/
def checkedNodes (document : Value) : List Value :=
  match (document.get? "workflow").bind (Value.get? · "graph") with
  | none => []
  | some graph =>
      match graph.get? "nodes", graph.get? "edges" with
      | some nodes, some _ => nodes.entries
      | _, _ => []

/-- What is told about a validation. -/
def events (options : Options) (document : Value) : List Log.Event :=
  let r := validate options document
  (checkedNodes document).flatMap nodeEvents
    ++ [event .debug "dsl_validator::validate" "validation finished"
      [("errors", toString r.errors.length), ("warnings", toString r.warnings.length)]]

end Validation

end WorkflowLint
