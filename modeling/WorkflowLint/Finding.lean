import WorkflowLint.Json.Text

/-! What the rules find wrong with a workflow: one constructor for each cause, with the code, the
weight and the wording of each in one place.
-/

namespace WorkflowLint

inductive Severity where
  | warning
  | error
  deriving DecidableEq

/-- The two ends of an edge. -/
inductive Endpoint where
  | source
  | target
  deriving DecidableEq

def Endpoint.name : Endpoint → String
  | .source => "source"
  | .target => "target"

/-- What the rules of a node kind find in the data of one node. -/
inductive NodeFinding where
  | startWithoutVariables
  | variableUnnamed
  | variableUntyped (name : String)
  | endWithoutOutputs
  | outputUnnamed
  | outputWithoutSelector (name : String)
  | modelMissing
  | modelFieldMissing (field : String)
  | promptMissing
  | promptEmpty
  | codeFieldMissing (field : String)
  | languageUnknown (language : Value)
  | codeWithoutOutputs
  | aggregatedMissing
  | aggregatedEmpty
  | outputTypeMissing
  | conditionsMissing
  | conditionsEmpty

namespace NodeFinding

def code : NodeFinding → String
  | .startWithoutVariables => "N001"
  | .variableUnnamed => "N002"
  | .variableUntyped _ => "N003"
  | .endWithoutOutputs => "N004"
  | .outputUnnamed => "N005"
  | .outputWithoutSelector _ => "N006"
  | .modelMissing => "N007"
  | .modelFieldMissing _ => "N008"
  | .promptMissing => "N009"
  | .promptEmpty => "N010"
  | .codeFieldMissing _ => "N011"
  | .languageUnknown _ => "N012"
  | .codeWithoutOutputs => "N013"
  | .aggregatedMissing => "N014"
  | .aggregatedEmpty => "N015"
  | .outputTypeMissing => "N016"
  | .conditionsMissing => "N017"
  | .conditionsEmpty => "N018"

/-- What a node may do without, or may leave empty, is worth a warning. -/
def severity : NodeFinding → Severity
  | .startWithoutVariables
  | .endWithoutOutputs
  | .promptEmpty
  | .codeWithoutOutputs
  | .aggregatedEmpty
  | .conditionsEmpty => .warning
  | _ => .error

def message (id : String) : NodeFinding → String
  | .startWithoutVariables => "Start node " ++ id ++ " has no variables defined"
  | .variableUnnamed => "Variable in start node " ++ id ++ " missing 'variable' name"
  | .variableUntyped name =>
      "Variable '" ++ name ++ "' in start node " ++ id ++ " missing 'type'"
  | .endWithoutOutputs => "End node " ++ id ++ " has no outputs defined"
  | .outputUnnamed => "Output in end node " ++ id ++ " missing 'variable' name"
  | .outputWithoutSelector name =>
      "Output '" ++ name ++ "' in end node " ++ id ++ " missing 'value_selector'"
  | .modelMissing => "LLM node " ++ id ++ " missing 'model' configuration"
  | .modelFieldMissing field => "LLM node " ++ id ++ " model missing '" ++ field ++ "'"
  | .promptMissing => "LLM node " ++ id ++ " missing 'prompt_template'"
  | .promptEmpty => "LLM node " ++ id ++ " has empty prompt_template"
  | .codeFieldMissing field => "Code node " ++ id ++ " missing '" ++ field ++ "'"
  | .languageUnknown language =>
      "Code node " ++ id ++ " has invalid code_language: " ++ Value.render (some language)
  | .codeWithoutOutputs => "Code node " ++ id ++ " has no outputs defined"
  | .aggregatedMissing => "Variable aggregator node " ++ id ++ " missing 'variables'"
  | .aggregatedEmpty => "Variable aggregator node " ++ id ++ " has empty variables list"
  | .outputTypeMissing => "Variable aggregator node " ++ id ++ " missing 'output_type'"
  | .conditionsMissing => "If-else node " ++ id ++ " missing 'conditions'"
  | .conditionsEmpty => "If-else node " ++ id ++ " has empty conditions list"

end NodeFinding

/-- What the rules find in a document. -/
inductive Finding where
  | topLevelFieldMissing (field : String)
  | kindNotApp (kind : Option Value)
  | appFieldMissing (field : String)
  | modeNotWorkflow (mode : Value)
  | graphMissing
  | nodesMissing
  | edgesMissing
  | notAList (field : String)
  | idMissing (index : Nat)
  | idRepeated (id : String)
  | dataMissing (id : String)
  | typeMissing (id : String)
  | noStart
  | noEnd
  | endpointMissing (index : Nat) (endpoint : Endpoint)
  | endpointUnknown (endpoint : Endpoint) (id : String)
  | inNode (id : String) (finding : NodeFinding)
  | cycle
  | unreachable (id : String)

namespace Finding

def code : Finding → String
  | .topLevelFieldMissing _ => "D001"
  | .kindNotApp _ => "D002"
  | .appFieldMissing _ => "A001"
  | .modeNotWorkflow _ => "A002"
  | .graphMissing => "W001"
  | .nodesMissing => "W002"
  | .edgesMissing => "W003"
  | .notAList _ => "W004"
  | .idMissing _ => "G001"
  | .idRepeated _ => "G002"
  | .dataMissing _ => "G003"
  | .typeMissing _ => "G004"
  | .noStart => "G005"
  | .noEnd => "G006"
  | .endpointMissing _ _ => "E001"
  | .endpointUnknown _ _ => "E002"
  | .inNode _ finding => finding.code
  | .cycle => "T001"
  | .unreachable _ => "T002"

/-- The shape of the graph is only ever worth a warning. -/
def severity : Finding → Severity
  | .inNode _ finding => finding.severity
  | .cycle | .unreachable _ => .warning
  | _ => .error

def message : Finding → String
  | .topLevelFieldMissing field => "Missing required top-level field: " ++ field
  | .kindNotApp kind =>
      "Invalid 'kind' value: expected 'app', got '" ++ Value.render kind ++ "'"
  | .appFieldMissing field => "Missing required app field: " ++ field
  | .modeNotWorkflow mode =>
      "Invalid app mode: expected 'workflow', got '" ++ Value.render (some mode) ++ "'"
  | .graphMissing => "Missing required workflow field: graph"
  | .nodesMissing => "Missing 'nodes' in graph"
  | .edgesMissing => "Missing 'edges' in graph"
  | .notAList field => "'" ++ field ++ "' in graph must be a list"
  | .idMissing index => "Node at index " ++ toString index ++ " missing 'id'"
  | .idRepeated id => "Duplicate node ID: " ++ id
  | .dataMissing id => "Node " ++ id ++ " missing 'data'"
  | .typeMissing id => "Node " ++ id ++ " missing type"
  | .noStart => "Workflow must have at least one 'start' node"
  | .noEnd => "Workflow must have at least one 'end' node"
  | .endpointMissing index endpoint =>
      "Edge at index " ++ toString index ++ " missing '" ++ endpoint.name ++ "'"
  | .endpointUnknown endpoint id =>
      "Edge references non-existent " ++ endpoint.name ++ " node: " ++ id
  | .inNode id finding => finding.message id
  | .cycle => "Workflow graph contains a cycle"
  | .unreachable id => "Node " ++ id ++ " is not reachable from any 'start' node"

/-- The node that a finding is about, where it is about one that has an id. -/
def nodeId? : Finding → Option String
  | .idRepeated id | .dataMissing id | .typeMissing id | .inNode id _ | .unreachable id => some id
  | _ => none

end Finding

end WorkflowLint
