import WorkflowLint.Finding
import WorkflowLint.NodeKind
import WorkflowLint.Options

/-! The rules of each node kind on the data of a node. Data that is not a map reads as an empty one,
and a list of variables or outputs that is not a list reads as an empty one.
-/

namespace WorkflowLint

namespace NodeRules

/-- One finding when a condition fails. -/
def require (holds : Bool) (finding : NodeFinding) : List NodeFinding :=
  if holds then [] else [finding]

/-- The name of a variable or output for messages, a question mark when it has none. -/
def entryName (entry : Value) : String :=
  match entry.get? "variable" with
  | some name => Value.render (some name)
  | none => "?"

def variableFindings (entry : Value) : List NodeFinding :=
  require (entry.has "variable") .variableUnnamed
    ++ require (entry.has "type") (.variableUntyped (entryName entry))

def outputFindings (entry : Value) : List NodeFinding :=
  require (entry.has "variable") .outputUnnamed
    ++ require (entry.has "value_selector") (.outputWithoutSelector (entryName entry))

def startFindings (data : Value) : List NodeFinding :=
  match data.get? "variables" with
  | none => [.startWithoutVariables]
  | some declared => declared.entries.flatMap variableFindings

def endFindings (data : Value) : List NodeFinding :=
  match data.get? "outputs" with
  | none => [.endWithoutOutputs]
  | some outputs => outputs.entries.flatMap outputFindings

/-- A section that has to be there and should not be empty. -/
def sectionFindings (data : Value) (key : String) (missing empty : NodeFinding)
    : List NodeFinding :=
  match data.get? key with
  | none => [missing]
  | some content => require content.isTruthy empty

def modelFields : List String := ["provider", "name", "mode"]

def modelFindings (data : Value) : List NodeFinding :=
  match data.get? "model" with
  | none => [.modelMissing]
  | some model =>
      modelFields.flatMap (fun field => require (model.has field) (.modelFieldMissing field))

def llmFindings (data : Value) : List NodeFinding :=
  modelFindings data ++ sectionFindings data "prompt_template" .promptMissing .promptEmpty

def codeFields : List String := ["code", "code_language"]

/-- A language has to be one of the given strings. -/
def isKnownLanguage (languages : List String) (language : Value) : Bool :=
  language.asString?.any (fun name => name ∈ languages)

def languageFindings (languages : List String) (data : Value) : List NodeFinding :=
  match data.get? "code_language" with
  | none => []
  | some language =>
      require (isKnownLanguage languages language) (.languageUnknown language)

def codeFindings (languages : List String) (data : Value) : List NodeFinding :=
  codeFields.flatMap (fun field => require (data.has field) (.codeFieldMissing field))
    ++ languageFindings languages data
    ++ require (data.has "outputs") .codeWithoutOutputs

def aggregatorFindings (data : Value) : List NodeFinding :=
  sectionFindings data "variables" .aggregatedMissing .aggregatedEmpty
    ++ require (data.has "output_type") .outputTypeMissing

def ifElseFindings (data : Value) : List NodeFinding :=
  sectionFindings data "conditions" .conditionsMissing .conditionsEmpty

end NodeRules

/-- What the rules of a kind find in the data of a node. -/
def NodeKind.findings (kind : NodeKind) (options : Options) (data : Value)
    : List NodeFinding :=
  match kind with
  | .start => NodeRules.startFindings data
  | .end => NodeRules.endFindings data
  | .llm => NodeRules.llmFindings data
  | .code => NodeRules.codeFindings options.codeLanguages data
  | .variableAggregator => NodeRules.aggregatorFindings data
  | .ifElse => NodeRules.ifElseFindings data

/-- The same findings, each tied to the node. -/
def nodeDataFindings (kind : NodeKind) (options : Options) (id : String) (data : Value)
    : List Finding :=
  (kind.findings options data).map (Finding.inNode id)

end WorkflowLint
