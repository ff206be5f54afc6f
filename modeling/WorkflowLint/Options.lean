import WorkflowLint.Value

/-! What a user can choose: the languages of code nodes and whether to check the graph as well. -/

namespace WorkflowLint

structure Options where
  codeLanguages : List String
  topologyChecks : Bool
  deriving DecidableEq

def Options.default : Options :=
  ⟨["python3", "javascript"], false⟩

end WorkflowLint
