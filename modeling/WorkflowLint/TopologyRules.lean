import WorkflowLint.Finding
import WorkflowLint.Graph.Search

/-! The optional rules on the shape of the graph. -/

namespace WorkflowLint

namespace TopologyRules

def cycleFindings (g : Graph) : List Finding :=
  if g.isCyclic then [.cycle] else []

/-- A graph without a start vertex is left to the structural rules. -/
def reachFindings (g : Graph) : List Finding :=
  if g.startIds.isEmpty then [] else g.unreachableIds.map Finding.unreachable

end TopologyRules

def topologyFindings (nodes edges : List Value) : List Finding :=
  let g := Graph.build nodes edges
  TopologyRules.cycleFindings g ++ TopologyRules.reachFindings g

end WorkflowLint
