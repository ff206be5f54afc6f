import WorkflowLint.Json.Text

/-! The directed graph of a workflow. Building it is lenient: nodes without an id, nodes that repeat
an id and edges with an end that names no node are left out.
-/

namespace WorkflowLint

structure Vertex where
  id : String
  type : Option String
  deriving DecidableEq

/-- Vertices in the order of declaration; an edge is a pair of positions among them. -/
structure Graph where
  vertices : List Vertex
  edges : List (Nat × Nat)
  deriving DecidableEq

namespace Graph

/-- The id text of a node, if its id is truthy. -/
def nodeId? (node : Value) : Option String :=
  (node.truthy? "id").map Value.idText

/-- The id text at one end of an edge, if that end is truthy. -/
def endpointId? (edge : Value) (endpoint : String) : Option String :=
  (edge.truthy? endpoint).map Value.idText

def nodeType? (node : Value) : Option String := do
  let data ← node.get? "data"
  let type ← data.get? "type"
  type.asString?

/-- The position of the vertex with an id. -/
def position? (vertices : List Vertex) (id : String) : Option Nat :=
  vertices.findIdx? (fun vertex => vertex.id = id)

/-- Only the first node with an id becomes a vertex. -/
def addNode (vertices : List Vertex) (node : Value) : List Vertex :=
  match nodeId? node with
  | none => vertices
  | some id =>
      if (position? vertices id).isSome then vertices
      else vertices ++ [⟨id, nodeType? node⟩]

def edge? (vertices : List Vertex) (edge : Value) : Option (Nat × Nat) := do
  let source ← endpointId? edge "source"
  let target ← endpointId? edge "target"
  let i ← position? vertices source
  let j ← position? vertices target
  return (i, j)

def build (nodes edges : List Value) : Graph :=
  let vertices := nodes.foldl addNode []
  ⟨vertices, edges.filterMap (edge? vertices)⟩

def index? (g : Graph) (id : String) : Option Nat :=
  position? g.vertices id

def successors (g : Graph) (v : Nat) : List Nat :=
  (g.edges.filter (fun e => e.1 = v)).map Prod.snd

def isStart (vertex : Vertex) : Bool :=
  vertex.type = some "start"

/-- The ids of the vertices of type `start`, in the order of declaration. -/
def startIds (g : Graph) : List String :=
  (g.vertices.filter isStart).map Vertex.id

end Graph

end WorkflowLint
