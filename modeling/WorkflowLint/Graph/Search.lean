import WorkflowLint.Graph

/-! Searches in the graph of a workflow: a depth-first search for a cycle, and a search in layers
for what can be reached from the start vertices.
-/

namespace WorkflowLint.Graph

/-- Visits a vertex and what follows from it. The path holds the vertices being visited and
`finished` those known to lie on no cycle; the answer is `none` when an edge leads back into the
path. The path cannot outgrow the depth, since it repeats no vertex. -/
def visit (g : Graph) : Nat → List Nat → List Nat → Nat → Option (List Nat)
  | 0, _, _, _ => none
  | depth + 1, path, finished, v =>
      if v ∈ path then none
      else if v ∈ finished then some finished
      else
        ((g.successors v).foldlM (visit g depth (v :: path)) finished).map (v :: ·)

/-- Whether some edges form a closed walk. -/
def isCyclic (g : Graph) : Bool :=
  let size := g.vertices.length
  ((List.range size).foldlM (visit g (size + 1) []) []).isNone

/-- The vertices one step behind a layer that are not known yet, each once. -/
def nextLayer (g : Graph) (known layer : List Nat) : List Nat :=
  ((layer.flatMap g.successors).filter (fun v => v ∉ known)).eraseDups

/-- Grows the known vertices layer by layer. Every layer but the last brings a new vertex, so as
many rounds as there are vertices suffice. -/
def grow (g : Graph) : Nat → List Nat → List Nat → List Nat
  | 0, known, _ => known
  | rounds + 1, known, layer =>
      match g.nextLayer known layer with
      | [] => known
      | next => grow g rounds (known ++ next) next

def startPositions (g : Graph) : List Nat :=
  (List.range g.vertices.length).filter
    (fun v => (g.vertices[v]?.map isStart).getD false)

/-- The vertices to which a path leads from a start vertex. -/
def reachable (g : Graph) : List Nat :=
  g.grow g.vertices.length g.startPositions g.startPositions

/-- The ids of the other vertices, in the order of declaration. -/
def unreachableIds (g : Graph) : List String :=
  let reached := g.reachable
  (g.vertices.zipIdx.filter (fun entry => entry.2 ∉ reached)).map (fun entry => entry.1.id)

end WorkflowLint.Graph
