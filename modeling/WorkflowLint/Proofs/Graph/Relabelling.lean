import WorkflowLint.Graph.Search

/-! Giving the vertices of a graph other ids leaves its edges and both searches as they are.
Distinct ids have to stay distinct where vertices are found by their ids.
-/

namespace WorkflowLint

/-- A vertex with another id. -/
def Vertex.relabel (name : String → String) (vertex : Vertex) : Vertex :=
  { vertex with id := name vertex.id }

namespace Graph

/-- A graph with other ids on its vertices. -/
def relabel (name : String → String) (g : Graph) : Graph :=
  { g with vertices := g.vertices.map (Vertex.relabel name) }

variable (name : String → String)

@[simp] theorem length_relabel (g : Graph)
    : (g.relabel name).vertices.length = g.vertices.length :=
  List.length_map _

-----------------------------------------------------------------------------------------
-- Searches follow positions
-----------------------------------------------------------------------------------------

/-- A visit follows edges only, by induction on the depth. -/
theorem visit_relabel (g : Graph) (depth : Nat) : visit (g.relabel name) depth = visit g depth := by
  induction depth with
  | zero => rfl
  | succ depth ih =>
      funext path finished v
      simp only [visit, ih]
      rfl

@[simp] theorem isCyclic_relabel (g : Graph) : (g.relabel name).isCyclic = g.isCyclic := by
  simp only [isCyclic, length_relabel, visit_relabel]

/-- Layers follow edges only, by induction on the rounds. -/
theorem grow_relabel (g : Graph) (rounds : Nat) : grow (g.relabel name) rounds = grow g rounds := by
  induction rounds with
  | zero => rfl
  | succ rounds ih =>
      funext known layer
      simp only [grow, ih]
      rfl

theorem startPositions_relabel (g : Graph)
    : (g.relabel name).startPositions = g.startPositions := by
  simp only [startPositions, relabel, List.length_map, List.getElem?_map, Option.map_map]
  rfl

theorem reachable_relabel (g : Graph) : (g.relabel name).reachable = g.reachable := by
  simp only [reachable, length_relabel, startPositions_relabel, grow_relabel]

theorem startIds_relabel (g : Graph) : (g.relabel name).startIds = g.startIds.map name := by
  simp only [startIds, relabel, List.filter_map, List.map_map]
  rfl

/-- The same vertices are unreachable, under their other ids. -/
theorem unreachableIds_relabel (g : Graph)
    : (g.relabel name).unreachableIds = g.unreachableIds.map name := by
  rw [unreachableIds, unreachableIds, reachable_relabel]
  simp only [relabel, List.zipIdx_map, List.filter_map, List.map_map]
  rfl

-----------------------------------------------------------------------------------------
-- Positions follow ids
-----------------------------------------------------------------------------------------

/-- Vertices keep their positions when distinct ids stay distinct. -/
theorem position?_relabel {name : String → String} (injective : Function.Injective name)
    (vertices : List Vertex) (id : String)
    : position? (vertices.map (Vertex.relabel name)) (name id) = position? vertices id := by
  simp only [position?, List.findIdx?_map, Function.comp_def, Vertex.relabel, injective.eq_iff]

end Graph

end WorkflowLint
