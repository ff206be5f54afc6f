import Mathlib.Logic.Relation
import WorkflowLint.Graph.Search
import WorkflowLint.Proofs.Graph.DeclaredVertices

/-! Walks of a graph along its edges, and the same walks along declared id texts. -/

namespace WorkflowLint.Graph

open Relation (TransGen ReflTransGen)

/-- Both positions of every edge belong to vertices. -/
def WellScoped (g : Graph) : Prop :=
  ∀ {v w}, g.Edge v w → v < g.vertices.length ∧ w < g.vertices.length

/-- Distinct positions of vertices are no more than the vertices. -/
theorem length_le_of_inRange {g : Graph} {positions : List Nat} (unique : positions.Nodup)
    (inRange : ∀ v ∈ positions, v < g.vertices.length)
    : positions.length ≤ g.vertices.length := by
  have included : positions ⊆ List.range g.vertices.length := fun v member =>
    List.mem_range.mpr (inRange v member)
  simpa only [List.length_range] using unique.length_le_of_subset included

theorem mem_successors {g : Graph} {v w : Nat} : w ∈ g.successors v ↔ g.Edge v w := by
  simp only [successors, Edge, List.mem_map, List.mem_filter, decide_eq_true_eq]
  constructor
  · intro successor
    rcases successor with ⟨⟨_, _⟩, ⟨member, rfl⟩, rfl⟩
    exact member
  · exact fun member => ⟨(v, w), ⟨member, rfl⟩, rfl⟩

/-- Edges are built between vertices only. -/
theorem build_wellScoped (nodes edges : List Value) : (build nodes edges).WellScoped := by
  intro v w edge
  obtain ⟨source, target, first, second, -⟩ := build_edge_iff.mp edge
  rw [build_size]
  exact ⟨(List.getElem?_eq_some_iff.mp first).1, (List.getElem?_eq_some_iff.mp second).1⟩

/-- The declared text at a position, for positions of vertices. -/
def textAt (nodes : List Value) (i : Nat) : String :=
  (declaredIds nodes).getD i ""

theorem textAt_eq {nodes : List Value} {i : Nat} {id : String}
    (found : (declaredIds nodes)[i]? = some id)
    : textAt nodes i = id := by
  simp [textAt, List.getD_eq_getElem?_getD, found]

/-- An edge of the built graph is a lead between the texts at its positions. -/
theorem leads_of_edge {nodes edges : List Value} {i j : Nat}
    (edge : (build nodes edges).Edge i j)
    : Leads nodes edges (textAt nodes i) (textAt nodes j) := by
  obtain ⟨source, target, first, second, leads⟩ := build_edge_iff.mp edge
  rwa [textAt_eq first, textAt_eq second]

theorem getElem?_idxOf_declaredIds {nodes : List Value} {id : String}
    (declared : id ∈ declaredIds nodes)
    : (declaredIds nodes)[(declaredIds nodes).idxOf id]? = some id :=
  List.getElem?_eq_some_iff.mpr ⟨List.idxOf_lt_length_iff.mpr declared, List.getElem_idxOf _⟩

/-- A lead between texts is an edge between their positions. -/
theorem edge_of_leads {nodes edges : List Value} {source target : String}
    (leads : Leads nodes edges source target)
    : (build nodes edges).Edge ((declaredIds nodes).idxOf source)
        ((declaredIds nodes).idxOf target) := by
  have declared := leads
  rcases declared with ⟨_, _, _, _, atSource, atTarget⟩
  exact build_edge_iff.mpr
    ⟨source, target, getElem?_idxOf_declaredIds atSource, getElem?_idxOf_declaredIds atTarget,
      leads⟩

/-- The built graph has a closed walk exactly when some id text leads back to itself.
Witness: positions and texts translate single edges both ways.
-/
theorem closedWalk_iff {nodes edges : List Value}
    : (∃ i, TransGen (build nodes edges).Edge i i)
      ↔ ∃ id, TransGen (Leads nodes edges) id id := by
  constructor
  · intro closed
    rcases closed with ⟨i, walk⟩
    exact ⟨_, TransGen.lift (textAt nodes) (fun _ _ => leads_of_edge) _ _ walk⟩
  · intro closed
    rcases closed with ⟨id, walk⟩
    exact ⟨_, TransGen.lift (declaredIds nodes).idxOf (fun _ _ => edge_of_leads) _ _ walk⟩

/-- Walks between two positions are walks between the declared texts found there. -/
theorem walk_iff {nodes edges : List Value} {i j : Nat} {source target : String}
    (first : (declaredIds nodes)[i]? = some source)
    (second : (declaredIds nodes)[j]? = some target)
    : ReflTransGen (build nodes edges).Edge i j
      ↔ ReflTransGen (Leads nodes edges) source target := by
  have position {k : Nat} {id : String} (found : (declaredIds nodes)[k]? = some id)
      : (declaredIds nodes).idxOf id = k := by
    obtain ⟨bound, rfl⟩ := List.getElem?_eq_some_iff.mp found
    exact (declaredIds_nodup nodes).idxOf_getElem k bound
  constructor
  · intro walk
    have lifted := ReflTransGen.lift (textAt nodes) (fun _ _ => leads_of_edge) _ _ walk
    simpa only [Function.onFun, textAt_eq first, textAt_eq second] using lifted
  · intro walk
    have lifted := ReflTransGen.lift (declaredIds nodes).idxOf (fun _ _ => edge_of_leads) _ _ walk
    simpa only [Function.onFun, position first, position second] using lifted

end WorkflowLint.Graph
