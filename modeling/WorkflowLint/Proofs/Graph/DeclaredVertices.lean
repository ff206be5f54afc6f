import Mathlib.Data.List.Induction
import Mathlib.Data.List.Nodup
import WorkflowLint.Proofs.MapReading

/-! The built graph has one vertex for each declared id text and one edge for each resolved edge.
Positions and id texts are interchangeable because no id text is declared twice.
-/

namespace WorkflowLint.Graph

-----------------------------------------------------------------------------------------
-- What a list of nodes declares
-----------------------------------------------------------------------------------------

/-- The distinct texts of the truthy node ids, in the order of first occurrence. -/
def declaredIds (nodes : List Value) : List String :=
  (nodes.filterMap nodeId?).eraseDups

/-- The first node that declares an id text. -/
def declaration? (nodes : List Value) (id : String) : Option Value :=
  nodes.find? (fun node => nodeId? node = some id)

/-- The type that the first declaration of an id text gives to it. -/
def declaredType? (nodes : List Value) (id : String) : Option String :=
  (declaration? nodes id).bind nodeType?

/-- Some edge has two truthy endpoints with these texts, and both texts are declared. -/
def Leads (nodes edges : List Value) (source target : String) : Prop :=
  ∃ edge ∈ edges,
    endpointId? edge "source" = some source
    ∧ endpointId? edge "target" = some target
    ∧ source ∈ declaredIds nodes
    ∧ target ∈ declaredIds nodes

/-- An id text is declared exactly when some node carries it. -/
theorem mem_declaredIds {nodes : List Value} {id : String}
    : id ∈ declaredIds nodes ↔ ∃ node ∈ nodes, nodeId? node = some id := by
  simp [declaredIds]

/-- Keeping first occurrences commutes with appending one element. -/
theorem eraseDups_concat {α : Type} [BEq α] [LawfulBEq α] [DecidableEq α] (xs : List α) (x : α)
    : (xs ++ [x]).eraseDups = if x ∈ xs then xs.eraseDups else xs.eraseDups ++ [x] := by
  rw [List.eraseDups_append]
  by_cases known : x ∈ xs <;> simp [List.removeAll, List.eraseDups_cons, known]

/-- Keeping first occurrences leaves no repetition, by induction from the end. -/
theorem eraseDups_nodup {α : Type} [BEq α] [LawfulBEq α] [DecidableEq α] (xs : List α)
    : xs.eraseDups.Nodup := by
  induction xs using List.reverseRecOn with
  | nil => simp
  | append_singleton xs x ih =>
      rw [eraseDups_concat]
      split
      · exact ih
      · rename_i fresh
        simp only [List.nodup_append, ih, List.nodup_singleton, true_and, List.mem_singleton]
        intro y member z same equal
        exact fresh (List.mem_eraseDups.mp (same ▸ equal ▸ member))

theorem declaredIds_nodup (nodes : List Value) : (declaredIds nodes).Nodup :=
  eraseDups_nodup _

/-- A further node without a truthy id declares nothing. -/
theorem declaredIds_concat_none {nodes : List Value} {node : Value}
    (absent : nodeId? node = none)
    : declaredIds (nodes ++ [node]) = declaredIds nodes := by
  simp [declaredIds, absent]

/-- A further node with a truthy id declares its text unless an earlier node did. -/
theorem declaredIds_concat_some {nodes : List Value} {node : Value} {id : String}
    (found : nodeId? node = some id)
    : declaredIds (nodes ++ [node])
      = if id ∈ declaredIds nodes then declaredIds nodes else declaredIds nodes ++ [id] := by
  have appended : (nodes ++ [node]).filterMap nodeId? = nodes.filterMap nodeId? ++ [id] := by
    simp [found]
  simp only [declaredIds, appended, eraseDups_concat, List.mem_eraseDups]

/-- A declared id text keeps its first declaration when nodes are appended. -/
theorem declaredType?_concat_of_mem {nodes : List Value} {node : Value} {id : String}
    (earlier : id ∈ declaredIds nodes)
    : declaredType? (nodes ++ [node]) id = declaredType? nodes id := by
  obtain ⟨first, member, found⟩ := mem_declaredIds.mp earlier
  have present : (declaration? nodes id).isSome = true := by
    simpa [declaration?] using ⟨first, member, found⟩
  obtain ⟨declared, known⟩ := Option.isSome_iff_exists.mp present
  simp only [declaration?] at known
  simp only [declaredType?, declaration?, List.find?_append, known, Option.some_or]

/-- A new id text is declared by the node that brings it. -/
theorem declaredType?_concat_of_not_mem {nodes : List Value} {node : Value} {id : String}
    (found : nodeId? node = some id) (fresh : id ∉ declaredIds nodes)
    : declaredType? (nodes ++ [node]) id = nodeType? node := by
  have absent : nodes.find? (fun node => nodeId? node = some id) = none := by
    simp only [List.find?_eq_none, decide_eq_true_eq]
    exact fun other member same => fresh (mem_declaredIds.mpr ⟨other, member, same⟩)
  simp [declaredType?, declaration?, List.find?_append, absent, found]

-----------------------------------------------------------------------------------------
-- The vertices are the declared id texts with their first types
-----------------------------------------------------------------------------------------

/-- The vertex that stands for a declared id text. -/
def declaredVertex (nodes : List Value) (id : String) : Vertex :=
  ⟨id, declaredType? nodes id⟩

theorem position?_isSome_iff {vertices : List Vertex} {id : String}
    : (position? vertices id).isSome = true ↔ id ∈ vertices.map Vertex.id := by
  simp [position?, List.findIdx?_isSome]

/-- One more node extends the vertices as it extends the declared id texts.
Witness: an id text that is declared already keeps the type of its first declaration.
-/
theorem addNode_declared (nodes : List Value) (node : Value)
    : addNode ((declaredIds nodes).map (declaredVertex nodes)) node
      = (declaredIds (nodes ++ [node])).map (declaredVertex (nodes ++ [node])) := by
  have kept : (declaredIds nodes).map (declaredVertex (nodes ++ [node]))
      = (declaredIds nodes).map (declaredVertex nodes) := by
    apply List.map_congr_left
    intro id member
    simp only [declaredVertex, declaredType?_concat_of_mem member]
  have texts : ((declaredIds nodes).map (declaredVertex nodes)).map Vertex.id
      = declaredIds nodes := by
    simp [declaredVertex, Function.comp_def]
  cases found : nodeId? node with
  | none => simp only [addNode, found, declaredIds_concat_none found, kept]
  | some id =>
      simp only [addNode, found, position?_isSome_iff, texts, declaredIds_concat_some found]
      by_cases earlier : id ∈ declaredIds nodes
      · simp only [earlier, if_true, kept]
      · simp only [earlier, if_false, List.map_append, kept, List.map_cons, List.map_nil]
        rw [declaredVertex, declaredType?_concat_of_not_mem found earlier]

/-- The vertices of a built graph are the declared id texts in order, each with the type
of its first declaration. Witness: induction on the nodes from the end.
-/
theorem build_vertices (nodes edges : List Value)
    : (build nodes edges).vertices = (declaredIds nodes).map (declaredVertex nodes) := by
  change nodes.foldl addNode [] = _
  induction nodes using List.reverseRecOn with
  | nil => rfl
  | append_singleton nodes node ih =>
      rw [List.foldl_append, ih]
      exact addNode_declared nodes node

theorem build_size (nodes edges : List Value)
    : (build nodes edges).vertices.length = (declaredIds nodes).length := by
  rw [build_vertices, List.length_map]

-----------------------------------------------------------------------------------------
-- Positions and id texts name the same vertices
-----------------------------------------------------------------------------------------

/-- The position of a declared id text is its index; other texts have none. -/
theorem position?_declared (nodes : List Value) (id : String)
    : position? ((declaredIds nodes).map (declaredVertex nodes)) id
      = (declaredIds nodes).idxOf? id := by
  simp only [position?, List.idxOf?, List.findIdx?_map, Function.comp_def, declaredVertex]
  rfl

/-- An id text has a position exactly when that index of the declared texts holds it.
Witness: no text is declared twice, so the first index that holds it is the only one.
-/
theorem idxOf?_declaredIds_eq_some_iff {nodes : List Value} {id : String} {i : Nat}
    : (declaredIds nodes).idxOf? id = some i ↔ (declaredIds nodes)[i]? = some id := by
  rw [List.idxOf?_eq_some_iff, List.getElem?_eq_some_iff]
  constructor
  · intro first
    rcases first with ⟨bound, same, -⟩
    exact ⟨bound, same⟩
  · intro found
    rcases found with ⟨bound, same⟩
    refine ⟨bound, same, ?_⟩
    intro j before equal
    have indices := (declaredIds_nodup nodes).getElem_inj_iff.mp (equal.trans same.symm)
    omega

/-- An edge of the graph leads from one position to the other. -/
def Edge (g : Graph) (v w : Nat) : Prop :=
  (v, w) ∈ g.edges

/-- The edges of a built graph are the leads between the texts at their positions. -/
theorem build_edge_iff {nodes edges : List Value} {i j : Nat}
    : (build nodes edges).Edge i j
      ↔ ∃ source target,
          (declaredIds nodes)[i]? = some source
          ∧ (declaredIds nodes)[j]? = some target
          ∧ Leads nodes edges source target := by
  have vertices : nodes.foldl addNode [] = _ := build_vertices nodes edges
  simp only [Edge, build, List.mem_filterMap, edge?, vertices, position?_declared,
    Option.bind_eq_bind, Option.bind_eq_some_iff, idxOf?_declaredIds_eq_some_iff, Option.pure_def,
    Option.some.injEq, Prod.mk.injEq, Leads]
  constructor
  · intro built
    rcases built with ⟨edge, member, source, atSource, target, atTarget, built⟩
    rcases built with ⟨k, first, l, second, rfl, rfl⟩
    exact ⟨source, target, first, second, edge, member, atSource, atTarget,
      List.mem_of_getElem? first, List.mem_of_getElem? second⟩
  · intro leads
    rcases leads with ⟨source, target, first, second, edge, member, atSource, atTarget, -, -⟩
    exact ⟨edge, member, source, atSource, target, atTarget, i, first, j, second, rfl, rfl⟩

end WorkflowLint.Graph
