import Mathlib.Data.Set.Function
import WorkflowLint.Proofs.Structure.GraphSection
import WorkflowLint.Proofs.Structure.PlaceFindings

/-! The graph of a workflow and the rules on its nodes and edges agree on what is declared.
A node is a vertex of its own, and an edge is an edge of the graph, exactly where nothing is
reported about its ids. They also agree on what starts, unless every start repeats an id.
-/

namespace WorkflowLint.StructureRules

open WorkflowLint.Graph

-----------------------------------------------------------------------------------------
-- Keys and positions
-----------------------------------------------------------------------------------------

/-- The built graph finds an id text at the one position where it is declared. -/
theorem index?_build_iff {nodes edges : List Value} {id : String} {i : Nat}
    : (build nodes edges).index? id = some i ↔ (declaredIds nodes)[i]? = some id := by
  rw [index?, build_vertices, position?_declared, idxOf?_declaredIds_eq_some_iff]

/-- The built graph knows exactly the declared id texts. -/
theorem index?_build_isSome_iff {nodes edges : List Value} {id : String}
    : ((build nodes edges).index? id).isSome = true ↔ id ∈ declaredIds nodes := by
  simp only [Option.isSome_iff_exists, index?_build_iff, List.mem_iff_getElem?]

/-- Looking up is a bijection from the declared id texts onto the positions of the vertices. -/
theorem index?_build_bijOn (nodes edges : List Value)
    : Set.BijOn (build nodes edges).index? {id | id ∈ declaredIds nodes}
        (some '' {i | i < (build nodes edges).vertices.length}) := by
  rw [build_size]
  refine ⟨?_, ?_, ?_⟩
  · intro id declared
    have found := getElem?_idxOf_declaredIds declared
    exact ⟨_, (List.getElem?_eq_some_iff.mp found).1, (index?_build_iff.mpr found).symm⟩
  · intro first declared second _ same
    have found := getElem?_idxOf_declaredIds declared
    have other := index?_build_iff.mp (same.symm.trans (index?_build_iff.mpr found))
    exact Option.some.inj (found.symm.trans other)
  · intro position inRange
    obtain ⟨i, bound, rfl⟩ := inRange
    exact ⟨_, List.getElem_mem bound, index?_build_iff.mpr (List.getElem?_eq_getElem bound)⟩

/-- The vertex at a position carries the id text that is looked up there. -/
theorem vertex_of_index? {nodes edges : List Value} {id : String} {i : Nat}
    (found : (build nodes edges).index? id = some i)
    : (build nodes edges).vertices[i]?.map Vertex.id = some id := by
  rw [build_vertices, List.getElem?_map, index?_build_iff.mp found]
  rfl

-----------------------------------------------------------------------------------------
-- Nodes that become vertices
-----------------------------------------------------------------------------------------

/-- Nothing is reported about the id of the node at an index. -/
def Declares (options : Options) (nodes : List Value) (index : Nat) (node : Value) : Prop :=
  ¬ Reports "G001" (findingsAt options nodes index node)
  ∧ ¬ Reports "G002" (findingsAt options nodes index node)

instance (options : Options) (nodes : List Value) (index : Nat) (node : Value)
    : Decidable (Declares options nodes index node) :=
  inferInstanceAs (Decidable (_ ∧ _))

/-- The node at an index adds no vertex to those of the nodes before it. -/
def LeftOut (nodes : List Value) (index : Nat) : Prop :=
  (build (nodes.take (index + 1)) []).vertices = (build (nodes.take index) []).vertices

/-- The vertex that a node stands for, if its id is truthy. -/
def vertex? (node : Value) : Option Vertex :=
  (nodeId? node).map (fun id => ⟨id, nodeType? node⟩)

/-- A node declares its id exactly where it has one that no node before it has. -/
theorem declares_iff {options : Options} {nodes : List Value} {index : Nat} {node : Value}
    : Declares options nodes index node
      ↔ ∃ id, nodeId? node = some id ∧ id ∉ declaredIds (nodes.take index) := by
  rw [Declares, reports_missing_iff, reports_repeated_iff]
  cases nodeId? node <;> simp

/-- One more node adds its vertex behind the others where it declares its id, and none elsewhere. -/
theorem build_vertices_concat (nodes : List Value) (node : Value)
    : (build (nodes ++ [node]) []).vertices
      = (build nodes []).vertices
          ++ match nodeId? node with
            | none => []
            | some id => if id ∈ declaredIds nodes then [] else [⟨id, nodeType? node⟩] := by
  have vertices : nodes.foldl addNode [] = _ := build_vertices nodes []
  have known (id : String)
      : (position? (nodes.foldl addNode []) id).isSome = true ↔ id ∈ declaredIds nodes := by
    rw [vertices, position?_isSome_iff, List.map_map]
    simp [declaredVertex, Function.comp_def]
  simp only [build, List.foldl_append, List.foldl_cons, List.foldl_nil, addNode]
  cases nodeId? node with
  | none => simp
  | some id => by_cases earlier : id ∈ declaredIds nodes <;> simp [known, earlier]

/-- A node is left out exactly where a missing or a repeated id is reported. -/
theorem leftOut_iff {options : Options} {nodes : List Value} {index : Nat} {node : Value}
    (found : nodes[index]? = some node)
    : LeftOut nodes index
      ↔ Reports "G001" (findingsAt options nodes index node)
        ∨ Reports "G002" (findingsAt options nodes index node) := by
  have step : nodes.take (index + 1) = nodes.take index ++ [node] := by
    rw [List.take_add_one, found, Option.toList_some]
  rw [LeftOut, step, build_vertices_concat, reports_missing_iff, reports_repeated_iff,
    List.append_right_eq_self]
  cases nodeId? node with
  | none => simp
  | some id => by_cases earlier : id ∈ declaredIds (nodes.take index) <;> simp [earlier]

/-- The nodes behind a prefix add, in order, the vertices of those of them that declare an id.
Witness: induction on the nodes that are left, one vertex at a time.
-/
theorem build_vertices_append (options : Options) (earlier nodes : List Value)
    : (build (earlier ++ nodes) []).vertices.map some
      = (build earlier []).vertices.map some
          ++ ((nodes.zipIdx earlier.length).filter
              (fun entry => Declares options (earlier ++ nodes) entry.2 entry.1)).map
              (fun entry => vertex? entry.1) := by
  induction nodes generalizing earlier with
  | nil => simp
  | cons node more ih =>
      have extended := ih (earlier ++ [node])
      rw [List.length_append, List.length_singleton, List.append_assoc,
        List.singleton_append] at extended
      rw [extended, build_vertices_concat, List.zipIdx_cons, List.filter_cons, List.map_append,
        List.append_assoc]
      congr 1
      simp only [decide_eq_true_eq, declares_iff, List.take_left']
      cases ident : nodeId? node with
      | none => simp
      | some id => by_cases known : id ∈ declaredIds earlier <;> simp [known, vertex?, ident]

/-- The vertices are, in order, those of the nodes that declare an id. -/
theorem build_vertices_eq (options : Options) (nodes edges : List Value)
    : (build nodes edges).vertices.map some
      = (nodes.zipIdx.filter (fun entry => Declares options nodes entry.2 entry.1)).map
          (fun entry => vertex? entry.1) :=
  build_vertices_append options [] nodes

-----------------------------------------------------------------------------------------
-- Edges that become edges
-----------------------------------------------------------------------------------------

/-- Nothing is reported about the ends of the edge at an index. -/
def Resolves (ids : List String) (index : Nat) (edge : Value) : Prop :=
  ¬ Reports "E001" (edgeFindings ids index edge) ∧ ¬ Reports "E002" (edgeFindings ids index edge)

instance (ids : List String) (index : Nat) (edge : Value)
    : Decidable (Resolves ids index edge) :=
  inferInstanceAs (Decidable (_ ∧ _))

/-- The position to which an end of an edge leads, if the graph knows its id text. -/
def endPosition? (g : Graph) (edge : Value) (endpoint : Endpoint) : Option Nat :=
  (endpointId? edge endpoint.name).bind (fun id => g.index? id)

/-- An end of an edge is reported exactly where it leads to no position. -/
theorem reports_endpoint_iff {nodes edges : List Value} (index : Nat) {edge : Value}
    {endpoint : Endpoint}
    : ¬ Reports "E001" (endpointFindings (declaredIds nodes) index edge endpoint)
        ∧ ¬ Reports "E002" (endpointFindings (declaredIds nodes) index edge endpoint)
      ↔ (endPosition? (build nodes edges) edge endpoint).isSome = true := by
  rw [endpointFindings, endPosition?]
  cases endpointId? edge endpoint.name with
  | none => simp [Finding.code]
  | some id =>
      rw [Option.bind_some, index?_build_isSome_iff]
      by_cases declared : id ∈ declaredIds nodes <;> simp [require, declared, Finding.code]

/-- An edge is built from the positions of its two ends, if it has both. -/
theorem edge?_eq (g : Graph) (edge : Value)
    : edge? g.vertices edge
      = (endPosition? g edge .source).bind
          (fun i => (endPosition? g edge .target).map (fun j => (i, j))) := by
  simp only [edge?, endPosition?, index?, Endpoint.name, Option.bind_eq_bind, Option.pure_def]
  cases endpointId? edge "source" <;> cases endpointId? edge "target" <;> simp [Option.map_eq_bind]

/-- Nothing is reported about an edge exactly where it is an edge of the graph. -/
theorem resolves_iff {nodes : List Value} (edges : List Value) {index : Nat} {edge : Value}
    : Resolves (declaredIds nodes) index edge
      ↔ (edge? (build nodes edges).vertices edge).isSome = true := by
  have ends
      : Resolves (declaredIds nodes) index edge
        ↔ (endPosition? (build nodes edges) edge .source).isSome = true
          ∧ (endPosition? (build nodes edges) edge .target).isSome = true := by
    rw [← reports_endpoint_iff index, ← reports_endpoint_iff index]
    simp only [Resolves, edgeFindings, reports_append, not_or]
    exact and_and_and_comm
  rw [ends, edge?_eq]
  cases endPosition? (build nodes edges) edge .source <;> simp

/-- Mapping what a partial function finds is mapping what it is found for. -/
theorem map_filterMap_eq_map_filter {α β γ : Type} {find : α → Option β} {image : β → γ}
    {direct : α → γ} (agree : ∀ x y, find x = some y → direct x = image y) (xs : List α)
    : (xs.filterMap find).map image = (xs.filter (fun x => (find x).isSome)).map direct := by
  induction xs with
  | nil => rfl
  | cons x xs ih =>
      rw [List.filterMap_cons, List.filter_cons]
      cases found : find x with
      | none => simpa using ih
      | some y => simpa [agree x y found] using ih

/-- The edges are, in order, the images of those edges of the list that resolve.
Witness: what resolves does not depend on the index, so indices can be dropped.
-/
theorem build_edges_eq (nodes edges : List Value)
    : (build nodes edges).edges.map (fun e => (some e.1, some e.2))
      = (edges.zipIdx.filter (fun entry => Resolves (declaredIds nodes) entry.2 entry.1)).map
          (fun entry =>
            (endPosition? (build nodes edges) entry.1 .source,
              endPosition? (build nodes edges) entry.1 .target)) := by
  let built := edge? (build nodes edges).vertices
  let ends (edge : Value) :=
    (endPosition? (build nodes edges) edge .source, endPosition? (build nodes edges) edge .target)
  have images : ∀ edge e, built edge = some e → ends edge = (some e.1, some e.2) := by
    intro edge e found
    rw [show built edge = _ from edge?_eq _ edge] at found
    simp only [Option.bind_eq_some_iff, Option.map_eq_some_iff] at found
    obtain ⟨i, first, j, second, rfl⟩ := found
    exact Prod.ext first second
  have kept
      : edges.zipIdx.filter (fun entry => Resolves (declaredIds nodes) entry.2 entry.1)
        = edges.zipIdx.filter ((fun edge => (built edge).isSome) ∘ Prod.fst) := by
    apply List.filter_congr
    intro entry _
    rw [Bool.eq_iff_iff, decide_eq_true_iff, resolves_iff edges]
    rfl
  calc (build nodes edges).edges.map (fun e => (some e.1, some e.2))
      = (edges.filter (fun edge => (built edge).isSome)).map ends :=
        map_filterMap_eq_map_filter images edges
    _ = ((edges.zipIdx.filter ((fun edge => (built edge).isSome) ∘ Prod.fst)).map
          Prod.fst).map ends := by
        rw [← List.filter_map, List.zipIdx_map_fst]
    _ = _ := by
        rw [← kept, List.map_map]
        rfl

-----------------------------------------------------------------------------------------
-- The agreement as a whole
-----------------------------------------------------------------------------------------

/-- What a graph has in common with the ids that the rules on a list of nodes collect. -/
structure GraphAgrees (options : Options) (nodes edges : List Value) (g : Graph)
    (ids : List String) : Prop where
  /-- The graph looks up the collected ids and no others. -/
  keys : ∀ id, (g.index? id).isSome = true ↔ id ∈ ids
  /-- Every position of a vertex is looked up under one id. -/
  bijection : Set.BijOn g.index? {id | id ∈ ids} (some '' {i | i < g.vertices.length})
  /-- A vertex carries the id under which it is looked up. -/
  labelled : ∀ id i, g.index? id = some i → g.vertices[i]?.map Vertex.id = some id
  /-- The vertices carry the distinct id texts in the order of first occurrence. -/
  texts : g.vertices.map Vertex.id = (nodes.filterMap nodeId?).eraseDups
  /-- A node is left out exactly where its id is reported as missing or repeated. -/
  leftOut
    : ∀ index node,
        nodes[index]? = some node
        → (LeftOut nodes index
            ↔ Reports "G001" (findingsAt options nodes index node)
              ∨ Reports "G002" (findingsAt options nodes index node))
  /-- The vertices are the images of the nodes whose ids are not reported. -/
  vertices
    : g.vertices.map some
      = (nodes.zipIdx.filter (fun entry => Declares options nodes entry.2 entry.1)).map
          (fun entry => vertex? entry.1)
  /-- The edges are the images of the edges whose ends are not reported. -/
  edges
    : g.edges.map (fun e => (some e.1, some e.2))
      = (edges.zipIdx.filter (fun entry => Resolves ids entry.2 entry.1)).map
          (fun entry => (endPosition? g entry.1 .source, endPosition? g entry.1 .target))

/-- A code that only errors carry is not reported where there is no error. -/
theorem not_reports_of_errorFree {found : List Finding} {code : String}
    (free : ErrorFree Finding.severity found) (severe : code ∈ ["G001", "G002", "E001", "E002"])
    : ¬ Reports code found := by
  intro reported
  obtain ⟨f, member, rfl⟩ := reported
  apply free f member
  cases f with
  | inNode id f => cases f <;> simp [Finding.code, NodeFinding.code] at severe
  | cycle => simp [Finding.code] at severe
  | unreachable id => simp [Finding.code] at severe
  | _ => rfl

/-- Without an error on the nodes every node is a vertex, and without one on the edges every
edge is an edge of the graph.
-/
theorem build_lengths_of_errorFree {options : Options} {nodes edges : List Value}
    (nodesFree : ErrorFree Finding.severity (nodesFindings options nodes).2)
    (edgesFree : ErrorFree Finding.severity (edgesFindings (nodesFindings options nodes).1 edges))
    : (build nodes edges).vertices.length = nodes.length
      ∧ (build nodes edges).edges.length = edges.length := by
  rw [nodesFindings_eq] at nodesFree edgesFree
  simp only [errorFree_append, errorFree_flatMap, edgesFindings] at nodesFree edgesFree
  constructor
  · have kept : nodes.zipIdx.filter (fun entry => Declares options nodes entry.2 entry.1)
        = nodes.zipIdx := by
      rw [List.filter_eq_self]
      intro entry member
      have free := nodesFree.1.1 entry member
      exact decide_eq_true
        ⟨not_reports_of_errorFree free (by simp), not_reports_of_errorFree free (by simp)⟩
    have lengths := congrArg List.length (build_vertices_eq options nodes edges)
    rwa [kept, List.length_map, List.length_map, List.length_zipIdx] at lengths
  · have kept : edges.zipIdx.filter (fun entry => Resolves (declaredIds nodes) entry.2 entry.1)
        = edges.zipIdx := by
      rw [List.filter_eq_self]
      intro entry member
      have free := edgesFree entry member
      exact decide_eq_true
        ⟨not_reports_of_errorFree free (by simp), not_reports_of_errorFree free (by simp)⟩
    have lengths := congrArg List.length (build_edges_eq nodes edges)
    rwa [kept, List.length_map, List.length_map, List.length_zipIdx] at lengths

/-- The built graph agrees with the rules on the nodes and on the edges, and it has a vertex
for each node and an edge for each edge of a document in which no error is found.
-/
theorem build_agrees (options : Options) (nodes edges : List Value)
    : GraphAgrees options nodes edges (build nodes edges) (nodesFindings options nodes).1
      ∧ ∀ document : Value,
          document.HasGraph nodes edges
          → (validate options document).isValid = true
          → (build nodes edges).vertices.length = nodes.length
            ∧ (build nodes edges).edges.length = edges.length := by
  have ids : (nodesFindings options nodes).1 = declaredIds nodes := by
    rw [nodesFindings_eq]
  constructor
  · rw [ids]
    exact {
      keys := fun _ => index?_build_isSome_iff
      bijection := index?_build_bijOn nodes edges
      labelled := fun _ _ found => vertex_of_index? found
      texts := by
        rw [build_vertices, List.map_map]
        simp only [Function.comp_def, declaredVertex, List.map_id']
        rfl
      leftOut := fun _ _ found => leftOut_iff found
      vertices := build_vertices_eq options nodes edges
      edges := build_edges_eq nodes edges
    }
  · intro document graph valid
    obtain ⟨nodesFree, edgesFree⟩ := errorFree_of_isValid graph valid
    exact build_lengths_of_errorFree nodesFree edgesFree

/-- A valid document with an edge from its start to its end. -/
theorem build_agrees_valid
    : let nodes :=
        [
          .map [("data", .map [("type", .string "start")]), ("id", .string "1")],
          .map [("data", .map [("type", .string "end")]), ("id", .number (.int 2))]
        ]
      let edges := [.map [("source", .string "1"), ("target", .string "2")]]
      let others :=
        [
          ("app", .map [("mode", .string "workflow"), ("name", .string "greeting")]),
          ("kind", .string "app"),
          ("version", .string "0.1.5")
        ]
      (validate .default (.withGraph others nodes edges)).isValid = true
      ∧ (build nodes edges).edges.length = 1 := by
  intro nodes edges others
  refine (and_iff_left_of_imp (fun valid => ?_)).mpr (by decide)
  exact ((build_agrees .default _ _).2 _ (Value.hasGraph_withGraph (by rfl) _ _) valid).2

end WorkflowLint.StructureRules
