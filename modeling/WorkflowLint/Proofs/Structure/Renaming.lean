import Mathlib.Logic.Embedding.Basic
import WorkflowLint.Proofs.Graph.Relabelling
import WorkflowLint.Proofs.Structure.NamedNodes
import WorkflowLint.Proofs.TreeEdits

/-! Other names for the ids of a document give the same report about the renamed nodes.
No rule looks at more of an id than which other ids have the same text.
-/

namespace WorkflowLint

open WorkflowLint.Graph

-----------------------------------------------------------------------------------------
-- Renamed documents
-----------------------------------------------------------------------------------------

/-- A text that an id can have. -/
abbrev IdText := { text : String // text ≠ "" }

/-- The new name of a text. The empty text is no id and stays as it is. -/
def renamedText (rho : IdText ↪ IdText) (text : String) : String :=
  if given : text ≠ "" then rho ⟨text, given⟩ else text

/-- A truthy value gives way to the new name of its text. -/
def renamedId (rho : IdText ↪ IdText) (id : Value) : Value :=
  if id.isTruthy then .string (renamedText rho id.idText) else id

def renamedNode (rho : IdText ↪ IdText) (node : Value) : Value :=
  node.update "id" (renamedId rho)

def renamedEdge (rho : IdText ↪ IdText) (edge : Value) : Value :=
  (edge.update "source" (renamedId rho)).update "target" (renamedId rho)

def renamedGraph (rho : IdText ↪ IdText) (graph : Value) : Value :=
  (graph.update "nodes" (Value.mapItems (renamedNode rho))).update "edges"
    (Value.mapItems (renamedEdge rho))

/-- The document with other names for the ids of its nodes and for the ends of its edges. -/
def renamedDocument (rho : IdText ↪ IdText) (document : Value) : Value :=
  document.update "workflow" (Value.update "graph" (renamedGraph rho))

/-- The second diagnostic has the code of the first one, and is about the renamed node if the
first one is about a node.
-/
structure Renames (rho : IdText ↪ IdText) (first second : Diagnostic) : Prop where
  code : second.code = first.code
  nodeId
    : Option.Rel (fun id name => ∃ given : id ≠ "", name = (rho ⟨id, given⟩).1)
        first.nodeId second.nodeId

section Names

variable (rho : IdText ↪ IdText)

theorem renamedText_of_ne_empty {text : String} (given : text ≠ "")
    : renamedText rho text = (rho ⟨text, given⟩).1 :=
  dif_pos given

theorem renamedText_eq_empty_iff {text : String} : renamedText rho text = "" ↔ text = "" := by
  unfold renamedText
  split
  · rename_i given
    exact iff_of_false (rho ⟨text, given⟩).2 given
  · exact Iff.rfl

/-- Distinct texts keep distinct names, the empty one included. -/
theorem renamedText_injective : Function.Injective (renamedText rho) := by
  intro first second same
  by_cases given : first = ""
  · rw [given] at same ⊢
    exact ((renamedText_eq_empty_iff rho).mp (same ▸ (renamedText_eq_empty_iff rho).mpr rfl)).symm
  · have other : second ≠ "" := fun empty =>
      given ((renamedText_eq_empty_iff rho).mp
        (same.trans ((renamedText_eq_empty_iff rho).mpr empty)))
    rw [renamedText_of_ne_empty rho given, renamedText_of_ne_empty rho other] at same
    exact congrArg Subtype.val (rho.injective (Subtype.ext same))

/-- The text read under a renamed key is the new name of the text read before. -/
theorem idText_filter_renamedId (stored : Option Value)
    : ((stored.map (renamedId rho)).filter Value.isTruthy).map Value.idText
      = ((stored.filter Value.isTruthy).map Value.idText).map (renamedText rho) := by
  cases stored with
  | none => rfl
  | some v =>
      cases truthy : v.isTruthy with
      | false => simp [renamedId, Option.filter, truthy]
      | true =>
          have given : renamedText rho v.idText ≠ "" := fun empty =>
            Value.idText_ne_empty truthy ((renamedText_eq_empty_iff rho).mp empty)
          have named : (Value.string (renamedText rho v.idText)).isTruthy = true :=
            Value.isTruthy_string given
          simp only [Option.map_some, renamedId, truthy, if_true, Option.filter, named]
          rfl

@[simp] theorem nodeId?_renamedNode (node : Value)
    : nodeId? (renamedNode rho node) = (nodeId? node).map (renamedText rho) := by
  simp only [nodeId?, renamedNode, Value.truthy?, Value.get?_update, idText_filter_renamedId]

@[simp] theorem endpointId?_renamedEdge (edge : Value) (endpoint : Endpoint)
    : endpointId? (renamedEdge rho edge) endpoint.name
      = (endpointId? edge endpoint.name).map (renamedText rho) := by
  have stored
      : (renamedEdge rho edge).get? endpoint.name
        = (edge.get? endpoint.name).map (renamedId rho) := by
    cases endpoint with
    | source =>
        rw [renamedEdge, Value.get?_update_of_ne (by decide)]
        exact Value.get?_update ..
    | target =>
        rw [renamedEdge]
        exact (Value.get?_update ..).trans
          (congrArg _ (Value.get?_update_of_ne (by decide) _ _))
  simp only [endpointId?, Value.truthy?, stored, idText_filter_renamedId]

/-- The data of a node are not touched. -/
@[simp] theorem get?_data_renamedNode (node : Value)
    : (renamedNode rho node).get? "data" = node.get? "data" :=
  Value.get?_update_of_ne (by decide) _ _

@[simp] theorem nodeType?_renamedNode (node : Value)
    : nodeType? (renamedNode rho node) = nodeType? node := by
  simp only [nodeType?, get?_data_renamedNode]

end Names

-----------------------------------------------------------------------------------------
-- The graph of a renamed document
-----------------------------------------------------------------------------------------

namespace Graph

variable (rho : IdText ↪ IdText)

theorem addNode_renamed (vertices : List Vertex) (node : Value)
    : addNode (vertices.map (Vertex.relabel (renamedText rho))) (renamedNode rho node)
      = (addNode vertices node).map (Vertex.relabel (renamedText rho)) := by
  unfold addNode
  rw [nodeId?_renamedNode]
  cases nodeId? node with
  | none => rfl
  | some id =>
      simp only [Option.map_some, position?_relabel (renamedText_injective rho),
        nodeType?_renamedNode]
      split
      · rfl
      · rw [List.map_append]
        rfl

theorem edge?_renamed (vertices : List Vertex) (edge : Value)
    : edge? (vertices.map (Vertex.relabel (renamedText rho))) (renamedEdge rho edge)
      = edge? vertices edge := by
  have source := endpointId?_renamedEdge rho edge .source
  have target := endpointId?_renamedEdge rho edge .target
  simp only [Endpoint.name] at source target
  simp only [edge?, source, target, Option.bind_eq_bind, Option.bind_map, Function.comp_def,
    position?_relabel (renamedText_injective rho)]

/-- Renamed nodes give renamed vertices, by induction on the nodes. -/
theorem foldl_addNode_renamed (nodes : List Value) (vertices : List Vertex)
    : (nodes.map (renamedNode rho)).foldl addNode
          (vertices.map (Vertex.relabel (renamedText rho)))
      = (nodes.foldl addNode vertices).map (Vertex.relabel (renamedText rho)) := by
  induction nodes generalizing vertices with
  | nil => rfl
  | cons node more ih => simp only [List.map_cons, List.foldl_cons, addNode_renamed, ih]

/-- The graph of a renamed document is the same graph under the new names. -/
theorem build_renamed (nodes edges : List Value)
    : build (nodes.map (renamedNode rho)) (edges.map (renamedEdge rho))
      = (build nodes edges).relabel (renamedText rho) := by
  have vertices := foldl_addNode_renamed rho nodes []
  rw [List.map_nil] at vertices
  simp only [build, relabel, vertices, List.filterMap_map, Function.comp_def, edge?_renamed]

end Graph

-----------------------------------------------------------------------------------------
-- Findings under new names
-----------------------------------------------------------------------------------------

/-- A finding about the nodes with other names. -/
def Finding.rename (name : String → String) : Finding → Finding
  | .idRepeated id => .idRepeated (name id)
  | .dataMissing id => .dataMissing (name id)
  | .typeMissing id => .typeMissing (name id)
  | .endpointUnknown endpoint id => .endpointUnknown endpoint (name id)
  | .inNode id f => .inNode (name id) f
  | .unreachable id => .unreachable (name id)
  | f => f

namespace Finding

variable (name : String → String)

@[simp] theorem rename_code (f : Finding) : (f.rename name).code = f.code := by
  cases f <;> rfl

@[simp] theorem rename_severity (f : Finding) : (f.rename name).severity = f.severity := by
  cases f <;> rfl

@[simp] theorem rename_nodeId? (f : Finding) : (f.rename name).nodeId? = f.nodeId?.map name := by
  cases f <;> rfl

theorem rename_id (f : Finding) : f.rename id = f := by
  cases f <;> rfl

end Finding

/-- Diagnostics of renamed findings are those of the same findings, renamed. -/
theorem diagnostics_map_rename (severity : Severity) (name : String → String)
    (found : List Finding)
    : diagnostics severity (found.map (Finding.rename name))
      = (found.filter (fun f => f.severity = severity)).map
          (fun f => (f.rename name).diagnostic) := by
  simp only [diagnostics, List.filter_map, List.map_map, Function.comp_def, Finding.rename_severity]

namespace StructureRules

variable (rho : IdText ↪ IdText)

/-- The same findings about the renamed nodes. -/
abbrev renamedFindings (found : List Finding) : List Finding :=
  found.map (Finding.rename (renamedText rho))

/-- A census of renamed nodes. -/
def Census.rename (c : Census) : Census :=
  { c with ids := c.ids.map (renamedText rho) }

def Outline.rename : Outline → Outline
  | .noId => .noId
  | .noData id => .noData (renamedText rho id)
  | .noType id => .noType (renamedText rho id)
  | .unknownType id type => .unknownType (renamedText rho id) type
  | .known id kind data => .known (renamedText rho id) kind data

theorem outline_renamed (node : Value)
    : outline (renamedNode rho node) = (outline node).rename rho := by
  unfold outline
  rw [nodeId?_renamedNode, get?_data_renamedNode]
  cases nodeId? node with
  | none => rfl
  | some id =>
      dsimp only [Option.map_some]
      cases node.get? "data" with
      | none => rfl
      | some data =>
          dsimp only
          cases data.truthy? "type" with
          | none => rfl
          | some type =>
              dsimp only
              cases type.asString?.bind NodeKind.ofTag? <;> rfl

/-- Renamed ids are known when the ids are. -/
theorem mem_renamed_iff {ids : List String} {id : String}
    : renamedText rho id ∈ ids.map (renamedText rho) ↔ id ∈ ids :=
  List.mem_map_of_injective (renamedText_injective rho)

theorem require_renamed (holds : Bool) (f : Finding)
    : renamedFindings rho (require holds f) = require holds (f.rename (renamedText rho)) := by
  cases holds <;> rfl

theorem declare_renamed (c : Census) (id : String)
    : (c.rename rho).declare (renamedText rho id) = (c.declare id).rename rho := by
  simp only [declare_eq, Census.rename, mem_renamed_iff]
  split <;> simp

theorem repeatFindings_renamed (c : Census) (id : String)
    : repeatFindings (c.rename rho) (renamedText rho id)
      = renamedFindings rho (repeatFindings c id) := by
  simp only [repeatFindings, Census.rename, mem_renamed_iff]
  split <;> rfl

theorem nodeDataFindings_renamed (kind : NodeKind) (options : Options) (id : String)
    (data : Value)
    : nodeDataFindings kind options (renamedText rho id) data
      = renamedFindings rho (nodeDataFindings kind options id data) := by
  simp only [nodeDataFindings, renamedFindings, List.map_map, Function.comp_def, Finding.rename]

/-- A visit to a renamed node finds the same about it, one case for each outline. -/
theorem visitNode_renamed (options : Options) (index : Nat) (c : Census) (node : Value)
    : visitNode options index (c.rename rho) (renamedNode rho node)
      = (
          (visitNode options index c node).1.rename rho,
          renamedFindings rho (visitNode options index c node).2
        ) := by
  unfold visitNode
  rw [outline_renamed]
  cases outline node with
  | noId => rfl
  | noData id =>
      simp only [Outline.rename, declare_renamed, repeatFindings_renamed, List.map_append]
      rfl
  | noType id =>
      simp only [Outline.rename, declare_renamed, repeatFindings_renamed, List.map_append]
      rfl
  | unknownType id type => simp only [Outline.rename, declare_renamed, repeatFindings_renamed]
  | known id kind data =>
      simp only [Outline.rename, declare_renamed, repeatFindings_renamed, nodeDataFindings_renamed,
        List.map_append]
      rfl

/-- A walk over renamed nodes finds the same about them, by induction on the nodes. -/
theorem visitNodes_renamed (options : Options) (index : Nat) (c : Census) (nodes : List Value)
    : visitNodes options index (c.rename rho) (nodes.map (renamedNode rho))
      = (
          (visitNodes options index c nodes).1.rename rho,
          renamedFindings rho (visitNodes options index c nodes).2
        ) := by
  induction nodes generalizing index c with
  | nil => rfl
  | cons node more ih =>
      simp only [List.map_cons, visitNodes, visitNode_renamed, ih, List.map_append]

theorem nodesFindings_renamed (options : Options) (nodes : List Value)
    : nodesFindings options (nodes.map (renamedNode rho))
      = (
          (nodesFindings options nodes).1.map (renamedText rho),
          renamedFindings rho (nodesFindings options nodes).2
        ) := by
  have walk := visitNodes_renamed rho options 0 .empty nodes
  rw [show Census.empty.rename rho = .empty from rfl] at walk
  simp only [nodesFindings, walk, Census.rename, List.map_append, require_renamed, Finding.rename]

theorem edgesFindings_renamed (ids : List String) (edges : List Value)
    : edgesFindings (ids.map (renamedText rho)) (edges.map (renamedEdge rho))
      = renamedFindings rho (edgesFindings ids edges) := by
  have ends (index : Nat) (edge : Value) (endpoint : Endpoint)
      : endpointFindings (ids.map (renamedText rho)) index (renamedEdge rho edge) endpoint
        = renamedFindings rho (endpointFindings ids index edge endpoint) := by
    simp only [endpointFindings, endpointId?_renamedEdge]
    cases endpointId? edge endpoint.name with
    | none => rfl
    | some id =>
        simp only [Option.map_some, mem_renamed_iff, require_renamed, Finding.rename]
  simp only [edgesFindings, List.zipIdx_map, List.flatMap_map, Prod.map, id, edgeFindings, ends,
    List.map_flatMap, List.map_append]

theorem topologyFindings_renamed (nodes edges : List Value)
    : topologyFindings (nodes.map (renamedNode rho)) (edges.map (renamedEdge rho))
      = renamedFindings rho (topologyFindings nodes edges) := by
  simp only [topologyFindings, build_renamed, TopologyRules.cycleFindings, isCyclic_relabel,
    TopologyRules.reachFindings, startIds_relabel, unreachableIds_relabel, List.isEmpty_map,
    List.map_append]
  congr 1
  · split <;> rfl
  · split
    · rfl
    · simp only [List.map_map]
      rfl

theorem listFindings_renamed (field : String) (change : Value → Value) (v : Value)
    : listFindings field (v.mapItems change) = renamedFindings rho (listFindings field v) := by
  cases v <;> rfl

theorem graphFindings_renamed (options : Options) (nodes edges : Value)
    : graphFindings options (nodes.mapItems (renamedNode rho)) (edges.mapItems (renamedEdge rho))
      = renamedFindings rho (graphFindings options nodes edges) := by
  simp only [graphFindings, Value.entries_mapItems, nodesFindings_renamed, edgesFindings_renamed,
    topologyFindings_renamed, listFindings_renamed rho, List.map_append]
  congr 1
  split <;> rfl

theorem workflowFindings_renamed (options : Options) (workflow : Value)
    : workflowFindings options (workflow.update "graph" (renamedGraph rho))
      = renamedFindings rho (workflowFindings options workflow) := by
  simp only [workflowFindings, Value.get?_update]
  cases workflow.get? "graph" with
  | none => rfl
  | some graph =>
      have nodes
          : (renamedGraph rho graph).get? "nodes"
            = (graph.get? "nodes").map (Value.mapItems (renamedNode rho)) := by
        rw [renamedGraph, Value.get?_update_of_ne (by decide), Value.get?_update]
      have edges
          : (renamedGraph rho graph).get? "edges"
            = (graph.get? "edges").map (Value.mapItems (renamedEdge rho)) := by
        rw [renamedGraph, Value.get?_update, Value.get?_update_of_ne (by decide)]
      simp only [Option.map_some, nodes, edges]
      cases graph.get? "nodes" with
      | none => rfl
      | some nodes =>
          cases graph.get? "edges" with
          | none => rfl
          | some edges => exact graphFindings_renamed rho options nodes edges

theorem topLevelFindings_renamed (document : Value)
    : topLevelFindings (renamedDocument rho document)
      = renamedFindings rho (topLevelFindings document) := by
  have kind
      : (renamedDocument rho document).get? "kind" = document.get? "kind" :=
    Value.get?_update_of_ne (by decide) _ _
  have keys (key : String) : (renamedDocument rho document).has key = document.has key := by
    by_cases here : key = "workflow"
    · rw [here, Value.has, renamedDocument, Value.get?_update, Option.isSome_map, Value.has]
    · rw [Value.has, renamedDocument, Value.get?_update_of_ne here, Value.has]
  simp only [topLevelFindings, kind, keys, List.map_append, List.map_flatMap, require_renamed,
    Finding.rename]

theorem appFindings_renamed (app : Value)
    : renamedFindings rho (appFindings app) = appFindings app := by
  simp only [appFindings, modeFindings, List.map_append, List.map_flatMap, require_renamed,
    Finding.rename]
  cases app.get? "mode" with
  | none => rfl
  | some mode => simp only [require_renamed, Finding.rename]

end StructureRules

open StructureRules in
/-- In a renamed document the rules find what they found before, about the renamed nodes.
Witness: the walk over the nodes, the edges and the graph only compare id texts.
-/
theorem documentFindings_renamed (rho : IdText ↪ IdText) (options : Options) (document : Value)
    : documentFindings options (renamedDocument rho document)
      = renamedFindings rho (documentFindings options document) := by
  have app
      : (renamedDocument rho document).get? "app" = document.get? "app" :=
    Value.get?_update_of_ne (by decide) _ _
  have workflow
      : (renamedDocument rho document).get? "workflow"
        = (document.get? "workflow").map (Value.update "graph" (renamedGraph rho)) :=
    Value.get?_update _ _ _
  simp only [documentFindings, sectionFindings, topLevelFindings_renamed, app, workflow,
    List.map_append]
  congr 1
  · congr 1
    cases document.get? "app" with
    | none => rfl
    | some app => exact (appFindings_renamed rho app).symm
  · cases document.get? "workflow" with
    | none => rfl
    | some workflow => exact workflowFindings_renamed rho options workflow

-----------------------------------------------------------------------------------------
-- Reports on renamed documents
-----------------------------------------------------------------------------------------

/-- Diagnostics of renamed findings have the same codes and are about the renamed nodes. -/
theorem forall₂_renames (rho : IdText ↪ IdText) {ids : List String} {found : List Finding}
    (names : Names ids found) (given : ∀ id ∈ ids, id ≠ "") (severity : Severity)
    : List.Forall₂ (Renames rho) (diagnostics severity found)
        (diagnostics severity (found.map (Finding.rename (renamedText rho)))) := by
  rw [diagnostics_map_rename, diagnostics, List.forall₂_map_left_iff, List.forall₂_map_right_iff,
    List.forall₂_same]
  intro f member
  refine ⟨f.rename_code _, ?_⟩
  simp only [Finding.diagnostic, Finding.rename_nodeId?]
  cases about : f.nodeId? with
  | none => exact .none
  | some id =>
      have some : id ≠ "" := given id (names f (List.mem_filter.mp member).1 id about)
      exact .some ⟨some, renamedText_of_ne_empty rho some⟩

/-- Other names for the ids leave the codes of a report as they are, position by position, and
rename the nodes that its diagnostics are about; ids that are not texts may be replaced by
their texts without any change to the report.
Witness: the rules find the same about the renamed nodes, and a finding is about a declared id.
-/
theorem validate_renamed (options : Options) (document : Value) (rho : IdText ↪ IdText)
    : List.Forall₂ (Renames rho) (validate options document).errors
          (validate options (renamedDocument rho document)).errors
      ∧ List.Forall₂ (Renames rho) (validate options document).warnings
          (validate options (renamedDocument rho document)).warnings
      ∧ validate options (renamedDocument (.refl IdText) document)
        = validate options document := by
  have names := names_documentFindings options document
  have given {id : String} (declared : id ∈ declaredIds (Validation.checkedNodes document))
      : id ≠ "" := ne_empty_of_mem_declaredIds declared
  have identity : renamedText (.refl IdText) = id := by
    funext text
    unfold renamedText
    split <;> rfl
  simp only [validate, Report.checkDocument, Report.add, Report.empty, List.nil_append,
    documentFindings_renamed, StructureRules.renamedFindings]
  refine ⟨forall₂_renames rho names (fun _ => given) .error,
    forall₂_renames rho names (fun _ => given) .warning, ?_⟩
  rw [identity, show Finding.rename id = id from funext Finding.rename_id, List.map_id]

end WorkflowLint
