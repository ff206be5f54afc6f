import Mathlib.Data.List.Forall2
import WorkflowLint.Proofs.Graph.TopologyWarnings

/-! Lists of nodes and edges that are read the same, item by item, have the same findings.
A node is read for its id, for what a visit to it does, and for being a start of the graph; of its
type nothing else matters.
-/

namespace WorkflowLint

open WorkflowLint.Graph

/-- Neither the rules on nodes nor those on the graph tell two nodes apart. -/
structure SameNode (options : Options) (first second : Value) : Prop where
  ident : nodeId? first = nodeId? second
  start : nodeType? first = some "start" ↔ nodeType? second = some "start"
  visit
    : ∀ index c,
        StructureRules.visitNode options index c first
          = StructureRules.visitNode options index c second

/-- The rules on nodes do not tell the data of two nodes apart. -/
structure SameData (options : Options) (first second : Value) : Prop where
  type : first.truthy? "type" = second.truthy? "type"
  findings
    : ∀ kind : NodeKind,
        first.Holds "type" (.string kind.tag)
        → kind.findings options first = kind.findings options second

/-- Two edges have the same texts at both ends. -/
def SameEdge (first second : Value) : Prop :=
  ∀ endpoint : Endpoint, endpointId? first endpoint.name = endpointId? second endpoint.name

section Forall₂

variable {related : Value → Value → Prop} {xs ys : List Value}

/-- Functions that do not tell related items apart do not tell related lists apart. -/
theorem map_eq_of_forall₂ {β : Type} {look : Value → β} (items : List.Forall₂ related xs ys)
    (same : ∀ {x y}, related x y → look x = look y)
    : xs.map look = ys.map look := by
  induction items with
  | nil => rfl
  | cons head _ ih => rw [List.map_cons, List.map_cons, same head, ih]

/-- A property on which related items agree holds somewhere in both lists or in none, by induction
on the lists.
-/
theorem exists_mem_iff_of_forall₂ {P : Value → Prop} (items : List.Forall₂ related xs ys)
    (same : ∀ {x y}, related x y → (P x ↔ P y))
    : (∃ x ∈ xs, P x) ↔ ∃ y ∈ ys, P y := by
  induction items with
  | nil => simp
  | cons head _ ih => rw [List.exists_mem_cons_iff, List.exists_mem_cons_iff, same head, ih]

end Forall₂

variable {options : Options} {nodes nodes' edges edges' : List Value}

-----------------------------------------------------------------------------------------
-- Nodes
-----------------------------------------------------------------------------------------

/-- A node is a start where its data has that type, which is truthy. -/
theorem nodeType?_start_iff {node : Value}
    : nodeType? node = some "start"
      ↔ ∃ data, node.get? "data" = some data ∧ data.truthy? "type" = some (.string "start") := by
  have truthy : (Value.string "start").isTruthy = true := Value.isTruthy_string (by decide)
  simp only [nodeType?_eq_some_iff, Value.get?_eq_some_iff, Value.truthy?_eq_some_iff, truthy,
    and_true]

/-- Nodes with the same id text and with data that are read the same are read the same.
Witness: such nodes have the same outline up to their data.
-/
theorem sameNode_of_data {first second : Value} (ident : nodeId? first = nodeId? second)
    (data : Option.Rel (SameData options) (first.get? "data") (second.get? "data"))
    : SameNode options first second where
  ident := ident
  start := by
    rw [nodeType?_start_iff, nodeType?_start_iff]
    generalize first.get? "data" = v, second.get? "data" = w at data ⊢
    cases data with
    | none => rfl
    | some same => simp [same.type]
  visit := by
    intro index c
    unfold StructureRules.visitNode StructureRules.outline
    rw [ident]
    generalize first.get? "data" = v, second.get? "data" = w at data ⊢
    cases nodeId? second with
    | none => rfl
    | some id =>
        cases data with
        | none => rfl
        | @some v w same =>
            dsimp only
            rw [same.type]
            cases truthy : w.truthy? "type" with
            | none => rfl
            | some type =>
                dsimp only
                cases found : type.asString?.bind NodeKind.ofTag? with
                | none => rfl
                | some kind =>
                    obtain rfl := NodeKind.bind_ofTag?_eq_some_iff.mp found
                    have typed := (Value.truthy?_eq_some_iff.mp (same.type.trans truthy)).1
                    simp only [nodeDataFindings, same.findings kind typed]

-----------------------------------------------------------------------------------------
-- The graph
-----------------------------------------------------------------------------------------

namespace Graph

theorem declaredIds_eq_of_sameNodes (same : List.Forall₂ (SameNode options) nodes nodes')
    : declaredIds nodes = declaredIds nodes' := by
  have texts := congrArg (List.filterMap id) (map_eq_of_forall₂ same SameNode.ident)
  simp only [List.filterMap_map, Function.id_comp] at texts
  rw [declaredIds, declaredIds, texts]

/-- The first declarations of an id text both make it a start or both do not, by induction on the
nodes.
-/
theorem declaredType?_start_iff (same : List.Forall₂ (SameNode options) nodes nodes') (id : String)
    : declaredType? nodes id = some "start" ↔ declaredType? nodes' id = some "start" := by
  unfold declaredType? declaration?
  induction same with
  | nil => rfl
  | cons head _ ih =>
      rw [List.find?_cons, List.find?_cons, head.ident]
      split
      · exact head.start
      · exact ih

theorem declaredStarts_eq (same : List.Forall₂ (SameNode options) nodes nodes')
    : declaredStarts nodes = declaredStarts nodes' := by
  simp only [declaredStarts, declaredIds_eq_of_sameNodes same, declaredType?_start_iff same]

/-- Edges with the same texts at their ends lead the same ways. -/
theorem leads_eq (nodesSame : List.Forall₂ (SameNode options) nodes nodes')
    (edgesSame : List.Forall₂ SameEdge edges edges')
    : Leads nodes edges = Leads nodes' edges' := by
  funext source target
  rw [Leads, Leads, declaredIds_eq_of_sameNodes nodesSame]
  refine propext (exists_mem_iff_of_forall₂ edgesSame ?_)
  intro edge other same
  have atSource : endpointId? edge "source" = endpointId? other "source" := same .source
  have atTarget : endpointId? edge "target" = endpointId? other "target" := same .target
  rw [atSource, atTarget]

theorem build_isCyclic_eq (nodesSame : List.Forall₂ (SameNode options) nodes nodes')
    (edgesSame : List.Forall₂ SameEdge edges edges')
    : (build nodes edges).isCyclic = (build nodes' edges').isCyclic := by
  rw [Bool.eq_iff_iff, build_isCyclic_iff, build_isCyclic_iff, edgeCircle_iff, edgeCircle_iff,
    leads_eq nodesSame edgesSame]

/-- The same ids are out of reach, since the same starts lead the same ways. -/
theorem build_unreachableIds_eq (nodesSame : List.Forall₂ (SameNode options) nodes nodes')
    (edgesSame : List.Forall₂ SameEdge edges edges')
    : (build nodes edges).unreachableIds = (build nodes' edges').unreachableIds := by
  have reached : Reached nodes edges = Reached nodes' edges' := by
    funext id
    rw [Reached, declaredStarts_eq nodesSame, leads_eq nodesSame edgesSame, ← Reached]
  rw [build_unreachableIds, build_unreachableIds, reached, declaredIds_eq_of_sameNodes nodesSame]

end Graph

-----------------------------------------------------------------------------------------
-- Findings
-----------------------------------------------------------------------------------------

theorem topologyFindings_eq_of_same (nodesSame : List.Forall₂ (SameNode options) nodes nodes')
    (edgesSame : List.Forall₂ SameEdge edges edges')
    : topologyFindings nodes edges = topologyFindings nodes' edges' := by
  have starts : (build nodes edges).startIds = (build nodes' edges').startIds := by
    rw [build_startIds, build_startIds, declaredStarts_eq nodesSame]
  simp only [topologyFindings, TopologyRules.cycleFindings, TopologyRules.reachFindings,
    build_isCyclic_eq nodesSame edgesSame, starts, build_unreachableIds_eq nodesSame edgesSame]

namespace StructureRules

/-- A walk does the same on nodes that are read the same, by induction on the nodes. -/
theorem visitNodes_eq_of_same (same : List.Forall₂ (SameNode options) nodes nodes') (index : Nat)
    (c : Census)
    : visitNodes options index c nodes = visitNodes options index c nodes' := by
  induction same generalizing index c with
  | nil => rfl
  | cons head _ ih => simp only [visitNodes, head.visit, ih]

theorem nodesFindings_eq_of_same (same : List.Forall₂ (SameNode options) nodes nodes')
    : nodesFindings options nodes = nodesFindings options nodes' := by
  rw [nodesFindings, nodesFindings, visitNodes_eq_of_same same]

theorem edgesFindings_eq_of_same (same : List.Forall₂ SameEdge edges edges') (ids : List String)
    : edgesFindings ids edges = edgesFindings ids edges' := by
  have checks : edges.map (fun edge index => edgeFindings ids index edge)
      = edges'.map (fun edge index => edgeFindings ids index edge) := by
    refine map_eq_of_forall₂ same ?_
    intro edge other same
    simp only [edgeFindings, endpointFindings, same .source, same .target]
  have placed := congrArg
    (fun checks => checks.zipIdx.flatMap (fun (entry : (Nat → List Finding) × Nat) =>
      entry.1 entry.2)) checks
  simp only [List.zipIdx_map, List.flatMap_map] at placed
  exact placed

/-- Graphs whose nodes and edges are read the same have the same findings, where lists stand in
both of them or in none.
-/
theorem graphFindings_eq_of_same {nodes nodes' edges edges' : Value}
    (nodesSame : List.Forall₂ (SameNode options) nodes.entries nodes'.entries)
    (edgesSame : List.Forall₂ SameEdge edges.entries edges'.entries)
    (nodesShape : listFindings "nodes" nodes = listFindings "nodes" nodes')
    (edgesShape : listFindings "edges" edges = listFindings "edges" edges')
    : graphFindings options nodes edges = graphFindings options nodes' edges' := by
  simp only [graphFindings, nodesShape, edgesShape, nodesFindings_eq_of_same nodesSame,
    edgesFindings_eq_of_same edgesSame, topologyFindings_eq_of_same nodesSame edgesSame]

end StructureRules

end WorkflowLint
