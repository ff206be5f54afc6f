import WorkflowLint.Proofs.Graph.TopologyWarnings
import WorkflowLint.Proofs.Structure.PlaceFindings

/-! Where in a document a finding comes from.
Each is made at a place of its own. One about a node comes from a node with its id text, and one of
the graph rules is only made when they are asked for; all others are errors about no node.
-/

namespace WorkflowLint

open WorkflowLint.Graph

/-- The graph section of a document lists the node. -/
def Value.HasNode (document node : Value) : Prop :=
  ∃ workflow graph nodes,
    document.Holds "workflow" workflow
    ∧ workflow.Holds "graph" graph
    ∧ graph.Holds "nodes" (.list nodes)
    ∧ node ∈ nodes

/-- The graph section of a document lists the edge. -/
def Value.HasEdge (document edge : Value) : Prop :=
  ∃ workflow graph edges,
    document.Holds "workflow" workflow
    ∧ workflow.Holds "graph" graph
    ∧ graph.Holds "edges" (.list edges)
    ∧ edge ∈ edges

/-- The rules come to the nodes of a graph section that has nodes and edges. -/
theorem checkedNodes_eq_entries {document workflow graph nodes edges : Value}
    (atWorkflow : document.get? "workflow" = some workflow)
    (atGraph : workflow.get? "graph" = some graph) (atNodes : graph.get? "nodes" = some nodes)
    (atEdges : graph.get? "edges" = some edges)
    : Validation.checkedNodes document = nodes.entries := by
  simp only [Validation.checkedNodes, atWorkflow, Option.bind_some, atGraph, atNodes, atEdges]

/-- The nodes that the rules come to are listed in the graph section. -/
theorem hasNode_of_mem_checkedNodes {document node : Value}
    (member : node ∈ Validation.checkedNodes document)
    : document.HasNode node := by
  unfold Validation.checkedNodes at member
  split at member
  · cases member
  rename_i graph inner
  obtain ⟨workflow, atWorkflow, atGraph⟩ := Option.bind_eq_some_iff.mp inner
  split at member
  · rename_i nodes edges atNodes _
    obtain ⟨items, rfl, member⟩ := Value.mem_entries_iff.mp member
    exact ⟨workflow, graph, items, Value.get?_eq_some_iff.mp atWorkflow,
      Value.get?_eq_some_iff.mp atGraph, Value.get?_eq_some_iff.mp atNodes, member⟩
  · cases member

/-- Where in a document the rules make each finding. -/
inductive FoundIn (options : Options) (document : Value) : Finding → Prop where
  | topLevelFieldMissing {field : String} (listed : field ∈ StructureRules.topLevelFields)
    : FoundIn options document (.topLevelFieldMissing field)
  | kindNotApp : FoundIn options document (.kindNotApp (document.get? "kind"))
  | appFieldMissing {field : String} (listed : field ∈ StructureRules.appFields)
    : FoundIn options document (.appFieldMissing field)
  | modeNotWorkflow {app mode : Value} (atApp : document.Holds "app" app)
    (stored : app.Holds "mode" mode)
    : FoundIn options document (.modeNotWorkflow mode)
  | graphMissing : FoundIn options document .graphMissing
  | nodesMissing : FoundIn options document .nodesMissing
  | edgesMissing : FoundIn options document .edgesMissing
  | notAList {field : String} (listed : field ∈ ["nodes", "edges"])
    : FoundIn options document (.notAList field)
  | idMissing (index : Nat) : FoundIn options document (.idMissing index)
  | outline {node : Value} {id : String} {f : Finding}
    (here : node ∈ Validation.checkedNodes document) (ident : nodeId? node = some id)
    (listed : f ∈ [.idRepeated id, .dataMissing id, .typeMissing id])
    : FoundIn options document f
  | data {node data : Value} {id : String} {kind : NodeKind} {f : NodeFinding}
    (here : node ∈ Validation.checkedNodes document) (ident : nodeId? node = some id)
    (stored : node.Holds "data" data) (typed : data.Holds "type" (.string kind.tag))
    (found : f ∈ kind.findings options data)
    : FoundIn options document (.inNode id f)
  | noStart : FoundIn options document .noStart
  | noEnd : FoundIn options document .noEnd
  | endpointMissing (index : Nat) (endpoint : Endpoint)
    : FoundIn options document (.endpointMissing index endpoint)
  | endpointUnknown {edge : Value} {endpoint : Endpoint} {id : String}
    (here : document.HasEdge edge) (ident : endpointId? edge endpoint.name = some id)
    : FoundIn options document (.endpointUnknown endpoint id)
  | cycle (asked : options.topologyChecks = true) : FoundIn options document .cycle
  | unreachable {node : Value} {id : String} (asked : options.topologyChecks = true)
    (here : node ∈ Validation.checkedNodes document) (ident : nodeId? node = some id)
    : FoundIn options document (.unreachable id)

namespace StructureRules

variable {options : Options} {document : Value} {nodes edges : List Value} {f : Finding}

theorem eq_of_mem_require {holds : Bool} {g : Finding} (member : f ∈ require holds g) : f = g := by
  cases holds with
  | true => cases member
  | false => exact List.mem_singleton.mp member

/-- A missing field is one of those that are asked for. -/
theorem exists_of_mem_fields {v : Value} {keys : List String} {finding : String → Finding}
    (member : f ∈ keys.flatMap (fun key => require (v.has key) (finding key)))
    : ∃ key ∈ keys, f = finding key := by
  obtain ⟨key, listed, member⟩ := List.mem_flatMap.mp member
  exact ⟨key, listed, eq_of_mem_require member⟩

theorem eq_of_mem_listFindings {field : String} {v : Value} (member : f ∈ listFindings field v)
    : f = .notAList field := by
  cases v with
  | list items => cases member
  | _ => exact List.mem_singleton.mp member

-----------------------------------------------------------------------------------------
-- Nodes, edges and the graph
-----------------------------------------------------------------------------------------

/-- What a node adds wherever it stands is about itself. Witness: one case for each outline. -/
theorem foundIn_of_mem_ownFindings {node : Value} (here : node ∈ Validation.checkedNodes document)
    (member : f ∈ ownFindings options node)
    : FoundIn options document f := by
  have spec := outline_spec node
  unfold ownFindings at member
  generalize outline node = found at spec member
  cases spec with
  | noId | unknownType => cases member
  | noData ident | noType ident =>
      refine .outline here ident ?_
      rw [List.mem_singleton.mp member]
      simp
  | known ident stored typed =>
      obtain ⟨g, found, rfl⟩ := List.mem_map.mp member
      exact .data here ident stored typed found

/-- What a node adds because of its place is about itself or about no node. -/
theorem foundIn_of_mem_placeFindings {node : Value} {earlier : List Value} {index : Nat}
    (here : node ∈ Validation.checkedNodes document)
    (member : f ∈ placeFindings earlier index node)
    : FoundIn options document f := by
  unfold placeFindings at member
  split at member
  · exact List.mem_singleton.mp member ▸ .idMissing index
  · rename_i id ident
    refine .outline here ident ?_
    rw [List.mem_singleton.mp (List.mem_ite_nil_right.mp member).2]
    exact List.mem_cons_self

theorem foundIn_of_mem_nodesFindings (here : nodes ⊆ Validation.checkedNodes document)
    (member : f ∈ (nodesFindings options nodes).2)
    : FoundIn options document f := by
  rw [nodesFindings_eq] at member
  rcases List.mem_append.mp member with member | noEnd
  · rcases List.mem_append.mp member with visited | noStart
    · obtain ⟨entry, inside, member⟩ := List.mem_flatMap.mp visited
      have here : entry.1 ∈ Validation.checkedNodes document :=
        here (List.fst_mem_of_mem_zipIdx inside)
      rw [findingsAt_eq] at member
      rcases List.mem_append.mp member with place | own
      · exact foundIn_of_mem_placeFindings here place
      · exact foundIn_of_mem_ownFindings here own
    · exact eq_of_mem_require noStart ▸ .noStart
  · exact eq_of_mem_require noEnd ▸ .noEnd

theorem foundIn_of_mem_edgesFindings {ids : List String}
    (here : ∀ edge ∈ edges, document.HasEdge edge) (member : f ∈ edgesFindings ids edges)
    : FoundIn options document f := by
  obtain ⟨entry, inside, member⟩ := List.mem_flatMap.mp member
  have here := here entry.1 (List.fst_mem_of_mem_zipIdx inside)
  have ends (endpoint : Endpoint) (member : f ∈ endpointFindings ids entry.2 entry.1 endpoint)
      : FoundIn options document f := by
    unfold endpointFindings at member
    split at member
    · exact List.mem_singleton.mp member ▸ .endpointMissing entry.2 endpoint
    · rename_i id ident
      exact eq_of_mem_require member ▸ .endpointUnknown here ident
  exact (List.mem_append.mp member).elim (ends .source) (ends .target)

/-- The graph rules find a cycle, or declared ids. -/
theorem foundIn_of_mem_topologyFindings (asked : options.topologyChecks = true)
    (here : nodes ⊆ Validation.checkedNodes document) (member : f ∈ topologyFindings nodes edges)
    : FoundIn options document f := by
  rcases List.mem_append.mp member with cycle | reach
  · rw [List.mem_singleton.mp (List.mem_ite_nil_right.mp cycle).2]
    exact .cycle asked
  · obtain ⟨id, unreached, rfl⟩ := List.mem_map.mp (List.mem_ite_nil_left.mp reach).2
    rw [build_unreachableIds] at unreached
    obtain ⟨node, member, ident⟩ := mem_declaredIds.mp (List.mem_filter.mp unreached).1
    exact .unreachable asked (here member) ident

theorem foundIn_of_mem_graphFindings {nodes edges : Value}
    (nodesHere : nodes.entries ⊆ Validation.checkedNodes document)
    (edgesHere : ∀ edge ∈ edges.entries, document.HasEdge edge)
    (member : f ∈ graphFindings options nodes edges)
    : FoundIn options document f := by
  rcases List.mem_append.mp member with member | lints
  · rcases List.mem_append.mp member with member | onEdges
    · rcases List.mem_append.mp member with member | notEdges
      · rcases List.mem_append.mp member with notNodes | onNodes
        · exact eq_of_mem_listFindings notNodes ▸ .notAList (by simp)
        · exact foundIn_of_mem_nodesFindings nodesHere onNodes
      · exact eq_of_mem_listFindings notEdges ▸ .notAList (by simp)
    · exact foundIn_of_mem_edgesFindings edgesHere onEdges
  · obtain ⟨asked, lints⟩ := List.mem_ite_nil_right.mp lints
    exact foundIn_of_mem_topologyFindings asked nodesHere lints

-----------------------------------------------------------------------------------------
-- The document
-----------------------------------------------------------------------------------------

theorem foundIn_of_mem_topLevelFindings (member : f ∈ topLevelFindings document)
    : FoundIn options document f := by
  rcases List.mem_append.mp member with missing | kind
  · obtain ⟨field, listed, rfl⟩ := exists_of_mem_fields missing
    exact .topLevelFieldMissing listed
  · exact eq_of_mem_require kind ▸ .kindNotApp

theorem foundIn_of_mem_appFindings {app : Value} (atApp : document.Holds "app" app)
    (member : f ∈ appFindings app)
    : FoundIn options document f := by
  rcases List.mem_append.mp member with missing | mode
  · obtain ⟨field, listed, rfl⟩ := exists_of_mem_fields missing
    exact .appFieldMissing listed
  · unfold modeFindings at mode
    split at mode
    · cases mode
    · rename_i found stored
      exact eq_of_mem_require mode ▸ .modeNotWorkflow atApp (Value.get?_eq_some_iff.mp stored)

end StructureRules

open StructureRules in
/-- Each finding in a document is made at one of these places.
Witness: one case for each part of the document.
-/
theorem foundIn_of_mem_documentFindings {options : Options} {document : Value} {f : Finding}
    (member : f ∈ documentFindings options document)
    : FoundIn options document f := by
  rcases List.mem_append.mp member with member | workflow
  · rcases List.mem_append.mp member with root | app
    · exact foundIn_of_mem_topLevelFindings root
    · unfold sectionFindings at app
      split at app
      · cases app
      · rename_i stored
        exact foundIn_of_mem_appFindings (Value.get?_eq_some_iff.mp stored) app
  · unfold sectionFindings at workflow
    split at workflow
    · cases workflow
    rename_i content stored
    unfold workflowFindings at workflow
    split at workflow
    · exact List.mem_singleton.mp workflow ▸ .graphMissing
    rename_i graph atGraph
    split at workflow
    · exact List.mem_singleton.mp workflow ▸ .nodesMissing
    · exact List.mem_singleton.mp workflow ▸ .edgesMissing
    · rename_i nodes edges atNodes atEdges
      have nodesHere : nodes.entries ⊆ Validation.checkedNodes document := by
        rw [checkedNodes_eq_entries stored atGraph atNodes atEdges]
        exact List.Subset.refl _
      have edgesHere (edge : Value) (member : edge ∈ edges.entries) : document.HasEdge edge := by
        obtain ⟨items, rfl, member⟩ := Value.mem_entries_iff.mp member
        exact ⟨content, graph, items, Value.get?_eq_some_iff.mp stored,
          Value.get?_eq_some_iff.mp atGraph, Value.get?_eq_some_iff.mp atEdges, member⟩
      exact foundIn_of_mem_graphFindings nodesHere edgesHere workflow

-----------------------------------------------------------------------------------------
-- Findings and nodes
-----------------------------------------------------------------------------------------

/-- The ways in which a finding arises from nodes and from the rest of a document. -/
inductive Arises (options : Options) (nodes : List Value) : Finding → Prop where
  /-- An error that is about no node. -/
  | general {f : Finding} (unnamed : f.nodeId? = none) (error : f.severity = .error)
    : Arises options nodes f
  /-- A node with an id has something wrong besides its data. -/
  | outline {node : Value} {id : String} {f : Finding} (here : node ∈ nodes)
    (ident : nodeId? node = some id)
    (listed : f ∈ [.idRepeated id, .dataMissing id, .typeMissing id])
    : Arises options nodes f
  /-- The rules of a kind find it in the data of a node of that kind. -/
  | data {node data : Value} {id : String} {kind : NodeKind} {f : NodeFinding}
    (here : node ∈ nodes) (ident : nodeId? node = some id) (stored : node.Holds "data" data)
    (typed : data.Holds "type" (.string kind.tag)) (found : f ∈ kind.findings options data)
    : Arises options nodes (.inNode id f)
  | cycle (asked : options.topologyChecks = true) : Arises options nodes .cycle
  | unreachable {node : Value} {id : String} (asked : options.topologyChecks = true)
    (here : node ∈ nodes) (ident : nodeId? node = some id)
    : Arises options nodes (.unreachable id)

section Arises

variable {options : Options} {document : Value} {nodes : List Value} {f : Finding}

/-- Each place is at one of the nodes or gives an error about no node, place by place. -/
theorem FoundIn.arises (found : FoundIn options document f)
    : Arises options (Validation.checkedNodes document) f := by
  cases found with
  | outline here ident listed => exact .outline here ident listed
  | data here ident stored typed found => exact .data here ident stored typed found
  | cycle asked => exact .cycle asked
  | unreachable asked here ident => exact .unreachable asked here ident
  | _ => exact .general rfl rfl

/-- Each finding in a document arises from one of the nodes that the rules come to, or from the
rest of the document.
-/
theorem arises_of_mem_documentFindings (member : f ∈ documentFindings options document)
    : Arises options (Validation.checkedNodes document) f :=
  (foundIn_of_mem_documentFindings member).arises

/-- The node that a finding is about is one of the nodes. -/
theorem Arises.exists_node {id : String} (arises : Arises options nodes f)
    (about : f.nodeId? = some id)
    : ∃ node ∈ nodes, nodeId? node = some id := by
  cases arises with
  | general unnamed => cases unnamed.symm.trans about
  | @outline node _ _ here ident listed =>
      refine ⟨node, here, ?_⟩
      simp only [List.mem_cons, List.not_mem_nil, or_false] at listed
      rcases listed with rfl | rfl | rfl <;> exact ident.trans about
  | data here ident => exact ⟨_, here, ident.trans about⟩
  | cycle => cases about
  | unreachable _ here ident => exact ⟨_, here, ident.trans about⟩

end Arises

end WorkflowLint
