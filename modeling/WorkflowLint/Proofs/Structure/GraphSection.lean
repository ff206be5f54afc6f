import WorkflowLint.Proofs.Structure.WellFormedness

/-! The graph section of a document and what the rules find in it, apart from the other sections. -/

namespace WorkflowLint

/-- The workflow section of a document has a graph with these nodes and edges. -/
def Value.HasGraph (document : Value) (nodes edges : List Value) : Prop :=
  ∃ workflow graph,
    document.Holds "workflow" workflow
    ∧ workflow.Holds "graph" graph
    ∧ graph.Holds "nodes" (.list nodes)
    ∧ graph.Holds "edges" (.list edges)

theorem Value.HasGraph.has_workflow {document : Value} {nodes edges : List Value}
    (graph : document.HasGraph nodes edges)
    : document.has "workflow" = true := by
  obtain ⟨workflow, _, stored, _⟩ := graph
  exact Value.has_iff.mpr ⟨workflow, stored⟩

/-- A document with a graph section behind other sections. -/
def Value.withGraph (others : List (String × Value)) (nodes edges : List Value) : Value :=
  .map (others
    ++ [("workflow", .map [("graph", .map [("edges", .list edges), ("nodes", .list nodes)])])])

theorem Value.hasGraph_withGraph {others : List (String × Value)}
    (unset : others.lookup "workflow" = none) (nodes edges : List Value)
    : (withGraph others nodes edges).HasGraph nodes edges := by
  let graph := Value.map [("edges", .list edges), ("nodes", .list nodes)]
  refine ⟨.map [("graph", graph)], graph, ⟨_, rfl, ?_⟩, ⟨_, rfl, rfl⟩, ⟨_, rfl, rfl⟩,
    ⟨_, rfl, rfl⟩⟩
  rw [List.lookup_append, unset, Option.none_or]
  rfl

namespace StructureRules

/-- What is found in a document outside its workflow section. -/
def outerFindings (document : Value) : List Finding :=
  topLevelFindings document ++ sectionFindings document "app" appFindings

/-- What is found in the graph section of a document stands behind the other findings. -/
theorem documentFindings_of_hasGraph {options : Options} {document : Value}
    {nodes edges : List Value} (graph : document.HasGraph nodes edges)
    : documentFindings options document
      = outerFindings document ++ graphFindings options (.list nodes) (.list edges) := by
  obtain ⟨workflow, graph, atWorkflow, atGraph, atNodes, atEdges⟩ := graph
  rw [← Value.get?_eq_some_iff] at atWorkflow atGraph atNodes atEdges
  have inner : sectionFindings document "workflow" (workflowFindings options)
      = graphFindings options (.list nodes) (.list edges) := by
    simp only [sectionFindings, atWorkflow, workflowFindings, atGraph, atNodes, atEdges]
  rw [documentFindings, inner, outerFindings]

/-- What is found on two lists of nodes and edges: on the nodes, on the edges, and on the graph
where that is asked for.
-/
theorem graphFindings_lists (options : Options) (nodes edges : List Value)
    : graphFindings options (.list nodes) (.list edges)
      = (nodesFindings options nodes).2
          ++ edgesFindings (nodesFindings options nodes).1 edges
          ++ (if options.topologyChecks then topologyFindings nodes edges else []) := by
  simp only [graphFindings, listFindings, Value.entries, List.nil_append, List.append_nil]

/-- A valid document has no error among the findings on its nodes and edges. -/
theorem errorFree_of_isValid {options : Options} {document : Value} {nodes edges : List Value}
    (graph : document.HasGraph nodes edges) (valid : (validate options document).isValid = true)
    : ErrorFree Finding.severity (nodesFindings options nodes).2
      ∧ ErrorFree Finding.severity (edgesFindings (nodesFindings options nodes).1 edges) := by
  rw [validate, Report.checkDocument, isValid_ofFindings, documentFindings_of_hasGraph graph,
    graphFindings_lists] at valid
  simp only [errorFree_append] at valid
  exact valid.2.1

end StructureRules

end WorkflowLint
