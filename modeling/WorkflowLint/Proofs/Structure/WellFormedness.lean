import Mathlib.Data.List.Enum
import WorkflowLint.Proofs.Graph.TopologyWarnings
import WorkflowLint.Proofs.Structure.KindClauses
import WorkflowLint.Proofs.Structure.NodeCensus
import WorkflowLint.Validation

/-! A document is valid exactly when it is well-formed, which is stated without any walk:
on the sections, on each node, on the node ids as a whole and on each edge.
-/

namespace WorkflowLint

-----------------------------------------------------------------------------------------
-- Well-formed documents
-----------------------------------------------------------------------------------------

/-- A node has a truthy id and a data map with a truthy type, and meets the clauses of the
kind that its type is the tag of, if there is one.
-/
structure WellFormedNode (options : Options) (node : Value) : Prop where
  ident : ∃ id, node.Holds "id" id ∧ id.isTruthy = true
  typed : ∃ data type, node.Holds "data" data ∧ data.Holds "type" type ∧ type.isTruthy = true
  clauses
    : ∀ (kind : NodeKind) data,
        node.Holds "data" data
        → data.Holds "type" (.string kind.tag)
        → kind.Clauses options data

/-- No two nodes have ids with the same text. -/
def DistinctIds (nodes : List Value) : Prop :=
  nodes.Pairwise
    (fun first second =>
      ∀ left right,
        first.Holds "id" left → second.Holds "id" right → left.idText ≠ right.idText)

/-- The data of some node has a type. -/
def SomeOfType (nodes : List Value) (type : String) : Prop :=
  ∃ node ∈ nodes, ∃ data, node.Holds "data" data ∧ data.Holds "type" (.string type)

/-- An edge has two truthy endpoints with the texts of node ids. -/
def WellFormedEdge (nodes : List Value) (edge : Value) : Prop :=
  ∀ endpoint : Endpoint,
    ∃ content,
      edge.Holds endpoint.name content
      ∧ content.isTruthy = true
      ∧ ∃ node ∈ nodes,
          ∃ id, node.Holds "id" id ∧ id.isTruthy = true ∧ id.idText = content.idText

structure WellFormedGraph (options : Options) (nodes edges : List Value) : Prop where
  eachNode : ∀ node ∈ nodes, WellFormedNode options node
  distinct : DistinctIds nodes
  starts : SomeOfType nodes "start"
  ends : SomeOfType nodes "end"
  eachEdge : ∀ edge ∈ edges, WellFormedEdge nodes edge

structure WellFormed (options : Options) (document : Value) : Prop where
  kind : document.Holds "kind" (.string "app")
  version : document.HasKey "version"
  app
    : ∃ app,
        document.Holds "app" app
        ∧ app.HasKey "name"
        ∧ app.Holds "mode" (.string "workflow")
  workflow
    : ∃ workflow graph nodes edges,
        document.Holds "workflow" workflow
        ∧ workflow.Holds "graph" graph
        ∧ graph.Holds "nodes" (.list nodes)
        ∧ graph.Holds "edges" (.list edges)
        ∧ WellFormedGraph options nodes edges

namespace StructureRules

open WorkflowLint.Graph

-----------------------------------------------------------------------------------------
-- Sections of the document
-----------------------------------------------------------------------------------------

/-- A condition whose failure is an error has to hold. -/
theorem require_errorFree {holds : Bool} {f : Finding} (error : f.severity = .error)
    : ErrorFree Finding.severity (require holds f) ↔ holds = true := by
  cases holds <;> simp [require, ErrorFree, error]

theorem topLevelFindings_errorFree {root : Value}
    : ErrorFree Finding.severity (topLevelFindings root)
      ↔ root.Holds "kind" (.string "app")
        ∧ root.HasKey "version"
        ∧ root.HasKey "app"
        ∧ root.HasKey "workflow" := by
  simp only [topLevelFindings, errorFree_append, errorFree_flatMap,
    require_errorFree (f := .topLevelFieldMissing _) rfl, Value.has_iff, topLevelFields,
    require_errorFree (f := .kindNotApp (root.get? "kind")) rfl, decide_eq_true_eq,
    Value.get?_bind_asString?_eq_some_iff, List.forall_mem_cons, List.not_mem_nil, false_implies,
    implies_true, and_true]
  constructor
  · intro fields
    rcases fields with ⟨⟨_, version, app, workflow⟩, kind⟩
    exact ⟨kind, version, app, workflow⟩
  · intro fields
    rcases fields with ⟨kind, version, app, workflow⟩
    exact ⟨⟨⟨_, kind⟩, version, app, workflow⟩, kind⟩

/-- A mode that is there has to be the right one, and it has to be there. -/
theorem appFindings_errorFree {app : Value}
    : ErrorFree Finding.severity (appFindings app)
      ↔ app.HasKey "name" ∧ app.Holds "mode" (.string "workflow") := by
  have mode
      : ErrorFree Finding.severity (modeFindings app)
        ↔ ∀ content, app.Holds "mode" content → content = .string "workflow" := by
    refine (errorFree_optional errorFree_nil).trans ?_
    simp only [require_errorFree (f := .modeNotWorkflow _) rfl, decide_eq_true_eq,
      Value.asString?_eq_some_iff]
  simp only [appFindings, errorFree_append, errorFree_flatMap,
    require_errorFree (f := .appFieldMissing _) rfl, Value.has_iff, appFields,
    List.forall_mem_cons, List.not_mem_nil, false_implies, implies_true, and_true, mode, and_assoc,
    Value.hasKey_and_forall_iff, exists_eq_right]

/-- A section that is there has to be free of errors. -/
theorem sectionFindings_errorFree {root : Value} {key : String} {check : Value → List Finding}
    : ErrorFree Finding.severity (sectionFindings root key check)
      ↔ ∀ content, root.Holds key content → ErrorFree Finding.severity (check content) := by
  exact errorFree_optional errorFree_nil

theorem listFindings_errorFree {field : String} {v : Value}
    : ErrorFree Finding.severity (listFindings field v) ↔ ∃ items, v = .list items := by
  cases v <;> simp [listFindings, ErrorFree, Finding.severity]

/-- The graph rules never find an error. -/
theorem topologyFindings_errorFree (nodes edges : List Value)
    : ErrorFree Finding.severity (topologyFindings nodes edges) := by
  intro f member
  simp [TopologyRules.severity_of_mem member]

-----------------------------------------------------------------------------------------
-- Nodes
-----------------------------------------------------------------------------------------

/-- An id is not reported as repeated exactly when no node of the prefix carries it. -/
theorem repeatFindings_errorFree {earlier : List Value} {id : String}
    : ErrorFree Finding.severity (repeatFindings (censusOf earlier) id)
      ↔ ∀ other ∈ earlier, nodeId? other ≠ some id := by
  simp only [repeatFindings, censusOf, mem_declaredIds]
  split
  · rename_i repeated
    rcases repeated with ⟨other, member, same⟩
    refine iff_of_false (by simp [ErrorFree, Finding.severity]) ?_
    exact fun fresh => fresh other member same
  · rename_i fresh
    exact iff_of_true errorFree_nil (fun other member same => fresh ⟨other, member, same⟩)

theorem nodeDataFindings_errorFree {kind : NodeKind} {options : Options} {id : String}
    {data : Value}
    : ErrorFree Finding.severity (nodeDataFindings kind options id data)
      ↔ kind.Clauses options data := by
  rw [← kind.findings_errorFree options data]
  simp [ErrorFree, nodeDataFindings, Finding.severity]

/-- A node whose type names no kind has no clauses to meet. -/
theorem wellFormedNode_of_unknown {options : Options} {node data type : Value} {id : String}
    (ident : nodeId? node = some id) (stored : node.Holds "data" data)
    (typed : data.truthy? "type" = some type)
    (unknown : ∀ kind : NodeKind, type ≠ .string kind.tag)
    : WellFormedNode options node where
  ident := nodeId?_isSome_iff.mp (ident ▸ rfl)
  typed := ⟨data, type, stored, Value.truthy?_eq_some_iff.mp typed⟩
  clauses := by
    intro kind other here tagged
    obtain rfl := stored.unique here
    have same := (Value.truthy?_eq_some_iff.mp typed).1.unique tagged
    exact absurd same (unknown kind)

/-- A node of a kind is well-formed exactly when its data meets the clauses of that kind. -/
theorem wellFormedNode_iff_clauses {options : Options} {node data : Value} {id : String}
    {kind : NodeKind} (ident : nodeId? node = some id) (stored : node.Holds "data" data)
    (typed : data.Holds "type" (.string kind.tag))
    : WellFormedNode options node ↔ kind.Clauses options data := by
  constructor
  · intro wellFormed
    exact wellFormed.clauses kind data stored typed
  · intro clauses
    have truthy := (Value.truthy?_eq_some_iff.mp (truthy?_of_tag typed)).2
    refine ⟨nodeId?_isSome_iff.mp (ident ▸ rfl), ⟨data, _, stored, typed, truthy⟩, ?_⟩
    intro other data' here tagged
    obtain rfl := stored.unique here
    obtain rfl := NodeKind.tag_injective (Value.string.inj (typed.unique tagged))
    exact clauses

/-- A node adds no error at its index exactly when it is well-formed and no node before it
carries its id text. Witness: one case for each outline of the node.
-/
theorem findingsAt_errorFree {options : Options} {nodes : List Value} {index : Nat}
    {node : Value}
    : ErrorFree Finding.severity (findingsAt options nodes index node)
      ↔ WellFormedNode options node
        ∧ ∀ id, nodeId? node = some id → ∀ other ∈ nodes.take index, nodeId? other ≠ some id := by
  have spec := outline_spec node
  unfold findingsAt visitNode
  generalize outline node = found at spec
  cases spec with
  | noId absent =>
      refine iff_of_false (by simp [ErrorFree, Finding.severity]) ?_
      intro both
      have present := nodeId?_isSome_iff.mpr both.1.ident
      rw [absent] at present
      cases present
  | noData ident absent =>
      refine iff_of_false (by simp [errorFree_append, errorFree_singleton, Finding.severity]) ?_
      intro both
      obtain ⟨data, _, stored, _⟩ := both.1.typed
      exact absent ⟨data, stored⟩
  | noType ident stored absent =>
      refine iff_of_false (by simp [errorFree_append, errorFree_singleton, Finding.severity]) ?_
      intro both
      obtain ⟨data, type, here, typed⟩ := both.1.typed
      obtain rfl := stored.unique here
      rw [Value.truthy?_eq_some_iff.mpr typed] at absent
      cases absent
  | unknownType ident stored typed unknown =>
      have wellFormed : WellFormedNode options node :=
        wellFormedNode_of_unknown ident stored typed unknown
      simp only [repeatFindings_errorFree, wellFormed, true_and, ident, Option.some.injEq,
        forall_eq']
  | known ident stored typed =>
      simp only [errorFree_append, repeatFindings_errorFree, nodeDataFindings_errorFree,
        wellFormedNode_iff_clauses ident stored typed, ident, Option.some.injEq, forall_eq',
        and_comm]

/-- Ids are distinct exactly when no node carries the text of a node before it, where every
node has a truthy id. Witness: the pairs of positions in order.
-/
theorem distinctIds_iff {nodes : List Value}
    (idents : ∀ node ∈ nodes, ∃ id, node.Holds "id" id ∧ id.isTruthy = true)
    : (∀ j (_ : j < nodes.length),
        ∀ id,
          nodeId? nodes[j] = some id
          → ∀ other ∈ nodes.take j, nodeId? other ≠ some id)
      ↔ DistinctIds nodes := by
  rw [DistinctIds, List.pairwise_iff_getElem]
  constructor
  · intro fresh i j boundI boundJ before left right storedLeft storedRight same
    obtain ⟨left', here, truthy⟩ := idents nodes[i] (List.getElem_mem boundI)
    obtain rfl := storedLeft.unique here
    obtain ⟨right', there, truthy'⟩ := idents nodes[j] (List.getElem_mem boundJ)
    obtain rfl := storedRight.unique there
    have earlier : nodes[i] ∈ nodes.take j :=
      List.mem_take_iff_getElem.mpr ⟨i, by omega, rfl⟩
    have identLeft := nodeId?_eq_some_iff.mpr ⟨left, storedLeft, truthy, same⟩
    have identRight := nodeId?_eq_some_iff.mpr ⟨right, storedRight, truthy', rfl⟩
    exact fresh j boundJ right.idText identRight nodes[i] earlier identLeft
  · intro distinct j boundJ id ident other earlier same
    obtain ⟨i, before, rfl⟩ := List.mem_take_iff_getElem.mp earlier
    obtain ⟨right, storedRight, _, textRight⟩ := nodeId?_eq_some_iff.mp ident
    obtain ⟨left, storedLeft, _, textLeft⟩ := nodeId?_eq_some_iff.mp same
    exact distinct i j (by omega) boundJ (by omega) left right storedLeft storedRight
      (textLeft.trans textRight.symm)

/-- The flags of the walk say that some node is of a type, where every node has an id. -/
theorem hasKind_iff_someOfType {nodes : List Value} {kind : NodeKind}
    (idents : ∀ node ∈ nodes, ∃ id, node.Holds "id" id ∧ id.isTruthy = true)
    : hasKind nodes kind = true ↔ SomeOfType nodes kind.tag := by
  simp only [hasKind_iff, SomeOfType, nodeType?_eq_some_iff]
  constructor
  · intro seen
    rcases seen with ⟨node, member, _, typed⟩
    exact ⟨node, member, typed⟩
  · intro some
    rcases some with ⟨node, member, typed⟩
    exact ⟨node, member, nodeId?_isSome_iff.mpr (idents node member), typed⟩

-----------------------------------------------------------------------------------------
-- Edges
-----------------------------------------------------------------------------------------

/-- An end of an edge is free of errors exactly when it is truthy and names a node. -/
theorem endpointFindings_errorFree {nodes : List Value} {index : Nat} {edge : Value}
    {endpoint : Endpoint}
    : ErrorFree Finding.severity (endpointFindings (declaredIds nodes) index edge endpoint)
      ↔ ∃ content,
          edge.Holds endpoint.name content
          ∧ content.isTruthy = true
          ∧ ∃ node ∈ nodes,
              ∃ id, node.Holds "id" id ∧ id.isTruthy = true ∧ id.idText = content.idText := by
  rw [endpointFindings]
  cases found : endpointId? edge endpoint.name with
  | none =>
      refine iff_of_false (by simp [ErrorFree, Finding.severity]) ?_
      intro named
      rcases named with ⟨content, stored, truthy, _⟩
      rw [endpointId?_eq_some_iff.mpr ⟨content, stored, truthy, rfl⟩] at found
      cases found
  | some text =>
      simp only [require_errorFree (f := .endpointUnknown endpoint text) rfl, decide_eq_true_eq,
        mem_declaredIds, nodeId?_eq_some_iff]
      obtain ⟨content, stored, truthy, rfl⟩ := endpointId?_eq_some_iff.mp found
      constructor
      · intro known
        exact ⟨content, stored, truthy, known⟩
      · intro named
        rcases named with ⟨other, here, _, known⟩
        exact stored.unique here ▸ known

theorem edgesFindings_errorFree {nodes edges : List Value}
    : ErrorFree Finding.severity (edgesFindings (declaredIds nodes) edges)
      ↔ ∀ edge ∈ edges, WellFormedEdge nodes edge := by
  simp only [edgesFindings, errorFree_flatMap, edgeFindings, errorFree_append,
    endpointFindings_errorFree, List.forall_mem_zipIdx']
  rw [List.forall_mem_iff_forall_getElem]
  apply forall₂_congr
  intro index _
  constructor
  · intro both endpoint
    cases endpoint with
    | source => exact both.1
    | target => exact both.2
  · intro each
    exact ⟨each .source, each .target⟩

-----------------------------------------------------------------------------------------
-- The whole document
-----------------------------------------------------------------------------------------

/-- The graph section is free of errors exactly when its lists form a well-formed graph. -/
theorem graphFindings_errorFree {options : Options} {nodes edges : Value}
    : ErrorFree Finding.severity (graphFindings options nodes edges)
      ↔ ∃ nodeList edgeList,
          nodes = .list nodeList
          ∧ edges = .list edgeList
          ∧ WellFormedGraph options nodeList edgeList := by
  have topology
      : ErrorFree Finding.severity
          (if options.topologyChecks then topologyFindings nodes.entries edges.entries
            else []) := by
    split
    · exact topologyFindings_errorFree _ _
    · exact errorFree_nil
  simp only [graphFindings, nodesFindings_eq, errorFree_append, listFindings_errorFree,
    errorFree_flatMap, findingsAt_errorFree, edgesFindings_errorFree, topology,
    require_errorFree (f := .noStart) rfl, require_errorFree (f := .noEnd) rfl, and_true,
    List.forall_mem_zipIdx', forall_and, ← List.forall_mem_iff_forall_getElem]
  constructor
  · intro free
    obtain ⟨⟨⟨⟨nodeList, rfl⟩, ⟨visited, starts⟩, ends⟩, ⟨edgeList, rfl⟩⟩, eachEdge⟩ := free
    obtain ⟨eachNode, fresh⟩ := visited
    have idents := fun node member => (eachNode node member).ident
    exact ⟨nodeList, edgeList, rfl, rfl, {
      eachNode := eachNode
      distinct := (distinctIds_iff idents).mp fresh
      starts := (hasKind_iff_someOfType idents).mp starts
      ends := (hasKind_iff_someOfType idents).mp ends
      eachEdge := eachEdge
    }⟩
  · intro wellFormed
    obtain ⟨nodeList, edgeList, rfl, rfl, graph⟩ := wellFormed
    have idents := fun node member => (graph.eachNode node member).ident
    have fresh := (distinctIds_iff idents).mpr graph.distinct
    have starts : hasKind nodeList .start = true :=
      (hasKind_iff_someOfType idents).mpr graph.starts
    have ends : hasKind nodeList .end = true := (hasKind_iff_someOfType idents).mpr graph.ends
    exact ⟨⟨⟨⟨nodeList, rfl⟩, ⟨⟨graph.eachNode, fresh⟩, starts⟩, ends⟩, ⟨edgeList, rfl⟩⟩,
      graph.eachEdge⟩

/-- The findings on the workflow section, one part of the graph after the other. -/
theorem workflowFindings_eq (options : Options) (workflow : Value)
    : workflowFindings options workflow
      = match workflow.get? "graph" with
        | none => [.graphMissing]
        | some graph =>
            match graph.get? "nodes" with
            | none => [.nodesMissing]
            | some nodes =>
                match graph.get? "edges" with
                | none => [.edgesMissing]
                | some edges => graphFindings options nodes edges := by
  rw [workflowFindings]
  cases workflow.get? "graph" with
  | none => rfl
  | some graph =>
      dsimp only
      cases graph.get? "nodes" <;> cases graph.get? "edges" <;> rfl

/-- The workflow section is free of errors exactly when it holds a well-formed graph.
Witness: each part of the graph is required before the next one is looked at.
-/
theorem workflowFindings_errorFree {options : Options} {workflow : Value}
    : ErrorFree Finding.severity (workflowFindings options workflow)
      ↔ ∃ graph nodes edges,
          workflow.Holds "graph" graph
          ∧ graph.Holds "nodes" (.list nodes)
          ∧ graph.Holds "edges" (.list edges)
          ∧ WellFormedGraph options nodes edges := by
  have error {f : Finding} (severe : f.severity = .error)
      : ¬ ErrorFree Finding.severity [f] := by
    simp [errorFree_singleton, severe]
  rw [workflowFindings_eq]
  refine (errorFree_required (error rfl)).trans ?_
  constructor
  · intro required
    rcases required with ⟨graph, atGraph, required⟩
    obtain ⟨nodes, atNodes, required⟩ := (errorFree_required (error rfl)).mp required
    obtain ⟨edges, atEdges, free⟩ := (errorFree_required (error rfl)).mp required
    obtain ⟨nodeList, edgeList, rfl, rfl, wellFormed⟩ := graphFindings_errorFree.mp free
    exact ⟨graph, nodeList, edgeList, atGraph, atNodes, atEdges, wellFormed⟩
  · intro required
    rcases required with ⟨graph, nodes, edges, atGraph, atNodes, atEdges, wellFormed⟩
    have free := graphFindings_errorFree.mpr ⟨nodes, edges, rfl, rfl, wellFormed⟩
    refine ⟨graph, atGraph, ?_⟩
    apply (errorFree_required (error rfl)).mpr
    refine ⟨.list nodes, atNodes, ?_⟩
    apply (errorFree_required (error rfl)).mpr
    exact ⟨.list edges, atEdges, free⟩

/-- The rules find no error in a document exactly when it is well-formed. -/
theorem documentFindings_errorFree {options : Options} {document : Value}
    : ErrorFree Finding.severity (documentFindings options document)
      ↔ WellFormed options document := by
  simp only [documentFindings, errorFree_append, topLevelFindings_errorFree,
    sectionFindings_errorFree, appFindings_errorFree, workflowFindings_errorFree]
  constructor
  · intro free
    rcases free with ⟨⟨⟨kind, version, hasApp, hasWorkflow⟩, apps⟩, workflows⟩
    rcases hasApp with ⟨app, storedApp⟩
    rcases hasWorkflow with ⟨workflow, storedWorkflow⟩
    obtain ⟨graph, nodes, edges, wellFormed⟩ := workflows workflow storedWorkflow
    exact {
      kind := kind
      version := version
      app := ⟨app, storedApp, apps app storedApp⟩
      workflow := ⟨workflow, graph, nodes, edges, storedWorkflow, wellFormed⟩
    }
  · intro wellFormed
    obtain ⟨app, storedApp, fields⟩ := wellFormed.app
    obtain ⟨workflow, graph, nodes, edges, storedWorkflow, inside⟩ := wellFormed.workflow
    refine ⟨⟨⟨wellFormed.kind, wellFormed.version, ⟨app, storedApp⟩, ⟨workflow, storedWorkflow⟩⟩,
      ?_⟩, ?_⟩
    · intro other stored
      exact storedApp.unique stored ▸ fields
    · intro other stored
      exact storedWorkflow.unique stored ▸ ⟨graph, nodes, edges, inside⟩

end StructureRules

/-- A report from scratch is valid exactly when no error was found. -/
theorem isValid_ofFindings {findings : List Finding}
    : (Report.empty.add findings).isValid = true ↔ ErrorFree Finding.severity findings := by
  simp [Report.isValid, Report.add, Report.empty, diagnostics, ErrorFree, List.filter_eq_nil_iff]

/-- Validation accepts a document exactly when it is well-formed.
Witness: each rule is free of errors exactly when the part of the document that it checks
is well-formed, and a walk over the nodes compares each id with the ids before it.
-/
theorem validate_isValid_iff (options : Options) (document : Value)
    : (validate options document).isValid = true ↔ WellFormed options document := by
  rw [validate, Report.checkDocument, isValid_ofFindings]
  exact StructureRules.documentFindings_errorFree

end WorkflowLint
