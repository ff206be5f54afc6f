import WorkflowLint.Proofs.Structure.NodeCensus
import WorkflowLint.Validation

/-! What each part of a document contributes to a report, and in which order.
The contributions are given by position, without any state that is carried along, and the
walk over the document appends exactly them.
-/

namespace WorkflowLint.StructureRules

open WorkflowLint.Graph

-----------------------------------------------------------------------------------------
-- Contributions by position
-----------------------------------------------------------------------------------------

/-- A diagnostic with its weight. -/
abbrev Entry := Severity × Diagnostic

def errorEntry (code message : String) (nodeId : Option String) : Entry :=
  (.error, ⟨code, message, nodeId⟩)

/-- The diagnostics of one weight, in their order. -/
def ofSeverity (severity : Severity) (found : List Entry) : List Diagnostic :=
  (found.filter (fun entry => entry.1 = severity)).map Prod.snd

/-- The entry that a finding makes in a report. -/
def entryOf (f : Finding) : Entry :=
  (f.severity, f.diagnostic)

/-- One error for each key that is missing, in the order of the keys. -/
def missingEntries (v : Value) (keys : List String) (code label : String) : List Entry :=
  (keys.filter (fun key => !v.has key)).map (fun key => errorEntry code (label ++ key) none)

def rootEntries (root : Value) : List Entry :=
  missingEntries root ["kind", "version", "app", "workflow"] "D001"
      "Missing required top-level field: "
    ++ (if (root.get? "kind").bind Value.asString? = some "app" then []
        else
          [
            errorEntry "D002"
              ("Invalid 'kind' value: expected 'app', got '"
                ++ Value.render (root.get? "kind") ++ "'")
              none
          ])

def appEntries (app : Value) : List Entry :=
  missingEntries app ["name", "mode"] "A001" "Missing required app field: "
    ++ (match app.get? "mode" with
        | none => []
        | some mode =>
            if mode.asString? = some "workflow" then []
            else
              [
                errorEntry "A002"
                  ("Invalid app mode: expected 'workflow', got '"
                    ++ Value.render (some mode) ++ "'")
                  none
              ])

/-- What the data of a node contributes: a missing section, or what the rules of its kind
find where the type has rules.
-/
def dataEntries (options : Options) (id : String) (node : Value) : List Entry :=
  match node.get? "data" with
  | none => [errorEntry "G003" ("Node " ++ id ++ " missing 'data'") (some id)]
  | some data =>
      match data.truthy? "type" with
      | none => [errorEntry "G004" ("Node " ++ id ++ " missing type") (some id)]
      | some type =>
          match type.asString?.bind NodeKind.ofTag? with
          | none => []
          | some kind => (nodeDataFindings kind options id data).map entryOf

/-- What the node at an index contributes. An id is repeated where a node before it has a
truthy id with the same text.
-/
def nodeEntries (options : Options) (nodes : List Value) (index : Nat) (node : Value)
    : List Entry :=
  match nodeId? node with
  | none => [errorEntry "G001" ("Node at index " ++ toString index ++ " missing 'id'") none]
  | some id =>
      (if ∃ earlier ∈ nodes.take index, nodeId? earlier = some id then
          [errorEntry "G002" ("Duplicate node ID: " ++ id) (some id)]
        else [])
        ++ dataEntries options id node

/-- One error where no node with a truthy id has a type. -/
def absentEntries (nodes : List Value) (type code message : String) : List Entry :=
  if ∃ node ∈ nodes, (nodeId? node).isSome ∧ nodeType? node = some type then []
  else [errorEntry code message none]

/-- What one end of the edge at an index contributes. -/
def endpointEntries (nodes : List Value) (index : Nat) (edge : Value) (endpoint : Endpoint)
    : List Entry :=
  match endpointId? edge endpoint.name with
  | none =>
      [
        errorEntry "E001"
          ("Edge at index " ++ toString index ++ " missing '" ++ endpoint.name ++ "'") none
      ]
  | some id =>
      if ∃ node ∈ nodes, nodeId? node = some id then []
      else
        [
          errorEntry "E002"
            ("Edge references non-existent " ++ endpoint.name ++ " node: " ++ id) none
        ]

def edgeEntries (nodes : List Value) (index : Nat) (edge : Value) : List Entry :=
  endpointEntries nodes index edge .source ++ endpointEntries nodes index edge .target

def listEntries (field : String) : Value → List Entry
  | .list _ => []
  | _ => [errorEntry "W004" ("'" ++ field ++ "' in graph must be a list") none]

def graphEntries (options : Options) (nodes edges : Value) : List Entry :=
  listEntries "nodes" nodes
    ++ nodes.entries.zipIdx.flatMap
        (fun entry => nodeEntries options nodes.entries entry.2 entry.1)
    ++ absentEntries nodes.entries "start" "G005" "Workflow must have at least one 'start' node"
    ++ absentEntries nodes.entries "end" "G006" "Workflow must have at least one 'end' node"
    ++ listEntries "edges" edges
    ++ edges.entries.zipIdx.flatMap
        (fun entry => edgeEntries nodes.entries entry.2 entry.1)
    ++ (if options.topologyChecks then
          (topologyFindings nodes.entries edges.entries).map entryOf
        else [])

/-- Only the first missing part of the graph is reported, and then nothing else. -/
def workflowEntries (options : Options) (workflow : Value) : List Entry :=
  match workflow.get? "graph" with
  | none => [errorEntry "W001" "Missing required workflow field: graph" none]
  | some graph =>
      match graph.get? "nodes", graph.get? "edges" with
      | none, _ => [errorEntry "W002" "Missing 'nodes' in graph" none]
      | some _, none => [errorEntry "W003" "Missing 'edges' in graph" none]
      | some nodes, some edges => graphEntries options nodes edges

/-- All contributions to the report on a document, in the order of discovery. -/
def documentEntries (options : Options) (document : Value) : List Entry :=
  rootEntries document
    ++ (match document.get? "app" with
        | none => []
        | some app => appEntries app)
    ++ (match document.get? "workflow" with
        | none => []
        | some workflow => workflowEntries options workflow)

-----------------------------------------------------------------------------------------
-- The rules find what the positions contribute
-----------------------------------------------------------------------------------------

theorem diagnostics_eq (severity : Severity) (findings : List Finding)
    : diagnostics severity findings = ofSeverity severity (findings.map entryOf) := by
  simp only [diagnostics, ofSeverity, List.filter_map, List.map_map]
  rfl

/-- A required condition contributes one entry where it fails. -/
theorem require_entries (holds : Bool) (f : Finding)
    : (require holds f).map entryOf = if holds then [] else [entryOf f] := by
  cases holds <;> rfl

/-- Requiring each key of a list contributes one entry for each missing key. -/
theorem missing_entries (v : Value) (keys : List String) {finding : String → Finding}
    {code label : String}
    (same : ∀ key, entryOf (finding key) = errorEntry code (label ++ key) none)
    : (keys.flatMap (fun key => require (v.has key) (finding key))).map entryOf
      = missingEntries v keys code label := by
  induction keys with
  | nil => rfl
  | cons key rest ih =>
      rw [List.flatMap_cons, List.map_append, ih, require_entries, same]
      cases present : v.has key <;> simp [missingEntries, present]

theorem topLevel_entries (root : Value)
    : (topLevelFindings root).map entryOf = rootEntries root := by
  have fields
      : (topLevelFields.flatMap
          (fun key => require (root.has key) (.topLevelFieldMissing key))).map entryOf
        = missingEntries root topLevelFields "D001" "Missing required top-level field: " :=
    missing_entries root topLevelFields (fun _ => rfl)
  rw [topLevelFindings, List.map_append, fields, require_entries]
  simp only [decide_eq_true_eq]
  rfl

theorem app_entries (app : Value) : (appFindings app).map entryOf = appEntries app := by
  have fields
      : (appFields.flatMap
          (fun key => require (app.has key) (.appFieldMissing key))).map entryOf
        = missingEntries app appFields "A001" "Missing required app field: " :=
    missing_entries app appFields (fun _ => rfl)
  rw [appFindings, List.map_append, fields, modeFindings, appEntries]
  congr 1
  cases app.get? "mode" with
  | none => rfl
  | some mode =>
      simp only [require_entries, decide_eq_true_eq]
      rfl

/-- An id is repeated exactly when the census of the prefix lists it. -/
theorem repeat_entries (earlier : List Value) (id : String)
    : (repeatFindings (censusOf earlier) id).map entryOf
      = if ∃ other ∈ earlier, nodeId? other = some id then
          [errorEntry "G002" ("Duplicate node ID: " ++ id) (some id)]
        else [] := by
  simp only [repeatFindings, censusOf, mem_declaredIds]
  split <;> rfl

/-- The node at an index contributes what the walk finds there.
Witness: one case for each outline of the node.
-/
theorem node_entries (options : Options) (nodes : List Value) (index : Nat) (node : Value)
    : (findingsAt options nodes index node).map entryOf
      = nodeEntries options nodes index node := by
  have spec := outline_spec node
  unfold findingsAt visitNode
  generalize outline node = found at spec
  cases spec with
  | noId absent =>
      simp only [nodeEntries, absent]
      rfl
  | noData ident absent =>
      rw [← Value.get?_eq_none_iff] at absent
      simp only [nodeEntries, ident, dataEntries, absent, List.map_append, repeat_entries]
      rfl
  | noType ident stored absent =>
      rw [← Value.get?_eq_some_iff] at stored
      simp only [nodeEntries, ident, dataEntries, stored, absent, List.map_append, repeat_entries]
      rfl
  | @unknownType id data type ident stored typed unknown =>
      rw [← Value.get?_eq_some_iff] at stored
      have unruled : type.asString?.bind NodeKind.ofTag? = none :=
        Option.eq_none_iff_forall_ne_some.mpr
          (fun kind found => unknown kind (NodeKind.bind_ofTag?_eq_some_iff.mp found))
      simp only [nodeEntries, ident, dataEntries, stored, typed, unruled, repeat_entries,
        List.append_nil]
  | @known id kind data ident stored typed =>
      rw [← Value.get?_eq_some_iff] at stored
      have ruled : (Value.string kind.tag).asString?.bind NodeKind.ofTag? = some kind :=
        NodeKind.bind_ofTag?_eq_some_iff.mpr rfl
      simp only [nodeEntries, ident, dataEntries, stored, truthy?_of_tag typed, ruled,
        List.map_append, repeat_entries]

theorem absent_entries {nodes : List Value} {kind : NodeKind} {f : Finding}
    {code message : String} (same : entryOf f = errorEntry code message none)
    : (require (hasKind nodes kind) f).map entryOf
      = absentEntries nodes kind.tag code message := by
  simp only [require_entries, hasKind_iff, absentEntries, same]

theorem endpoint_entries (nodes : List Value) (index : Nat) (edge : Value) (endpoint : Endpoint)
    : (endpointFindings (declaredIds nodes) index edge endpoint).map entryOf
      = endpointEntries nodes index edge endpoint := by
  unfold endpointFindings endpointEntries
  cases endpointId? edge endpoint.name with
  | none => rfl
  | some id =>
      simp only [require_entries, decide_eq_true_eq, mem_declaredIds]
      rfl

theorem edge_entries (nodes edges : List Value)
    : (edgesFindings (declaredIds nodes) edges).map entryOf
      = edges.zipIdx.flatMap (fun entry => edgeEntries nodes entry.2 entry.1) := by
  simp only [edgesFindings, List.map_flatMap, edgeFindings, List.map_append, endpoint_entries,
    edgeEntries]

theorem list_entries (field : String) (v : Value)
    : (listFindings field v).map entryOf = listEntries field v := by
  cases v <;> rfl

/-- The graph section contributes by position. Witness: the walk over the nodes finds what
each index contributes and returns the declared ids that the edges are checked against.
-/
theorem graph_entries (options : Options) (nodes edges : Value)
    : (graphFindings options nodes edges).map entryOf = graphEntries options nodes edges := by
  have starts : (require (hasKind nodes.entries .start) .noStart).map entryOf
      = absentEntries nodes.entries "start" "G005"
          "Workflow must have at least one 'start' node" := absent_entries rfl
  have ends : (require (hasKind nodes.entries .end) .noEnd).map entryOf
      = absentEntries nodes.entries "end" "G006"
          "Workflow must have at least one 'end' node" := absent_entries rfl
  have topology
      : (if options.topologyChecks then topologyFindings nodes.entries edges.entries
          else []).map entryOf
        = if options.topologyChecks then
            (topologyFindings nodes.entries edges.entries).map entryOf
          else [] := by
    split <;> rfl
  simp only [graphFindings, nodesFindings_eq, graphEntries, List.map_append, List.map_flatMap,
    node_entries, list_entries, edge_entries, starts, ends, topology, List.append_assoc]

theorem workflow_entries (options : Options) (workflow : Value)
    : (workflowFindings options workflow).map entryOf = workflowEntries options workflow := by
  unfold workflowFindings workflowEntries
  cases workflow.get? "graph" with
  | none => rfl
  | some graph =>
      dsimp only
      cases graph.get? "nodes" with
      | none => rfl
      | some nodes =>
          cases graph.get? "edges" with
          | none => rfl
          | some edges => exact graph_entries options nodes edges

/-- The rules find in a document what its parts contribute, in the same order. -/
theorem document_entries (options : Options) (document : Value)
    : (documentFindings options document).map entryOf = documentEntries options document := by
  simp only [documentFindings, sectionFindings, documentEntries, List.map_append, topLevel_entries]
  congr 1
  · congr 1
    cases document.get? "app" with
    | none => rfl
    | some app => exact app_entries app
  · cases document.get? "workflow" with
    | none => rfl
    | some workflow => exact workflow_entries options workflow

/-- Checking a document keeps what the report holds and appends the contributions of the
document in the order of discovery, errors and warnings each to their own list.
-/
theorem checkDocument_appends (options : Options) (document : Value) (r : Report)
    : (r.checkDocument options document).errors
        = r.errors ++ ofSeverity .error (documentEntries options document)
      ∧ (r.checkDocument options document).warnings
        = r.warnings ++ ofSeverity .warning (documentEntries options document) := by
  simp only [Report.checkDocument, Report.add, diagnostics_eq, document_entries, and_self]

end WorkflowLint.StructureRules
