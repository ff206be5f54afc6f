import WorkflowLint.Proofs.Structure.GraphSection
import WorkflowLint.Proofs.Structure.SameReadings
import WorkflowLint.Proofs.TreeEdits

/-! Values of a wrong shape count as empty ones, and falsy values as missing ones.
Making them so, in any choice of places where a document is read, does not change its report.
-/

namespace WorkflowLint

open WorkflowLint.Graph

/-- The places at which a document may be changed. Nodes, edges and entries have their index. -/
inductive Place where
  | root
  | app
  | workflow
  | graph
  | node (index : Nat)
  | nodeId (index : Nat)
  | data (index : Nat)
  | type (index : Nat)
  | model (index : Nat)
  | declared (index : Nat)
  | entry (index position : Nat)
  | edge (index : Nat)
  | endpoint (index : Nat) (endpoint : Endpoint)

/-- A change that is made or left. -/
def Value.changeIf (made : Bool) (change : Value → Value) (v : Value) : Value :=
  if made then change v else v

-----------------------------------------------------------------------------------------
-- The changes
-----------------------------------------------------------------------------------------

section Changes

open Value

variable (chosen : Place → Bool)

/-- The variables or outputs of a node as a list, and each of them as a map. -/
def relaxedEntries (index : Nat) (v : Value) : Value :=
  changeIf (chosen (.declared index)) asList
    (v.mapIndexed (fun position => changeIf (chosen (.entry index position)) asMap))

/-- What is changed inside the data of a node of some kind. -/
def NodeKind.relaxedSections (index : Nat) : NodeKind → Value → Value
  | .start => update "variables" (relaxedEntries chosen index)
  | .end => update "outputs" (relaxedEntries chosen index)
  | .llm => update "model" (changeIf (chosen (.model index)) asMap)
  | _ => id

/-- The kind of a node with some data. -/
def dataKind? (data : Value) : Option NodeKind :=
  (data.get? "type").bind (fun type => type.asString?.bind NodeKind.ofTag?)

/-- The data of a node as a map without a falsy type. -/
def relaxedData (index : Nat) (data : Value) : Value :=
  changeIf (chosen (.data index)) asMap
    (changeIf (chosen (.type index)) (dropFalsy "type")
      (match dataKind? data with
        | none => data
        | some kind => kind.relaxedSections chosen index data))

/-- A node as a map without a falsy id. -/
def relaxedNode (index : Nat) (node : Value) : Value :=
  changeIf (chosen (.node index)) asMap
    (changeIf (chosen (.nodeId index)) (dropFalsy "id")
      (node.update "data" (relaxedData chosen index)))

/-- An edge as a map without falsy ends. -/
def relaxedEdge (index : Nat) (edge : Value) : Value :=
  changeIf (chosen (.edge index)) asMap
    (changeIf (chosen (.endpoint index .source)) (dropFalsy "source")
      (changeIf (chosen (.endpoint index .target)) (dropFalsy "target") edge))

def relaxedGraph (graph : Value) : Value :=
  changeIf (chosen .graph) asMap
    ((graph.update "nodes" (mapIndexed (relaxedNode chosen))).update "edges"
      (mapIndexed (relaxedEdge chosen)))

def relaxedWorkflow (workflow : Value) : Value :=
  changeIf (chosen .workflow) asMap (workflow.update "graph" (relaxedGraph chosen))

/-- A document with the values at the chosen places changed: what is no map or list where the rules
read one becomes empty, and a falsy id, type, source or target is removed.
-/
def relaxedDocument (document : Value) : Value :=
  changeIf (chosen .root) asMap
    ((document.update "app" (changeIf (chosen .app) asMap)).update "workflow"
      (relaxedWorkflow chosen))

end Changes

-----------------------------------------------------------------------------------------
-- Readers
-----------------------------------------------------------------------------------------

namespace Value

/-- A reader that does not see a change does not see whether it is made. -/
theorem read_changeIf {α : Type} (read : Value → α) {change : Value → Value} {v : Value}
    (unseen : read (change v) = read v) (made : Bool)
    : read (changeIf made change v) = read v := by
  cases made with
  | false => rfl
  | true => exact unseen

theorem get?_changeIf_asMap (made : Bool) (key : String) (v : Value)
    : (changeIf made asMap v).get? key = v.get? key :=
  read_changeIf (fun v => v.get? key) rfl made

theorem truthy?_changeIf_asMap (made : Bool) (key : String) (v : Value)
    : (changeIf made asMap v).truthy? key = v.truthy? key :=
  read_changeIf (fun v => v.truthy? key) rfl made

theorem truthy?_changeIf_dropFalsy (made : Bool) (key other : String) (v : Value)
    : (changeIf made (dropFalsy key) v).truthy? other = v.truthy? other :=
  read_changeIf (fun v => v.truthy? other) (truthy?_dropFalsy key other v) made

theorem get?_changeIf_dropFalsy (made : Bool) {key other : String} (different : other ≠ key)
    (v : Value)
    : (changeIf made (dropFalsy key) v).get? other = v.get? other :=
  read_changeIf (fun v => v.get? other) (get?_dropFalsy_of_ne different v) made

end Value

/-- A list is related item by item to what changes make of it, by induction on the list. -/
theorem forall₂_mapIdx {related : Value → Value → Prop} {change : Nat → Value → Value}
    {items : List Value} (item : ∀ index v, related v (change index v))
    : List.Forall₂ related items (items.mapIdx change) := by
  induction items generalizing change with
  | nil => exact .nil
  | cons v more ih =>
      rw [List.mapIdx_cons]
      exact .cons (item 0 v) (ih (fun index => item (index + 1)))

open Value

variable (chosen : Place → Bool) (options : Options) (index : Nat)

-----------------------------------------------------------------------------------------
-- Data
-----------------------------------------------------------------------------------------

/-- What is found in the entries of a list is found in them as maps, if entries are only looked up
in.
-/
theorem flatMap_relaxedEntries {β : Type} {check : Value → List β}
    (unseen : ∀ entry, check entry.asMap = check entry) (v : Value)
    : (relaxedEntries chosen index v).entries.flatMap check = v.entries.flatMap check := by
  have checks : v.entries.map check
      = (v.entries.mapIdx
          (fun position => changeIf (chosen (.entry index position)) asMap)).map check :=
    map_eq_of_forall₂ (forall₂_mapIdx (fun _ entry => (read_changeIf check (unseen entry) _).symm))
      id
  rw [relaxedEntries, read_changeIf Value.entries rfl, entries_mapIndexed, List.flatMap_def,
    List.flatMap_def, checks]

open NodeRules in
/-- The rules of a kind do not see the changes in the sections that they read, by cases on the
kind.
-/
theorem NodeKind.findings_relaxedSections (kind : NodeKind) (data : Value)
    : kind.findings options (kind.relaxedSections chosen index data)
      = kind.findings options data := by
  cases kind with
  | start =>
      change startFindings (data.update "variables" (relaxedEntries chosen index))
        = startFindings data
      unfold startFindings
      rw [get?_update]
      cases data.get? "variables" with
      | none => rfl
      | some v => exact flatMap_relaxedEntries chosen index (fun _ => rfl) v
  | «end» =>
      change endFindings (data.update "outputs" (relaxedEntries chosen index)) = endFindings data
      unfold endFindings
      rw [get?_update]
      cases data.get? "outputs" with
      | none => rfl
      | some v => exact flatMap_relaxedEntries chosen index (fun _ => rfl) v
  | llm =>
      change llmFindings (data.update "model" (changeIf (chosen (.model index)) asMap))
        = llmFindings data
      rw [llmFindings, llmFindings, modelFindings, modelFindings, sectionFindings, sectionFindings,
        get?_update, get?_update_of_ne (by decide)]
      cases data.get? "model" with
      | none => rfl
      | some model => simp only [Option.map_some, Value.has, get?_changeIf_asMap]
  | _ => rfl

/-- The type is not one of these sections. -/
theorem NodeKind.get?_relaxedSections_type (kind : NodeKind) (data : Value)
    : (kind.relaxedSections chosen index data).get? "type" = data.get? "type" := by
  cases kind with
  | start | «end» | llm => exact get?_update_of_ne (by decide) _ data
  | _ => rfl

open NodeRules in
/-- The rules of a kind find the same in data that differ in the type alone. -/
theorem NodeKind.findings_congr {first second : Value}
    (same : ∀ key, key ≠ "type" → first.get? key = second.get? key) (kind : NodeKind)
    : kind.findings options first = kind.findings options second := by
  cases kind with
  | start => simp [findings, startFindings, same]
  | «end» => simp [findings, endFindings, same]
  | llm => simp [findings, llmFindings, modelFindings, sectionFindings, same]
  | code => simp [findings, codeFindings, languageFindings, codeFields, Value.has, same]
  | variableAggregator => simp [findings, aggregatorFindings, sectionFindings, Value.has, same]
  | ifElse => simp [findings, ifElseFindings, sectionFindings, same]

/-- The changes of data are not seen, neither in the type nor by the rules for it. -/
theorem sameData_relaxedData (data : Value)
    : SameData options data (relaxedData chosen index data) where
  type := by
    rw [relaxedData, truthy?_changeIf_asMap, truthy?_changeIf_dropFalsy]
    split
    · rfl
    · rw [truthy?, truthy?, NodeKind.get?_relaxedSections_type]
  findings := by
    intro kind typed
    have known : dataKind? data = some kind := by
      rw [dataKind?, get?_eq_some_iff.mpr typed, Option.bind_some,
        NodeKind.bind_ofTag?_eq_some_iff]
    rw [← kind.findings_relaxedSections chosen options index data]
    apply NodeKind.findings_congr
    intro key different
    rw [relaxedData, get?_changeIf_asMap, get?_changeIf_dropFalsy _ different, known]

-----------------------------------------------------------------------------------------
-- Nodes and edges
-----------------------------------------------------------------------------------------

theorem nodeId?_relaxedNode (node : Value)
    : nodeId? (relaxedNode chosen index node) = nodeId? node := by
  rw [nodeId?, relaxedNode, truthy?_changeIf_asMap, truthy?_changeIf_dropFalsy, truthy?,
    get?_update_of_ne (by decide), ← truthy?, ← nodeId?]

theorem get?_relaxedNode_data (node : Value)
    : (relaxedNode chosen index node).get? "data"
      = (node.get? "data").map (relaxedData chosen index) := by
  rw [relaxedNode, get?_changeIf_asMap, get?_changeIf_dropFalsy _ (by decide), get?_update]

/-- The changes of a node are not seen, since those of its data are not. -/
theorem sameNode_relaxedNode (node : Value)
    : SameNode options node (relaxedNode chosen index node) := by
  apply sameNode_of_data (nodeId?_relaxedNode chosen index node).symm
  rw [get?_relaxedNode_data]
  cases node.get? "data" with
  | none => exact .none
  | some data => exact .some (sameData_relaxedData chosen options index data)

theorem sameEdge_relaxedEdge (edge : Value) : SameEdge edge (relaxedEdge chosen index edge) := by
  intro endpoint
  rw [endpointId?, endpointId?, relaxedEdge, truthy?_changeIf_asMap, truthy?_changeIf_dropFalsy,
    truthy?_changeIf_dropFalsy]

-----------------------------------------------------------------------------------------
-- Documents
-----------------------------------------------------------------------------------------

namespace StructureRules

theorem listFindings_mapIndexed (field : String) (change : Nat → Value → Value) (v : Value)
    : listFindings field (v.mapIndexed change) = listFindings field v := by
  cases v <;> rfl

theorem workflowFindings_relaxedWorkflow (workflow : Value)
    : workflowFindings options (relaxedWorkflow chosen workflow)
      = workflowFindings options workflow := by
  unfold workflowFindings
  rw [relaxedWorkflow, get?_changeIf_asMap, get?_update]
  cases workflow.get? "graph" with
  | none => rfl
  | some graph =>
      have nodes : (relaxedGraph chosen graph).get? "nodes"
          = (graph.get? "nodes").map (mapIndexed (relaxedNode chosen)) := by
        rw [relaxedGraph, get?_changeIf_asMap, get?_update_of_ne (by decide), get?_update]
      have edges : (relaxedGraph chosen graph).get? "edges"
          = (graph.get? "edges").map (mapIndexed (relaxedEdge chosen)) := by
        rw [relaxedGraph, get?_changeIf_asMap, get?_update, get?_update_of_ne (by decide)]
      simp only [Option.map_some, nodes, edges]
      cases graph.get? "nodes" with
      | none => rfl
      | some nodes =>
          cases graph.get? "edges" with
          | none => rfl
          | some edges =>
              symm
              apply graphFindings_eq_of_same
              · rw [entries_mapIndexed]
                exact forall₂_mapIdx (sameNode_relaxedNode chosen options)
              · rw [entries_mapIndexed]
                exact forall₂_mapIdx (sameEdge_relaxedEdge chosen)
              · exact (listFindings_mapIndexed _ _ nodes).symm
              · exact (listFindings_mapIndexed _ _ edges).symm

/-- The presence of sections and the kind of a document are not changed. -/
theorem topLevelFindings_relaxedDocument (document : Value)
    : topLevelFindings (relaxedDocument chosen document) = topLevelFindings document := by
  have has (key : String) : (relaxedDocument chosen document).has key = document.has key := by
    rw [relaxedDocument, read_changeIf (fun v => v.has key) rfl, has_update, has_update]
  have kind : (relaxedDocument chosen document).get? "kind" = document.get? "kind" := by
    rw [relaxedDocument, get?_changeIf_asMap, get?_update_of_ne (by decide),
      get?_update_of_ne (by decide)]
  simp only [topLevelFindings, has, kind]

/-- What is found in a section is found in it after a change that its rules do not see. -/
theorem sectionFindings_of_unseen {first second : Value} {key : String} {change : Value → Value}
    {check : Value → List Finding} (changed : second.get? key = (first.get? key).map change)
    (unseen : ∀ content, check (change content) = check content)
    : sectionFindings second key check = sectionFindings first key check := by
  unfold sectionFindings
  rw [changed]
  cases first.get? key with
  | none => rfl
  | some content => exact unseen content

end StructureRules

open StructureRules in
/-- Changing a document at any places where it is read, so that what has a wrong shape is empty and
what is falsy is missing, does not change its report. Witness: no reader sees such a change.
-/
theorem validate_relaxedDocument (document : Value)
    : validate options (relaxedDocument chosen document) = validate options document := by
  have app : (relaxedDocument chosen document).get? "app"
      = (document.get? "app").map (changeIf (chosen .app) asMap) := by
    rw [relaxedDocument, get?_changeIf_asMap, get?_update_of_ne (by decide), get?_update]
  have workflow : (relaxedDocument chosen document).get? "workflow"
      = (document.get? "workflow").map (relaxedWorkflow chosen) := by
    rw [relaxedDocument, get?_changeIf_asMap, get?_update, get?_update_of_ne (by decide)]
  have onApp := sectionFindings_of_unseen app (fun content => read_changeIf appFindings rfl _)
  have onWorkflow :=
    sectionFindings_of_unseen workflow (workflowFindings_relaxedWorkflow chosen options)
  rw [validate, validate, Report.checkDocument, Report.checkDocument, documentFindings,
    documentFindings, topLevelFindings_relaxedDocument, onApp, onWorkflow]

/-- Every place of a document changed. -/
example
    : relaxedDocument (fun _ => true)
        (.withGraph [("app", .null)]
          [
            .map
              [
                ("data", .map [("type", .string "start"), ("variables", .bool true)]),
                ("id", .string "1")
              ],
            .map [("data", .map [("type", .string "")]), ("id", .number (.int 0))]
          ]
          [.map [("source", .list []), ("target", .string "1")], .string "2"])
      = .withGraph [("app", .map [])]
          [
            .map
              [
                ("data", .map [("type", .string "start"), ("variables", .list [])]),
                ("id", .string "1")
              ],
            .map [("data", .map [])]
          ]
          [.map [("target", .string "1")], .map []] := by
  rfl

end WorkflowLint
