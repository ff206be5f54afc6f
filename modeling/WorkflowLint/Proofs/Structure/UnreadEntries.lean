import WorkflowLint.Proofs.Structure.GraphSection
import WorkflowLint.Proofs.Structure.SameReadings

/-! Documents that are alike in what the rules read get the same report.
Tables list the keys that are read in each section, and how much of the values there matters.
-/

namespace WorkflowLint

-----------------------------------------------------------------------------------------
-- What the rules read
-----------------------------------------------------------------------------------------

/-- What two values have in common. -/
abbrev Likeness := Value → Value → Prop

/-- Of some values it only matters that they are there. -/
def anything : Likeness := fun _ _ => True

/-- Under each key of a table both values store nothing, or values that are alike as the table
says. Other entries do not matter.
-/
def Alike (table : List (String × Likeness)) : Likeness := fun first second =>
  ∀ row ∈ table, Option.Rel row.2 (first.get? row.1) (second.get? row.1)

/-- Lists of values that are alike one by one, or else equal values. -/
inductive ListsAlike (alike : Likeness) : Likeness where
  | lists {first second : List Value} (items : List.Forall₂ alike first second)
    : ListsAlike alike (.list first) (.list second)
  | equal (v : Value) : ListsAlike alike v v

namespace Alike

/-- An entry of a list of variables, in which a second key is needed besides the name. -/
def named (key : String) : Likeness :=
  Alike [("variable", Eq), (key, anything)]

/-- What the rules of a kind read in the data of a node, beside the type. -/
def kindTable : NodeKind → List (String × Likeness)
  | .start => [("variables", ListsAlike (named "type"))]
  | .end => [("outputs", ListsAlike (named "value_selector"))]
  | .llm =>
      [
        ("model", Alike [("provider", anything), ("name", anything), ("mode", anything)]),
        ("prompt_template", Eq)
      ]
  | .code => [("code", anything), ("code_language", Eq), ("outputs", anything)]
  | .variableAggregator => [("variables", Eq), ("output_type", anything)]
  | .ifElse => [("conditions", Eq)]

/-- The data of two nodes have the same type, and are alike in what the rules for it read. -/
structure NodeData (first second : Value) : Prop where
  type : Alike [("type", Eq)] first second
  kind
    : ∀ kind : NodeKind,
        first.Holds "type" (.string kind.tag) → Alike (kindTable kind) first second

def node : Likeness :=
  Alike [("id", Eq), ("data", NodeData)]

def edge : Likeness :=
  Alike [("source", Eq), ("target", Eq)]

def graph : Likeness :=
  Alike [("nodes", ListsAlike node), ("edges", ListsAlike edge)]

def workflow : Likeness :=
  Alike [("graph", graph)]

def app : Likeness :=
  Alike [("name", anything), ("mode", Eq)]

def document : Likeness :=
  Alike [("kind", Eq), ("version", anything), ("app", app), ("workflow", workflow)]

end Alike

-----------------------------------------------------------------------------------------
-- Reading alike values
-----------------------------------------------------------------------------------------

section Reading

variable {table : List (String × Likeness)} {likeness : Likeness} {first second : Value}
  {key : String}

/-- Alike values store nothing under a key of the table, or they store alike values. -/
theorem Alike.look (alike : Alike table first second) (row : (key, likeness) ∈ table)
    : (first.get? key = none ∧ second.get? key = none)
      ∨ ∃ v w, first.get? key = some v ∧ second.get? key = some w ∧ likeness v w := by
  have found : Option.Rel likeness (first.get? key) (second.get? key) := alike _ row
  revert found
  cases first.get? key <;> cases second.get? key <;> simp

/-- Alike values have the same keys of the table. -/
theorem Alike.has_eq (alike : Alike table first second) (row : (key, likeness) ∈ table)
    : first.has key = second.has key := by
  rcases alike.look row with ⟨none, none'⟩ | ⟨v, w, some, some', _⟩
  · rw [Value.has, none, Value.has, none']
  · rw [Value.has, some, Value.has, some']
    rfl

/-- Checks for the presence of keys of the table come out alike. -/
theorem Alike.flatMap_has_eq {β : Type} {keys : List String} (alike : Alike table first second)
    (rows : ∀ key ∈ keys, ∃ likeness, (key, likeness) ∈ table) (check : Bool → String → List β)
    : keys.flatMap (fun key => check (first.has key) key)
      = keys.flatMap (fun key => check (second.has key) key) := by
  refine List.flatMap_congr (fun key member => ?_)
  obtain ⟨_, row⟩ := rows key member
  rw [alike.has_eq row]

/-- A look-up gives the same where equal values are called for. -/
theorem Alike.get?_eq (alike : Alike table first second) (row : (key, Eq) ∈ table)
    : first.get? key = second.get? key := by
  rcases alike.look row with ⟨none, none'⟩ | ⟨v, _, some, some', rfl⟩
  · rw [none, none']
  · rw [some, some']

theorem ListsAlike.map_eq {β : Type} {look : Value → β} (lists : ListsAlike likeness first second)
    (same : ∀ {x y}, likeness x y → look x = look y)
    : first.entries.map look = second.entries.map look := by
  cases lists with
  | lists items => exact map_eq_of_forall₂ items same
  | equal => rfl

theorem ListsAlike.listFindings_eq (lists : ListsAlike likeness first second) (field : String)
    : StructureRules.listFindings field first = StructureRules.listFindings field second := by
  cases lists <;> rfl

/-- Alike lists have alike items, provided that each item is like itself. -/
theorem ListsAlike.entries (lists : ListsAlike likeness first second)
    (refl : ∀ v, likeness v v)
    : List.Forall₂ likeness first.entries second.entries := by
  cases lists with
  | lists items => exact items
  | equal => exact List.forall₂_same.mpr (fun v _ => refl v)

/-- A value is like itself when the likenesses of the table are of that kind. -/
theorem Alike.refl (rows : ∀ row ∈ table, ∀ v, row.2 v v) (v : Value) : Alike table v v := by
  intro row member
  cases v.get? row.1 with
  | none => exact .none
  | some content => exact .some (rows row member content)

/-- Data are like themselves, one case for each kind. -/
theorem Alike.nodeData_refl (v : Value) : Alike.NodeData v v where
  type := Alike.refl (by simp) v
  kind := by
    intro kind _
    refine Alike.refl ?_ v
    have model (v : Value)
        : Alike [("provider", anything), ("name", anything), ("mode", anything)] v v :=
      Alike.refl (by simp [anything]) v
    cases kind <;> simp [kindTable, anything, model, ListsAlike.equal]

theorem Alike.edge_refl (v : Value) : Alike.edge v v :=
  Alike.refl (by simp) v

theorem Alike.node_refl (v : Value) : Alike.node v v :=
  Alike.refl (by simp [Alike.nodeData_refl]) v

end Reading

-----------------------------------------------------------------------------------------
-- Rules on alike data
-----------------------------------------------------------------------------------------

namespace NodeRules

variable {first second : Value}

theorem require_fields_eq {table : List (String × Likeness)} (alike : Alike table first second)
    {fields : List String} (rows : ∀ key ∈ fields, ∃ likeness, (key, likeness) ∈ table)
    (finding : String → NodeFinding)
    : fields.flatMap (fun key => require (first.has key) (finding key))
      = fields.flatMap (fun key => require (second.has key) (finding key)) :=
  alike.flatMap_has_eq rows (fun holds key => require holds (finding key))

/-- Alike entries have a name and a second key alike, and are called the same. -/
theorem named_eq {key : String} (alike : Alike.named key first second)
    : first.has "variable" = second.has "variable"
      ∧ first.has key = second.has key
      ∧ entryName first = entryName second := by
  refine ⟨alike.has_eq List.mem_cons_self,
    alike.has_eq (List.mem_cons_of_mem _ List.mem_cons_self), ?_⟩
  rw [entryName, entryName, alike.get?_eq List.mem_cons_self]

theorem variableFindings_eq (alike : Alike.named "type" first second)
    : variableFindings first = variableFindings second := by
  obtain ⟨name, type, called⟩ := named_eq alike
  rw [variableFindings, variableFindings, name, type, called]

theorem outputFindings_eq (alike : Alike.named "value_selector" first second)
    : outputFindings first = outputFindings second := by
  obtain ⟨name, selector, called⟩ := named_eq alike
  rw [outputFindings, outputFindings, name, selector, called]

theorem startFindings_eq (alike : Alike (Alike.kindTable .start) first second)
    : startFindings first = startFindings second := by
  unfold startFindings
  rcases alike.look List.mem_cons_self with ⟨none, none'⟩ | ⟨v, w, some, some', lists⟩
  · rw [none, none']
  · simp only [some, some', List.flatMap_def, lists.map_eq variableFindings_eq]

theorem endFindings_eq (alike : Alike (Alike.kindTable .end) first second)
    : endFindings first = endFindings second := by
  unfold endFindings
  rcases alike.look List.mem_cons_self with ⟨none, none'⟩ | ⟨v, w, some, some', lists⟩
  · rw [none, none']
  · simp only [some, some', List.flatMap_def, lists.map_eq outputFindings_eq]

theorem modelFindings_eq (alike : Alike (Alike.kindTable .llm) first second)
    : modelFindings first = modelFindings second := by
  unfold modelFindings
  rcases alike.look List.mem_cons_self with ⟨none, none'⟩ | ⟨v, w, some, some', model⟩
  · rw [none, none']
  · simp only [some, some']
    exact require_fields_eq model (by simp [modelFields]) _

/-- A section that is needed and should not be empty is checked by its value. -/
theorem sectionFindings_eq {key : String} (same : first.get? key = second.get? key)
    (missing empty : NodeFinding)
    : sectionFindings first key missing empty = sectionFindings second key missing empty := by
  rw [sectionFindings, sectionFindings, same]

end NodeRules

open NodeRules in
/-- The rules of a kind find the same in data that are alike in what they read.
Witness: one case for each kind.
-/
theorem NodeKind.findings_eq {kind : NodeKind} {first second : Value} (options : Options)
    (alike : Alike (Alike.kindTable kind) first second)
    : kind.findings options first = kind.findings options second := by
  cases kind with
  | start => exact startFindings_eq alike
  | «end» => exact endFindings_eq alike
  | llm =>
      have prompt : first.get? "prompt_template" = second.get? "prompt_template" :=
        alike.get?_eq (by simp [Alike.kindTable])
      show llmFindings first = llmFindings second
      rw [llmFindings, llmFindings, modelFindings_eq alike, sectionFindings_eq prompt]
  | code =>
      have language : first.get? "code_language" = second.get? "code_language" :=
        alike.get?_eq (by simp [Alike.kindTable])
      have outputs : first.has "outputs" = second.has "outputs" :=
        alike.has_eq (List.mem_cons_of_mem _ (List.mem_cons_of_mem _ List.mem_cons_self))
      show codeFindings options.codeLanguages first = codeFindings options.codeLanguages second
      rw [codeFindings, codeFindings,
        require_fields_eq alike (by simp [codeFields, Alike.kindTable]),
        languageFindings, languageFindings, language, outputs]
  | variableAggregator =>
      have type : first.has "output_type" = second.has "output_type" :=
        alike.has_eq (List.mem_cons_of_mem _ List.mem_cons_self)
      show aggregatorFindings first = aggregatorFindings second
      rw [aggregatorFindings, aggregatorFindings,
        sectionFindings_eq (alike.get?_eq List.mem_cons_self), type]
  | ifElse => exact sectionFindings_eq (alike.get?_eq List.mem_cons_self) _ _

-----------------------------------------------------------------------------------------
-- Rules on alike nodes and edges
-----------------------------------------------------------------------------------------

section Graphs

open WorkflowLint.Graph

variable {first second : Value}

theorem nodeId?_eq (alike : Alike.node first second) : nodeId? first = nodeId? second := by
  rw [nodeId?, nodeId?, Value.truthy?, Value.truthy?, alike.get?_eq List.mem_cons_self]

theorem endpointId?_eq (alike : Alike.edge first second) (endpoint : Endpoint)
    : endpointId? first endpoint.name = endpointId? second endpoint.name := by
  have stored : first.get? endpoint.name = second.get? endpoint.name :=
    alike.get?_eq (by cases endpoint <;> simp [Endpoint.name])
  rw [endpointId?, endpointId?, Value.truthy?, Value.truthy?, stored]

/-- Alike nodes are read the same, since their data are alike in what the rules for it read. -/
theorem sameNode_of_alike {options : Options} (alike : Alike.node first second)
    : SameNode options first second := by
  have data : Option.Rel Alike.NodeData (first.get? "data") (second.get? "data") :=
    alike _ (List.mem_cons_of_mem _ List.mem_cons_self)
  apply sameNode_of_data (nodeId?_eq alike)
  generalize first.get? "data" = v, second.get? "data" = w at data ⊢
  cases data with
  | none => exact .none
  | @some v w same =>
      have type : v.get? "type" = w.get? "type" := same.type.get?_eq List.mem_cons_self
      exact .some {
        type := by rw [Value.truthy?, Value.truthy?, type]
        findings := fun kind typed => NodeKind.findings_eq options (same.kind kind typed)
      }

end Graphs

namespace StructureRules

variable {options : Options} {first second : Value}

/-- What is found in alike graphs is the same, lists that are none included. -/
theorem graphFindings_eq {nodes nodes' edges edges' : Value}
    (nodesAlike : ListsAlike Alike.node nodes nodes')
    (edgesAlike : ListsAlike Alike.edge edges edges')
    : graphFindings options nodes edges = graphFindings options nodes' edges' := by
  apply graphFindings_eq_of_same
  · exact (nodesAlike.entries Alike.node_refl).imp (fun _ _ => sameNode_of_alike)
  · exact (edgesAlike.entries Alike.edge_refl).imp (fun _ _ => endpointId?_eq)
  · exact nodesAlike.listFindings_eq "nodes"
  · exact edgesAlike.listFindings_eq "edges"

theorem workflowFindings_eq_of_alike (alike : Alike.workflow first second)
    : workflowFindings options first = workflowFindings options second := by
  unfold workflowFindings
  rcases alike.look List.mem_cons_self with ⟨none, none'⟩ | ⟨graph, graph', some, some', alike⟩
  · rw [none, none']
  · have edges := alike.look (List.mem_cons_of_mem _ List.mem_cons_self)
    simp only [some, some']
    rcases alike.look List.mem_cons_self with ⟨none, none'⟩ | ⟨_, _, nodes, nodes', nodesAlike⟩
    · rw [none, none']
    · rcases edges with ⟨none, none'⟩ | ⟨_, _, edges, edges', edgesAlike⟩
      · rw [nodes, nodes', none, none']
      · simp only [nodes, nodes', edges, edges']
        exact graphFindings_eq nodesAlike edgesAlike

theorem require_fields_eq {table : List (String × Likeness)} (alike : Alike table first second)
    {fields : List String} (rows : ∀ key ∈ fields, ∃ likeness, (key, likeness) ∈ table)
    (finding : String → Finding)
    : fields.flatMap (fun key => require (first.has key) (finding key))
      = fields.flatMap (fun key => require (second.has key) (finding key)) :=
  alike.flatMap_has_eq rows (fun holds key => require holds (finding key))

theorem appFindings_eq (alike : Alike.app first second)
    : appFindings first = appFindings second := by
  have mode : first.get? "mode" = second.get? "mode" :=
    alike.get?_eq (List.mem_cons_of_mem _ List.mem_cons_self)
  rw [appFindings, appFindings, require_fields_eq alike (by simp [appFields]), modeFindings,
    modeFindings, mode]

theorem topLevelFindings_eq (alike : Alike.document first second)
    : topLevelFindings first = topLevelFindings second := by
  have kind : first.get? "kind" = second.get? "kind" := alike.get?_eq List.mem_cons_self
  rw [topLevelFindings, topLevelFindings, require_fields_eq alike (by simp [topLevelFields]), kind]

/-- What is found in a section that need not be there is the same in alike sections. -/
theorem sectionFindings_eq {table : List (String × Likeness)} {likeness : Likeness} {key : String}
    {check : Value → List Finding} (alike : Alike table first second)
    (row : (key, likeness) ∈ table) (same : ∀ {v w}, likeness v w → check v = check w)
    : sectionFindings first key check = sectionFindings second key check := by
  unfold sectionFindings
  rcases alike.look row with ⟨none, none'⟩ | ⟨v, w, some, some', inner⟩
  · rw [none, none']
  · simp only [some, some', same inner]

end StructureRules

open StructureRules in
/-- Documents that are alike in what the rules read get the same report, whatever their other
entries hold. Witness: each rule is shown to read no more than its table lists.
-/
theorem validate_eq_of_alike (options : Options) {first second : Value}
    (alike : Alike.document first second)
    : validate options first = validate options second := by
  have app : sectionFindings first "app" appFindings = sectionFindings second "app" appFindings :=
    sectionFindings_eq alike (by simp) appFindings_eq
  have workflow
      : sectionFindings first "workflow" (workflowFindings options)
        = sectionFindings second "workflow" (workflowFindings options) :=
    sectionFindings_eq alike (by simp) workflowFindings_eq_of_alike
  rw [validate, validate, Report.checkDocument, Report.checkDocument, documentFindings,
    documentFindings, topLevelFindings_eq alike, app, workflow]

/-- Notes at every level and other values that are only asked for presence, with graph rules. -/
theorem validate_eq_of_alike_notes
    : let first := .withGraph
        [
          ("app", .map [("mode", .string "workflow"), ("name", .string "a")]),
          ("version", .string "0.1.5")
        ]
        [
          .map
            [
              (
                "data",
                .map
                  [
                    ("type", .string "start"),
                    ("variables", .list [.map [("type", .string "text")]])
                  ]
              ),
              ("id", .string "1")
            ]
        ]
        [.map [("source", .string "1"), ("target", .number (.int 2))]]
      let second := .withGraph
        [
          ("app", .map [("icon", .null), ("mode", .string "workflow"), ("name", .list [])]),
          ("note", .bool true),
          ("version", .null)
        ]
        [
          .map
            [
              (
                "data",
                .map
                  [
                    ("outputs", .bool false),
                    ("type", .string "start"),
                    ("variables", .list [.map [("label", .string "Name"), ("type", .null)]])
                  ]
              ),
              ("id", .string "1"),
              ("position", .list [])
            ]
        ]
        [.map [("label", .null), ("source", .string "1"), ("target", .number (.int 2))]]
      Alike.document first second
      ∧ validate ⟨["python3"], true⟩ first = validate ⟨["python3"], true⟩ second := by
  intro first second
  refine (and_iff_left_of_imp (validate_eq_of_alike ⟨["python3"], true⟩)).mpr ?_
  -- One look at each table; what is left of it are the two lists of the graph.
  simp only [first, second, Alike.document, Alike, Alike.app, Alike.workflow, Alike.graph,
    List.mem_cons, List.not_mem_nil, or_false, Value.get?, Value.fields, Value.withGraph,
    List.cons_append, List.nil_append, List.lookup_cons, List.lookup_nil, forall_eq_or_imp,
    String.reduceBEq, Option.rel_none_none, BEq.rfl, Option.rel_some_some, anything, forall_eq,
    and_self, true_and]
  refine ⟨.lists ?_, .lists ?_⟩
  · simp only [Alike.node, List.forall₂_cons, Alike, List.mem_cons, List.not_mem_nil, or_false,
      Value.get?, Value.fields, List.lookup_cons, List.lookup_nil, forall_eq_or_imp,
      String.reduceBEq, BEq.rfl, Option.rel_some_some, forall_eq, true_and, List.forall₂_same,
      IsEmpty.forall_iff, implies_true, and_true]
    refine ⟨by simp [Alike, Value.get?, Value.fields, List.lookup_cons], fun kind typed => ?_⟩
    obtain rfl : kind = .start :=
      NodeKind.tag_injective (Value.string.inj (typed.unique ⟨_, rfl, rfl⟩))
    simp only [Alike.kindTable, Alike, List.mem_cons, List.not_mem_nil, or_false, Value.get?,
      Value.fields, List.lookup_cons, List.lookup_nil, forall_eq, String.reduceBEq, BEq.rfl,
      Option.rel_some_some]
    refine .lists ?_
    simp [Alike.named, Alike, Value.get?, Value.fields, List.lookup_cons, anything]
  · simp [Alike.edge, Alike, Value.get?, Value.fields, List.lookup_cons]

end WorkflowLint
