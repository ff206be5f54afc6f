import WorkflowLint.Proofs.CodeDiscipline

/-! What is found in a document when more languages are admitted for its code nodes.
Only the errors on languages that are admitted now are taken away, at the nodes that declare them;
all other errors stay in their places, and so do the warnings.
-/

namespace WorkflowLint

open WorkflowLint.Graph

namespace StructureRules

-----------------------------------------------------------------------------------------
-- Findings and the nodes at which they are made
-----------------------------------------------------------------------------------------

/-- What is found in the workflow section before its nodes are visited. -/
def shapeFindings (workflow : Value) : List Finding :=
  match workflow.get? "graph" with
  | none => [.graphMissing]
  | some graph =>
      match graph.get? "nodes", graph.get? "edges" with
      | none, _ => [.nodesMissing]
      | some _, none => [.edgesMissing]
      | some nodes, some _ => listFindings "nodes" nodes

/-- What is found behind the nodes, where the graph section has nodes and edges. -/
def laterFindings (asked : Bool) (document : Value) : List Finding :=
  match (document.get? "workflow").bind (Value.get? · "graph") with
  | none => []
  | some graph =>
      match graph.get? "nodes", graph.get? "edges" with
      | some nodes, some edges =>
          require (hasKind nodes.entries .start) .noStart
            ++ require (hasKind nodes.entries .end) .noEnd
            ++ listFindings "edges" edges
            ++ edgesFindings (declaredIds nodes.entries) edges.entries
            ++ (if asked then topologyFindings nodes.entries edges.entries else [])
      | _, _ => []

/-- Everything that the rules find in a document, each finding with the node that is visited when
it is made.
-/
def ownedFindings (options : Options) (document : Value) : List (Option Value × Finding) :=
  let nodes := Validation.checkedNodes document
  (outerFindings document ++ sectionFindings document "workflow" shapeFindings).map (none, ·)
    ++ nodes.zipIdx.flatMap
        (fun entry => (findingsAt options nodes entry.2 entry.1).map (some entry.1, ·))
    ++ (laterFindings options.topologyChecks document).map (none, ·)

/-- Leaving the nodes aside, these are the findings on the document.
Witness: one case for each part of the graph section that is missing.
-/
theorem map_snd_ownedFindings (options : Options) (document : Value)
    : (ownedFindings options document).map Prod.snd = documentFindings options document := by
  have graph : sectionFindings document "workflow" (workflowFindings options)
      = sectionFindings document "workflow" shapeFindings
          ++ (Validation.checkedNodes document).zipIdx.flatMap
              (fun entry =>
                findingsAt options (Validation.checkedNodes document) entry.2 entry.1)
          ++ laterFindings options.topologyChecks document := by
    unfold sectionFindings laterFindings Validation.checkedNodes
    cases document.get? "workflow" with
    | none => rfl
    | some workflow =>
        rw [Option.bind_some]
        dsimp only
        unfold workflowFindings shapeFindings
        cases workflow.get? "graph" with
        | none => rfl
        | some graph =>
            dsimp only
            cases graph.get? "nodes" with
            | none => rfl
            | some nodes =>
                cases graph.get? "edges" with
                | none => rfl
                | some edges =>
                    simp only [graphFindings, nodesFindings_eq, List.append_assoc]
  simp only [ownedFindings, List.map_append, List.map_map, List.map_flatMap, Function.comp_def,
    List.map_id', documentFindings, outerFindings, graph, List.append_assoc]

/-- The diagnostics of one weight in a report, each with the node that is visited when it is found.
-/
def ownedDiagnostics (weight : Severity) (options : Options) (document : Value)
    : List (Option Value × Diagnostic) :=
  ((ownedFindings options document).filter (fun owned => owned.2.severity = weight)).map
    (fun owned => (owned.1, owned.2.diagnostic))

theorem map_snd_ownedDiagnostics (weight : Severity) (options : Options) (document : Value)
    : (ownedDiagnostics weight options document).map Prod.snd
      = diagnostics weight (documentFindings options document) := by
  rw [← map_snd_ownedFindings, diagnostics, List.filter_map, ownedDiagnostics, List.map_map,
    List.map_map]
  rfl

-----------------------------------------------------------------------------------------
-- Admitted languages
-----------------------------------------------------------------------------------------

/-- The language that the data of a node declares, if it is a string. -/
def nodeLanguage? (node : Value) : Option String :=
  (node.get? "data").bind (fun data => (data.get? "code_language").bind Value.asString?)

/-- A node declares a language that is among more languages and not among the first ones. -/
def gains (languages more : List String) (node : Value) : Bool :=
  (nodeLanguage? node).any (fun name => name ∈ more ∧ name ∉ languages)

/-- A finding is not about the language of a node that has gained it. -/
def outlives (gained : Bool) (f : Finding) : Bool :=
  ¬ (f.code = "N012" ∧ gained)

theorem outlives_of_code {gained : Bool} {f : Finding} (other : f.code ≠ "N012")
    : outlives gained f = true := by
  simp [outlives, other]

theorem filter_outlives {gained : Bool} {found : List Finding}
    (other : ∀ f ∈ found, f.code ≠ "N012")
    : found.filter (outlives gained) = found :=
  List.filter_eq_self.mpr (fun f member => outlives_of_code (other f member))

section Languages

variable {languages more : List String} (included : languages ⊆ more) (asked : Bool)

include included

/-- The one rule on languages, by cases on what is declared and on where it is admitted. -/
theorem languageFindings_of_subset {node data : Value} (stored : node.Holds "data" data)
    (id : String)
    : (NodeRules.languageFindings more data).map (Finding.inNode id)
      = ((NodeRules.languageFindings languages data).map (Finding.inNode id)).filter
          (outlives (gains languages more node)) := by
  unfold NodeRules.languageFindings gains nodeLanguage?
  rw [Value.get?_eq_some_iff.mpr stored, Option.bind_some]
  cases data.get? "code_language" with
  | none => rfl
  | some language =>
      dsimp only
      rw [Option.bind_some, NodeRules.isKnownLanguage, NodeRules.isKnownLanguage]
      cases language.asString? with
      | none => rfl
      | some name =>
          by_cases old : name ∈ languages
          · simp [NodeRules.require, old, included old]
          · by_cases new : name ∈ more <;>
              simp [NodeRules.require, old, new, outlives, Finding.code, NodeFinding.code]

/-- The rules of a kind, of which only those on code read the languages. -/
theorem nodeDataFindings_of_subset {node data : Value} (stored : node.Holds "data" data)
    (kind : NodeKind) (id : String)
    : nodeDataFindings kind ⟨more, asked⟩ id data
      = (nodeDataFindings kind ⟨languages, asked⟩ id data).filter
          (outlives (gains languages more node)) := by
  have keep {found : List NodeFinding} (other : ∀ f ∈ found, f.code ≠ "N012")
      : (found.map (Finding.inNode id)).filter (outlives (gains languages more node))
        = found.map (Finding.inNode id) :=
    filter_outlives (List.forall_mem_map.mpr other)
  cases kind with
  | code =>
      have fields : ∀ f ∈ NodeRules.codeFields.flatMap
            (fun field => NodeRules.require (data.has field) (.codeFieldMissing field)),
          f.code ≠ "N012" :=
        NodeRules.forall_mem_fields (by simp [NodeFinding.code])
      have outputs : ∀ f ∈ NodeRules.require (data.has "outputs") .codeWithoutOutputs,
          f.code ≠ "N012" :=
        NodeRules.forall_mem_require (by decide)
      simp only [nodeDataFindings, NodeKind.findings, NodeRules.codeFindings, List.map_append,
        List.filter_append, keep fields, keep outputs, languageFindings_of_subset included stored]
  | _ =>
      refine (keep (fun f found same => ?_)).symm
      have listed := NodeKind.code_mem_codes _ _ _ f found
      rw [same] at listed
      revert listed
      decide

/-- What a node adds with more languages is what outlives them of what it adds with fewer.
Witness: its place adds nothing about languages, nor does what it has beside its data.
-/
theorem findingsAt_of_subset (nodes : List Value) (index : Nat) (node : Value)
    : findingsAt ⟨more, asked⟩ nodes index node
      = (findingsAt ⟨languages, asked⟩ nodes index node).filter
          (outlives (gains languages more node)) := by
  have place : ∀ f ∈ placeFindings (nodes.take index) index node, f.code ≠ "N012" := by
    unfold placeFindings repeatFindings
    split
    · simp [Finding.code]
    · split <;> simp [Finding.code]
  have own : ownFindings ⟨more, asked⟩ node
      = (ownFindings ⟨languages, asked⟩ node).filter (outlives (gains languages more node)) := by
    have spec := outline_spec node
    unfold ownFindings
    generalize outline node = found at spec
    cases spec with
    | noId | unknownType => rfl
    | noData | noType => exact (filter_outlives (by simp [Finding.code])).symm
    | known _ stored => exact nodeDataFindings_of_subset included asked stored _ _
  rw [findingsAt_eq, findingsAt_eq, List.filter_append, filter_outlives place, own]

/-- What is found with more languages is what outlives them of what is found with fewer. -/
theorem ownedFindings_of_subset (document : Value)
    : ownedFindings ⟨more, asked⟩ document
      = (ownedFindings ⟨languages, asked⟩ document).filter
          (fun owned => outlives (owned.1.any (gains languages more)) owned.2) := by
  have unowned (found : List Finding)
      : (found.map (fun f => ((none : Option Value), f))).filter
            (fun owned => outlives (owned.1.any (gains languages more)) owned.2)
        = found.map (none, ·) := by
    refine List.filter_eq_self.mpr (List.forall_mem_map.mpr (fun f _ => ?_))
    simp [outlives]
  simp only [ownedFindings, List.filter_append, unowned, List.filter_flatMap, List.filter_map,
    findingsAt_of_subset included asked]
  rfl

/-- With more languages the same diagnostics are left of each weight, node by node. -/
theorem ownedDiagnostics_of_subset (weight : Severity) (document : Value)
    : ownedDiagnostics weight ⟨more, asked⟩ document
      = (ownedDiagnostics weight ⟨languages, asked⟩ document).filter
          (fun owned => ¬ (owned.2.code = "N012" ∧ owned.1.any (gains languages more))) := by
  rw [ownedDiagnostics, ownedFindings_of_subset included, List.filter_filter, ownedDiagnostics,
    List.filter_map, List.filter_filter]
  congr 1
  exact List.filter_congr (fun _ _ => Bool.and_comm _ _)

/-- No warning is about a language, so none is taken away. -/
theorem warnings_of_subset (document : Value)
    : (validate ⟨more, asked⟩ document).warnings
      = (validate ⟨languages, asked⟩ document).warnings := by
  change diagnostics .warning (documentFindings _ document)
    = diagnostics .warning (documentFindings _ document)
  rw [← map_snd_ownedDiagnostics, ← map_snd_ownedDiagnostics,
    ownedDiagnostics_of_subset included, List.filter_eq_self.mpr]
  intro owned member
  obtain ⟨⟨owner, f⟩, found, rfl⟩ := List.mem_map.mp member
  have listed : f.code ∈ warningCodes :=
    f.code_mem_warningCodes_iff.mpr (of_decide_eq_true (List.mem_filter.mp found).2)
  have other : f.code ≠ "N012" := fun same => absurd (same ▸ listed) (by decide)
  simp [Finding.diagnostic, other]

end Languages

/-- No node gains a language from a list that adds none. -/
theorem any_gains_eq_false {languages more : List String} (none : more ⊆ languages)
    (owner : Option Value)
    : owner.any (gains languages more) = false := by
  rw [Option.any_eq_false]
  intro node _
  rw [gains, Option.any_eq_false]
  intro name _
  simpa using fun member => none member

/-- Languages are only read at code nodes. -/
theorem findingsAt_of_not_code (languages others : List String) (asked : Bool) (nodes : List Value)
    (index : Nat) {node : Value} (other : nodeType? node ≠ some "code")
    : findingsAt ⟨others, asked⟩ nodes index node
      = findingsAt ⟨languages, asked⟩ nodes index node := by
  have spec := outline_spec node
  rw [findingsAt_eq, findingsAt_eq]
  unfold ownFindings
  generalize outline node = found at spec
  cases spec with
  | @known id kind data ident stored typed =>
      cases kind with
      | code => exact absurd ((nodeType?_of_data stored).mpr typed) other
      | _ => rfl
  | _ => rfl

end StructureRules

open StructureRules in
/-- With more languages a report has the same warnings, and of its errors those are taken away that
are about the language of a node which is a string that has been added. Languages that are listed
in another order or more than once make no difference, and no languages do at a node that is not a
code node.
Witness: what is found is told node by node, and one rule of one kind reads the languages.
-/
theorem validate_of_languages_subset {languages more : List String} (included : languages ⊆ more)
    (asked : Bool) (document : Value)
    : (validate ⟨more, asked⟩ document).warnings = (validate ⟨languages, asked⟩ document).warnings
      ∧ (validate ⟨languages, asked⟩ document).errors
        = (ownedDiagnostics .error ⟨languages, asked⟩ document).map Prod.snd
      ∧ (validate ⟨more, asked⟩ document).errors
        = ((ownedDiagnostics .error ⟨languages, asked⟩ document).filter
            (fun owned =>
              ¬ (owned.2.code = "N012" ∧ owned.1.any (gains languages more)))).map Prod.snd
      ∧ (more ⊆ languages → validate ⟨more, asked⟩ document = validate ⟨languages, asked⟩ document)
      ∧ ∀ others nodes index node,
          nodeType? node ≠ some "code"
          → findingsAt ⟨others, asked⟩ nodes index node
            = findingsAt ⟨languages, asked⟩ nodes index node := by
  have errors
      : (validate ⟨more, asked⟩ document).errors
        = ((ownedDiagnostics .error ⟨languages, asked⟩ document).filter
            (fun owned =>
              ¬ (owned.2.code = "N012" ∧ owned.1.any (gains languages more)))).map Prod.snd := by
    rw [← ownedDiagnostics_of_subset included, map_snd_ownedDiagnostics]
    rfl
  have first
      : (validate ⟨languages, asked⟩ document).errors
        = (ownedDiagnostics .error ⟨languages, asked⟩ document).map Prod.snd :=
    (map_snd_ownedDiagnostics ..).symm
  have warnings := warnings_of_subset included asked document
  refine ⟨warnings, first, errors, ?same, ?others⟩
  case same =>
    intro none
    have kept : (validate ⟨more, asked⟩ document).errors
        = (validate ⟨languages, asked⟩ document).errors := by
      rw [errors, first, List.filter_eq_self.mpr]
      intro owned _
      simp [any_gains_eq_false none]
    exact congrArg₂ Report.mk kept warnings
  case others =>
    intro others nodes index node other
    exact findingsAt_of_not_code languages others asked nodes index other

open StructureRules in
/-- Two code nodes with one id, of which only one declares the language that is added. -/
theorem validate_of_languages_subset_repeated
    : let code (language : Value) := .map
        [
          ("data", .map
            [
              ("code", .string ""), ("code_language", language), ("outputs", .list []),
              ("type", .string "code")
            ]),
          ("id", .string "c")
        ]
      let document := .withGraph [] [code (.string "ruby"), code (.string "perl")] []
      ["python3"] ⊆ ["ruby", "python3"]
      ∧ (validate ⟨["ruby", "python3"], false⟩ document).errors
        = ((ownedDiagnostics .error ⟨["python3"], false⟩ document).filter
            (fun owned =>
              ¬ (owned.2.code = "N012"
                ∧ owned.1.any (gains ["python3"] ["ruby", "python3"])))).map Prod.snd
      ∧ ⟨"N012", "Code node c has invalid code_language: perl", some "c"⟩
          ∈ (validate ⟨["ruby", "python3"], false⟩ document).errors := by
  intro code document
  have included : ["python3"] ⊆ ["ruby", "python3"] := by decide
  obtain ⟨_, _, errors, _⟩ := validate_of_languages_subset included false document
  exact ⟨included, errors, by decide⟩

end WorkflowLint
