import WorkflowLint.Validation

/-! What the graph rules add to what is found in a document without them. They stand behind all
other findings, and none of them is an error.
-/

namespace WorkflowLint

/-- What the graph rules find in a document, where its graph section has nodes and edges. -/
def lintFindings (document : Value) : List Finding :=
  match (document.get? "workflow").bind (Value.get? · "graph") with
  | none => []
  | some graph =>
      match graph.get? "nodes", graph.get? "edges" with
      | some nodes, some edges => topologyFindings nodes.entries edges.entries
      | _, _ => []

/-- The rules of a kind are the same with graph rules and without, by cases on the kind. -/
theorem nodeDataFindings_eq_unasked (kind : NodeKind) (languages : List String) (asked : Bool)
    (id : String) (data : Value)
    : nodeDataFindings kind ⟨languages, asked⟩ id data
      = nodeDataFindings kind ⟨languages, false⟩ id data := by
  cases kind <;> rfl

namespace StructureRules

variable (languages : List String) (asked : Bool)

theorem visitNode_eq_unasked (index : Nat) (c : Census) (node : Value)
    : visitNode ⟨languages, asked⟩ index c node
      = visitNode ⟨languages, false⟩ index c node := by
  unfold visitNode
  cases outline node with
  | known id kind data =>
      simp only [nodeDataFindings_eq_unasked kind languages asked id data]
  | _ => rfl

/-- A walk over the nodes is the same with graph rules and without, by induction on the nodes. -/
theorem visitNodes_eq_unasked (index : Nat) (c : Census) (nodes : List Value)
    : visitNodes ⟨languages, asked⟩ index c nodes
      = visitNodes ⟨languages, false⟩ index c nodes := by
  induction nodes generalizing index c with
  | nil => rfl
  | cons node more ih => simp only [visitNodes, visitNode_eq_unasked, ih]

theorem nodesFindings_eq_unasked (nodes : List Value)
    : nodesFindings ⟨languages, asked⟩ nodes = nodesFindings ⟨languages, false⟩ nodes := by
  rw [nodesFindings, nodesFindings, visitNodes_eq_unasked]

theorem graphFindings_eq_append (nodes edges : Value)
    : graphFindings ⟨languages, asked⟩ nodes edges
      = graphFindings ⟨languages, false⟩ nodes edges
          ++ if asked then topologyFindings nodes.entries edges.entries else [] := by
  simp only [graphFindings, nodesFindings_eq_unasked languages asked, Bool.false_eq_true,
    if_false, List.append_nil]

end StructureRules

open StructureRules in
/-- The graph rules, where they are asked for, add what they find behind all other findings. -/
theorem documentFindings_eq_append (languages : List String) (asked : Bool) (document : Value)
    : documentFindings ⟨languages, asked⟩ document
      = documentFindings ⟨languages, false⟩ document
          ++ if asked then lintFindings document else [] := by
  unfold documentFindings StructureRules.sectionFindings lintFindings
  rw [List.append_assoc _ _ (ite _ _ _)]
  congr 1
  cases document.get? "workflow" with
  | none => simp
  | some workflow =>
      rw [Option.bind_some]
      dsimp only
      unfold workflowFindings
      cases workflow.get? "graph" with
      | none => simp
      | some graph =>
          dsimp only
          cases graph.get? "nodes" with
          | none => simp
          | some nodes =>
              cases graph.get? "edges" with
              | none => simp
              | some edges => exact graphFindings_eq_append languages asked nodes edges

/-- The graph rules find nothing but a cycle and unreachable nodes. -/
theorem eq_of_mem_lintFindings {document : Value} {f : Finding}
    (member : f ∈ lintFindings document)
    : f = .cycle ∨ ∃ id, f = .unreachable id := by
  unfold lintFindings at member
  split at member
  · cases member
  split at member
  · rcases List.mem_append.mp member with cycle | reach
    · exact .inl (List.mem_singleton.mp (List.mem_ite_nil_right.mp cycle).2)
    · obtain ⟨id, _, rfl⟩ := List.mem_map.mp (List.mem_ite_nil_left.mp reach).2
      exact .inr ⟨id, rfl⟩
  · cases member

/-- A report has the errors of another one, and warnings of the graph rules behind its warnings. -/
structure AddsLints (plain linted : Report) : Prop where
  errors : linted.errors = plain.errors
  warnings
    : ∃ lints,
        linted.warnings = plain.warnings ++ lints ∧ ∀ d ∈ lints, d.code = "T001" ∨ d.code = "T002"

theorem diagnostics_append (weight : Severity) (findings more : List Finding)
    : diagnostics weight (findings ++ more)
      = diagnostics weight findings ++ diagnostics weight more := by
  rw [diagnostics, List.filter_append, List.map_append, ← diagnostics, ← diagnostics]

/-- Asking for the graph rules only adds their warnings to a report. Witness: what they find is
never an error and stands behind all other findings.
-/
theorem validate_addsLints (languages : List String) (document : Value)
    : AddsLints (validate ⟨languages, false⟩ document) (validate ⟨languages, true⟩ document) where
  errors := by
    have harmless : diagnostics .error (lintFindings document) = [] := by
      rw [diagnostics, List.map_eq_nil_iff, List.filter_eq_nil_iff]
      intro f member
      rcases eq_of_mem_lintFindings member with rfl | ⟨id, rfl⟩ <;> simp [Finding.severity]
    change diagnostics .error (documentFindings ⟨languages, true⟩ document) = _
    rw [documentFindings_eq_append, if_pos rfl, diagnostics_append, harmless, List.append_nil]
    rfl
  warnings := by
    refine ⟨diagnostics .warning (lintFindings document), ?appended, ?codes⟩
    case appended =>
      change diagnostics .warning (documentFindings ⟨languages, true⟩ document) = _
      rw [documentFindings_eq_append, if_pos rfl, diagnostics_append]
      rfl
    case codes =>
      intro d member
      obtain ⟨f, found, rfl⟩ := List.mem_map.mp member
      rcases eq_of_mem_lintFindings (List.mem_filter.mp found).1 with rfl | ⟨id, rfl⟩
      · exact .inl rfl
      · exact .inr rfl

end WorkflowLint
