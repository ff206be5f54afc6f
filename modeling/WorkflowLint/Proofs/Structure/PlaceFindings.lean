import WorkflowLint.Proofs.Structure.NodeCensus

/-! A node adds some findings because of its place and some of its own.
Those of its place say that it has no id or that it repeats one, and no other rule says so.
-/

namespace WorkflowLint

/-- Some finding has a code. -/
def Reports (code : String) (found : List Finding) : Prop :=
  ∃ f ∈ found, f.code = code

instance (code : String) (found : List Finding) : Decidable (Reports code found) :=
  inferInstanceAs (Decidable (∃ f ∈ found, f.code = code))

section Reports

variable {α : Type} {code : String}

@[simp] theorem reports_nil : ¬ Reports code [] := by
  simp [Reports]

@[simp] theorem reports_append {left right : List Finding}
    : Reports code (left ++ right) ↔ Reports code left ∨ Reports code right := by
  simp only [Reports, List.mem_append, or_and_right, exists_or]

@[simp] theorem reports_singleton {f : Finding} : Reports code [f] ↔ f.code = code := by
  simp [Reports]

theorem reports_flatMap {xs : List α} {find : α → List Finding}
    : Reports code (xs.flatMap find) ↔ ∃ x ∈ xs, Reports code (find x) := by
  simp only [Reports, List.mem_flatMap]
  constructor
  · intro found
    rcases found with ⟨f, ⟨x, member, here⟩, same⟩
    exact ⟨x, member, f, here, same⟩
  · intro found
    rcases found with ⟨x, member, f, here, same⟩
    exact ⟨f, ⟨x, member, here⟩, same⟩

end Reports

namespace StructureRules

open WorkflowLint.Graph

-----------------------------------------------------------------------------------------
-- The two parts of what a node adds
-----------------------------------------------------------------------------------------

/-- What a node adds because of its index and the nodes before it. -/
def placeFindings (earlier : List Value) (index : Nat) (node : Value) : List Finding :=
  match nodeId? node with
  | none => [.idMissing index]
  | some id => repeatFindings (censusOf earlier) id

/-- What a node adds wherever it stands. -/
def ownFindings (options : Options) (node : Value) : List Finding :=
  match outline node with
  | .noId | .unknownType _ _ => []
  | .noData id => [.dataMissing id]
  | .noType id => [.typeMissing id]
  | .known id kind data => nodeDataFindings kind options id data

/-- A visit after some nodes finds the two parts one after the other.
Witness: one case for each outline of the node.
-/
theorem visitNode_findings (options : Options) (index : Nat) (earlier : List Value)
    (node : Value)
    : (visitNode options index (censusOf earlier) node).2
      = placeFindings earlier index node ++ ownFindings options node := by
  have spec := outline_spec node
  unfold visitNode placeFindings ownFindings
  generalize outline node = found at spec
  cases spec with
  | noId absent => simp only [absent, List.append_nil]
  | noData ident _ => simp only [ident]
  | noType ident _ _ => simp only [ident]
  | unknownType ident _ _ _ => simp only [ident, List.append_nil]
  | known ident _ _ => simp only [ident]

theorem findingsAt_eq (options : Options) (nodes : List Value) (index : Nat) (node : Value)
    : findingsAt options nodes index node
      = placeFindings (nodes.take index) index node ++ ownFindings options node :=
  visitNode_findings options index (nodes.take index) node

-----------------------------------------------------------------------------------------
-- Who is reported for a missing or a repeated id
-----------------------------------------------------------------------------------------

/-- A repeated id is found exactly where the census of the nodes before lists it. -/
theorem reports_repeatFindings {code id : String} {earlier : List Value}
    : Reports code (repeatFindings (censusOf earlier) id)
      ↔ code = "G002" ∧ id ∈ declaredIds earlier := by
  by_cases repeated : id ∈ declaredIds earlier
  · simp [repeatFindings, censusOf, repeated, Finding.code, eq_comm]
  · simp [repeatFindings, censusOf, repeated]

/-- What a node adds of its own is neither about its id nor about the nodes as a whole. -/
theorem not_reports_ownFindings {options : Options} {node : Value} {code : String}
    (other : code ∈ ["G001", "G002", "G005", "G006"])
    : ¬ Reports code (ownFindings options node) := by
  unfold ownFindings
  split
  · exact reports_nil
  · exact reports_nil
  · rw [reports_singleton]
    rintro rfl
    simp [Finding.code] at other
  · rw [reports_singleton]
    rintro rfl
    simp [Finding.code] at other
  · intro reported
    obtain ⟨_, member, rfl⟩ := reported
    obtain ⟨f, _, rfl⟩ := List.mem_map.mp member
    cases f <;> simp [Finding.code, NodeFinding.code] at other

/-- A missing id is reported exactly at the nodes without a truthy id. -/
theorem reports_missing_iff {options : Options} {nodes : List Value} {index : Nat} {node : Value}
    : Reports "G001" (findingsAt options nodes index node) ↔ nodeId? node = none := by
  rw [findingsAt_eq, reports_append,
    or_iff_left (not_reports_ownFindings (by decide)), placeFindings]
  cases nodeId? node with
  | none => simp [Finding.code]
  | some id => simp [reports_repeatFindings]

/-- A repeated id is reported exactly at the nodes with the id text of a node before them. -/
theorem reports_repeated_iff {options : Options} {nodes : List Value} {index : Nat} {node : Value}
    : Reports "G002" (findingsAt options nodes index node)
      ↔ ∃ id, nodeId? node = some id ∧ id ∈ declaredIds (nodes.take index) := by
  rw [findingsAt_eq, reports_append,
    or_iff_left (not_reports_ownFindings (by decide)), placeFindings]
  cases nodeId? node with
  | none => simp [Finding.code]
  | some id => simp [reports_repeatFindings]

/-- The walk over the nodes reports a missing start exactly when no node with a truthy id has
the type of a start node.
-/
theorem reports_noStart_iff {options : Options} {nodes : List Value}
    : Reports "G005" (nodesFindings options nodes).2 ↔ hasKind nodes .start = false := by
  have visits
      : ¬ Reports "G005"
          (nodes.zipIdx.flatMap
            (fun entry => findingsAt options nodes entry.2 entry.1)) := by
    rw [reports_flatMap]
    intro reported
    rcases reported with ⟨entry, -, reported⟩
    rw [findingsAt_eq, reports_append,
      or_iff_left (not_reports_ownFindings (by decide)), placeFindings] at reported
    revert reported
    cases nodeId? entry.1 with
    | none => simp [Finding.code]
    | some id => simp [reports_repeatFindings]
  rw [nodesFindings_eq, reports_append, reports_append, or_iff_right visits]
  cases hasKind nodes .start <;> cases hasKind nodes .end <;> simp [require, Finding.code]

/-- The walk over the nodes reports a repeated id exactly when it does so at some node. -/
theorem reports_repeated_nodes_iff {options : Options} {nodes : List Value}
    : Reports "G002" (nodesFindings options nodes).2
      ↔ ∃ (index : Nat) (node : Value),
          nodes[index]? = some node
          ∧ Reports "G002" (findingsAt options nodes index node) := by
  have flags (kind : NodeKind) {f : Finding} (other : f.code ≠ "G002")
      : ¬ Reports "G002" (require (hasKind nodes kind) f) := by
    cases hasKind nodes kind <;> simp [require, other]
  rw [nodesFindings_eq, reports_append, reports_append,
    or_iff_left (flags .end (f := .noEnd) (by decide)),
    or_iff_left (flags .start (f := .noStart) (by decide)), reports_flatMap]
  constructor
  · intro reported
    rcases reported with ⟨entry, member, reported⟩
    exact ⟨entry.2, entry.1, List.mem_zipIdx_iff_getElem?.mp member, reported⟩
  · intro reported
    rcases reported with ⟨index, node, found, reported⟩
    exact ⟨(node, index), List.mem_zipIdx_iff_getElem?.mpr found, reported⟩

end StructureRules

end WorkflowLint
