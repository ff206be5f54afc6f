import WorkflowLint.Proofs.Structure.PlaceFindings
import WorkflowLint.Proofs.Graph.TopologyWarnings

/-! The graph of a workflow starts nowhere exactly when a missing start is reported, unless each
start node repeats the id of a node before it. Such a node is no vertex, and its id is reported.
-/

namespace WorkflowLint.StructureRules

open WorkflowLint.Graph

/-- Every node with a truthy id and the type of a start node is reported to repeat its id. -/
def StartsRepeated (options : Options) (nodes : List Value) : Prop :=
  ∀ index node,
    nodes[index]? = some node
    → (nodeId? node).isSome = true
    → nodeType? node = some "start"
    → Reports "G002" (findingsAt options nodes index node)

-----------------------------------------------------------------------------------------
-- First declarations and reported nodes
-----------------------------------------------------------------------------------------

/-- A node that no node before it shares its id text with is the declaration of that text. -/
theorem declaration?_of_fresh {nodes : List Value} {index : Nat} {node : Value} {id : String}
    (found : nodes[index]? = some node) (ident : nodeId? node = some id)
    (fresh : id ∉ declaredIds (nodes.take index))
    : declaration? nodes id = some node := by
  obtain ⟨bound, rfl⟩ := List.getElem?_eq_some_iff.mp found
  refine List.find?_eq_some_iff_getElem.mpr ⟨decide_eq_true ident, index, bound, rfl, ?_⟩
  intro j before
  have earlier : nodes[j] ∈ nodes.take index := List.mem_take_iff_getElem.mpr ⟨j, by omega, rfl⟩
  simp only [Bool.not_eq_eq_eq_not, Bool.not_true, decide_eq_false_iff_not]
  exact fun same => fresh (mem_declaredIds.mpr ⟨nodes[j], earlier, same⟩)

/-- The declaration of an id text stands at an index before which the text is not declared. -/
theorem exists_fresh_of_declaration? {nodes : List Value} {node : Value} {id : String}
    (declared : declaration? nodes id = some node)
    : ∃ index : Nat,
        nodes[index]? = some node
        ∧ nodeId? node = some id
        ∧ id ∉ declaredIds (nodes.take index) := by
  obtain ⟨ident, index, bound, rfl, first⟩ := List.find?_eq_some_iff_getElem.mp declared
  refine ⟨index, List.getElem?_eq_getElem bound, of_decide_eq_true ident, ?_⟩
  intro earlier
  obtain ⟨other, member, same⟩ := mem_declaredIds.mp earlier
  obtain ⟨j, before, rfl⟩ := List.mem_take_iff_getElem.mp member
  simpa [same] using first j (by omega)

/-- No declared id text starts exactly where each start node is reported to repeat its id.
Witness: the first declaration of an id text is never reported, and every other node is.
-/
theorem declaredStarts_eq_nil_iff (options : Options) {nodes : List Value}
    : declaredStarts nodes = [] ↔ StartsRepeated options nodes := by
  rw [declaredStarts, List.filter_eq_nil_iff]
  constructor
  · intro none index node found present typed
    obtain ⟨id, ident⟩ := Option.isSome_iff_exists.mp present
    refine reports_repeated_iff.mpr ⟨id, ident, ?_⟩
    by_contra fresh
    have declared := declaration?_of_fresh found ident fresh
    have known := mem_declaredIds.mpr ⟨node, List.mem_of_getElem? found, ident⟩
    apply none id known
    simp only [declaredType?, declared, Option.bind_some, typed, decide_true]
  · intro repeated id _ starts
    obtain ⟨node, declared, typed⟩ := Option.bind_eq_some_iff.mp (of_decide_eq_true starts)
    obtain ⟨index, found, ident, fresh⟩ := exists_fresh_of_declaration? declared
    have reported := repeated index node found (ident ▸ rfl) typed
    obtain ⟨other, same, earlier⟩ := reports_repeated_iff.mp reported
    obtain rfl := Option.some.inj (ident.symm.trans same)
    exact fresh earlier

-----------------------------------------------------------------------------------------
-- Missing starts
-----------------------------------------------------------------------------------------

/-- A missing start is reported exactly where no node with a truthy id has the type. -/
theorem reports_noStart_iff_forall {options : Options} {nodes : List Value}
    : Reports "G005" (nodesFindings options nodes).2
      ↔ ∀ node ∈ nodes, (nodeId? node).isSome = true → nodeType? node ≠ some "start" := by
  rw [reports_noStart_iff, Bool.eq_false_iff, ne_eq, hasKind_iff]
  simp only [not_exists, not_and]
  rfl

/-- Where a missing start is reported there is no start node to repeat an id. -/
theorem startsRepeated_of_reports {options : Options} {nodes : List Value}
    (missing : Reports "G005" (nodesFindings options nodes).2)
    : StartsRepeated options nodes := by
  intro index node found present typed
  exact absurd typed
    (reports_noStart_iff_forall.mp missing node (List.mem_of_getElem? found) present)

/-- Where each start node repeats an id, a repeated id is reported or no start at all. -/
theorem reports_of_startsRepeated {options : Options} {nodes : List Value}
    (repeated : StartsRepeated options nodes)
    : Reports "G005" (nodesFindings options nodes).2
      ∨ Reports "G002" (nodesFindings options nodes).2 := by
  refine or_iff_not_imp_right.mpr (fun distinct => reports_noStart_iff_forall.mpr ?_)
  intro node member present typed
  obtain ⟨index, found⟩ := List.mem_iff_getElem?.mp member
  have reported := repeated index node found present typed
  exact distinct (reports_repeated_nodes_iff.mpr ⟨index, node, found, reported⟩)

open Classical in
/-- The graph starts nowhere exactly when a missing start is reported or each start node is
reported to repeat an id, and only then the reachability rule is skipped. Where no repeated id
is reported the report of a missing start decides it, and in any case one of the two is reported.
Witness: the first declaration of an id text is the one that is not reported.
-/
theorem startIds_eq_nil_iff_reported (options : Options) (nodes edges : List Value)
    : ((build nodes edges).startIds = []
        ↔ Reports "G005" (nodesFindings options nodes).2 ∨ StartsRepeated options nodes)
      ∧ TopologyRules.reachFindings (build nodes edges)
        = (if Reports "G005" (nodesFindings options nodes).2 ∨ StartsRepeated options nodes then []
            else (build nodes edges).unreachableIds.map Finding.unreachable)
      ∧ (¬ Reports "G002" (nodesFindings options nodes).2
          → ((build nodes edges).startIds = []
              ↔ Reports "G005" (nodesFindings options nodes).2))
      ∧ ((build nodes edges).startIds = []
          → Reports "G005" (nodesFindings options nodes).2
            ∨ Reports "G002" (nodesFindings options nodes).2) := by
  have starts
      : (build nodes edges).startIds = []
        ↔ Reports "G005" (nodesFindings options nodes).2 ∨ StartsRepeated options nodes := by
    rw [build_startIds, declaredStarts_eq_nil_iff options,
      or_iff_right_of_imp startsRepeated_of_reports]
  have either
      : (build nodes edges).startIds = []
        → Reports "G005" (nodesFindings options nodes).2
          ∨ Reports "G002" (nodesFindings options nodes).2 := by
    intro none
    rcases starts.mp none with missing | repeated
    · exact Or.inl missing
    · exact reports_of_startsRepeated repeated
  refine ⟨starts, ?_, ?_, either⟩
  · simp only [TopologyRules.reachFindings, List.isEmpty_iff, starts]
  · intro distinct
    constructor
    · exact fun none => (either none).resolve_right distinct
    · exact fun missing => starts.mpr (Or.inl missing)

/-- A start node that repeats an id is no vertex. Though a missing start is not reported, the
reachability rule is skipped, and a node that no edge leads to goes unnoticed.
-/
theorem startIds_eq_nil_unreported
    : let nodes :=
        [
          .map [("data", .map [("type", .string "answer")]), ("id", .string "1")],
          .map [("data", .map [("type", .string "start")]), ("id", .string "1")],
          .map [("data", .map [("type", .string "end")]), ("id", .string "2")]
        ]
      ¬ ((build nodes []).startIds = [] ↔ Reports "G005" (nodesFindings .default nodes).2)
      ∧ TopologyRules.reachFindings (build nodes []) = []
      ∧ "2" ∈ (build nodes []).unreachableIds := by
  intro nodes
  exact ⟨by decide, by rfl, by decide⟩

end WorkflowLint.StructureRules
