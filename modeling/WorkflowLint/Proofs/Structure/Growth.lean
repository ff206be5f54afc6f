import Mathlib.Data.List.Basic
import WorkflowLint.Proofs.Graph.TopologyWarnings
import WorkflowLint.Proofs.Structure.NodeCensus

/-! What is found when nodes or edges are added to a graph.
More nodes leave fewer ends of edges unresolved, and more edges close more circles and leave fewer
ids out of reach; what is still found stands in its old order.
-/

namespace WorkflowLint

-----------------------------------------------------------------------------------------
-- More edges
-----------------------------------------------------------------------------------------

namespace Graph

variable {nodes edges further : List Value}

/-- A circle of edges is one among more edges as well. -/
theorem EdgeCircle.mono (within : edges ⊆ further) (circle : EdgeCircle nodes edges)
    : EdgeCircle nodes further := by
  obtain ⟨first, rest, all, chained⟩ := circle
  refine ⟨first, rest, ?_, chained⟩
  intro edge member
  obtain ⟨listed, resolved⟩ := all edge member
  exact ⟨within listed, resolved⟩

/-- What a path leads to stays within reach, since each of its leads is one of more edges. -/
theorem Reached.mono (within : edges ⊆ further) {id : String} (reached : Reached nodes edges id)
    : Reached nodes further id := by
  obtain ⟨start, isStart, path⟩ := reached
  refine ⟨start, isStart, Relation.ReflTransGen.mono ?_ _ _ path⟩
  intro source target leads
  obtain ⟨edge, member, ends⟩ := leads
  exact ⟨edge, within member, ends⟩

/-- More edges leave fewer ids out of reach, in the order of declaration. -/
theorem build_unreachableIds_sublist (within : edges ⊆ further)
    : (build nodes further).unreachableIds.Sublist (build nodes edges).unreachableIds := by
  rw [build_unreachableIds, build_unreachableIds]
  apply List.monotone_filter_right
  intro id unreached
  simp only [decide_eq_true_eq] at unreached ⊢
  exact fun reached => unreached (reached.mono within)

end Graph

namespace TopologyRules

open WorkflowLint.Graph

theorem withCode_cycle_warningsOf (g : Graph)
    : withCode "T001" (warningsOf g) = if g.isCyclic then [Finding.cycle.diagnostic] else [] := by
  rw [warningsOf, withCode_append, withCode_eq_of_forall (cycle_code _),
    withCode_eq_of_forall (unreachable_code _), if_pos rfl,
    if_neg (show "T002" ≠ "T001" by decide), List.append_nil]

theorem withCode_unreachable_warningsOf (g : Graph)
    : withCode "T002" (warningsOf g)
      = (reportedIds g).map (fun id => (Finding.unreachable id).diagnostic) := by
  rw [warningsOf, withCode_append, withCode_eq_of_forall (cycle_code _),
    withCode_eq_of_forall (unreachable_code _), if_neg (show "T001" ≠ "T002" by decide), if_pos rfl,
    List.nil_append]

variable {nodes edges further : List Value}

theorem withCode_cycle_sublist (within : edges ⊆ further)
    : (withCode "T001" (warningsOf (build nodes edges))).Sublist
        (withCode "T001" (warningsOf (build nodes further))) := by
  rw [withCode_cycle_warningsOf, withCode_cycle_warningsOf]
  split
  · rename_i cyclic
    have circle := (build_isCyclic_iff.mp cyclic).mono within
    rw [if_pos (build_isCyclic_iff.mpr circle)]
  · exact List.nil_sublist _

/-- The starts of a graph are those of its nodes, so the same graphs are searched for ids out of
reach whatever edges are added.
-/
theorem withCode_unreachable_sublist (within : edges ⊆ further)
    : (withCode "T002" (warningsOf (build nodes further))).Sublist
        (withCode "T002" (warningsOf (build nodes edges))) := by
  rw [withCode_unreachable_warningsOf, withCode_unreachable_warningsOf, reportedIds, reportedIds,
    build_startIds, build_startIds]
  apply List.Sublist.map
  split
  · exact List.nil_sublist _
  · exact build_unreachableIds_sublist within

end TopologyRules

-----------------------------------------------------------------------------------------
-- More nodes
-----------------------------------------------------------------------------------------

namespace StructureRules

open WorkflowLint.Graph

/-- More nodes declare more ids, whether or not they repeat some. -/
theorem declaredIds_subset_append (nodes more : List Value)
    : declaredIds nodes ⊆ declaredIds (nodes ++ more) := by
  intro id declared
  obtain ⟨node, member, ident⟩ := mem_declaredIds.mp declared
  exact mem_declaredIds.mpr ⟨node, List.mem_append_left _ member, ident⟩

/-- A finding on edges that declaring some ids does not put right. -/
def outlasts (ids : List String) : Finding → Bool
  | .endpointUnknown _ id => id ∉ ids
  | _ => true

variable {known grown : List String}

/-- With more ids, the findings on one end are those with fewer ids that outlast them. -/
theorem endpointFindings_of_subset (included : known ⊆ grown) (index : Nat) (edge : Value)
    (endpoint : Endpoint)
    : endpointFindings grown index edge endpoint
      = (endpointFindings known index edge endpoint).filter (outlasts grown) := by
  unfold endpointFindings
  cases endpointId? edge endpoint.name with
  | none => rfl
  | some id =>
      by_cases resolved : id ∈ known
      · simp [require, resolved, included resolved]
      · by_cases later : id ∈ grown <;> simp [require, resolved, later, outlasts]

theorem edgesFindings_of_subset (included : known ⊆ grown) (edges : List Value)
    : edgesFindings grown edges = (edgesFindings known edges).filter (outlasts grown) := by
  simp only [edgesFindings, edgeFindings, endpointFindings_of_subset included,
    List.filter_flatMap, List.filter_append]

/-- A missing end outlasts all ids. -/
theorem outlasts_of_missing {ids : List String} {f : Finding} (missing : f.code = "E001")
    : outlasts ids f = true := by
  cases f with
  | endpointUnknown endpoint id => simp [Finding.code] at missing
  | _ => rfl

/-- The errors on edges with fewer ids, without some that are not about a missing end, are those
with more ids.
-/
theorem edgesErrors_of_subset (included : known ⊆ grown) (edges : List Value)
    : let before := diagnostics .error (edgesFindings known edges)
      let after := diagnostics .error (edgesFindings grown edges)
      after.Sublist before
      ∧ TopologyRules.withCode "E001" after = TopologyRules.withCode "E001" before := by
  rw [edgesFindings_of_subset included]
  refine ⟨(List.filter_sublist.filter _).map _, ?_⟩
  simp only [TopologyRules.withCode, diagnostics, List.filter_map, List.filter_filter]
  congr 1
  refine List.filter_congr (fun f _ => ?_)
  by_cases missing : f.code = "E001"
  · simp [outlasts_of_missing missing]
  · simp [Finding.diagnostic, missing]

end StructureRules

-----------------------------------------------------------------------------------------
-- Growing graphs
-----------------------------------------------------------------------------------------

open StructureRules TopologyRules in
/-- Adding nodes only takes away errors on edges, none of which is about a missing end. Adding edges
only adds a warning of a cycle and only takes away warnings of ids out of reach. What stays is in
its old order.
Witness: fewer ids are unknown, and circles and paths are those of the added edges as well.
-/
theorem growth_monotone (options : Options) (nodes more : List Value) {edges further : List Value}
    (within : edges.Sublist further) (r s : Report)
    : (let before := edgesFindings (nodesFindings options nodes).1 edges
        let after := edgesFindings (nodesFindings options (nodes ++ more)).1 edges
        (Report.ofFindings after).errors.Sublist (Report.ofFindings before).errors
        ∧ withCode "E001" (Report.ofFindings after).errors
          = withCode "E001" (Report.ofFindings before).errors)
      ∧ ∃ fewer added,
          (r.checkTopology nodes edges).warnings = r.warnings ++ fewer
          ∧ (s.checkTopology nodes further).warnings = s.warnings ++ added
          ∧ (withCode "T001" fewer).Sublist (withCode "T001" added)
          ∧ (withCode "T002" added).Sublist (withCode "T002" fewer) := by
  constructor
  · rw [nodesFindings_eq, nodesFindings_eq]
    exact edgesErrors_of_subset (declaredIds_subset_append nodes more) edges
  · exact ⟨_, _, checkTopology_warnings nodes edges r, checkTopology_warnings nodes further s,
      withCode_cycle_sublist within.subset, withCode_unreachable_sublist within.subset⟩

/-- An added node that an edge leads to, and an added edge that closes a circle and brings a node
within reach.
-/
theorem growth_monotone_circle
    : let start := .map [("data", .map [("type", .string "start")]), ("id", .string "a")]
      let other := .map [("id", .string "b")]
      let added := .map [("id", .number (.int 7))]
      let dangling := .map [("source", .string "b"), ("target", .string "7")]
      let back := .map [("source", .string "b"), ("target", .string "a")]
      let forth := .map [("source", .string "a"), ("target", .string "b")]
      [dangling, back].Sublist [dangling, forth, back]
      ∧ (Report.ofFindings
            (StructureRules.edgesFindings
              (StructureRules.nodesFindings .default [start, other, added]).1
              [dangling, back])).errors.Sublist
          [⟨"E002", "Edge references non-existent target node: 7", none⟩]
      ∧ ∃ fewer more,
          (Report.empty.checkTopology [start, other] [dangling, back]).warnings = fewer
          ∧ (Report.empty.checkTopology [start, other] [dangling, forth, back]).warnings = more
          ∧ (TopologyRules.withCode "T001" fewer).Sublist (TopologyRules.withCode "T001" more)
          ∧ (TopologyRules.withCode "T002" more).Sublist (TopologyRules.withCode "T002" fewer) := by
  intro start other added dangling back forth
  have within : [dangling, back].Sublist [dangling, forth, back] :=
    .cons_cons _ (.cons _ (List.Sublist.refl _))
  obtain ⟨⟨fewer, _⟩, warnings⟩ :=
    growth_monotone .default [start, other] [added] within Report.empty Report.empty
  exact ⟨within, fewer, warnings⟩

end WorkflowLint
