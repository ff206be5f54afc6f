import WorkflowLint.Proofs.Graph.OrderFreedom
import WorkflowLint.Proofs.Structure.GraphSection
import WorkflowLint.Proofs.Structure.RepeatedIds

/-! Reordering the nodes and the edges of a document reorders its report.
The only thing that changes beyond that are the indices at which missing ids and missing ends
are reported; with the graph rules on, the ids have to be distinct.
-/

namespace WorkflowLint

open WorkflowLint.Graph

/-- The graph section of a document with its nodes and its edges in another order. -/
structure Reorders (document reordered : Value) (nodes edges : List Value) : Prop where
  graph : document.HasGraph nodes edges
  order
    : ∃ nodes' edges',
        reordered.HasGraph nodes' edges' ∧ nodes'.Perm nodes ∧ edges'.Perm edges
  elsewhere : ∀ key, key ≠ "workflow" → reordered.get? key = document.get? key

/-- Reordering what stands in the graph section is a reordering of the document. -/
theorem reorders_withGraph {others : List (String × Value)}
    (unset : others.lookup "workflow" = none) {nodes nodes' edges edges' : List Value}
    (nodePerm : nodes'.Perm nodes) (edgePerm : edges'.Perm edges)
    : Reorders (.withGraph others nodes edges) (.withGraph others nodes' edges') nodes edges where
  graph := Value.hasGraph_withGraph unset nodes edges
  order := ⟨nodes', edges', Value.hasGraph_withGraph unset nodes' edges', nodePerm, edgePerm⟩
  elsewhere := by
    intro key other
    simp only [Value.withGraph, Value.get?, Value.fields, List.lookup_append, List.lookup_cons,
      List.lookup_nil, beq_eq_false_iff_ne.mpr other]

/-- The error says that an edge lacks an end, which is named at the end of the message. -/
def isMissingEnd (endpoint : Endpoint) (d : Diagnostic) : Bool :=
  d.code = "E001" && (" missing '" ++ endpoint.name ++ "'").toList.isSuffixOf d.message.toList

/-- Two reports differ at most in the order of their diagnostics and in the indices that some of
the errors mention.
-/
structure SameUpToPlaces (first second : Report) : Prop where
  valid : second.isValid = first.isValid
  warnings : second.warnings.Perm first.warnings
  errors
    : (second.errors.filter (fun d => d.code ≠ "G001" ∧ d.code ≠ "E001")).Perm
        (first.errors.filter (fun d => d.code ≠ "G001" ∧ d.code ≠ "E001"))
  missingIds
    : second.errors.countP (fun d => d.code = "G001")
      = first.errors.countP (fun d => d.code = "G001")
  missingEnds
    : ∀ endpoint,
        second.errors.countP (isMissingEnd endpoint) = first.errors.countP (isMissingEnd endpoint)

-----------------------------------------------------------------------------------------
-- Reports on findings that differ in their order and in indices
-----------------------------------------------------------------------------------------

/-- The findings are the same up to indices and order. -/
def SameUnplaced (first second : List Finding) : Prop :=
  (second.map Finding.unplaced).Perm (first.map Finding.unplaced)

namespace SameUnplaced

variable {first second more more' : List Finding}

theorem refl (found : List Finding) : SameUnplaced found found :=
  List.Perm.rfl

theorem append (head : SameUnplaced first second) (tail : SameUnplaced more more')
    : SameUnplaced (first ++ more) (second ++ more') := by
  simpa only [SameUnplaced, List.map_append] using List.Perm.append head tail

theorem of_perm (perm : second.Perm first) : SameUnplaced first second :=
  perm.map _

/-- As many findings have a property that is not about indices. -/
theorem countP_eq (same : SameUnplaced first second) {p : Finding → Bool}
    (placeless : ∀ f, p f.unplaced = p f)
    : second.countP p = first.countP p := by
  have counts := List.Perm.countP_eq p same
  rwa [List.countP_map, List.countP_map,
    show p ∘ Finding.unplaced = p from funext placeless] at counts

/-- The findings with a property that excludes indices are the same up to order. -/
theorem filter_perm (same : SameUnplaced first second) {p : Finding → Bool}
    (placeless : ∀ f, p f.unplaced = p f) (fixed : ∀ f, p f = true → f.unplaced = f)
    : (second.filter p).Perm (first.filter p) := by
  have kept (found : List Finding) : (found.map Finding.unplaced).filter p = found.filter p := by
    rw [List.filter_map, show p ∘ Finding.unplaced = p from funext placeless]
    refine (List.map_congr_left (fun f member => ?_)).trans (List.map_id' _)
    exact fixed f (List.mem_filter.mp member).2
  simpa only [kept] using List.Perm.filter p same

end SameUnplaced

/-- Messages with the same ending name the same end. -/
theorem endpoint_eq_of_ending {before : List Char} {start : String} {named endpoint : Endpoint}
    (same
      : before ++ (" missing '" ++ endpoint.name ++ "'").toList
        = (start ++ " missing '" ++ named.name ++ "'").toList)
    : named = endpoint := by
  simp only [String.toList_append, ← List.append_assoc] at same
  have names := List.append_inj_right' (List.append_cancel_right same)
    (by cases named <;> cases endpoint <;> decide)
  cases named <;> cases endpoint <;> first | rfl | exact absurd names (by decide)

/-- A missing end makes the error that says so for this end and for no other. -/
theorem isMissingEnd_iff {f : Finding} {endpoint : Endpoint}
    : isMissingEnd endpoint f.diagnostic = true ↔ ∃ index, f = .endpointMissing index endpoint := by
  rw [isMissingEnd, Bool.and_eq_true, decide_eq_true_eq, List.isSuffixOf_iff_suffix]
  constructor
  · intro missing
    obtain ⟨code, before, ending⟩ := missing
    cases f with
    | endpointMissing index named =>
        cases (endpoint_eq_of_ending ending : named = endpoint)
        exact ⟨index, rfl⟩
    | inNode id f => cases f <;> simp [Finding.diagnostic, Finding.code, NodeFinding.code] at code
    | _ => simp [Finding.diagnostic, Finding.code] at code
  · intro missing
    obtain ⟨index, rfl⟩ := missing
    have message
        : "Edge at index " ++ toString index ++ (" missing '" ++ endpoint.name ++ "'")
          = (Finding.endpointMissing index endpoint).diagnostic.message :=
      (String.append_assoc ..).symm.trans (congrArg (· ++ "'") (String.append_assoc ..).symm)
    refine ⟨by rfl, ("Edge at index " ++ toString index).toList, ?_⟩
    rw [← String.toList_append, message]

/-- Counting diagnostics of one weight is counting findings. -/
theorem countP_diagnostics (severity : Severity) (p : Diagnostic → Bool) (found : List Finding)
    : (diagnostics severity found).countP p
      = found.countP (fun f => p f.diagnostic && f.severity = severity) := by
  rw [diagnostics, List.countP_map, List.countP_filter]
  rfl

/-- Selecting among diagnostics of one weight is selecting among findings. -/
theorem filter_diagnostics (severity : Severity) (p : Diagnostic → Bool) (found : List Finding)
    : (diagnostics severity found).filter p
      = (found.filter (fun f => p f.diagnostic && f.severity = severity)).map
          Finding.diagnostic := by
  rw [diagnostics, List.filter_map, List.filter_filter]
  rfl

/-- Reports on findings that are the same up to indices and order differ in no more than that. -/
theorem SameUnplaced.sameUpToPlaces {first second : List Finding}
    (same : SameUnplaced first second)
    : SameUpToPlaces (Report.ofFindings first) (Report.ofFindings second) where
  valid := by
    have errors := same.countP_eq (p := fun f => f.severity = .error) (fun f => by simp)
    simp only [List.countP_eq_length_filter] at errors
    simp only [Report.isValid, Report.ofFindings, Report.add, Report.empty, List.nil_append,
      diagnostics, List.isEmpty_map]
    rw [Bool.eq_iff_iff, List.isEmpty_iff_length_eq_zero, List.isEmpty_iff_length_eq_zero, errors]
  warnings := by
    refine List.Perm.map _ (same.filter_perm (fun f => by simp) ?_)
    intro f warning
    cases f <;> first | rfl | simp [Finding.severity] at warning
  errors := by
    simp only [Report.ofFindings, Report.add, Report.empty, List.nil_append, filter_diagnostics]
    refine List.Perm.map _ (same.filter_perm (fun f => ?_) ?_)
    · simp only [Finding.diagnostic, Finding.unplaced_code, Finding.unplaced_severity]
      congr
    · intro f other
      obtain ⟨id, endpoint⟩ := of_decide_eq_true (Bool.and_eq_true _ _ ▸ other).1
      exact Finding.unplaced_eq_self id endpoint
  missingIds := by
    simp only [Report.ofFindings, Report.add, Report.empty, List.nil_append, countP_diagnostics]
    refine same.countP_eq (fun f => ?_)
    simp only [Finding.diagnostic, Finding.unplaced_code, Finding.unplaced_severity]
    congr
  missingEnds := by
    intro endpoint
    simp only [Report.ofFindings, Report.add, Report.empty, List.nil_append, countP_diagnostics]
    refine same.countP_eq (fun f => ?_)
    have ends
        : isMissingEnd endpoint f.unplaced.diagnostic = isMissingEnd endpoint f.diagnostic := by
      rw [Bool.eq_iff_iff, isMissingEnd_iff, isMissingEnd_iff]
      cases f <;> simp [Finding.unplaced]
    rw [ends, Finding.unplaced_severity]

-----------------------------------------------------------------------------------------
-- Findings on reordered lists
-----------------------------------------------------------------------------------------

namespace StructureRules

section Reordered

variable {options : Options} {nodes nodes' edges edges' : List Value}

/-- Reordered nodes repeat the same ids, since they declare the same ones. -/
theorem repeatedIds_perm (nodePerm : nodes'.Perm nodes)
    : (repeatedIds nodes').Perm (repeatedIds nodes) := by
  refine (List.perm_append_right_iff (declaredIds nodes)).mp ?_
  calc repeatedIds nodes' ++ declaredIds nodes
    _ |>.Perm (repeatedIds nodes' ++ declaredIds nodes') :=
        (declaredIds_perm nodePerm).symm.append_left _
    _ |>.Perm (nodes'.filterMap nodeId?) := repeatedIds_append_declaredIds_perm nodes'
    _ |>.Perm (nodes.filterMap nodeId?) := nodePerm.filterMap _
    _ |>.Perm (repeatedIds nodes ++ declaredIds nodes) :=
        (repeatedIds_append_declaredIds_perm nodes).symm

/-- The walk over reordered nodes finds the same up to indices and order. -/
theorem nodesFindings_sameUnplaced (nodePerm : nodes'.Perm nodes)
    : SameUnplaced (nodesFindings options nodes).2 (nodesFindings options nodes').2 := by
  have kinds (kind : NodeKind) : hasKind nodes' kind = hasKind nodes kind := nodePerm.any_eq
  have places : countWithoutId nodes' = countWithoutId nodes := nodePerm.countP_eq _
  refine (nodesFindings_perm options nodes').trans
    (List.Perm.trans ?_ (nodesFindings_perm options nodes).symm)
  rw [kinds, kinds, places]
  refine List.Perm.append_right _ (List.Perm.append_right _ (List.Perm.append ?_ ?_))
  · exact ((repeatedIds_perm nodePerm).map _).append_left _
  · exact (nodePerm.flatMap_right _).map _

/-- What is found on an edge depends on its index only through the index that is mentioned, and
on the ids only through membership.
-/
theorem edgeFindings_unplaced {ids ids' : List String} (same : ∀ id, id ∈ ids' ↔ id ∈ ids)
    (index : Nat) (edge : Value)
    : (edgeFindings ids' index edge).map Finding.unplaced = edgeFindings ids 0 edge := by
  have ends (endpoint : Endpoint)
      : (endpointFindings ids' index edge endpoint).map Finding.unplaced
        = endpointFindings ids 0 edge endpoint := by
    rw [endpointFindings, endpointFindings]
    cases endpointId? edge endpoint.name with
    | none => rfl
    | some id => by_cases known : id ∈ ids <;> simp [require, same, known, Finding.unplaced]
  rw [edgeFindings, List.map_append, ends, ends, edgeFindings]

theorem edgesFindings_unplaced {ids ids' : List String} (same : ∀ id, id ∈ ids' ↔ id ∈ ids)
    (edges : List Value)
    : (edgesFindings ids' edges).map Finding.unplaced = edges.flatMap (edgeFindings ids 0) := by
  simp only [edgesFindings, List.map_flatMap, edgeFindings_unplaced same]
  rw [← List.flatMap_map Prod.fst (edgeFindings ids 0), List.zipIdx_map_fst]

/-- The rules on reordered edges find the same up to indices and order. -/
theorem edgesFindings_sameUnplaced {ids ids' : List String} (idPerm : ids'.Perm ids)
    (edgePerm : edges'.Perm edges)
    : SameUnplaced (edgesFindings ids edges) (edgesFindings ids' edges') := by
  rw [SameUnplaced, edgesFindings_unplaced (fun _ => idPerm.mem_iff),
    edgesFindings_unplaced (fun _ => Iff.rfl)]
  exact edgePerm.flatMap_right _

/-- The rules on a reordered graph find the same up to indices and order, where ids are distinct
if the graph is to be checked as well.
-/
theorem graphFindings_sameUnplaced (nodePerm : nodes'.Perm nodes) (edgePerm : edges'.Perm edges)
    (distinct : options.topologyChecks = true → DistinctTexts nodes)
    : SameUnplaced (graphFindings options (.list nodes) (.list edges))
        (graphFindings options (.list nodes') (.list edges')) := by
  have ids : ((nodesFindings options nodes').1).Perm (nodesFindings options nodes).1 := by
    rw [nodesFindings_eq, nodesFindings_eq]
    exact declaredIds_perm nodePerm
  rw [graphFindings_lists, graphFindings_lists]
  refine ((nodesFindings_sameUnplaced nodePerm).append
    (edgesFindings_sameUnplaced ids edgePerm)).append ?_
  split
  · rename_i asked
    exact .of_perm (topologyFindings_perm (distinct asked) nodePerm edgePerm)
  · exact .refl _

/-- Outside the graph section the same is found, key by key. -/
theorem outerFindings_eq {document reordered : Value}
    (elsewhere : ∀ key, key ≠ "workflow" → reordered.get? key = document.get? key)
    (present : reordered.has "workflow" = document.has "workflow")
    : outerFindings reordered = outerFindings document := by
  have kind := elsewhere "kind" (by decide)
  have version := elsewhere "version" (by decide)
  have app := elsewhere "app" (by decide)
  have keys : ∀ key ∈ topLevelFields, reordered.has key = document.has key := by
    simp only [topLevelFields, List.forall_mem_cons, present, true_and]
    simp only [Value.has, kind, version, app, List.not_mem_nil, false_implies, implies_true,
      and_self]
  have fields
      : topLevelFields.flatMap
          (fun field => require (reordered.has field) (.topLevelFieldMissing field))
        = topLevelFields.flatMap
            (fun field => require (document.has field) (.topLevelFieldMissing field)) :=
    List.flatMap_congr (fun key member => by rw [keys key member])
  simp only [outerFindings, topLevelFindings, fields, kind, sectionFindings, app]

end Reordered

end StructureRules

open StructureRules in
/-- A document with its nodes and edges in another order gets the same report up to the order of
the diagnostics and the indices that some errors mention; with the graph rules on, provided
that the truthy ids have distinct texts.
Witness: missing and repeated ids are counted, and all else is found node by node.
-/
theorem validate_reordered {options : Options} {document reordered : Value}
    {nodes edges : List Value} (reorders : Reorders document reordered nodes edges)
    (distinct : options.topologyChecks = true → DistinctTexts nodes)
    : SameUpToPlaces (validate options document) (validate options reordered) := by
  obtain ⟨nodes', edges', graph, nodePerm, edgePerm⟩ := reorders.order
  have outer : outerFindings reordered = outerFindings document :=
    outerFindings_eq reorders.elsewhere (graph.has_workflow.trans reorders.graph.has_workflow.symm)
  apply SameUnplaced.sameUpToPlaces
  rw [documentFindings_of_hasGraph reorders.graph, documentFindings_of_hasGraph graph, outer]
  exact (SameUnplaced.refl _).append (graphFindings_sameUnplaced nodePerm edgePerm distinct)

/-- Two nodes that lead to each other and a node without an id, in two orders, with graph rules. -/
theorem validate_reordered_cycle
    : let start := .map [("data", .map [("type", .string "start")]), ("id", .string "a")]
      let unnamed := .map [("data", .map [("type", .string "end")])]
      let code := .map [("data", .map [("type", .string "code")]), ("id", .number (.int 7))]
      let forth := .map [("source", .string "a"), ("target", .string "7")]
      let back := .map [("source", .string "7"), ("target", .string "a")]
      let loose := .map [("target", .string "a")]
      let others := [("kind", .string "app")]
      DistinctTexts [start, unnamed, code]
      ∧ SameUpToPlaces
          (validate ⟨["python3"], true⟩
            (.withGraph others [start, unnamed, code] [forth, back, loose]))
          (validate ⟨["python3"], true⟩
            (.withGraph others [code, unnamed, start] [loose, back, forth])) := by
  intro start unnamed code forth back loose others
  refine (and_iff_left_of_imp (fun distinct => ?_)).mpr (by decide)
  exact validate_reordered
    (reorders_withGraph rfl (List.reverse_perm [_, _, _]) (List.reverse_perm [_, _, _]))
    (fun _ => distinct)

end WorkflowLint
