import WorkflowLint.Proofs.Graph.TopologyWarnings

/-! The order of nodes and edges does not matter to the graph rules, as long as ids are distinct.
Circles of edges depend on membership alone, and so do paths from the starts.
-/

namespace WorkflowLint

open Relation (ReflTransGen)

namespace Graph

/-- The truthy node ids have different texts. -/
def DistinctTexts (nodes : List Value) : Prop :=
  (nodes.filterMap nodeId?).Nodup

instance (nodes : List Value) : Decidable (DistinctTexts nodes) :=
  inferInstanceAs (Decidable (List.Nodup _))

/-- The declaration of an id text is a node with that text. -/
theorem of_declaration? {nodes : List Value} {id : String} {node : Value}
    (found : declaration? nodes id = some node)
    : node ∈ nodes ∧ nodeId? node = some id :=
  ⟨List.mem_of_find?_eq_some found,
    by simpa using List.find?_some (p := fun node => decide (nodeId? node = some id)) found⟩

section Reordered

variable {nodes nodes' edges edges' : List Value}

/-- Declaring is a matter of membership, so a reordered list declares the same id texts. -/
theorem declaredIds_perm (nodePerm : nodes'.Perm nodes)
    : (declaredIds nodes').Perm (declaredIds nodes) := by
  refine (List.perm_ext_iff_of_nodup (declaredIds_nodup _) (declaredIds_nodup _)).mpr ?_
  intro id
  simp only [mem_declaredIds, nodePerm.mem_iff]

/-- Two nodes with the same id text are the same node where texts are distinct. -/
theorem DistinctTexts.eq_of_nodeId? (distinct : DistinctTexts nodes) {first second : Value}
    {id : String} (left : first ∈ nodes) (right : second ∈ nodes)
    (atFirst : nodeId? first = some id) (atSecond : nodeId? second = some id)
    : first = second := by
  by_contra different
  have apart := List.pairwise_filterMap.mp distinct
  have symmetric : Std.Symm (fun a b : Value =>
      ∀ x, nodeId? a = some x → ∀ y, nodeId? b = some y → x ≠ y) :=
    ⟨fun _ _ apart x atX y atY same => apart y atY x atX same.symm⟩
  exact apart.forall left right different id atFirst id atSecond rfl

/-- Where texts are distinct, every node with an id gives it its type. -/
theorem DistinctTexts.declaredType?_eq_some_iff (distinct : DistinctTexts nodes) {id type : String}
    : declaredType? nodes id = some type
      ↔ ∃ node ∈ nodes, nodeId? node = some id ∧ nodeType? node = some type := by
  rw [declaredType?, Option.bind_eq_some_iff]
  constructor
  · intro declared
    rcases declared with ⟨node, found, typed⟩
    obtain ⟨member, ident⟩ := of_declaration? found
    exact ⟨node, member, ident, typed⟩
  · intro declared
    rcases declared with ⟨node, member, ident, typed⟩
    have present : (declaration? nodes id).isSome = true :=
      List.find?_isSome.mpr ⟨node, member, decide_eq_true ident⟩
    obtain ⟨first, found⟩ := Option.isSome_iff_exists.mp present
    obtain ⟨firstMember, firstIdent⟩ := of_declaration? found
    have same := distinct.eq_of_nodeId? firstMember member firstIdent ident
    exact ⟨first, found, same ▸ typed⟩

/-- A reordered list gives each id text the same type where texts are distinct. -/
theorem DistinctTexts.declaredType?_perm (distinct : DistinctTexts nodes)
    (nodePerm : nodes'.Perm nodes) (id : String)
    : declaredType? nodes' id = declaredType? nodes id := by
  have distinct' : DistinctTexts nodes' := (nodePerm.filterMap nodeId?).nodup_iff.mpr distinct
  apply Option.ext
  intro type
  rw [distinct'.declaredType?_eq_some_iff, distinct.declaredType?_eq_some_iff]
  simp only [nodePerm.mem_iff]

theorem DistinctTexts.declaredStarts_perm (distinct : DistinctTexts nodes)
    (nodePerm : nodes'.Perm nodes)
    : (declaredStarts nodes').Perm (declaredStarts nodes) := by
  simp only [declaredStarts, distinct.declaredType?_perm nodePerm]
  exact (declaredIds_perm nodePerm).filter _

/-- Leads are a matter of membership. -/
theorem leads_perm (nodePerm : nodes'.Perm nodes) (edgePerm : edges'.Perm edges)
    : Leads nodes' edges' = Leads nodes edges := by
  funext source target
  simp only [Leads, (declaredIds_perm nodePerm).mem_iff, edgePerm.mem_iff]

/-- The same id texts are reached where each has the same type. -/
theorem DistinctTexts.reached_perm (distinct : DistinctTexts nodes)
    (nodePerm : nodes'.Perm nodes) (edgePerm : edges'.Perm edges)
    : Reached nodes' edges' = Reached nodes edges := by
  funext id
  simp only [Reached, leads_perm nodePerm edgePerm,
    (distinct.declaredStarts_perm nodePerm).mem_iff]

/-- Edges lead in a circle whatever their order and that of the nodes. -/
theorem build_isCyclic_perm (nodePerm : nodes'.Perm nodes) (edgePerm : edges'.Perm edges)
    : (build nodes' edges').isCyclic = (build nodes edges).isCyclic := by
  rw [Bool.eq_iff_iff, build_isCyclic_iff, build_isCyclic_iff, edgeCircle_iff, edgeCircle_iff,
    leads_perm nodePerm edgePerm]

/-- The unreachable ids are the same up to order. -/
theorem DistinctTexts.unreachableIds_perm (distinct : DistinctTexts nodes)
    (nodePerm : nodes'.Perm nodes) (edgePerm : edges'.Perm edges)
    : (build nodes' edges').unreachableIds.Perm (build nodes edges).unreachableIds := by
  rw [build_unreachableIds, build_unreachableIds, distinct.reached_perm nodePerm edgePerm]
  exact (declaredIds_perm nodePerm).filter _

end Reordered

end Graph

open WorkflowLint.Graph

/-- The graph rules find the same up to order, where the id texts are distinct. -/
theorem topologyFindings_perm {nodes nodes' edges edges' : List Value}
    (distinct : DistinctTexts nodes) (nodePerm : nodes'.Perm nodes) (edgePerm : edges'.Perm edges)
    : (topologyFindings nodes' edges').Perm (topologyFindings nodes edges) := by
  have starts : (build nodes' edges').startIds.isEmpty = (build nodes edges).startIds.isEmpty := by
    rw [build_startIds, build_startIds]
    exact (distinct.declaredStarts_perm nodePerm).isEmpty_eq
  simp only [topologyFindings, TopologyRules.cycleFindings, TopologyRules.reachFindings,
    build_isCyclic_perm nodePerm edgePerm, starts]
  refine List.Perm.append_left _ ?_
  split
  · exact .rfl
  · exact (distinct.unreachableIds_perm nodePerm edgePerm).map _

end WorkflowLint
