import WorkflowLint.Proofs.Graph.DeclaredVertices
import WorkflowLint.StructureRules

/-! The walk over the nodes keeps exactly what the visited prefix declares.
Each node's findings therefore depend on its index and on the nodes before it alone.
-/

namespace WorkflowLint.StructureRules

open WorkflowLint.Graph

-----------------------------------------------------------------------------------------
-- What an outline says about a node
-----------------------------------------------------------------------------------------

/-- The facts about a node that each outline stands for. -/
inductive Outlined (node : Value) : Outline → Prop
  | noId (absent : nodeId? node = none) : Outlined node .noId
  | noData {id : String} (ident : nodeId? node = some id) (absent : ¬ node.HasKey "data")
    : Outlined node (.noData id)
  | noType {id : String} {data : Value} (ident : nodeId? node = some id)
    (stored : node.Holds "data" data) (absent : data.truthy? "type" = none)
    : Outlined node (.noType id)
  | unknownType {id : String} {data type : Value} (ident : nodeId? node = some id)
    (stored : node.Holds "data" data) (typed : data.truthy? "type" = some type)
    (unknown : ∀ kind : NodeKind, type ≠ .string kind.tag)
    : Outlined node (.unknownType id type)
  | known {id : String} {kind : NodeKind} {data : Value} (ident : nodeId? node = some id)
    (stored : node.Holds "data" data) (typed : data.Holds "type" (.string kind.tag))
    : Outlined node (.known id kind data)

/-- The outline of a node is described by the facts it stands for, by following the reads. -/
theorem outline_spec (node : Value) : Outlined node (outline node) := by
  unfold outline
  split
  · rename_i absent
    exact .noId absent
  rename_i id ident
  split
  · rename_i absent
    exact .noData ident (Value.get?_eq_none_iff.mp absent)
  rename_i data stored
  replace stored := Value.get?_eq_some_iff.mp stored
  split
  · rename_i absent
    exact .noType ident stored absent
  rename_i type typed
  split
  · rename_i unknown
    apply Outlined.unknownType ident stored typed
    intro kind same
    rw [NodeKind.bind_ofTag?_eq_some_iff.mpr same] at unknown
    cases unknown
  · rename_i kind found
    obtain rfl := NodeKind.bind_ofTag?_eq_some_iff.mp found
    exact .known ident stored (Value.truthy?_eq_some_iff.mp typed).1

/-- A type that is a tag is truthy, since no tag is empty. -/
theorem truthy?_of_tag {data : Value} {kind : NodeKind}
    (typed : data.Holds "type" (.string kind.tag))
    : data.truthy? "type" = some (.string kind.tag) := by
  refine Value.truthy?_eq_some_iff.mpr ⟨typed, Value.isTruthy_string ?_⟩
  cases kind <;> decide

/-- A node with an id and the tag of a kind has a known outline. -/
theorem outline_of_tag {node : Value} {id : String} (ident : nodeId? node = some id)
    (kind : NodeKind) (typed : nodeType? node = some kind.tag)
    : ∃ data, outline node = .known id kind data ∧ node.Holds "data" data := by
  obtain ⟨data, stored, tagged⟩ := nodeType?_eq_some_iff.mp typed
  refine ⟨data, ?_, stored⟩
  simp only [outline, ident, Value.get?_eq_some_iff.mpr stored, truthy?_of_tag tagged,
    NodeKind.bind_ofTag?_eq_some_iff.mpr rfl]

-----------------------------------------------------------------------------------------
-- The census of a prefix
-----------------------------------------------------------------------------------------

/-- Some node with a truthy id has the tag of a kind as its type. -/
def hasKind (nodes : List Value) (kind : NodeKind) : Bool :=
  nodes.any (fun node => (nodeId? node).isSome && nodeType? node = some kind.tag)

theorem hasKind_iff {nodes : List Value} {kind : NodeKind}
    : hasKind nodes kind = true
      ↔ ∃ node ∈ nodes, (nodeId? node).isSome = true ∧ nodeType? node = some kind.tag := by
  simp [hasKind]

theorem hasKind_concat (nodes : List Value) (node : Value) (kind : NodeKind)
    : hasKind (nodes ++ [node]) kind
      = (hasKind nodes kind
          || ((nodeId? node).isSome && decide (nodeType? node = some kind.tag))) := by
  simp [hasKind]

/-- Declaring an id changes the ids alone. -/
theorem declare_eq (c : Census) (id : String)
    : c.declare id = { c with ids := if id ∈ c.ids then c.ids else c.ids ++ [id] } := by
  unfold Census.declare
  split <;> rfl

/-- What a walk over the nodes has seen when it has visited them. -/
def censusOf (nodes : List Value) : Census :=
  ⟨declaredIds nodes, hasKind nodes .start, hasKind nodes .end⟩

/-- A further node without a truthy id leaves the census as it is. -/
theorem censusOf_concat_none {nodes : List Value} {node : Value}
    (absent : nodeId? node = none)
    : censusOf (nodes ++ [node]) = censusOf nodes := by
  simp [censusOf, declaredIds_concat_none absent, hasKind_concat, absent]

/-- A further node with an id but without a kind only declares its id. -/
theorem censusOf_concat_untyped {nodes : List Value} {node : Value} {id : String}
    (ident : nodeId? node = some id)
    (untyped : ∀ kind : NodeKind, nodeType? node ≠ some kind.tag)
    : censusOf (nodes ++ [node]) = (censusOf nodes).declare id := by
  simp only [censusOf, declare_eq, declaredIds_concat_some ident, hasKind_concat, untyped,
    decide_false, Bool.and_false, Bool.or_false]

/-- A further node with an id and a kind declares its id and shows its kind. -/
theorem censusOf_concat_typed {nodes : List Value} {node : Value} {id : String}
    {kind : NodeKind} (ident : nodeId? node = some id)
    (typed : nodeType? node = some kind.tag)
    : censusOf (nodes ++ [node]) = ((censusOf nodes).declare id).meet kind := by
  have tags (other : NodeKind)
      : decide (nodeType? node = some other.tag) = decide (kind = other) := by
    rw [typed]
    exact decide_eq_decide.mpr
      ⟨fun same => NodeKind.tag_injective (Option.some.inj same), fun same => same ▸ rfl⟩
  simp only [censusOf, declare_eq, Census.meet, declaredIds_concat_some ident, hasKind_concat,
    ident, Option.isSome_some, Bool.true_and, tags]

-----------------------------------------------------------------------------------------
-- One visit extends the prefix, and a walk visits every node at its index
-----------------------------------------------------------------------------------------

/-- Visiting a node after a prefix leaves the census of the longer prefix.
Witness: one case for each outline; only a known outline shows a kind.
-/
theorem visitNode_census (options : Options) (index : Nat) (earlier : List Value) (node : Value)
    : (visitNode options index (censusOf earlier) node).1 = censusOf (earlier ++ [node]) := by
  have spec := outline_spec node
  have tagged {id : String} (ident : nodeId? node = some id) := outline_of_tag ident
  unfold visitNode
  generalize outline node = found at spec tagged
  symm
  cases spec with
  | noId absent => exact censusOf_concat_none absent
  | noData ident | noType ident | unknownType ident =>
      apply censusOf_concat_untyped ident
      intro kind typed
      obtain ⟨data, same, _⟩ := tagged ident kind typed
      cases same
  | known ident stored typed =>
      exact censusOf_concat_typed ident ((nodeType?_of_data stored).mpr typed)

/-- What the node at an index adds, given the list that it stands in. -/
def findingsAt (options : Options) (nodes : List Value) (index : Nat) (node : Value)
    : List Finding :=
  (visitNode options index (censusOf (nodes.take index)) node).2

/-- A walk that continues behind a prefix adds the findings of each further node at its
index in the whole list. Witness: induction on the nodes that are left.
-/
theorem visitNodes_eq (options : Options) (earlier nodes : List Value)
    : visitNodes options earlier.length (censusOf earlier) nodes
      = (
          censusOf (earlier ++ nodes),
          (nodes.zipIdx earlier.length).flatMap
            (fun entry => findingsAt options (earlier ++ nodes) entry.2 entry.1)
        ) := by
  induction nodes generalizing earlier with
  | nil => simp [visitNodes]
  | cons node more ih =>
      have extended := ih (earlier ++ [node])
      rw [List.length_append, List.length_singleton, List.append_assoc,
        List.singleton_append] at extended
      simp only [visitNodes, visitNode_census, extended, List.zipIdx_cons, List.flatMap_cons,
        findingsAt, List.take_left']

/-- The walk over all nodes returns the declared ids, and finds what each node adds at its
index, then a missing start and a missing end.
-/
theorem nodesFindings_eq (options : Options) (nodes : List Value)
    : nodesFindings options nodes
      = (
          declaredIds nodes,
          nodes.zipIdx.flatMap (fun entry => findingsAt options nodes entry.2 entry.1)
            ++ require (hasKind nodes .start) .noStart
            ++ require (hasKind nodes .end) .noEnd
        ) := by
  have walk : visitNodes options 0 .empty nodes = _ := visitNodes_eq options [] nodes
  simp only [nodesFindings, walk, List.nil_append, List.length_nil, censusOf]

end WorkflowLint.StructureRules
