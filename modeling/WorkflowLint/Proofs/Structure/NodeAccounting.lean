import WorkflowLint.Proofs.CodeDiscipline
import WorkflowLint.Proofs.Structure.Reordering

/-! Each node is accounted for once: it has no id, repeats one, or is the first to declare one.
Whether it repeats an id has no part in how its data is checked.
-/

namespace WorkflowLint.StructureRules

open WorkflowLint.Graph

/-- The codes of the rules on the data of nodes. -/
def dataCodes : List String :=
  NodeKind.all.flatMap NodeKind.codes

/-- What the rules of its kind find in a node that has an id, a data map and a known type. -/
def kindFindings (options : Options) (node : Value) : List Finding :=
  match nodeId? node, node.get? "data", (nodeType? node).bind NodeKind.ofTag? with
  | some id, some data, some kind => nodeDataFindings kind options id data
  | _, _, _ => []

/-- What a report says about a list of nodes that declare some ids. -/
structure Accounted (options : Options) (nodes : List Value) (ids : List String) (r : Report)
    : Prop where
  distinct : ids.Nodup
  total
    : nodes.length
      = r.errors.countP (fun d => d.code = "G001") + r.errors.countP (fun d => d.code = "G002")
          + ids.length
  repeats
    : ∀ id,
        r.errors.countP (fun d => d.code = "G002" ∧ d.nodeId = some id)
        = nodes.countP (fun node => nodeId? node = some id) - 1
  errors
    : ∀ id,
        r.errors.filter (fun d => d.code ∈ dataCodes ∧ d.nodeId = some id)
        = (nodes.filter (fun node => nodeId? node = some id)).flatMap
            (fun node => diagnostics .error (kindFindings options node))
  warnings
    : ∀ id,
        r.warnings.filter (fun d => d.code ∈ dataCodes ∧ d.nodeId = some id)
        = (nodes.filter (fun node => nodeId? node = some id)).flatMap
            (fun node => diagnostics .warning (kindFindings options node))

-----------------------------------------------------------------------------------------
-- Missing and repeated ids
-----------------------------------------------------------------------------------------

/-- The nodes are those without an id, those that repeat one, and one for each declared id. -/
theorem length_eq_of_ids (nodes : List Value)
    : nodes.length
      = countWithoutId nodes + (repeatedIds nodes).length + (declaredIds nodes).length := by
  have named : (nodes.filterMap nodeId?).length = nodes.countP (fun node => nodeId? node ≠ none) :=
    List.length_filterMap_eq_countP.trans
      (List.countP_congr (fun _ _ => by simp [Option.isSome_iff_ne_none]))
  have split := nodes.length_eq_countP_add_countP (fun node => decide (nodeId? node = none))
  have parts := (repeatedIds_append_declaredIds_perm nodes).length_eq
  simp only [List.length_append, named, countWithoutId, ne_eq, decide_not, decide_eq_true_eq] at *
  omega

/-- An id is repeated once less often than nodes have it. -/
theorem count_repeatedIds (nodes : List Value) (id : String)
    : (repeatedIds nodes).count id = nodes.countP (fun node => nodeId? node = some id) - 1 := by
  have named
      : (nodes.filterMap nodeId?).count id = nodes.countP (fun node => nodeId? node = some id) := by
    simp only [List.count_filterMap, beq_eq_decide]
  have parts := (repeatedIds_append_declaredIds_perm nodes).count_eq id
  rw [List.count_append, (declaredIds_nodup nodes).count, named] at parts
  split at parts
  · omega
  · rename_i undeclared
    have absent : nodes.countP (fun node => nodeId? node = some id) = 0 := by
      rw [List.countP_eq_zero]
      intro node here same
      exact undeclared (mem_declaredIds.mpr ⟨node, here, of_decide_eq_true same⟩)
    omega

/-- Errors on missing and repeated ids are counted by counting such ids.
Witness: up to order and indices, these are the findings because of places.
-/
theorem countP_errors (options : Options) (nodes : List Value)
    {p : String → Option String → Bool}
    (codes : ∀ code about, p code about = true → code ∈ ["G001", "G002"])
    : (diagnostics .error (nodesFindings options nodes).2).countP (fun d => p d.code d.nodeId)
      = (if p "G001" none then countWithoutId nodes else 0)
          + (repeatedIds nodes).countP (fun id => p "G002" (some id)) := by
  let counted (f : Finding) : Bool := p f.code f.nodeId? && f.severity = .error
  have listed {f : Finding} (holds : counted f = true) : f.code ∈ ["G001", "G002"] :=
    codes _ _ (Bool.and_eq_true _ _ ▸ holds).1
  have own : (nodes.flatMap (ownFindings options)).countP counted = 0 := by
    rw [List.countP_eq_zero]
    intro f member holds
    obtain ⟨node, _, member⟩ := List.mem_flatMap.mp member
    exact not_reports_ownFindings (List.mem_append_left ["G005", "G006"] (listed holds))
      ⟨f, member, rfl⟩
  have flags (holds : Bool) {f : Finding} (other : f.code ∉ ["G001", "G002"])
      : (require holds f).countP counted = 0 := by
    rw [List.countP_eq_zero]
    intro g member holds
    exact other (eq_of_mem_require member ▸ listed holds)
  have unplaced (found : List Finding)
      : (found.map Finding.unplaced).countP counted = found.countP counted := by
    rw [List.countP_map]
    refine List.countP_congr (fun f _ => ?_)
    have about : f.unplaced.nodeId? = f.nodeId? := by cases f <;> rfl
    simp only [counted, Function.comp_apply, Finding.unplaced_code, Finding.unplaced_severity,
      about]
  rw [countP_diagnostics]
  change (nodesFindings options nodes).2.countP counted = _
  rw [← unplaced, (nodesFindings_perm options nodes).countP_eq counted]
  simp only [List.countP_append, unplaced, own, List.countP_map]
  rw [flags _ (by decide), flags _ (by decide), List.countP_replicate]
  simp [counted, Finding.code, Finding.nodeId?, Finding.severity, Function.comp_def]

-----------------------------------------------------------------------------------------
-- Findings in data
-----------------------------------------------------------------------------------------

/-- Nothing is found in the data of a node that has no id or not the tag of a kind. -/
theorem kindFindings_eq_nil {options : Options} {node : Value}
    (untyped : ∀ id kind, nodeId? node = some id → nodeType? node ≠ some (NodeKind.tag kind))
    : kindFindings options node = [] := by
  unfold kindFindings
  split
  · rename_i id _ kind ident _ typed
    obtain ⟨tag, here, known⟩ := Option.bind_eq_some_iff.mp typed
    exact absurd (NodeKind.ofTag?_eq_some_iff.mp known ▸ here) (untyped id kind ident)
  · rfl

/-- A finding in the data of the node with an id text. -/
def isDataFinding (id : String) (f : Finding) : Bool :=
  f.code ∈ dataCodes ∧ f.nodeId? = some id

/-- What the rules of a kind find is in the data of the node that they look at. -/
theorem isDataFinding_of_mem {kind : NodeKind} {options : Options} {own id : String} {data : Value}
    {f : Finding} (member : f ∈ nodeDataFindings kind options own data)
    : isDataFinding id f = decide (own = id) := by
  obtain ⟨g, found, rfl⟩ := List.mem_map.mp member
  have listed : g.code ∈ dataCodes :=
    List.mem_flatMap.mpr
      ⟨kind, by cases kind <;> decide, kind.code_mem_codes options data g found⟩
  simp [isDataFinding, Finding.code, Finding.nodeId?, listed]

/-- Of what a node adds of its own, the findings in its data are those of the rules of its kind.
Witness: one case for each outline.
-/
theorem filter_ownFindings (options : Options) (node : Value) (id : String)
    : (ownFindings options node).filter (isDataFinding id)
      = if nodeId? node = some id then kindFindings options node else [] := by
  have spec := outline_spec node
  have tagged {id : String} (ident : nodeId? node = some id) := outline_of_tag ident
  unfold ownFindings
  generalize outline node = found at spec tagged
  cases spec with
  | noId absent => rw [absent, if_neg nofun, List.filter_nil]
  | noData ident | noType ident | unknownType ident =>
      rw [kindFindings_eq_nil, ite_self]
      · rfl
      · intro other kind _ typed
        obtain ⟨data, same, _⟩ := tagged ident kind typed
        cases same
  | @known own kind data ident stored typed =>
      have here : kindFindings options node = nodeDataFindings kind options own data := by
        simp only [kindFindings, ident, Value.get?_eq_some_iff.mpr stored,
          (nodeType?_of_data stored).mpr typed, Option.bind_some, NodeKind.ofTag?_tag]
      simp only [here, ident, Option.some.injEq]
      split
      · rename_i same
        exact List.filter_eq_self.mpr
          (fun f member => (isDataFinding_of_mem member).trans (decide_eq_true same))
      · rename_i other
        refine List.filter_eq_nil_iff.mpr (fun f member holds => other ?_)
        exact of_decide_eq_true ((isDataFinding_of_mem member).symm.trans holds)

theorem flatMap_ite_nil {α β : Type} (xs : List α) (p : α → Prop) [DecidablePred p]
    (f : α → List β)
    : xs.flatMap (fun x => if p x then f x else []) = (xs.filter p).flatMap f := by
  induction xs with
  | nil => rfl
  | cons x more ih => by_cases here : p x <;> simp [here, ih]

/-- Of all that the walk over the nodes finds, the findings in the data of the nodes with an id are
those of the rules of their kinds, node by node.
-/
theorem filter_nodesFindings (options : Options) (nodes : List Value) (id : String)
    : (nodesFindings options nodes).2.filter (isDataFinding id)
      = (nodes.filter (fun node => nodeId? node = some id)).flatMap (kindFindings options) := by
  have place (earlier : List Value) (index : Nat) (node : Value)
      : (placeFindings earlier index node).filter (isDataFinding id) = [] := by
    unfold placeFindings repeatFindings
    split
    · rfl
    · split <;> rfl
  have flags (kind : NodeKind) {f : Finding} (other : isDataFinding id f = false)
      : (require (hasKind nodes kind) f).filter (isDataFinding id) = [] := by
    cases hasKind nodes kind <;> simp [require, other]
  have visits
      : (nodes.zipIdx.flatMap (fun entry => findingsAt options nodes entry.2 entry.1)).filter
            (isDataFinding id)
        = nodes.flatMap
            (fun node => if nodeId? node = some id then kindFindings options node else []) := by
    simp only [List.filter_flatMap, findingsAt_eq, List.filter_append, place, List.nil_append,
      filter_ownFindings]
    rw [← List.flatMap_map Prod.fst
      (fun node => if nodeId? node = some id then kindFindings options node else []),
      List.zipIdx_map_fst]
  rw [nodesFindings_eq]
  simp only [List.filter_append, visits, flags .start (f := .noStart) rfl,
    flags .end (f := .noEnd) rfl, List.append_nil]
  exact flatMap_ite_nil nodes _ _

/-- The diagnostics of one weight in the data of the nodes with an id, node by node. -/
theorem filter_diagnostics_nodesFindings (options : Options) (nodes : List Value) (id : String)
    (weight : Severity)
    : (diagnostics weight (nodesFindings options nodes).2).filter
          (fun d => d.code ∈ dataCodes ∧ d.nodeId = some id)
      = (nodes.filter (fun node => nodeId? node = some id)).flatMap
          (fun node => diagnostics weight (kindFindings options node)) := by
  have inData
      : (fun f => decide (f.diagnostic.code ∈ dataCodes ∧ f.diagnostic.nodeId = some id)
          && decide (f.severity = weight))
        = fun f => decide (f.severity = weight) && isDataFinding id f :=
    funext (fun f => Bool.and_comm _ _)
  rw [filter_diagnostics, inData, ← List.filter_filter, filter_nodesFindings, List.filter_flatMap,
    List.map_flatMap]
  rfl

-----------------------------------------------------------------------------------------
-- The account
-----------------------------------------------------------------------------------------

/-- The walk over the nodes accounts for each of them: as many are there as ids are missing, ids
are repeated and ids are declared; an id is reported as repeated once less often than nodes have
it; and in the data of each node with it the rules of its kind find what they find there.
Witness: missing and repeated ids are counted up to order, and data is checked node by node.
-/
theorem nodesFindings_accounted (options : Options) (nodes : List Value)
    : Accounted options nodes (nodesFindings options nodes).1
        (Report.ofFindings (nodesFindings options nodes).2) where
  distinct := by
    rw [nodesFindings_eq]
    exact declaredIds_nodup nodes
  total := by
    have missing :=
      (countP_errors options nodes (p := fun code _ => code = "G001") (by simp)).trans
        (show _ = countWithoutId nodes by simp)
    have repeated :=
      (countP_errors options nodes (p := fun code _ => code = "G002") (by simp)).trans
        (show _ = (repeatedIds nodes).length by simp)
    have ids : (nodesFindings options nodes).1 = declaredIds nodes := by rw [nodesFindings_eq]
    rw [length_eq_of_ids, ← missing, ← repeated, ids]
    rfl
  repeats := by
    intro id
    have repeated := countP_errors options nodes
      (p := fun code about => code = "G002" ∧ about = some id) (by simp)
    rw [← count_repeatedIds]
    refine repeated.trans ?_
    simp [List.count_eq_countP, beq_eq_decide]
  errors id := filter_diagnostics_nodesFindings options nodes id .error
  warnings id := filter_diagnostics_nodesFindings options nodes id .warning

end WorkflowLint.StructureRules
