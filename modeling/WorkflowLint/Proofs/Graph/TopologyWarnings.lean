import WorkflowLint.Proofs.Graph.CycleSearch
import WorkflowLint.Proofs.Graph.LayerCoverage
import WorkflowLint.Validation

/-! The graph warnings in terms of the nodes and edges of a document.
A cycle is warned of exactly when edges of the list lead in a circle, and the unreachable ids
are exactly the declared ones that no path from a start id leads to.
-/

namespace WorkflowLint

open Relation (TransGen ReflTransGen)

namespace Graph

-----------------------------------------------------------------------------------------
-- Circles of edges are closed walks along id texts
-----------------------------------------------------------------------------------------

/-- Both endpoints of an edge are truthy, and each has the text of a truthy node id. -/
def Resolved (nodes : List Value) (edge : Value) : Prop :=
  ∀ endpoint : Endpoint,
    ∃ id, endpointId? edge endpoint.name = some id ∧ ∃ node ∈ nodes, nodeId? node = some id

/-- The first edge ends where the second one starts. -/
def Follows (edge next : Value) : Prop :=
  endpointId? edge "target" = endpointId? next "source"

/-- Resolved edges of the list, repetition allowed, each of which ends where the next one
starts; the last one ends where the first one starts.
-/
def EdgeCircle (nodes edges : List Value) : Prop :=
  ∃ first rest,
    (∀ edge ∈ first :: rest, edge ∈ edges ∧ Resolved nodes edge)
    ∧ (first :: rest ++ [first]).IsChain Follows

/-- Leads are the endpoints of resolved edges. -/
theorem leads_iff {nodes edges : List Value} {source target : String}
    : Leads nodes edges source target
      ↔ ∃ edge ∈ edges,
          Resolved nodes edge
          ∧ endpointId? edge "source" = some source
          ∧ endpointId? edge "target" = some target := by
  constructor
  · intro leads
    rcases leads with ⟨edge, member, atSource, atTarget, first, second⟩
    refine ⟨edge, member, ?_, atSource, atTarget⟩
    intro endpoint
    cases endpoint with
    | source => exact ⟨source, atSource, mem_declaredIds.mp first⟩
    | target => exact ⟨target, atTarget, mem_declaredIds.mp second⟩
  · intro resolvedEdge
    rcases resolvedEdge with ⟨edge, member, resolved, atSource, atTarget⟩
    have declared (endpoint : Endpoint) {id : String}
        (found : endpointId? edge endpoint.name = some id)
        : id ∈ declaredIds nodes := by
      obtain ⟨other, same, known⟩ := resolved endpoint
      obtain rfl := Option.some.inj (found.symm.trans same)
      exact mem_declaredIds.mpr known
    exact ⟨edge, member, atSource, atTarget, declared .source atSource,
      declared .target atTarget⟩

/-- A walk along id texts is spelled by resolved edges that any edge from its end continues.
Witness: induction on the walk from its first lead.
-/
theorem edges_of_walk {nodes edges : List Value} {source target : String}
    (walk : TransGen (Leads nodes edges) source target)
    : ∃ first rest,
        (∀ edge ∈ first :: rest, edge ∈ edges ∧ Resolved nodes edge)
        ∧ endpointId? first "source" = some source
        ∧ ∀ next,
            endpointId? next "source" = some target
            → (first :: rest ++ [next]).IsChain Follows := by
  induction walk using TransGen.head_induction_on with
  | single leads =>
      obtain ⟨edge, member, resolved, atSource, atTarget⟩ := leads_iff.mp leads
      refine ⟨edge, [], by simpa using ⟨member, resolved⟩, atSource, fun next continued => ?_⟩
      exact List.isChain_pair.mpr (atTarget.trans continued.symm)
  | head leads _ ih =>
      obtain ⟨edge, member, resolved, atSource, atTarget⟩ := leads_iff.mp leads
      rcases ih with ⟨first, rest, all, start, chained⟩
      refine ⟨edge, first :: rest, ?_, atSource, fun next continued => ?_⟩
      · exact List.forall_mem_cons.mpr ⟨⟨member, resolved⟩, all⟩
      · exact List.isChain_cons_cons.mpr ⟨atTarget.trans start.symm, chained next continued⟩

/-- Chained resolved edges spell a walk along id texts, by induction on the edges. -/
theorem walk_of_edges {nodes edges : List Value} {first next : Value} {rest : List Value}
    {source target : String}
    (all : ∀ edge ∈ first :: rest, edge ∈ edges ∧ Resolved nodes edge)
    (chained : (first :: rest ++ [next]).IsChain Follows)
    (start : endpointId? first "source" = some source)
    (finish : endpointId? next "source" = some target)
    : TransGen (Leads nodes edges) source target := by
  induction rest generalizing first source with
  | nil =>
      obtain ⟨member, resolved⟩ := all first (by simp)
      have follows : Follows first next := List.isChain_pair.mp chained
      exact .single (leads_iff.mpr ⟨first, member, resolved, start, follows.trans finish⟩)
  | cons second rest ih =>
      obtain ⟨⟨member, resolved⟩, others⟩ := List.forall_mem_cons.mp all
      obtain ⟨follows, onward⟩ := List.isChain_cons_cons.mp chained
      obtain ⟨middle, atMiddle, _⟩ := (others second (by simp)).2 .source
      have lead : Leads nodes edges source middle :=
        leads_iff.mpr ⟨first, member, resolved, start, follows.trans atMiddle⟩
      exact (ih others onward atMiddle).head lead

/-- Edges lead in a circle exactly when some id text has a walk back to itself. -/
theorem edgeCircle_iff {nodes edges : List Value}
    : EdgeCircle nodes edges ↔ ∃ id, TransGen (Leads nodes edges) id id := by
  constructor
  · intro circle
    rcases circle with ⟨first, rest, all, chained⟩
    obtain ⟨id, start, _⟩ := (all first (by simp)).2 .source
    exact ⟨id, walk_of_edges all chained start start⟩
  · intro closed
    rcases closed with ⟨id, walk⟩
    obtain ⟨first, rest, all, start, chained⟩ := edges_of_walk walk
    exact ⟨first, rest, all, chained first start⟩

/-- The built graph is cyclic exactly when edges of the document lead in a circle. -/
theorem build_isCyclic_iff {nodes edges : List Value}
    : (build nodes edges).isCyclic = true ↔ EdgeCircle nodes edges := by
  rw [isCyclic_iff (build_wellScoped nodes edges), closedWalk_iff, edgeCircle_iff]

-----------------------------------------------------------------------------------------
-- Unreachable vertices are unreached id texts
-----------------------------------------------------------------------------------------

/-- The declared id texts whose first declaration has the type of a start node. -/
def declaredStarts (nodes : List Value) : List String :=
  (declaredIds nodes).filter (fun id => declaredType? nodes id = some "start")

/-- A path, possibly of length zero, leads to an id text from some start. -/
def Reached (nodes edges : List Value) (id : String) : Prop :=
  ∃ start ∈ declaredStarts nodes, ReflTransGen (Leads nodes edges) start id

theorem build_startIds (nodes edges : List Value)
    : (build nodes edges).startIds = declaredStarts nodes := by
  have texts : (build nodes edges).startIds
      = (declaredIds nodes).filter (isStart ∘ declaredVertex nodes) := by
    simp [startIds, build_vertices, List.filter_map, Function.comp_def, declaredVertex]
  rw [texts, declaredStarts]
  exact List.filter_congr (fun _ _ => decide_eq_decide.mpr Iff.rfl)

/-- Start positions are the indices of declared start texts. -/
theorem mem_build_startPositions {nodes edges : List Value} {i : Nat}
    : i ∈ (build nodes edges).startPositions
      ↔ ∃ start ∈ declaredStarts nodes, (declaredIds nodes)[i]? = some start := by
  simp only [startPositions, build_vertices, List.length_map, List.mem_filter, List.mem_range,
    List.getElem?_map, declaredStarts, decide_eq_true_eq]
  constructor
  · intro position
    rcases position with ⟨bound, started⟩
    rw [List.getElem?_eq_getElem bound] at started ⊢
    exact ⟨_, ⟨List.getElem_mem bound, by simpa [declaredVertex, isStart] using started⟩, rfl⟩
  · intro started
    rcases started with ⟨start, ⟨_, typed⟩, found⟩
    refine ⟨(List.getElem?_eq_some_iff.mp found).1, ?_⟩
    simp [found, declaredVertex, isStart, typed]

/-- A position is reached exactly when the declared text found there is. -/
theorem mem_build_reachable {nodes edges : List Value} {i : Nat} {id : String}
    (found : (declaredIds nodes)[i]? = some id)
    : i ∈ (build nodes edges).reachable ↔ Reached nodes edges id := by
  rw [mem_reachable_iff (build_wellScoped nodes edges)]
  constructor
  · intro reached
    rcases reached with ⟨s, member, walk⟩
    obtain ⟨start, isStart, atStart⟩ := mem_build_startPositions.mp member
    exact ⟨start, isStart, (walk_iff atStart found).mp walk⟩
  · intro reached
    rcases reached with ⟨start, isStart, walk⟩
    have declared : start ∈ declaredIds nodes := (List.mem_filter.mp isStart).1
    have atStart := getElem?_idxOf_declaredIds declared
    exact ⟨_, mem_build_startPositions.mpr ⟨start, isStart, atStart⟩,
      (walk_iff atStart found).mpr walk⟩

open Classical in
/-- The unreachable ids are the declared id texts that no path from a start leads to, in
the order of declaration. Witness: filtering by position agrees with filtering by text.
-/
theorem build_unreachableIds (nodes edges : List Value)
    : (build nodes edges).unreachableIds
      = (declaredIds nodes).filter (fun id => ¬ Reached nodes edges id) := by
  have agree : ∀ entry ∈ (declaredIds nodes).zipIdx,
      decide (entry.2 ∉ (build nodes edges).reachable)
        = decide (¬ Reached nodes edges entry.1) := by
    intro entry member
    rw [List.mem_zipIdx_iff_getElem?] at member
    simp only [mem_build_reachable member]
  have texts : (build nodes edges).unreachableIds
      = ((declaredIds nodes).zipIdx.filter
          (fun entry => entry.2 ∉ (build nodes edges).reachable)).map Prod.fst := by
    rw [unreachableIds, build_vertices, List.zipIdx_map, List.filter_map, List.map_map]
    rfl
  calc (build nodes edges).unreachableIds
      = ((declaredIds nodes).zipIdx.filter
          ((fun id => decide (¬ Reached nodes edges id)) ∘ Prod.fst)).map Prod.fst := by
        rw [texts, List.filter_congr agree]
        rfl
    _ = (declaredIds nodes).filter (fun id => ¬ Reached nodes edges id) := by
        rw [← List.filter_map, List.zipIdx_map_fst]

end Graph

-----------------------------------------------------------------------------------------
-- The warnings that the graph rules add to a report
-----------------------------------------------------------------------------------------

namespace TopologyRules

open WorkflowLint.Graph

/-- The id texts that the reachability rule reports: none where nothing starts. -/
def reportedIds (g : Graph) : List String :=
  if g.startIds.isEmpty then [] else g.unreachableIds

/-- The warnings of the graph rules: one for a cycle, then one for each reported id. -/
def warningsOf (g : Graph) : List Diagnostic :=
  (if g.isCyclic then [Finding.cycle.diagnostic] else [])
    ++ (reportedIds g).map (fun id => (Finding.unreachable id).diagnostic)

/-- The graph rules find nothing but what is worth a warning. -/
theorem severity_of_mem {nodes edges : List Value} {f : Finding}
    (member : f ∈ topologyFindings nodes edges)
    : f.severity = .warning := by
  simp only [topologyFindings, cycleFindings, reachFindings, List.mem_append,
    List.mem_ite_nil_right, List.mem_ite_nil_left, List.mem_singleton, List.mem_map] at member
  rcases member with ⟨_, rfl⟩ | ⟨_, id, _, rfl⟩ <;> rfl

/-- The graph rules leave the errors of a report alone. -/
theorem checkTopology_errors (nodes edges : List Value) (r : Report)
    : (r.checkTopology nodes edges).errors = r.errors := by
  have none : diagnostics .error (topologyFindings nodes edges) = [] := by
    simp only [diagnostics, List.map_eq_nil_iff, List.filter_eq_nil_iff, decide_eq_true_eq]
    exact fun f member => by simp [severity_of_mem member]
  simp only [Report.checkTopology, Report.add, none, List.append_nil]

/-- The graph rules add their warnings behind those of a report. -/
theorem checkTopology_warnings (nodes edges : List Value) (r : Report)
    : (r.checkTopology nodes edges).warnings = r.warnings ++ warningsOf (build nodes edges) := by
  have all : diagnostics .warning (topologyFindings nodes edges)
      = (topologyFindings nodes edges).map Finding.diagnostic := by
    rw [diagnostics, List.filter_eq_self.mpr]
    exact fun f member => by simp [severity_of_mem member]
  have shape : (topologyFindings nodes edges).map Finding.diagnostic
      = warningsOf (build nodes edges) := by
    rw [topologyFindings, List.map_append, warningsOf, cycleFindings, reachFindings, reportedIds]
    congr 1
    · split <;> rfl
    · split <;> simp
  rw [Report.checkTopology, Report.add, all, shape]

/-- The diagnostics of a list that carry a code. -/
def withCode (code : String) (added : List Diagnostic) : List Diagnostic :=
  added.filter (fun d => d.code = code)

theorem withCode_append (code : String) (left right : List Diagnostic)
    : withCode code (left ++ right) = withCode code left ++ withCode code right :=
  List.filter_append ..

/-- Diagnostics of one code are all kept or all dropped. -/
theorem withCode_eq_of_forall {code same : String} {added : List Diagnostic}
    (uniform : ∀ d ∈ added, d.code = same)
    : withCode code added = if same = code then added else [] := by
  split
  · rename_i equal
    exact List.filter_eq_self.mpr (fun d member => by simpa [uniform d member] using equal)
  · rename_i different
    exact List.filter_eq_nil_iff.mpr (fun d member => by simpa [uniform d member] using different)

theorem cycle_code (cyclic : Bool)
    : ∀ d ∈ if cyclic then [Finding.cycle.diagnostic] else [], d.code = "T001" := by
  cases cyclic <;> simp [Finding.diagnostic, Finding.code]

theorem unreachable_code (ids : List String)
    : ∀ d ∈ ids.map (fun id => (Finding.unreachable id).diagnostic), d.code = "T002" := by
  simp [Finding.diagnostic, Finding.code]

/-- The graph rules add no error, and they warn of a cycle, and then once, exactly when edges
of the document lead in a circle. Witness: the depth-first search decides closed walks.
-/
theorem checkTopology_cycle (nodes edges : List Value) (r : Report)
    : ∃ added,
        (r.checkTopology nodes edges).errors = r.errors
        ∧ (r.checkTopology nodes edges).warnings = r.warnings ++ added
        ∧ (withCode "T001" added = [⟨"T001", "Workflow graph contains a cycle", none⟩]
            ↔ EdgeCircle nodes edges)
        ∧ (withCode "T001" added = [] ↔ ¬ EdgeCircle nodes edges) := by
  refine ⟨_, checkTopology_errors nodes edges r, checkTopology_warnings nodes edges r, ?_⟩
  rw [warningsOf, withCode_append, withCode_eq_of_forall (cycle_code _),
    withCode_eq_of_forall (unreachable_code _), ← build_isCyclic_iff]
  simp only [String.reduceEq, if_true, if_false, List.append_nil]
  generalize (build nodes edges).isCyclic = cyclic
  cases cyclic with
  | false => simp
  | true => exact ⟨⟨fun _ => rfl, fun _ => rfl⟩, by simp⟩

open Classical in
/-- The graph rules add no error. Where some declared id starts, they warn once of each
declared id that no path from a start leads to, in the order of declaration; otherwise they
warn of none.
Witness: the layered search covers exactly what walks from the start vertices reach.
-/
theorem checkTopology_unreachable (nodes edges : List Value) (r : Report)
    : ∃ added,
        (r.checkTopology nodes edges).errors = r.errors
        ∧ (r.checkTopology nodes edges).warnings = r.warnings ++ added
        ∧ (declaredIds nodes).Nodup
        ∧ withCode "T002" added
          = (if declaredStarts nodes = [] then []
              else (declaredIds nodes).filter (fun id => ¬ Reached nodes edges id)).map
              (fun id =>
                ⟨"T002", "Node " ++ id ++ " is not reachable from any 'start' node", some id⟩) := by
  refine ⟨_, checkTopology_errors nodes edges r, checkTopology_warnings nodes edges r,
    declaredIds_nodup nodes, ?_⟩
  rw [warningsOf, withCode_append, withCode_eq_of_forall (cycle_code _),
    withCode_eq_of_forall (unreachable_code _), reportedIds, build_startIds,
    build_unreachableIds]
  simp only [List.isEmpty_iff, String.reduceEq, if_true, if_false, List.nil_append]
  rfl

end TopologyRules

end WorkflowLint
