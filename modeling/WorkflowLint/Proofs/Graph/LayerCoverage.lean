import WorkflowLint.Proofs.Graph.Walks

/-! The layered search finds exactly the positions to which a walk leads from a start vertex.
As many rounds as there are vertices suffice because every round but the last finds one.
-/

namespace WorkflowLint.Graph

open Relation (ReflTransGen)

/-- The next layer holds the unknown positions one edge behind the current layer. -/
theorem mem_nextLayer {g : Graph} {known layer : List Nat} {w : Nat}
    : w ∈ g.nextLayer known layer ↔ (∃ v ∈ layer, g.Edge v w) ∧ w ∉ known := by
  simp only [nextLayer, List.mem_eraseDups, List.mem_filter, List.mem_flatMap, mem_successors,
    decide_eq_true_eq]

-----------------------------------------------------------------------------------------
-- Every round keeps a frontier behind which all edges are explored
-----------------------------------------------------------------------------------------

/-- The known positions are distinct vertices, and only those of the last layer may still
have unknown successors. The rounds left make up for all vertices that are not known yet.
-/
structure Frontier (g : Graph) (rounds : Nat) (known layer : List Nat) : Prop where
  unique : known.Nodup
  inRange : ∀ v ∈ known, v < g.vertices.length
  explored : ∀ v ∈ known, v ∈ layer ∨ ∀ w, g.Edge v w → w ∈ known
  budget : g.vertices.length ≤ rounds + known.length

/-- The start positions are a frontier of their own. -/
theorem Frontier.start (g : Graph)
    : g.Frontier g.vertices.length g.startPositions g.startPositions where
  unique := List.nodup_range.filter _
  inRange := fun _ member => List.mem_range.mp (List.mem_filter.mp member).1
  explored := fun _ member => Or.inl member
  budget := Nat.le_add_right _ _

/-- A further layer with a new position is again a frontier, for one round less.
Witness: the positions behind the old layer are known now, and the new ones are distinct.
-/
theorem Frontier.advance {g : Graph} (inside : g.WellScoped) {rounds : Nat}
    {known layer : List Nat} (frontier : g.Frontier (rounds + 1) known layer)
    (progress : g.nextLayer known layer ≠ [])
    : g.Frontier rounds (known ++ g.nextLayer known layer) (g.nextLayer known layer) where
  unique := by
    refine List.nodup_append.mpr ⟨frontier.unique, eraseDups_nodup _, ?_⟩
    intro v old w new same
    exact (mem_nextLayer.mp new).2 (same ▸ old)
  inRange := by
    intro v member
    rcases List.mem_append.mp member with old | new
    · exact frontier.inRange v old
    · obtain ⟨⟨_, _, edge⟩, _⟩ := mem_nextLayer.mp new
      exact (inside edge).2
  explored := by
    intro v member
    rcases List.mem_append.mp member with old | new
    · apply Or.inr
      intro w edge
      by_cases known : w ∈ known
      · exact List.mem_append_left _ known
      · have current := (frontier.explored v old).resolve_right (fun all => known (all w edge))
        exact List.mem_append_right _ (mem_nextLayer.mpr ⟨⟨v, current, edge⟩, known⟩)
    · exact Or.inl new
  budget := by
    have budget := frontier.budget
    have positive := List.length_pos_iff.mpr progress
    rw [List.length_append]
    omega

/-- A frontier without rounds left knows every vertex, by counting distinct positions. -/
theorem Frontier.mem_of_exhausted {g : Graph} {known layer : List Nat}
    (frontier : g.Frontier 0 known layer) {w : Nat} (vertex : w < g.vertices.length)
    : w ∈ known := by
  by_contra missing
  have extended : (w :: known).Nodup := List.nodup_cons.mpr ⟨missing, frontier.unique⟩
  have inRange : ∀ v ∈ w :: known, v < g.vertices.length := by
    intro v member
    rcases List.mem_cons.mp member with rfl | old
    · exact vertex
    · exact frontier.inRange v old
  have bound := length_le_of_inRange extended inRange
  have budget := frontier.budget
  rw [List.length_cons] at bound
  omega

-----------------------------------------------------------------------------------------
-- The search is closed under edges and adds only what edges lead to
-----------------------------------------------------------------------------------------

/-- The search keeps the known positions and ends closed under edges.
Witness: induction on the rounds; the search stops at an empty layer or with every vertex.
-/
theorem Frontier.grow_closed {g : Graph} (inside : g.WellScoped) {rounds : Nat}
    {known layer : List Nat} (frontier : g.Frontier rounds known layer)
    : known ⊆ g.grow rounds known layer
      ∧ ∀ v ∈ g.grow rounds known layer, ∀ w, g.Edge v w → w ∈ g.grow rounds known layer := by
  induction rounds generalizing known layer with
  | zero =>
      refine ⟨List.Subset.refl _, ?_⟩
      intro v _ w edge
      exact frontier.mem_of_exhausted (inside edge).2
  | succ rounds ih =>
      rw [grow]
      split
      · rename_i stopped
        refine ⟨List.Subset.refl _, ?_⟩
        intro v member w edge
        by_contra missing
        have current := (frontier.explored v member).resolve_right
          (fun all => missing (all w edge))
        have further := mem_nextLayer.mpr ⟨⟨v, current, edge⟩, missing⟩
        rw [stopped] at further
        cases further
      · rename_i progress
        obtain ⟨kept, closed⟩ := ih (frontier.advance inside progress)
        exact ⟨List.Subset.trans (List.subset_append_left _ _) kept, closed⟩

/-- Everything found is known at first or lies behind it on a walk.
Witness: induction on the rounds; a new position is one edge behind the last layer.
-/
theorem walk_of_mem_grow {g : Graph} {rounds : Nat} {known layer : List Nat}
    (latest : layer ⊆ known) {v : Nat} (found : v ∈ g.grow rounds known layer)
    : ∃ u ∈ known, ReflTransGen g.Edge u v := by
  induction rounds generalizing known layer with
  | zero => exact ⟨v, found, .refl⟩
  | succ rounds ih =>
      rw [grow] at found
      split at found
      · exact ⟨v, found, .refl⟩
      · obtain ⟨u, member, walk⟩ := ih (List.subset_append_right _ _) found
        rcases List.mem_append.mp member with old | new
        · exact ⟨u, old, walk⟩
        · obtain ⟨⟨t, current, edge⟩, _⟩ := mem_nextLayer.mp new
          exact ⟨t, latest current, walk.head edge⟩

/-- The search reaches a position exactly when a walk from some start vertex does.
Witness: soundness by provenance, and coverage by carrying membership along the walk.
-/
theorem mem_reachable_iff {g : Graph} (inside : g.WellScoped) {v : Nat}
    : v ∈ g.reachable ↔ ∃ s ∈ g.startPositions, ReflTransGen g.Edge s v := by
  constructor
  · exact walk_of_mem_grow (List.Subset.refl _)
  · intro reached
    rcases reached with ⟨s, start, walk⟩
    obtain ⟨kept, closed⟩ := (Frontier.start g).grow_closed inside
    induction walk with
    | refl => exact kept start
    | tail _ edge ih => exact closed _ ih _ edge

end WorkflowLint.Graph
