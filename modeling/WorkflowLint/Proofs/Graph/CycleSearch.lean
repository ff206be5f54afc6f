import Mathlib.Data.List.Chain
import WorkflowLint.Proofs.Graph.Walks

/-! The depth-first search answers `none` exactly when the graph has a closed walk.
A finished search leaves a list in which every vertex leads only to later members, so it
excludes closed walks; a failed search has an edge back into the path that it follows.
-/

namespace WorkflowLint.Graph

open Relation (TransGen)

-----------------------------------------------------------------------------------------
-- Finished vertices lie on no closed walk
-----------------------------------------------------------------------------------------

/-- Each listed vertex leads only to vertices listed behind it. -/
inductive Settled (g : Graph) : List Nat → Prop
  | nil : g.Settled []
  | cons {v : Nat} {rest : List Nat} (behind : ∀ w, g.Edge v w → w ∈ rest)
    (settled : g.Settled rest)
    : g.Settled (v :: rest)

/-- A settled list is closed under edges, by induction on the list. -/
theorem Settled.edge_mem {g : Graph} {finished : List Nat} (settled : g.Settled finished)
    {v w : Nat} (member : v ∈ finished) (edge : g.Edge v w)
    : w ∈ finished := by
  induction settled with
  | nil => cases member
  | cons behind _ ih =>
      rcases List.mem_cons.mp member with rfl | later
      · exact List.mem_cons_of_mem _ (behind w edge)
      · exact List.mem_cons_of_mem _ (ih later)

theorem Settled.walk_mem {g : Graph} {finished : List Nat} (settled : g.Settled finished)
    {v w : Nat} (member : v ∈ finished) (walk : TransGen g.Edge v w)
    : w ∈ finished := by
  induction walk with
  | single edge => exact settled.edge_mem member edge
  | tail _ edge ih => exact settled.edge_mem ih edge

/-- No settled vertex lies on a closed walk. Witness: the first step from the head of the
list enters the rest, which the walk cannot leave, so the walk would close in the rest.
-/
theorem Settled.no_closed_walk {g : Graph} {finished : List Nat}
    (settled : g.Settled finished) {v : Nat} (member : v ∈ finished)
    : ¬ TransGen g.Edge v v := by
  induction settled with
  | nil => cases member
  | cons behind rest ih =>
      intro walk
      rcases List.mem_cons.mp member with rfl | later
      · obtain ⟨w, edge, onward⟩ := TransGen.head'_iff.mp walk
        have entered := behind w edge
        rcases Relation.reflTransGen_iff_eq_or_transGen.mp onward with rfl | onward
        · exact ih entered walk
        · exact ih (rest.walk_mem entered onward) walk
      · exact ih later walk

/-- What a completed part of the search has done with the vertices that it was given. -/
structure Completes (g : Graph) (finished pending result : List Nat) : Prop where
  settled : g.Settled result
  kept : finished ⊆ result
  covered : pending ⊆ result

/-- A completed fold completes all its vertices, given that each visit completes one.
Witness: induction on the vertices, composing the inclusions.
-/
theorem Completes.of_foldlM {g : Graph} {visit : List Nat → Nat → Option (List Nat)}
    (each
      : ∀ {finished v result},
          g.Settled finished
          → visit finished v = some result
          → g.Completes finished [v] result)
    {pending finished result : List Nat} (settled : g.Settled finished)
    (completed : pending.foldlM visit finished = some result)
    : g.Completes finished pending result := by
  induction pending generalizing finished with
  | nil =>
      obtain rfl : finished = result := by simpa using completed
      exact ⟨settled, List.Subset.refl _, by simp⟩
  | cons v rest ih =>
      rw [List.foldlM_cons, Option.bind_eq_bind, Option.bind_eq_some_iff] at completed
      rcases completed with ⟨middle, first, later⟩
      have head := each settled first
      have tail := ih head.settled later
      exact ⟨
        tail.settled,
        List.Subset.trans head.kept tail.kept,
        List.cons_subset.mpr ⟨tail.kept (head.covered (by simp)), tail.covered⟩
      ⟩

/-- A successful visit completes its vertex: all successors were completed before.
Witness: induction on the depth; the fold over the successors uses the induction hypothesis.
-/
theorem visit_completes {g : Graph} {depth : Nat} {path finished : List Nat} {v : Nat}
    {result : List Nat} (settled : g.Settled finished)
    (completed : g.visit depth path finished v = some result)
    : g.Completes finished [v] result := by
  induction depth generalizing path finished v result with
  | zero => simp [visit] at completed
  | succ depth ih =>
      rw [visit] at completed
      split at completed
      · cases completed
      split at completed
      · rename_i known
        obtain rfl : finished = result := Option.some.inj completed
        exact ⟨settled, List.Subset.refl _, by simpa using known⟩
      · obtain ⟨below, folded, rfl⟩ := Option.map_eq_some_iff.mp completed
        have successors : g.Completes finished (g.successors v) below :=
          Completes.of_foldlM (fun settled visited => ih settled visited) settled folded
        exact {
          settled :=
            .cons (fun w edge => successors.covered (mem_successors.mpr edge))
              successors.settled
          kept := fun _ member => List.mem_cons_of_mem _ (successors.kept member)
          covered := by simp
        }

-----------------------------------------------------------------------------------------
-- A failed visit finds a closed walk
-----------------------------------------------------------------------------------------

/-- The search stands at `v` behind a walk through the distinct vertices of `path`,
nearest first. The depth left exceeds the number of vertices that are not on the path.
-/
structure SearchPath (g : Graph) (depth : Nat) (path : List Nat) (v : Nat) : Prop where
  walk : (v :: path).IsChain (fun next previous => g.Edge previous next)
  unique : path.Nodup
  inRange : ∀ u ∈ path, u < g.vertices.length
  budget : g.vertices.length < depth + path.length

/-- Every vertex of the path leads to the vertex where the search stands, by induction
along the path.
-/
theorem walk_of_mem_path {g : Graph} {path : List Nat} {v u : Nat}
    (walk : (v :: path).IsChain (fun next previous => g.Edge previous next))
    (member : u ∈ path)
    : TransGen g.Edge u v := by
  induction path generalizing v with
  | nil => cases member
  | cons previous earlier ih =>
      obtain ⟨edge, before⟩ := List.isChain_cons_cons.mp walk
      rcases List.mem_cons.mp member with rfl | older
      · exact .single edge
      · exact (ih before older).tail edge

/-- The depth outlasts every path, since a path repeats no vertex. -/
theorem SearchPath.depth_pos {g : Graph} {depth : Nat} {path : List Nat} {v : Nat}
    (search : g.SearchPath depth path v)
    : 0 < depth := by
  have bound := length_le_of_inRange search.unique search.inRange
  have budget := search.budget
  omega

/-- Following an edge from a fresh vertex puts that vertex on the path. -/
theorem SearchPath.step {g : Graph} (inside : g.WellScoped) {depth : Nat} {path : List Nat}
    {v w : Nat} (search : g.SearchPath (depth + 1) path v) (fresh : v ∉ path)
    (edge : g.Edge v w)
    : g.SearchPath depth (v :: path) w where
  walk := List.isChain_cons_cons.mpr ⟨edge, search.walk⟩
  unique := List.nodup_cons.mpr ⟨fresh, search.unique⟩
  inRange := by
    intro u member
    rcases List.mem_cons.mp member with rfl | earlier
    · exact (inside edge).1
    · exact search.inRange u earlier
  budget := by
    have budget := search.budget
    simp only [List.length_cons]
    omega

/-- A fold that fails has a step that fails. -/
theorem exists_of_foldlM_eq_none {visit : List Nat → Nat → Option (List Nat)}
    {pending finished : List Nat} (failed : pending.foldlM visit finished = none)
    : ∃ v ∈ pending, ∃ before, visit before v = none := by
  induction pending generalizing finished with
  | nil => simp at failed
  | cons v rest ih =>
      cases first : visit finished v with
      | none => exact ⟨v, by simp, finished, first⟩
      | some middle =>
          rw [List.foldlM_cons, first] at failed
          obtain ⟨w, member, before, stopped⟩ := ih failed
          exact ⟨w, by simp [member], before, stopped⟩

/-- A failed visit has met a closed walk. Witness: induction on the depth; the search
stops at a vertex of its own path or below one of the successors.
-/
theorem closed_walk_of_visit {g : Graph} (inside : g.WellScoped) {depth : Nat}
    {path finished : List Nat} {v : Nat} (search : g.SearchPath depth path v)
    (failed : g.visit depth path finished v = none)
    : ∃ u, TransGen g.Edge u u := by
  induction depth generalizing path finished v with
  | zero => exact absurd search.depth_pos (by omega)
  | succ depth ih =>
      rw [visit] at failed
      split at failed
      · rename_i back
        exact ⟨v, walk_of_mem_path search.walk back⟩
      rename_i fresh
      split at failed
      · cases failed
      · obtain ⟨w, successor, before, stopped⟩ :=
          exists_of_foldlM_eq_none (Option.map_eq_none_iff.mp failed)
        exact ih (search.step inside fresh (mem_successors.mp successor)) stopped

-----------------------------------------------------------------------------------------
-- The search from every vertex decides whether there is a closed walk
-----------------------------------------------------------------------------------------

/-- A graph is cyclic exactly when some vertex has a walk back to itself.
Witness: a failed search has a closed walk, and a completed one has settled every vertex.
-/
theorem isCyclic_iff {g : Graph} (inside : g.WellScoped)
    : g.isCyclic = true ↔ ∃ v, TransGen g.Edge v v := by
  rw [isCyclic, Option.isNone_iff_eq_none]
  constructor
  · intro failed
    obtain ⟨v, _, before, stopped⟩ := exists_of_foldlM_eq_none failed
    have search : g.SearchPath (g.vertices.length + 1) [] v := {
      walk := .singleton v
      unique := List.nodup_nil
      inRange := by simp
      budget := by simp
    }
    exact closed_walk_of_visit inside search stopped
  · intro closed
    rcases closed with ⟨v, walk⟩
    rw [Option.eq_none_iff_forall_ne_some]
    intro result completed
    have completes : g.Completes [] (List.range g.vertices.length) result :=
      Completes.of_foldlM (fun settled visited => visit_completes settled visited) .nil completed
    obtain ⟨w, edge, _⟩ := TransGen.head'_iff.mp walk
    have member := completes.covered (List.mem_range.mpr (inside edge).1)
    exact completes.settled.no_closed_walk member walk

end WorkflowLint.Graph
