import WorkflowLint.Proofs.Yaml.MergedEntries

/-! The tree with all merge keys applied, told by structural recursion.
Merging along the stack succeeds where the recursion does, and gives the same tree up to the order
of the entries of its mappings.
-/

namespace WorkflowLint.Yaml

-----------------------------------------------------------------------------------------
-- Recursion
-----------------------------------------------------------------------------------------

namespace Merge

/-- The values of a mapping with its merge key applied are smaller than the mapping was. -/
theorem size_lt_of_resolved? {entries found : List (Node × Node)}
    (resolved : resolved? entries = some found) {e : Node × Node} (member : e ∈ found)
    : size e.2 < size (.mapping entries) := by
  obtain ⟨others, applied, order⟩ := (applyHere_agree entries).exists_of_some resolved
  refine size_lt_of_mem_children (u := .mapping others) ?_ ?_
  · simp only [visited, applied, bind, Except.bind]
  · exact List.mem_map_of_mem (order.mem_iff.mpr member)

end Merge

/-- Applies all merge keys of a tree: in a mapping its own one first, then those in each of its
values, and elsewhere those in the nodes right below.
-/
def Node.merged? : Node → Option Node
  | .mapping entries =>
      match _resolved : Merge.resolved? entries with
      | none => none
      | some found => do
          let found ← found.attach.mapM fun e => (merged? e.1.2).map (Prod.mk e.1.1)
          some (.mapping found)
  | .sequence items => do
      let items ← items.attach.mapM fun item => merged? item.1
      some (.sequence items)
  | .tagged tag content => do
      let content ← merged? content
      some (.tagged tag content)
  | scalar => some scalar
termination_by v => Merge.size v
decreasing_by
  · exact Merge.size_lt_of_resolved? ‹_› e.2
  · exact Merge.size_lt_of_mem_children rfl item.2
  · exact Merge.size_lt_of_mem_children rfl List.mem_cons_self

/-- Going through the items of a list with the knowledge that they are its items. -/
theorem attach_mapM_eq {α β : Type} (read : α → Option β) (items : List α)
    : (items.attach.mapM fun item => read item.1) = items.mapM read := by
  rw [List.mapM_subtype (g := read) fun _ _ => rfl, List.unattach_attach]

namespace Node

theorem merged?_mapping (entries : List (Node × Node))
    : (Node.mapping entries).merged?
        = (Merge.resolved? entries).bind fun found =>
            (found.mapM fun e : Node × Node => e.2.merged?.map (Prod.mk e.1)).bind fun found =>
              some (.mapping found) := by
  rw [merged?]
  split
  case h_1 failed =>
    rw [failed]
    rfl
  case h_2 found resolved =>
    rw [resolved, attach_mapM_eq fun e : Node × Node => (merged? e.2).map (Prod.mk e.1)]
    rfl

theorem merged?_sequence (items : List Node)
    : (Node.sequence items).merged?
        = (items.mapM merged?).bind fun items => some (.sequence items) := by
  rw [merged?, attach_mapM_eq]
  rfl

theorem merged?_tagged (tag : String) (content : Node)
    : (Node.tagged tag content).merged?
        = content.merged?.bind fun content => some (.tagged tag content) := by
  rw [merged?]
  rfl

-----------------------------------------------------------------------------------------
-- Orders
-----------------------------------------------------------------------------------------

/-- The same node up to the order of the entries of mappings, at every depth. -/
inductive Rearranged : Node → Node → Prop where
  | refl (v : Node) : Rearranged v v
  | sequence {vs ws : List Node} (items : List.Forall₂ Rearranged vs ws)
    : Rearranged (.sequence vs) (.sequence ws)
  | mapping {found middle others : List (Node × Node)}
    (keys : found.map Prod.fst = middle.map Prod.fst)
    (values : List.Forall₂ Rearranged (found.map Prod.snd) (middle.map Prod.snd))
    (order : middle.Perm others)
    : Rearranged (.mapping found) (.mapping others)
  | tagged {tag : String} {v w : Node} (content : Rearranged v w)
    : Rearranged (.tagged tag v) (.tagged tag w)

end Node

namespace Merge

-----------------------------------------------------------------------------------------
-- Agreement
-----------------------------------------------------------------------------------------

section Agreement

variable {visit : Node → Except MergeFault Node} {merge : Node → Option Node}

/-- Visiting nodes from the last to the first agrees with merging them in their order. -/
theorem fromEnd_agree {nodes : List Node}
    (each : ∀ v ∈ nodes, Agree Node.Rearranged (visit v) (merge v))
    : Agree (List.Forall₂ Node.Rearranged) (fromEnd visit nodes) (nodes.mapM merge) := by
  induction nodes with
  | nil => exact .succeed .nil
  | cons v more ih =>
      obtain ⟨here, each⟩ := List.forall_mem_cons.mp each
      rw [List.mapM_cons]
      exact here.opposite (ih each) fun _ _ _ _ same later => .cons same later

/-- So it is with the values of entries, whose keys stay. -/
theorem fromEnd_values_agree {entries : List (Node × Node)}
    (each : ∀ e ∈ entries, Agree Node.Rearranged (visit e.2) (merge e.2))
    : Agree
        (fun below found =>
          entries.map Prod.fst = found.map Prod.fst
          ∧ List.Forall₂ Node.Rearranged below (found.map Prod.snd))
        (fromEnd visit (entries.map Prod.snd))
        (entries.mapM fun e => (merge e.2).map (Prod.mk e.1)) := by
  induction entries with
  | nil => exact .succeed ⟨rfl, .nil⟩
  | cons e more ih =>
      obtain ⟨here, each⟩ := List.forall_mem_cons.mp each
      have value
          : Agree (fun v found => e.1 = found.1 ∧ Node.Rearranged v found.2) (visit e.2)
              ((merge e.2).map (Prod.mk e.1)) := by
        exact here.map fun _ _ same => ⟨rfl, same⟩
      rw [List.mapM_cons]
      refine value.opposite (ih each) ?_
      rintro v found below others ⟨key, same⟩ ⟨keys, later⟩
      exact ⟨by rw [List.map_cons, List.map_cons, key, keys], .cons same later⟩

end Agreement

end Merge

namespace Node

open Merge

/-- The stack and the recursion agree, by induction on the size of the node. -/
theorem mergeKeys_agree (v : Node) : Agree Rearranged v.mergeKeys v.merged? := by
  induction bound : size v using Nat.strongRecOn generalizing v with
  | ind n ih =>
      -- What stands below a visited node is smaller than the node was.
      have each : ∀ u, visited v = .ok u → ∀ child ∈ children u,
          Agree Rearranged child.mergeKeys child.merged? :=
        fun u visit child member => ih _ (bound ▸ size_lt_of_mem_children visit member) child rfl
      cases v with
      | null | bool | int | float | string =>
          rw [merged?, mergeKeys_eq_self rfl (List.forall_mem_nil _)]
          exact .succeed (.refl _)
          all_goals exact nofun
      | sequence items =>
          rw [mergeKeys_sequence, merged?_sequence]
          refine (fromEnd_agree (each _ rfl)).bind fun _ _ _ _ same => ?_
          exact .succeed (.sequence same)
      | tagged tag content =>
          rw [mergeKeys_tagged, merged?_tagged]
          refine (each _ rfl content List.mem_cons_self).bind fun _ _ _ _ same => ?_
          exact .succeed (.tagged same)
      | mapping entries =>
          rw [mergeKeys_mapping, merged?_mapping]
          refine (applyHere_agree entries).bind fun found others applied _ order => ?_
          have values : ∀ e ∈ found, Agree Rearranged e.2.mergeKeys e.2.merged? := by
            refine fun e member => each (.mapping found) ?_ _ (List.mem_map_of_mem member)
            simp only [visited, applied, bind, Except.bind]
          refine ((fromEnd_values_agree values).reorder order).bind ?_
          intro below results merged _ same
          obtain ⟨middle, ⟨keys, alike⟩, order⟩ := same
          have count := (forall₂_of_fromEnd merged).length_eq
          rw [List.length_map] at count
          refine .succeed (.mapping ?_ ?_ order)
          · rw [map_fst_zip_values count.symm, keys]
          · rwa [map_snd_zip_values count.symm]

-----------------------------------------------------------------------------------------
-- Precedence
-----------------------------------------------------------------------------------------

/-- A mapping keeps its keys when its values are merged. -/
theorem mem_zip_iff {found : List (Node × Node)} {below : List Node}
    (merged : List.Forall₂ (fun v w => mergeKeys v = .ok w) (found.map Prod.snd) below) {k w : Node}
    : (k, w) ∈ (found.map Prod.fst).zip below ↔ ∃ v, (k, v) ∈ found ∧ v.mergeKeys = .ok w := by
  induction found generalizing below with
  | nil => simp
  | cons e more ih =>
      obtain ⟨key, v⟩ := e
      cases merged with
      | @cons _ w' _ below here later =>
          have only : w = w' ↔ v.mergeKeys = .ok w := by
            rw [here, Except.ok.injEq, eq_comm]
          simp only [List.map_cons, List.zip_cons_cons, List.mem_cons, Prod.mk.injEq, ih later]
          grind

section Merged

variable {entries merged result : List (Node × Node)}

/-- Merging a mapping gives a mapping, and its merge key brings entries in. -/
theorem exists_brought_of_mergeKeys {w : Node} (done : (Node.mapping entries).mergeKeys = .ok w)
    : ∃ merged result, mergedEntries? entries = some merged ∧ w = .mapping result := by
  obtain ⟨found, below, rfl, applied, _⟩ := exists_of_mergeKeys_mapping done
  obtain ⟨merged, brought, _⟩ := exists_brought_of_applyHere applied
  exact ⟨merged, _, brought, rfl⟩

/-- The entries that are found in a mapping are those that count. -/
theorem mem_applyHere_iff {found : List (Node × Node)} {e : Node × Node}
    (brought : mergedEntries? entries = some merged) (applied : applyHere entries = .ok found)
    : e ∈ found ↔ Counts (ownEntries entries) merged e := by
  obtain ⟨_, brought', order⟩ := exists_brought_of_applyHere applied
  cases brought.symm.trans brought'
  rw [order.mem_iff, mem_complete_iff]

/-- Which entries a merged mapping has: those that count, with their merge keys applied. -/
theorem mem_mergeKeys_iff (brought : mergedEntries? entries = some merged)
    (done : (Node.mapping entries).mergeKeys = .ok (.mapping result)) {k w : Node}
    : (k, w) ∈ result
        ↔ ∃ v, Counts (ownEntries entries) merged (k, v) ∧ v.mergeKeys = .ok w := by
  obtain ⟨found, below, same, applied, values⟩ := exists_of_mergeKeys_mapping done
  cases same
  simp only [mem_zip_iff values, mem_applyHere_iff brought applied]

/-- The values of the entries that count are merged as well. -/
theorem exists_of_counts (brought : mergedEntries? entries = some merged)
    (done : (Node.mapping entries).mergeKeys = .ok (.mapping result)) {e : Node × Node}
    (counts : Counts (ownEntries entries) merged e)
    : ∃ w, e.2.mergeKeys = .ok w := by
  obtain ⟨found, below, _, applied, values⟩ := exists_of_mergeKeys_mapping done
  have member := (mem_applyHere_iff brought applied).mpr counts
  obtain ⟨w, _, value⟩ := exists_of_forall₂ values (List.mem_map_of_mem member)
  exact ⟨w, value⟩

end Merged

/-- Some mapping of the tree has a merge key. -/
inductive HasMergeKey : Node → Prop where
  | here {entries : List (Node × Node)} {e : Node × Node} (member : e ∈ entries)
    (merges : isMergeKey e.1 = true)
    : HasMergeKey (.mapping entries)
  | inside {v child : Node} (member : child ∈ children v) (merges : HasMergeKey child)
    : HasMergeKey v

/-- A tree without merge keys stays as it is, by induction on its size. -/
theorem mergeKeys_of_not_hasMergeKey {v : Node} (plain : ¬v.HasMergeKey)
    : v.mergeKeys = .ok v := by
  induction bound : size v using Nat.strongRecOn generalizing v with
  | ind n ih =>
      have visit : visited v = .ok v := by
        cases v with
        | mapping entries =>
            have absent : ∀ e ∈ entries, isMergeKey e.1 = false :=
              fun e member => Bool.eq_false_iff.mpr fun merges => plain (.here member merges)
            simp only [visited, applyHere_of_absent absent, bind, Except.bind]
        | null | bool | int | float | string | sequence | tagged => rfl
      refine mergeKeys_eq_self visit fun child member => ?_
      have smaller := bound ▸ size_lt_of_mem_children visit member
      exact ih _ smaller (fun merges => plain (.inside member merges)) rfl

/-- What merging does to a node. -/
structure Merging (v : Node) : Prop where
  /-- The walk along the stack succeeds where the recursion does. -/
  succeeds : (∃ w, v.mergeKeys = .ok w) ↔ ∃ w, v.merged? = some w
  /-- Both give the same node, up to the order of entries. -/
  rearranged : ∀ w w', v.mergeKeys = .ok w → v.merged? = some w' → Rearranged w w'
  /-- Own entries count before merged ones, and earlier merged ones before later ones. -/
  precedence
    : ∀ entries merged result,
        v = .mapping entries
        → mergedEntries? entries = some merged
        → v.mergeKeys = .ok (.mapping result)
        → ∀ k w,
            (k, w) ∈ result
            ↔ ∃ u, Counts (ownEntries entries) merged (k, u) ∧ u.mergeKeys = .ok w
  /-- Without a merge key in it a node stays as it is. -/
  unchanged : ¬v.HasMergeKey → v.mergeKeys = .ok v

/-- The walk along the stack is the recursion. -/
theorem mergeKeys_merging (v : Node) : v.Merging where
  succeeds := by
    constructor
    · rintro ⟨w, done⟩
      obtain ⟨w', found, _⟩ := (mergeKeys_agree v).exists_of_ok done
      exact ⟨w', found⟩
    · rintro ⟨w', found⟩
      obtain ⟨w, done, _⟩ := (mergeKeys_agree v).exists_of_some found
      exact ⟨w, done⟩
  rearranged := by
    intro w w' done found
    obtain ⟨_, found', same⟩ := (mergeKeys_agree v).exists_of_ok done
    cases found.symm.trans found'
    exact same
  precedence := by
    rintro entries merged result rfl brought done k w
    exact mem_mergeKeys_iff brought done
  unchanged := mergeKeys_of_not_hasMergeKey

end Node

end WorkflowLint.Yaml
