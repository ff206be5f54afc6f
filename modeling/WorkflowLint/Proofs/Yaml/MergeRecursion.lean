import Mathlib.Data.List.Induction
import WorkflowLint.Proofs.Outcomes
import WorkflowLint.Yaml.Merge

/-! Merging along a stack of addresses is merging by recursion: a node is visited, then the nodes
below it are merged, the last of them first. What is merged into a mapping was below it, so as many
visits as the tree has nodes are enough.
-/

namespace WorkflowLint.Yaml

namespace Merge

-----------------------------------------------------------------------------------------
-- Children
-----------------------------------------------------------------------------------------

section Children

variable {v w new : Node} {below : List Node} {entries : List (Node × Node)} {address : Address}

/-- Entries that are given new values keep their keys. -/
theorem map_fst_zip_values (same : below.length = entries.length)
    : ((entries.map Prod.fst).zip below).map Prod.fst = entries.map Prod.fst := by
  refine List.map_fst_zip ?_
  rw [List.length_map]
  exact Nat.le_of_eq same.symm

theorem map_snd_zip_values (same : below.length = entries.length)
    : ((entries.map Prod.fst).zip below).map Prod.snd = below := by
  refine List.map_snd_zip ?_
  rw [List.length_map]
  exact Nat.le_of_eq same

theorem withChildren_children (v : Node) : withChildren v (children v) = v := by
  cases v with
  | mapping entries => rw [withChildren, children, ← List.zip_of_prod rfl rfl]
  | null | bool | int | float | string | sequence | tagged => rfl

theorem children_withChildren (same : below.length = (children v).length)
    : children (withChildren v below) = below := by
  cases v with
  | null | bool | int | float | string => exact (List.length_eq_zero_iff.mp same).symm
  | sequence => rfl
  | mapping entries =>
      rw [children, List.length_map] at same
      rw [withChildren, children, map_snd_zip_values same]
  | tagged tag content =>
      obtain ⟨only, rfl⟩ := List.length_eq_one_iff.mp same
      rfl

/-- Only the last children that a node was given count. -/
theorem withChildren_withChildren {others : List Node}
    (same : below.length = (children v).length) (alike : others.length = (children v).length)
    : withChildren (withChildren v below) others = withChildren v others := by
  cases v with
  | null | bool | int | float | string | sequence => rfl
  | mapping entries =>
      rw [children, List.length_map] at same
      rw [withChildren, withChildren, withChildren, map_fst_zip_values same]
  | tagged tag content =>
      obtain ⟨other, rfl⟩ := List.length_eq_one_iff.mp alike
      rfl

theorem at?_append (address more : Address) (v : Node)
    : at? (address ++ more) v = (at? address v).bind (at? more) := by
  induction address generalizing v with
  | nil => rfl
  | cons i address ih =>
      rw [List.cons_append, at?, at?, Option.bind_assoc]
      exact Option.bind_congr fun child _ => ih child

/-- What is put below an address is put into the node there. -/
theorem put_append (found : at? address v = some w) (more : Address)
    : put new (address ++ more) v = put (put new more w) address v := by
  induction address generalizing v with
  | nil =>
      cases found
      rfl
  | cons i address ih =>
      obtain ⟨child, here, found⟩ := Option.bind_eq_some_iff.mp found
      rw [List.cons_append, put, put]
      congr 1
      apply List.ext_getElem?
      intro j
      rw [List.getElem?_modify, List.getElem?_modify]
      by_cases same : i = j
      · cases same
        simp [here, ih found]
      · simp only [if_neg same]

end Children

-----------------------------------------------------------------------------------------
-- Gaps
-----------------------------------------------------------------------------------------

/-- A tree around a gap, which is at the address. -/
structure Gap (around : Node → Node) (address : Address) : Prop where
  read : ∀ v, at? address (around v) = some v
  write : ∀ v new, put new address (around v) = around new

theorem Gap.top : Gap id [] :=
  ⟨fun _ => rfl, fun _ _ => rfl⟩

/-- A child of a node in a gap is itself in a gap. -/
theorem Gap.child {around : Node → Node} {address : Address} (gap : Gap around address) {v : Node}
    {front back : List Node} (count : (children v).length = front.length + 1 + back.length)
    : Gap (fun child => around (withChildren v (front ++ child :: back)))
        (address ++ [front.length]) := by
  have same (child : Node) : (front ++ child :: back).length = (children v).length := by
    rw [count, List.length_append, List.length_cons]
    omega
  constructor
  case read =>
    intro child
    rw [at?_append, gap.read, Option.bind_some, at?, children_withChildren (same child),
      List.getElem?_append_right (Nat.le_refl _), Nat.sub_self]
    rfl
  case write =>
    intro child new
    have changed
        : (front ++ child :: back).modify front.length (put new []) = front ++ new :: back := by
      simp [List.modify_eq_take_cons_drop, put]
    rw [put_append (gap.read _), gap.write, put, children_withChildren (same child), changed,
      withChildren_withChildren (same child) (same new)]

-----------------------------------------------------------------------------------------
-- Sizes
-----------------------------------------------------------------------------------------

section Sizes

variable {v : Node} {nodes more : List Node} {entries found : List (Node × Node)}

theorem sizeOfEntries_eq (entries : List (Node × Node))
    : sizeOfEntries entries = sizeOfItems (entries.map Prod.snd) := by
  induction entries with
  | nil => rfl
  | cons e more ih => rw [sizeOfEntries, ih, List.map_cons, sizeOfItems]

theorem size_eq (v : Node) : size v = sizeOfItems (children v) + 1 := by
  cases v with
  | null | bool | int | float | string => rfl
  | sequence items => rw [size, children]
  | mapping entries => rw [size, sizeOfEntries_eq, children]
  | tagged tag content => rw [size, children, sizeOfItems, sizeOfItems, Nat.add_zero]

theorem sizeOfItems_append (nodes more : List Node)
    : sizeOfItems (nodes ++ more) = sizeOfItems nodes + sizeOfItems more := by
  induction nodes with
  | nil => exact (Nat.zero_add _).symm
  | cons v nodes ih => rw [List.cons_append, sizeOfItems, ih, sizeOfItems, Nat.add_assoc]

theorem sizeOfItems_perm (order : nodes.Perm more) : sizeOfItems nodes = sizeOfItems more := by
  induction order with
  | nil => rfl
  | cons v _ ih => rw [sizeOfItems, sizeOfItems, ih]
  | swap v w more => simp only [sizeOfItems, Nat.add_left_comm]
  | trans _ _ first second => exact first.trans second

theorem size_le_sizeOfItems (member : v ∈ nodes) : size v ≤ sizeOfItems nodes := by
  obtain ⟨front, back, rfl⟩ := List.append_of_mem member
  rw [sizeOfItems_append, sizeOfItems]
  omega

theorem sizeOfEntries_append (entries more : List (Node × Node))
    : sizeOfEntries (entries ++ more) = sizeOfEntries entries + sizeOfEntries more := by
  rw [sizeOfEntries_eq, List.map_append, sizeOfItems_append, sizeOfEntries_eq, sizeOfEntries_eq]

theorem sizeOfEntries_perm (order : entries.Perm found)
    : sizeOfEntries entries = sizeOfEntries found := by
  rw [sizeOfEntries_eq, sizeOfEntries_eq, sizeOfItems_perm (order.map _)]

end Sizes

-----------------------------------------------------------------------------------------
-- Merge keys of a mapping
-----------------------------------------------------------------------------------------

/-- A mapping has no merge key, or its first one stands between other entries. -/
theorem mergeEntry_cases (entries : List (Node × Node))
    : (∀ e ∈ entries, isMergeKey e.1 = false)
      ∨ ∃ front key source back,
          entries = front ++ (key, source) :: back
          ∧ isMergeKey key = true
          ∧ ∀ e ∈ front, isMergeKey e.1 = false := by
  induction entries with
  | nil => exact .inl (List.forall_mem_nil _)
  | cons e more ih =>
      cases here : isMergeKey e.1 with
      | true => exact .inr ⟨[], e.1, e.2, more, rfl, here, List.forall_mem_nil _⟩
      | false =>
          obtain absent | ⟨front, key, source, back, rfl, merges, before⟩ := ih
          · exact .inl (List.forall_mem_cons.mpr ⟨here, absent⟩)
          · exact .inr ⟨e :: front, key, source, back, rfl, merges,
              List.forall_mem_cons.mpr ⟨here, before⟩⟩

section Keys

variable {entries front back : List (Node × Node)} {key source : Node}

theorem applyHere_of_absent (absent : ∀ e ∈ entries, isMergeKey e.1 = false)
    : applyHere entries = .ok entries := by
  rw [applyHere, List.findIdx?_eq_none_iff.mpr absent]

theorem applyHere_of_found (merges : isMergeKey key = true)
    (before : ∀ e ∈ front, isMergeKey e.1 = false)
    : applyHere (front ++ (key, source) :: back)
        = (sources source).bind fun maps =>
            .ok (maps.foldl addMissing
              (takeOut front.length (front ++ (key, source) :: back))) := by
  have index
      : (front ++ (key, source) :: back).findIdx? (fun e => isMergeKey e.1)
        = some front.length := by
    rw [List.findIdx?_append, List.findIdx?_eq_none_iff.mpr before, List.findIdx?_cons, merges]
    simp
  have at_index : (front ++ (key, source) :: back)[front.length]? = some (key, source) := by
    rw [List.getElem?_append_right (Nat.le_refl _), Nat.sub_self]
    rfl
  rw [applyHere, index]
  simp only [at_index]
  rfl

/-- Taking out an entry leaves the others, in some order. -/
theorem takeOut_perm (front : List (Node × Node)) (e : Node × Node) (back : List (Node × Node))
    : (takeOut front.length (front ++ e :: back)).Perm (front ++ back) := by
  induction back using List.reverseRecOn with
  | nil => simp [takeOut]
  | append_singleton back last _ =>
      have set : (front ++ e :: (back ++ [last])).set front.length last
          = (front ++ last :: back) ++ [last] := by
        simp
      have final : (front ++ e :: (back ++ [last])).getLast? = some last := by
        rw [← List.cons_append, ← List.append_assoc, List.getLast?_concat]
      rw [takeOut, final]
      simp only [set, List.dropLast_concat]
      rw [← List.append_assoc]
      exact List.perm_middle.trans (List.perm_append_singleton _ _).symm

/-- The entries that are added are some of those that are merged in. -/
theorem sizeOfEntries_addMissing_le (entries source : List (Node × Node))
    : sizeOfEntries (addMissing entries source) ≤ sizeOfEntries entries + sizeOfEntries source := by
  induction source generalizing entries with
  | nil => exact Nat.le_refl _
  | cons e more ih =>
      obtain ⟨k, v⟩ := e
      rw [addMissing, List.foldl_cons, sizeOfEntries]
      refine Nat.le_trans (ih _) ?_
      split
      · omega
      · rw [sizeOfEntries_append, sizeOfEntries, sizeOfEntries]
        omega

/-- Adding the entries of one mapping after another is adding those of all. -/
theorem foldl_addMissing_eq (own : List (Node × Node)) (maps : List (List (Node × Node)))
    : maps.foldl addMissing own = addMissing own maps.flatten := by
  rw [addMissing, List.foldl_flatten]
  rfl

end Keys

/-- A merge key refers to a mapping or to a list of mappings, and to nothing else. -/
theorem sources_eq_ok_iff {source : Node} {maps : List (List (Node × Node))}
    : sources source = .ok maps
      ↔ (∃ entries, source = .mapping entries ∧ maps = [entries])
        ∨ source = .sequence (maps.map Node.mapping) := by
  cases source with
  | null | bool | int | float | string | tagged => simp [sources]
  | mapping entries => simp [sources, eq_comm]
  | sequence items =>
      simp only [sources, reduceCtorEq, false_and, exists_false, false_or, Node.sequence.injEq]
      refine mapM_eq_ok_iff fun item entries => ?_
      cases item <;> simp

/-- The merged entries were below the merge key. -/
theorem sizeOfEntries_flatten_le {source : Node} {maps : List (List (Node × Node))}
    (referred : sources source = .ok maps)
    : sizeOfEntries maps.flatten ≤ size source := by
  obtain ⟨entries, rfl, rfl⟩ | rfl := sources_eq_ok_iff.mp referred
  · rw [List.flatten_singleton, size]
    exact Nat.le_succ _
  · rw [size]
    induction maps with
    | nil => exact Nat.zero_le _
    | cons entries more ih =>
        have later := ih (sources_eq_ok_iff.mpr (.inr rfl))
        rw [List.flatten_cons, sizeOfEntries_append, List.map_cons, sizeOfItems, size]
        omega

/-- Merging into a mapping makes the tree no larger: what a merge key brings in was under it. -/
theorem sizeOfEntries_applyHere_le {entries found : List (Node × Node)}
    (applied : applyHere entries = .ok found)
    : sizeOfEntries found ≤ sizeOfEntries entries := by
  obtain absent | ⟨front, key, source, back, rfl, merges, before⟩ := mergeEntry_cases entries
  · rw [applyHere_of_absent absent, Except.ok.injEq] at applied
    exact Nat.le_of_eq (congrArg sizeOfEntries applied.symm)
  · rw [applyHere_of_found merges before] at applied
    obtain ⟨maps, referred, applied⟩ := exists_of_bind_eq_ok applied
    cases applied
    have own := sizeOfEntries_perm (takeOut_perm front (key, source) back)
    have added := sizeOfEntries_addMissing_le
      (takeOut front.length (front ++ (key, source) :: back)) maps.flatten
    have below := sizeOfEntries_flatten_le referred
    rw [foldl_addMissing_eq, sizeOfEntries_append, sizeOfEntries]
    rw [sizeOfEntries_append] at own
    omega

theorem size_visited_le {v u : Node} (visit : visited v = .ok u) : size u ≤ size v := by
  cases v with
  | mapping entries =>
      obtain ⟨found, applied, visit⟩ := exists_of_bind_eq_ok visit
      cases visit
      rw [size, size]
      exact Nat.succ_le_succ (sizeOfEntries_applyHere_le applied)
  | null | bool | int | float | string | sequence | tagged =>
      cases visit
      exact Nat.le_refl _

-----------------------------------------------------------------------------------------
-- Walks
-----------------------------------------------------------------------------------------

/-- Visits nodes from the last to the first. -/
def fromEnd (visit : Node → Except MergeFault Node) : List Node → Except MergeFault (List Node)
  | [] => .ok []
  | v :: more => do
      let more ← fromEnd visit more
      let v ← visit v
      .ok (v :: more)

theorem fromEnd_concat (visit : Node → Except MergeFault Node) (front : List Node) (v : Node)
    : fromEnd visit (front ++ [v])
      = (visit v).bind fun w => (fromEnd visit front).bind fun below => .ok (below ++ [w]) := by
  induction front with
  | nil => cases visited : visit v <;> simp [fromEnd, visited, bind, Except.bind]
  | cons u more ih =>
      rw [List.cons_append, fromEnd, ih, fromEnd]
      cases visit v <;> cases fromEnd visit more <;> cases visit u <;> rfl

theorem fromEnd_eq_self {visit : Node → Except MergeFault Node} {nodes : List Node}
    (keeps : ∀ v ∈ nodes, visit v = .ok v)
    : fromEnd visit nodes = .ok nodes := by
  induction nodes with
  | nil => rfl
  | cons v more ih =>
      obtain ⟨here, keeps⟩ := List.forall_mem_cons.mp keeps
      simp only [fromEnd, ih keeps, here, bind, Except.bind]

/-- Each node has its own result. -/
theorem forall₂_of_fromEnd {visit : Node → Except MergeFault Node} {nodes below : List Node}
    (merged : fromEnd visit nodes = .ok below)
    : List.Forall₂ (fun v w => visit v = .ok w) nodes below := by
  induction nodes generalizing below with
  | nil =>
      cases merged
      exact .nil
  | cons v more ih =>
      obtain ⟨others, later, merged⟩ := exists_of_bind_eq_ok merged
      obtain ⟨w, here, merged⟩ := exists_of_bind_eq_ok merged
      cases merged
      exact .cons here (ih later)

/-- The walk serves a node on its stack as a visit would, and goes on with what is left. A node may
take as many visits as its size: `fuel` is what was left for the others before it.
-/
def Serves (visit : Node → Except MergeFault Node) (v : Node) : Prop :=
  ∀ {around : Node → Node} {address : Address}, Gap around address →
    ∀ (pending : List Address) (fuel : Nat),
      ∃ left ≥ fuel,
        walk (size v + fuel) (around v) (address :: pending)
          = (visit v).bind fun w => walk left (around w) pending

/-- The walk serves the children of a node from the last to the first, by induction on how many are
still to be served. -/
theorem walk_children {visit : Node → Except MergeFault Node} {around : Node → Node}
    {address : Address} (gap : Gap around address) {v : Node} {front : List Node}
    (each : ∀ child ∈ front, Serves visit child) (back : List Node)
    (count : (children v).length = front.length + back.length) (pending : List Address)
    (fuel : Nat)
    : ∃ left ≥ fuel,
        walk (sizeOfItems front + fuel) (around (withChildren v (front ++ back)))
            (childAddresses address front.length ++ pending)
          = (fromEnd visit front).bind fun below =>
              walk left (around (withChildren v (below ++ back))) pending := by
  induction front using List.reverseRecOn generalizing back fuel with
  | nil => exact ⟨fuel, Nat.le_refl _, by simp [sizeOfItems, childAddresses, fromEnd, Except.bind]⟩
  | append_singleton front child ih =>
      have count' : (children v).length = front.length + 1 + back.length := by
        rw [count, List.length_append, List.length_singleton]
      have sizes
          : sizeOfItems (front ++ [child]) + fuel = size child + (sizeOfItems front + fuel) := by
        rw [sizeOfItems_append, sizeOfItems, sizeOfItems]
        omega
      -- The last child is on top of the stack.
      have addresses
          : childAddresses address (front ++ [child]).length ++ pending
            = (address ++ [front.length])
              :: (childAddresses address front.length ++ pending) := by
        simp [childAddresses, List.range_succ]
      obtain ⟨left, enough, served⟩ :=
        each child (List.mem_append_right _ List.mem_cons_self) (gap.child count')
          (childAddresses address front.length ++ pending) (sizeOfItems front + fuel)
      rw [sizes, addresses, List.append_assoc, List.singleton_append, served, fromEnd_concat]
      cases visit child with
      | error e => exact ⟨fuel, Nat.le_refl _, rfl⟩
      | ok w =>
          have each' : ∀ child ∈ front, Serves visit child :=
            fun child member => each child (List.mem_append_left _ member)
          obtain ⟨rest, enough', served'⟩ :=
            ih each' (w :: back) (by rw [count', List.length_cons]; omega)
              (left - sizeOfItems front)
          -- What the last child has left is enough for the others.
          have budget : sizeOfItems front + (left - sizeOfItems front) = left := by omega
          rw [budget] at served'
          refine ⟨rest, by omega, ?_⟩
          simp only [Except.bind]
          rw [served']
          cases fromEnd visit front <;> simp [Except.bind]

/-- A node on the stack is visited, and the nodes below it are served. -/
theorem walk_node {visit : Node → Except MergeFault Node} {v : Node}
    (each : ∀ u, visited v = .ok u → ∀ child ∈ children u, Serves visit child)
    {around : Node → Node} {address : Address} (gap : Gap around address)
    (pending : List Address) (fuel : Nat)
    : ∃ left ≥ fuel,
        walk (size v + fuel) (around v) (address :: pending)
          = (visited v).bind fun u => (fromEnd visit (children u)).bind fun below =>
              walk left (around (withChildren u below)) pending := by
  have step
      : walk (size v + fuel) (around v) (address :: pending)
        = (visited v).bind fun u =>
            walk (sizeOfItems (children v) + fuel) (around u)
              (childAddresses address (children u).length ++ pending) := by
    rw [size_eq, Nat.add_right_comm, walk]
    simp only [gap.read, gap.write]
    rfl
  rw [step]
  cases visit_v : visited v with
  | error e => exact ⟨fuel, Nat.le_refl _, rfl⟩
  | ok u =>
      have smaller := size_visited_le visit_v
      rw [size_eq, size_eq v] at smaller
      obtain ⟨left, enough, served⟩ :=
        walk_children gap (each u visit_v) [] rfl pending
          (sizeOfItems (children v) + fuel - sizeOfItems (children u))
      have budget
          : sizeOfItems (children u) + (sizeOfItems (children v) + fuel - sizeOfItems (children u))
            = sizeOfItems (children v) + fuel := by
        omega
      rw [budget, List.append_nil, withChildren_children] at served
      simp only [List.append_nil] at served
      exact ⟨left, by omega, served⟩

/-- Merges a node, given what merges the nodes below it. -/
def mergeBy (visit : Node → Except MergeFault Node) (v : Node) : Except MergeFault Node := do
  let u ← visited v
  let below ← fromEnd visit (children u)
  .ok (withChildren u below)

theorem size_lt_of_child {v child : Node} (member : child ∈ children v) : size child < size v := by
  rw [size_eq v]
  exact Nat.lt_succ_of_le (size_le_sizeOfItems member)

/-- The children of a visited node are smaller than the node was. -/
theorem size_lt_of_mem_children {v u child : Node} (visit : visited v = .ok u)
    (member : child ∈ children u)
    : size child < size v :=
  Nat.lt_of_lt_of_le (size_lt_of_child member) (size_visited_le visit)

/-- The walk serves each node by merging it, by induction on the size of the node. -/
theorem serves_mergeKeys (v : Node)
    : Serves Node.mergeKeys v ∧ v.mergeKeys = mergeBy Node.mergeKeys v := by
  induction bound : size v using Nat.strongRecOn generalizing v with
  | ind n ih =>
      have each : ∀ u, visited v = .ok u → ∀ child ∈ children u, Serves Node.mergeKeys child :=
        fun u visit child member =>
          (ih _ (bound ▸ size_lt_of_mem_children visit member) child rfl).1
      have merged : v.mergeKeys = mergeBy Node.mergeKeys v := by
        obtain ⟨left, _, served⟩ := walk_node each Gap.top [] 0
        rw [Node.mergeKeys]
        refine served.trans ?_
        rw [mergeBy]
        cases left <;> rfl
      refine ⟨?_, merged⟩
      intro around address gap pending fuel
      obtain ⟨left, enough, served⟩ := walk_node each gap pending fuel
      refine ⟨left, enough, ?_⟩
      rw [served, merged, mergeBy]
      cases visited v with
      | error e => rfl
      | ok u =>
          cases below : fromEnd Node.mergeKeys (children u) <;> simp [bind, Except.bind, below]

end Merge

namespace Node

/-- The walk merges as the recursion does. -/
theorem mergeKeys_eq (v : Node) : v.mergeKeys = Merge.mergeBy mergeKeys v :=
  (Merge.serves_mergeKeys v).2

theorem mergeKeys_sequence (items : List Node)
    : (Node.sequence items).mergeKeys
        = (Merge.fromEnd mergeKeys items).bind fun below => .ok (.sequence below) :=
  mergeKeys_eq _

theorem mergeKeys_mapping (entries : List (Node × Node))
    : (Node.mapping entries).mergeKeys
        = (Merge.applyHere entries).bind fun found =>
            (Merge.fromEnd mergeKeys (found.map Prod.snd)).bind fun below =>
              .ok (.mapping ((found.map Prod.fst).zip below)) := by
  rw [mergeKeys_eq, Merge.mergeBy, Merge.visited]
  cases Merge.applyHere entries <;> rfl

theorem mergeKeys_tagged (tag : String) (content : Node)
    : (Node.tagged tag content).mergeKeys
        = content.mergeKeys.bind fun content => .ok (.tagged tag content) := by
  rw [mergeKeys_eq, Merge.mergeBy]
  simp only [Merge.visited, Merge.children, Merge.fromEnd, bind, Except.bind]
  cases content.mergeKeys <;> rfl

theorem exists_of_mergeKeys_sequence {items : List Node} {w : Node}
    (done : (Node.sequence items).mergeKeys = .ok w)
    : ∃ below,
        w = .sequence below ∧ List.Forall₂ (fun v w => v.mergeKeys = .ok w) items below := by
  rw [mergeKeys_sequence] at done
  obtain ⟨below, merged, done⟩ := exists_of_bind_eq_ok done
  cases done
  exact ⟨below, rfl, Merge.forall₂_of_fromEnd merged⟩

theorem exists_of_mergeKeys_tagged {tag : String} {content w : Node}
    (done : (Node.tagged tag content).mergeKeys = .ok w)
    : ∃ below, w = .tagged tag below ∧ content.mergeKeys = .ok below := by
  rw [mergeKeys_tagged] at done
  obtain ⟨below, merged, done⟩ := exists_of_bind_eq_ok done
  cases done
  exact ⟨below, rfl, merged⟩

theorem exists_of_mergeKeys_mapping {entries : List (Node × Node)} {w : Node}
    (done : (Node.mapping entries).mergeKeys = .ok w)
    : ∃ found below,
        w = .mapping ((found.map Prod.fst).zip below)
        ∧ Merge.applyHere entries = .ok found
        ∧ List.Forall₂ (fun v w => v.mergeKeys = .ok w) (found.map Prod.snd) below := by
  rw [mergeKeys_mapping] at done
  obtain ⟨found, applied, done⟩ := exists_of_bind_eq_ok done
  obtain ⟨below, merged, done⟩ := exists_of_bind_eq_ok done
  cases done
  exact ⟨found, below, rfl, applied, Merge.forall₂_of_fromEnd merged⟩

/-- A node stays as it is if a visit leaves it as it is and so does merging for its children. -/
theorem mergeKeys_eq_self {v : Node} (visit : Merge.visited v = .ok v)
    (keeps : ∀ child ∈ Merge.children v, child.mergeKeys = .ok child)
    : v.mergeKeys = .ok v := by
  rw [mergeKeys_eq, Merge.mergeBy, visit]
  simp only [bind, Except.bind, Merge.fromEnd_eq_self keeps, Merge.withChildren_children]

end Node

end WorkflowLint.Yaml
