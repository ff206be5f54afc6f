import WorkflowLint.Proofs.Outcomes
import WorkflowLint.Proofs.Yaml.MergeRecursion

/-! The entries of one mapping with its merge key applied, told without places: the own entries but
for the merge key, and those of the merged mappings whose keys no entry before them has.
-/

namespace WorkflowLint.Yaml

-----------------------------------------------------------------------------------------
-- Keys
-----------------------------------------------------------------------------------------

theorem FloatValue.same_trans {a b c : FloatValue} (first : a.same b = true)
    (second : b.same c = true)
    : a.same c = true := by
  cases a <;> cases b <;> cases c <;> simp_all [same, Binary64.sameNumber, Binary64.isZero]
  grind

/-- An entry of one mapping is found in another. -/
theorem exists_of_sameEntries {as bs : List (Node × Node)} (found : sameEntries as bs = true)
    {a : Node × Node} (member : a ∈ as)
    : ∃ b ∈ bs, a.1.same b.1 = true ∧ a.2.same b.2 = true := by
  induction as with
  | nil => cases member
  | cons e more ih =>
      rw [sameEntries, Bool.and_eq_true, List.any_eq_true] at found
      obtain ⟨here, later⟩ := found
      obtain rfl | member := List.mem_cons.mp member
      · simpa only [Bool.and_eq_true] using here
      · exact ih later member

mutual
/-- Being the same key is transitive, by induction on the first key. -/
theorem Node.same_trans : ∀ {a b c : Node}, a.same b = true → b.same c = true → a.same c = true
  | .null, b, c, first, second => by
      cases b <;> first | exact second | cases first
  | .bool _, b, c, first, second => by
      cases b <;> first | cases first | cases eq_of_beq first; exact second
  | .int _, b, c, first, second => by
      cases b <;> first | cases first | cases eq_of_beq first; exact second
  | .string _, b, c, first, second => by
      cases b <;> first | cases first | cases eq_of_beq first; exact second
  | .float _, b, c, first, second => by
      cases b <;> cases c <;>
        first | cases first | cases second | exact FloatValue.same_trans first second
  | .sequence _, b, c, first, second => by
      cases b <;> cases c <;>
        first | cases first | cases second | exact sameItems_trans first second
  | .mapping as, b, c, first, second => by
      cases b <;> cases c <;> first | cases first | cases second | skip
      rw [Node.same, Bool.and_eq_true, beq_iff_eq] at first second ⊢
      exact ⟨first.1.trans second.1, sameEntries_trans first.2 second.2⟩
  | .tagged _ a, b, c, first, second => by
      cases b <;> cases c <;> first | cases first | cases second | skip
      rw [Node.same, Bool.and_eq_true, beq_iff_eq] at first second ⊢
      exact ⟨first.1.trans second.1, Node.same_trans first.2 second.2⟩

theorem sameItems_trans
    : ∀ {as bs cs : List Node},
        sameItems as bs = true → sameItems bs cs = true → sameItems as cs = true
  | [], bs, cs, first, second => by
      cases bs <;> first | exact second | cases first
  | a :: as, bs, cs, first, second => by
      cases bs <;> cases cs <;> first | cases first | cases second | skip
      rw [sameItems, Bool.and_eq_true] at first second ⊢
      exact ⟨Node.same_trans first.1 second.1, sameItems_trans first.2 second.2⟩

theorem sameEntries_trans
    : ∀ {as bs cs : List (Node × Node)},
        sameEntries as bs = true → sameEntries bs cs = true → sameEntries as cs = true
  | [], _, _, _, _ => rfl
  | (k, v) :: more, bs, cs, first, second => by
      rw [sameEntries, Bool.and_eq_true, List.any_eq_true] at first ⊢
      obtain ⟨⟨b, member, same⟩, later⟩ := first
      obtain ⟨c, member, keys, values⟩ := exists_of_sameEntries second member
      rw [Bool.and_eq_true] at same
      refine ⟨⟨c, member, ?_⟩, sameEntries_trans later second⟩
      rw [Bool.and_eq_true]
      exact ⟨Node.same_trans same.1 keys, Node.same_trans same.2 values⟩
end

namespace Merge

-----------------------------------------------------------------------------------------
-- Merged mappings
-----------------------------------------------------------------------------------------

/-- The mappings that a merge key refers to: one, or a list of them. -/
def mergedMaps : Node → Option (List (List (Node × Node)))
  | .mapping entries => some [entries]
  | .sequence items =>
      items.mapM fun item =>
        match item with
        | .mapping entries => some entries
        | _ => none
  | _ => none

/-- Own entries, and behind them those of the others whose keys are still missing. -/
def complete (own : List (Node × Node)) : List (Node × Node) → List (Node × Node)
  | [] => own
  | e :: more =>
      if own.any (fun present => present.1.same e.1) then complete own more
      else complete (own ++ [e]) more

/-- The entries that the merge key of a mapping brings in, in the order in which they count. -/
def mergedEntries? (entries : List (Node × Node)) : Option (List (Node × Node)) :=
  match entries.find? (fun e => isMergeKey e.1) with
  | none => some []
  | some (_, source) => (mergedMaps source).map List.flatten

/-- The entries of a mapping but for its merge key. -/
def ownEntries (entries : List (Node × Node)) : List (Node × Node) :=
  entries.eraseP (fun e => isMergeKey e.1)

/-- The own entries of a mapping, completed by those that its merge key brings in. -/
def resolved? (entries : List (Node × Node)) : Option (List (Node × Node)) :=
  (mergedEntries? entries).map (complete (ownEntries entries))

section MergeKeys

variable {entries front back : List (Node × Node)} {key source : Node}

theorem resolved?_of_absent (absent : ∀ e ∈ entries, isMergeKey e.1 = false)
    : resolved? entries = some entries := by
  have none_here : ∀ e ∈ entries, ¬isMergeKey e.1 = true :=
    fun e member => Bool.not_eq_true _ ▸ absent e member
  rw [resolved?, mergedEntries?, List.find?_eq_none.mpr none_here, ownEntries,
    List.eraseP_of_forall_not none_here]
  rfl

theorem mergedEntries?_of_found (merges : isMergeKey key = true)
    (before : ∀ e ∈ front, isMergeKey e.1 = false)
    : mergedEntries? (front ++ (key, source) :: back)
        = (mergedMaps source).map List.flatten := by
  have first
      : (front ++ (key, source) :: back).find? (fun e => isMergeKey e.1)
        = some (key, source) := by
    rw [List.find?_append,
      List.find?_eq_none.mpr fun e member => Bool.not_eq_true _ ▸ before e member,
      Option.none_or, List.find?_cons, merges]
  rw [mergedEntries?, first]

theorem ownEntries_of_found (merges : isMergeKey key = true)
    (before : ∀ e ∈ front, isMergeKey e.1 = false)
    : ownEntries (front ++ (key, source) :: back) = front ++ back := by
  rw [ownEntries, List.eraseP_append_right _ fun e member => Bool.not_eq_true _ ▸ before e member,
    List.eraseP_cons, merges]
  rfl

end MergeKeys

theorem sources_agree (source : Node) : Agree Eq (sources source) (mergedMaps source) := by
  cases source with
  | null | bool | int | float | string | tagged => exact .fail
  | mapping entries => exact .succeed rfl
  | sequence items =>
      rw [sources, mergedMaps, ← List.forall₂_eq_eq_eq]
      refine Agree.mapM fun item _ => ?_
      cases item with
      | mapping entries => exact .succeed rfl
      | null | bool | int | float | string | sequence | tagged => exact .fail

-----------------------------------------------------------------------------------------
-- Completion
-----------------------------------------------------------------------------------------

section Completion

variable {own found merged : List (Node × Node)} {e : Node × Node}

theorem isSome_findKey? (entries : List (Node × Node)) (key : Node)
    : (findKey? entries key).isSome = entries.any (fun e => e.1.same key) := by
  rw [findKey?, Option.isSome_map, List.isSome_find?]

/-- In whichever order the own entries stand, the same ones are added. -/
theorem addMissing_perm (order : found.Perm own) (merged : List (Node × Node))
    : (addMissing found merged).Perm (complete own merged) := by
  induction merged generalizing found own with
  | nil => exact order
  | cons e more ih =>
      have present : (findKey? found e.1).isSome = own.any (fun present => present.1.same e.1) := by
        rw [isSome_findKey?, order.any_eq]
      rw [addMissing, List.foldl_cons, complete, present]
      split
      · exact ih order
      · exact ih (order.append_right [e])

/-- What counts: own entries, and a merged one if no entry before it has its key. -/
def Counts (own merged : List (Node × Node)) (e : Node × Node) : Prop :=
  e ∈ own
  ∨ ∃ earlier later,
      merged = earlier ++ e :: later
      ∧ ∀ present ∈ own ++ earlier, present.1.same e.1 = false

/-- A merged entry whose key is taken by an own one neither counts nor keeps others from it. -/
theorem counts_cons_of_taken {first : Node × Node}
    (taken : ∃ present ∈ own, present.1.same first.1 = true)
    : Counts own (first :: merged) e ↔ Counts own merged e := by
  obtain ⟨holder, member, held⟩ := taken
  refine or_congr_right ⟨?_, ?_⟩
  · rintro ⟨earlier, later, split, others⟩
    cases earlier with
    | nil =>
        cases split
        rw [others holder (List.mem_append_left _ member)] at held
        cases held
    | cons other earlier =>
        cases split
        refine ⟨earlier, later, rfl, fun present member => others present ?_⟩
        exact List.mem_append.mpr
          ((List.mem_append.mp member).imp_right (List.mem_cons_of_mem _))
  · rintro ⟨earlier, later, rfl, others⟩
    refine ⟨first :: earlier, later, rfl, fun present among => ?_⟩
    obtain among | among := List.mem_append.mp among
    · exact others present (List.mem_append_left _ among)
    · obtain rfl | among := List.mem_cons.mp among
      · -- Else the own entry would have the key of `e` as well.
        refine Bool.eq_false_iff.mpr fun same => ?_
        have shared := Node.same_trans held same
        rw [others holder (List.mem_append_left _ member)] at shared
        cases shared
      · exact others present (List.mem_append_right _ among)

/-- A merged entry whose key is free counts as an own one does. -/
theorem counts_cons_of_free {first : Node × Node}
    (free : ∀ present ∈ own, present.1.same first.1 = false)
    : Counts own (first :: merged) e ↔ Counts (own ++ [first]) merged e := by
  constructor
  · rintro (mine | ⟨earlier, later, split, others⟩)
    · exact .inl (List.mem_append_left _ mine)
    · cases earlier with
      | nil =>
          cases split
          exact .inl (List.mem_append_right _ List.mem_cons_self)
      | cons other earlier =>
          cases split
          exact .inr ⟨earlier, later, rfl, by rwa [List.append_assoc, List.singleton_append]⟩
  · rintro (mine | ⟨earlier, later, rfl, others⟩)
    · obtain mine | new := List.mem_append.mp mine
      · exact .inl mine
      · cases List.mem_singleton.mp new
        exact .inr ⟨[], merged, rfl, by rwa [List.append_nil]⟩
    · rw [List.append_assoc, List.singleton_append] at others
      exact .inr ⟨first :: earlier, later, rfl, others⟩

/-- An entry is there after the completion if it counts, by induction on the merged ones. -/
theorem mem_complete_iff : e ∈ complete own merged ↔ Counts own merged e := by
  induction merged generalizing own with
  | nil => simp [complete, Counts]
  | cons first more ih =>
      rw [complete]
      split
      case isTrue taken => rw [ih, counts_cons_of_taken (List.any_eq_true.mp taken)]
      case isFalse free =>
        have free : ∀ present ∈ own, present.1.same first.1 = false :=
          fun present member =>
            Bool.not_eq_true _ ▸ List.any_eq_false.mp (Bool.not_eq_true _ ▸ free) present member
        rw [ih, counts_cons_of_free free]

end Completion

/-- Merging into a mapping succeeds where its entries can be resolved, and gives the same ones in
some order.
-/
theorem applyHere_agree (entries : List (Node × Node))
    : Agree List.Perm (applyHere entries) (resolved? entries) := by
  obtain absent | ⟨front, key, source, back, rfl, merges, before⟩ := mergeEntry_cases entries
  · rw [applyHere_of_absent absent, resolved?_of_absent absent]
    exact .succeed .rfl
  · rw [applyHere_of_found merges before, resolved?, mergedEntries?_of_found merges before,
      ownEntries_of_found merges before, Option.map_map, Option.map_eq_bind]
    refine (sources_agree source).bind fun maps _ _ _ same => ?_
    cases same
    rw [foldl_addMissing_eq]
    exact .succeed (addMissing_perm (takeOut_perm front (key, source) back) maps.flatten)

theorem exists_brought_of_applyHere {entries found : List (Node × Node)}
    (applied : applyHere entries = .ok found)
    : ∃ merged,
        mergedEntries? entries = some merged
        ∧ found.Perm (complete (ownEntries entries) merged) := by
  obtain ⟨_, resolved, order⟩ := (applyHere_agree entries).exists_of_ok applied
  obtain ⟨merged, brought, rfl⟩ := Option.map_eq_some_iff.mp resolved
  exact ⟨merged, brought, order⟩

end Merge

end WorkflowLint.Yaml
