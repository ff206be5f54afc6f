import WorkflowLint.Proofs.Yaml.DistinctKeys
import WorkflowLint.Proofs.Yaml.KeyTexts

/-! A merge key that is merged in with a mapping is not applied but stays, as a key like others.
So a tree read from YAML has a map with the key `<<` only where a merged mapping has a merge key of
its own.
-/

namespace WorkflowLint

namespace Yaml

-----------------------------------------------------------------------------------------
-- Chains
-----------------------------------------------------------------------------------------

namespace Merge

section Keys

variable {entries merged : List (Node × Node)} {key : Node}

theorem Counts.mem {own : List (Node × Node)} {e : Node × Node} (counts : Counts own merged e)
    : e ∈ own ++ merged := by
  obtain own | ⟨earlier, later, rfl, _⟩ := counts
  · exact List.mem_append_left _ own
  · exact List.mem_append_right _ (List.mem_append_right _ List.mem_cons_self)

/-- There is one merge key only. -/
theorem same_mergeKey (merges : isMergeKey key = true) (other : Node)
    : other.same key = isMergeKey other := by
  cases key with
  | string text =>
      rw [isMergeKey, beq_iff_eq] at merges
      cases other <;> simp [Node.same, isMergeKey, merges]
  | null | bool | int | float | sequence | mapping | tagged => cases merges

/-- Where the keys are distinct, the own entries have no merge key. -/
theorem not_mergeKey_of_own (distinct : (Node.mapping entries).DistinctKeys) {e : Node × Node}
    (own : e ∈ ownEntries entries)
    : isMergeKey e.1 = false := by
  cases distinct with
  | mapping distinct _ =>
      obtain absent | ⟨front, key, source, back, rfl, merges, before⟩ := mergeEntry_cases entries
      · exact absent e (List.mem_of_mem_eraseP own)
      · rw [ownEntries_of_found merges before] at own
        obtain first | last := List.mem_append.mp own
        · exact before e first
        · have later := (List.pairwise_append.mp distinct).2.1
          have other := (List.pairwise_cons.mp later).1 e last
          refine Bool.eq_false_iff.mpr fun merges' => ?_
          rw [same_mergeKey merges', merges] at other
          cases other

/-- A merge key is among the entries of a merged mapping if one was brought in. -/
theorem exists_counts_mergeKey_iff (distinct : (Node.mapping entries).DistinctKeys)
    : (∃ e, Counts (ownEntries entries) merged e ∧ isMergeKey e.1 = true)
      ↔ ∃ e ∈ merged, isMergeKey e.1 = true := by
  constructor
  · rintro ⟨e, own | ⟨earlier, later, rfl, _⟩, merges⟩
    · rw [not_mergeKey_of_own distinct own] at merges
      cases merges
    · exact ⟨e, List.mem_append_right _ List.mem_cons_self, merges⟩
  · rintro ⟨e, member, merges⟩
    obtain absent | ⟨front, key, source, back, rfl, merges, before⟩ := mergeEntry_cases merged
    · rw [absent e member] at merges
      cases merges
    · refine ⟨(key, source), .inr ⟨front, back, rfl, fun present among => ?_⟩, merges⟩
      rw [same_mergeKey merges]
      obtain own | earlier := List.mem_append.mp among
      · exact not_mergeKey_of_own distinct own
      · exact before present earlier

/-- What a merge key brings in stands under it, in a mapping or in one of a list. -/
theorem exists_source_of_brought (brought : mergedEntries? entries = some merged) {e : Node × Node}
    (member : e ∈ merged)
    : ∃ key source inside,
        (key, source) ∈ entries
        ∧ (source = .mapping inside ∨ ∃ items, source = .sequence items ∧ .mapping inside ∈ items)
        ∧ e ∈ inside := by
  rw [mergedEntries?] at brought
  split at brought
  · cases brought
    cases member
  · rename_i key source found
    obtain ⟨maps, referred, rfl⟩ := Option.map_eq_some_iff.mp brought
    obtain ⟨inside, listed, member⟩ := List.mem_flatten.mp member
    refine ⟨key, source, inside, List.mem_of_find?_eq_some found, ?_, member⟩
    obtain ⟨_, sourced, rfl⟩ := (sources_agree source).exists_of_some referred
    obtain ⟨_, rfl, rfl⟩ | rfl := sources_eq_ok_iff.mp sourced
    · cases List.mem_singleton.mp listed
      exact .inl rfl
    · exact .inr ⟨_, rfl, List.mem_map_of_mem listed⟩

/-- What may come to stand in a mapping stands in one of which the same holds, if that is handed
down to the nodes below.
-/
theorem exists_mapping_of_mem {P : Node → Prop}
    (value : ∀ {entries}, P (.mapping entries) → ∀ e ∈ entries, P e.2)
    (item : ∀ {items}, P (.sequence items) → ∀ v ∈ items, P v) (whole : P (.mapping entries))
    (brought : mergedEntries? entries = some merged) {e : Node × Node}
    (member : e ∈ ownEntries entries ++ merged)
    : ∃ inside, P (.mapping inside) ∧ e ∈ inside := by
  obtain own | member := List.mem_append.mp member
  · exact ⟨entries, whole, List.mem_of_mem_eraseP own⟩
  · obtain ⟨key, source, inside, listed, shape, member⟩ := exists_source_of_brought brought member
    have below := value whole _ listed
    obtain rfl | ⟨items, rfl, among⟩ := shape
    · exact ⟨inside, below, member⟩
    · exact ⟨inside, item below _ among, member⟩

theorem distinctKeys_of_mem (distinct : (Node.mapping entries).DistinctKeys)
    (brought : mergedEntries? entries = some merged) {e : Node × Node}
    (member : e ∈ ownEntries entries ++ merged)
    : e.2.DistinctKeys := by
  have value {entries : List (Node × Node)} (distinct : (Node.mapping entries).DistinctKeys)
      : ∀ e ∈ entries, e.2.DistinctKeys := by
    cases distinct with
    | mapping _ each => exact each
  have item {items : List Node} (distinct : (Node.sequence items).DistinctKeys)
      : ∀ v ∈ items, v.DistinctKeys := by
    cases distinct with
    | sequence each => exact each
  obtain ⟨inside, distinct, member⟩ :=
    exists_mapping_of_mem value item distinct brought member
  exact value distinct e member

theorem size_lt_of_counts (brought : mergedEntries? entries = some merged) {e : Node × Node}
    (counts : Counts (ownEntries entries) merged e)
    : size e.2 < size (.mapping entries) := by
  have resolved : resolved? entries = some (complete (ownEntries entries) merged) := by
    rw [resolved?, brought, Option.map_some]
  exact size_lt_of_resolved? resolved (mem_complete_iff.mpr counts)

end Keys

end Merge

namespace Node

open Merge

/-- Merging comes to a mapping into which a mapping with a merge key of its own is merged. -/
inductive Chained : Node → Prop where
  | here {entries merged : List (Node × Node)} {e : Node × Node}
    (brought : mergedEntries? entries = some merged) (member : e ∈ merged)
    (merges : isMergeKey e.1 = true)
    : Chained (.mapping entries)
  | value {entries merged : List (Node × Node)} {e : Node × Node}
    (brought : mergedEntries? entries = some merged)
    (counts : Counts (ownEntries entries) merged e) (chained : Chained e.2)
    : Chained (.mapping entries)
  | item {items : List Node} {v : Node} (member : v ∈ items) (chained : Chained v)
    : Chained (.sequence items)
  | content {tag : String} {v : Node} (chained : Chained v) : Chained (.tagged tag v)

/-- Somewhere in a list of results there is a merge key if there is a chain where it comes from. -/
theorem exists_hasMergeKey_iff {nodes results : List Node}
    (each : List.Forall₂ (fun v w => w.HasMergeKey ↔ v.Chained) nodes results)
    : (∃ w ∈ results, w.HasMergeKey) ↔ ∃ v ∈ nodes, v.Chained := by
  induction each with
  | nil => simp
  | cons here _ ih => simp [here, ih]

/-- A merge key is left exactly where merging comes to a chain, by induction on the size. -/
theorem hasMergeKey_iff_chained {n w : Node} (distinct : n.DistinctKeys)
    (done : n.mergeKeys = .ok w)
    : w.HasMergeKey ↔ n.Chained := by
  induction bound : size n using Nat.strongRecOn generalizing n w with
  | ind k ih =>
      cases distinct with
      | null | bool | int | float | string =>
          rw [mergeKeys_eq_self rfl (List.forall_mem_nil _)] at done
          cases done
          refine ⟨fun left => ?_, nofun⟩
          cases left with
          | inside member => cases member
      | @sequence items each =>
          obtain ⟨below, rfl, results⟩ := exists_of_mergeKeys_sequence done
          have smaller : ∀ v ∈ items, size v < k ∧ v.DistinctKeys :=
            fun v member => ⟨bound ▸ size_lt_of_mem_children rfl member, each v member⟩
          have somewhere := exists_hasMergeKey_iff
            (((List.forall₂_and_left _ _).mpr ⟨smaller, results⟩).imp fun v w pair =>
              ih _ pair.1.1 pair.1.2 pair.2 rfl)
          constructor
          · intro left
            cases left with
            | inside member left =>
              obtain ⟨v, member, chained⟩ := somewhere.mp ⟨_, member, left⟩
              exact .item member chained
          · intro chained
            cases chained with
            | item member chained =>
              obtain ⟨w, member, left⟩ := somewhere.mpr ⟨_, member, chained⟩
              exact .inside member left
      | @tagged tag content below =>
          obtain ⟨w, rfl, value⟩ := exists_of_mergeKeys_tagged done
          have here := ih _ (bound ▸ size_lt_of_mem_children rfl List.mem_cons_self) below value rfl
          constructor
          · intro left
            cases left with
            | inside member left =>
                cases List.mem_singleton.mp member
                exact .content (here.mp left)
          · intro chained
            cases chained with
            | content chained => exact .inside List.mem_cons_self (here.mpr chained)
      | @mapping entries keys each =>
          obtain ⟨merged, result, brought, rfl⟩ := exists_brought_of_mergeKeys done
          have distinct : (Node.mapping entries).DistinctKeys := .mapping keys each
          have below {e : Node × Node} {w : Node} (counts : Counts (ownEntries entries) merged e)
              (done : e.2.mergeKeys = .ok w)
              : w.HasMergeKey ↔ e.2.Chained :=
            ih _ (bound ▸ size_lt_of_counts brought counts)
              (distinctKeys_of_mem distinct brought counts.mem) done rfl
          constructor
          · intro left
            cases left with
            | here member merges =>
                obtain ⟨v, counts, _⟩ := (mem_mergeKeys_iff brought done).mp member
                obtain ⟨e, member, merges⟩ :=
                  (exists_counts_mergeKey_iff distinct).mp ⟨_, counts, merges⟩
                exact .here brought member merges
            | inside member left =>
                obtain ⟨⟨key, w⟩, listed, rfl⟩ := List.mem_map.mp member
                obtain ⟨v, counts, value⟩ := (mem_mergeKeys_iff brought done).mp listed
                exact .value brought counts ((below counts value).mp left)
          · intro chained
            cases chained with
            | here brought' member merges =>
                cases brought.symm.trans brought'
                obtain ⟨⟨key, v⟩, counts, merges⟩ :=
                  (exists_counts_mergeKey_iff distinct).mpr ⟨_, member, merges⟩
                obtain ⟨w, value⟩ := exists_of_counts brought done counts
                exact .here ((mem_mergeKeys_iff brought done).mpr ⟨v, counts, value⟩) merges
            | @value _ _ e brought' counts chained =>
                cases brought.symm.trans brought'
                obtain ⟨w, value⟩ := exists_of_counts brought done counts
                have member := (mem_mergeKeys_iff brought done).mpr ⟨e.2, counts, value⟩
                exact .inside (List.mem_map_of_mem member) ((below counts value).mpr chained)

-----------------------------------------------------------------------------------------
-- Names
-----------------------------------------------------------------------------------------

/-- Entries that are added have new keys, by induction on them. -/
theorem nodup_complete {own merged : List (Node × Node)} (distinct : (own.map Prod.fst).Nodup)
    (strings : ∀ e ∈ merged, ∃ name, e.1 = .string name)
    : ((complete own merged).map Prod.fst).Nodup := by
  induction merged generalizing own with
  | nil => exact distinct
  | cons e more ih =>
      obtain ⟨⟨name, key⟩, strings⟩ := List.forall_mem_cons.mp strings
      rw [complete]
      split
      · exact ih distinct strings
      · rename_i free
        refine ih ?_ strings
        rw [List.map_append, List.map_singleton]
        refine List.nodup_append.mpr ⟨distinct, List.pairwise_singleton .., ?_⟩
        intro taken member new only same
        cases List.mem_singleton.mp only
        obtain ⟨present, own, rfl⟩ := List.mem_map.mp member
        refine free (List.any_eq_true.mpr ⟨present, own, ?_⟩)
        rw [same, key, Node.same, beq_iff_eq]

/-- Where the keys are strings, only keys that are strings come into a mapping. -/
theorem Named.of_mem {entries merged : List (Node × Node)} (named : (Node.mapping entries).Named)
    (brought : mergedEntries? entries = some merged) {e : Node × Node}
    (member : e ∈ ownEntries entries ++ merged)
    : (∃ name, e.1 = .string name) ∧ e.2.Named := by
  have parts {entries : List (Node × Node)} (named : (Node.mapping entries).Named)
      : ∀ e ∈ entries, (∃ name, e.1 = .string name) ∧ e.2.Named := by
    cases named with
    | mapping strings _ each => exact fun e member => ⟨strings e member, each e member⟩
  have item {items : List Node} (named : (Node.sequence items).Named) : ∀ v ∈ items, v.Named := by
    cases named with
    | sequence each => exact each
  obtain ⟨inside, named, member⟩ :=
    exists_mapping_of_mem (fun named e member => (parts named e member).2) item named brought member
  exact parts named e member

/-- Merging keeps keys that are different strings, by induction on the size. -/
theorem Named.of_mergeKeys {n w : Node} (named : n.Named) (done : n.mergeKeys = .ok w)
    : w.Named := by
  induction bound : size n using Nat.strongRecOn generalizing n w with
  | ind k ih =>
      cases named with
      | null | bool | int | float | string =>
          rw [mergeKeys_eq_self rfl (List.forall_mem_nil _)] at done
          cases done
          constructor
      | @sequence items each =>
          obtain ⟨below, rfl, results⟩ := exists_of_mergeKeys_sequence done
          refine .sequence fun w member => ?_
          obtain ⟨v, listed, value⟩ := exists_of_forall₂ results.flip member
          exact ih _ (bound ▸ size_lt_of_child listed) (each v listed) value rfl
      | @tagged tag content below =>
          obtain ⟨w, rfl, value⟩ := exists_of_mergeKeys_tagged done
          exact .tagged (ih _ (bound ▸ size_lt_of_child List.mem_cons_self) below value rfl)
      | @mapping entries strings distinct each =>
          obtain ⟨found, below, rfl, applied, results⟩ := exists_of_mergeKeys_mapping done
          obtain ⟨merged, brought, order⟩ := exists_brought_of_applyHere applied
          have named : (Node.mapping entries).Named := .mapping strings distinct each
          have counted {k w : Node} (member : (k, w) ∈ (found.map Prod.fst).zip below)
              : ∃ v, Counts (ownEntries entries) merged (k, v) ∧ v.mergeKeys = .ok w := by
            simpa only [mem_zip_iff results, mem_applyHere_iff brought applied] using member
          refine .mapping ?strings ?distinct ?each
          case strings =>
            intro e member
            obtain ⟨v, counts, _⟩ := counted member
            exact (named.of_mem brought counts.mem).1
          case distinct =>
            have count := results.length_eq
            rw [List.length_map] at count
            rw [map_fst_zip_values count.symm, (order.map _).nodup_iff]
            refine nodup_complete ((List.eraseP_sublist.map _).nodup distinct) fun e member => ?_
            exact (named.of_mem brought (List.mem_append_right _ member)).1
          case each =>
            intro e member
            obtain ⟨v, counts, value⟩ := counted member
            exact ih _ (bound ▸ size_lt_of_counts brought counts)
              (named.of_mem brought counts.mem).2 value rfl

end Node

/-- The node that a text describes. A text of nothing but white space is `null`. -/
def described (text : List Char) : Except Error Node :=
  if text.all isSpace then .ok .null else Node.ofDocument (.ofText text)

/-- Reading a text is converting the node that it describes with its merge keys applied. -/
theorem exists_of_read {text : List Char} {tree : Value} (ok : read text = .ok tree)
    : ∃ n w,
        described text = .ok n ∧ n.DistinctKeys ∧ n.mergeKeys = .ok w ∧ w.toValue = .ok tree := by
  have ok := eq_ok_of_mapError ok
  unfold readText at ok
  unfold described
  split at ok
  case isTrue blank =>
    cases ok
    exact ⟨.null, .null, if_pos blank, .null, rfl, rfl⟩
  case isFalse written =>
    rw [if_neg written]
    obtain ⟨n, built, ok⟩ := exists_of_bind_eq_ok ok
    obtain ⟨w, merged, ok⟩ := exists_of_bind_eq_ok ok
    exact ⟨n, w, built, Node.distinctKeys_of_ofDocument built, eq_ok_of_mapError merged,
      eq_ok_of_mapError ok⟩

end Yaml

open Yaml in
/-- Merging leaves a merge key exactly where it comes to a mapping into which one with a merge key
of its own is merged. Only there a map of the tree that is read has the key `<<`; and there one has
it, if all keys are strings.
Witness: a key of the tree has this text only if it is a merge key, and strings stay apart.
-/
theorem parse_containsKey {text : String} {tree : Value} (ok : parse .yaml text = .ok tree)
    : ∃ n w,
        described text.toList = .ok n
        ∧ n.mergeKeys = .ok w
        ∧ w.toValue = .ok tree
        ∧ (w.HasMergeKey ↔ n.Chained)
        ∧ (tree.ContainsKey "<<" → n.Chained)
        ∧ (n.Named → n.Chained → tree.ContainsKey "<<") := by
  obtain ⟨n, w, text, distinct, done, made⟩ := exists_of_read (eq_ok_of_mapError ok)
  have chain := Node.hasMergeKey_iff_chained distinct done
  refine ⟨n, w, text, done, made, chain, ?only, ?named⟩
  case only => exact fun contains => chain.mp (Node.hasMergeKey_of_toValue made contains)
  case named =>
    intro named chained
    exact (named.of_mergeKeys done).containsKey_of_toValue made (chain.mpr chained)

open Yaml in
/-- A merge key with nothing in front of it is applied. -/
theorem parse_containsKey_single
    : ∃ tree,
        parse .yaml "base: &b\n  type: end\nnode:\n  <<: *b\n  title: End\n" = .ok tree
        ∧ ∃ n w,
            described "base: &b\n  type: end\nnode:\n  <<: *b\n  title: End\n".toList = .ok n
            ∧ n.mergeKeys = .ok w
            ∧ w.toValue = .ok tree
            ∧ (w.HasMergeKey ↔ n.Chained)
            ∧ (tree.ContainsKey "<<" → n.Chained)
            ∧ (n.Named → n.Chained → tree.ContainsKey "<<") := by
  have read
      : (parse .yaml "base: &b\n  type: end\nnode:\n  <<: *b\n  title: End\n").toOption.isSome := by
    decide +kernel
  obtain ⟨tree, found⟩ := Option.isSome_iff_exists.mp read
  exact ⟨tree, eq_ok_of_toOption found, parse_containsKey (eq_ok_of_toOption found)⟩

/-- Of two mergings in a chain the first one is lost: its merge key becomes a key of the map, which
has not got what the key stands for.
-/
theorem parse_chain
    : ∃ tree node,
        parse .yaml
            "base: &a\n  type: end\nnamed: &b\n  <<: *a\n  title: End\nnode:\n  <<: *b\n"
          = .ok tree
        ∧ tree.get? "node" = some node
        ∧ node.has "<<" = true
        ∧ node.has "type" = false := by
  have read
      : ((parse .yaml
            "base: &a\n  type: end\nnamed: &b\n  <<: *a\n  title: End\nnode:\n  <<: *b\n"
          ).toOption.bind fun tree =>
            (tree.get? "node").map fun node => (node.has "<<", node.has "type"))
        = some (true, false) := by
    decide +kernel
  obtain ⟨tree, found, read⟩ := Option.bind_eq_some_iff.mp read
  obtain ⟨node, stored, has⟩ := Option.map_eq_some_iff.mp read
  obtain ⟨merge, type⟩ := Prod.mk.inj has
  exact ⟨tree, node, eq_ok_of_toOption found, stored, merge, type⟩

end WorkflowLint
