import WorkflowLint.Proofs.Json.IntegerText
import WorkflowLint.Proofs.OrderedTrees
import WorkflowLint.Proofs.Yaml.MergedTrees

/-! The keys of a node as the keys of the tree that it is converted to. No key but the string `<<`
has the text `<<`, and where all keys are strings no entry is lost.
-/

namespace WorkflowLint

namespace Value

/-- Some map of the tree has the key. -/
inductive ContainsKey (key : String) : Value → Prop where
  | here {fields : List (String × Value)} {v : Value} (member : (key, v) ∈ fields)
    : ContainsKey key (.map fields)
  | field {fields : List (String × Value)} {name : String} {v : Value}
    (member : (name, v) ∈ fields) (inside : ContainsKey key v)
    : ContainsKey key (.map fields)
  | item {items : List Value} {v : Value} (member : v ∈ items) (inside : ContainsKey key v)
    : ContainsKey key (.list items)

theorem mem_insertField_of_ne {key : String} {value : Value} {fields : List (String × Value)}
    {field : String × Value} (member : field ∈ fields) (other : field.1 ≠ key)
    : field ∈ insertField key value fields := by
  induction fields with
  | nil => cases member
  | cons first more ih =>
      obtain ⟨k, v⟩ := first
      rw [insertField]
      split
      · exact List.mem_cons_of_mem _ member
      split
      · rename_i same
        obtain rfl | member := List.mem_cons.mp member
        · exact absurd same.symm other
        · exact List.mem_cons_of_mem _ member
      · exact List.mem_cons.mpr ((List.mem_cons.mp member).imp_right ih)

theorem mem_insertField_self (key : String) (value : Value) (fields : List (String × Value))
    : (key, value) ∈ insertField key value fields := by
  induction fields with
  | nil => exact List.mem_cons_self
  | cons first more ih =>
      obtain ⟨k, v⟩ := first
      rw [insertField]
      split
      · exact List.mem_cons_self
      split
      · exact List.mem_cons_self
      · exact List.mem_cons_of_mem _ ih

section Fields

variable {fields placed : List (String × Value)} {field : String × Value}

/-- An entry of a map is one of those that it is made of. -/
theorem mem_of_mem_ofFields {inside : List (String × Value)} (made : ofFields fields = .map inside)
    (member : field ∈ inside)
    : field ∈ fields := by
  have grown {placed : List (String × Value)}
      (member
        : field ∈ fields.foldl (fun sorted entry => insertField entry.1 entry.2 sorted) placed)
      : field ∈ placed ∨ field ∈ fields := by
    clear made
    induction fields generalizing placed with
    | nil => exact .inl member
    | cons entry more ih =>
        obtain early | late := ih member
        · obtain rfl | early := mem_insertField early
          · exact .inr List.mem_cons_self
          · exact .inl early
        · exact .inr (List.mem_cons_of_mem _ late)
  rw [ofFields, Value.map.injEq] at made
  rw [← made] at member
  exact (grown member).resolve_left List.not_mem_nil

/-- Entries with different keys are all there, by induction on those that are put in. -/
theorem mem_foldl_insertField (distinct : (fields.map Prod.fst).Nodup)
    (member : field ∈ fields ∨ field ∈ placed ∧ field.1 ∉ fields.map Prod.fst)
    : field ∈ fields.foldl (fun sorted entry => insertField entry.1 entry.2 sorted) placed := by
  induction fields generalizing placed with
  | nil => exact (member.resolve_left List.not_mem_nil).1
  | cons entry more ih =>
      obtain ⟨new, distinct⟩ := List.nodup_cons.mp distinct
      refine ih distinct ?_
      obtain member | ⟨early, other⟩ := member
      · obtain rfl | late := List.mem_cons.mp member
        · exact .inr ⟨mem_insertField_self .., new⟩
        · exact .inl late
      · obtain ⟨here, later⟩ := not_or.mp (mt List.mem_cons.mpr other)
        exact .inr ⟨mem_insertField_of_ne early here, later⟩

end Fields

end Value

-----------------------------------------------------------------------------------------
-- Number texts
-----------------------------------------------------------------------------------------

namespace Binary64

/-- The digits of a number do not begin with a character that is no digit. -/
theorem digits_head?_ne (n : Nat) : (Nat.toDigits 10 n).head? ≠ some '<' := by
  intro first
  have member := List.mem_of_mem_head? first
  exact absurd (isDigit_of_mem_digitsOf member) (by decide)

theorem intText_head?_ne (n : Int) : (intText n).head? ≠ some '<' := by
  cases n with
  | ofNat n => exact digits_head?_ne n
  | negSucc n =>
      rw [intText, List.head?_cons]
      decide

theorem magnitudeText_head?_ne (layout : FloatLayout) (d : Decimal)
    : (magnitudeText layout d).head? ≠ some '<' := by
  have digits := digits_head?_ne d.coefficient
  obtain ⟨digit, more, same, _⟩ := digitsOf_eq_cons d.coefficient
  rw [digitsOf] at same
  rw [same, List.head?_cons] at digits
  unfold magnitudeText
  simp only [same]
  split
  · decide
  split
  · cases more <;> simpa using digits
  split
  · simp
  split
  · simpa using digits
  · -- The point may stand before the first digit.
    cases (((digit :: more).length : Int) + d.exponent).toNat with
    | zero => simp
    | succ n => simpa using digits

theorem text_head?_ne (layout : FloatLayout) (x : Binary64)
    : (x.text layout).head? ≠ some '<' := by
  unfold text
  split
  · simp
  · exact magnitudeText_head?_ne layout _

end Binary64

namespace Yaml

-----------------------------------------------------------------------------------------
-- Keys
-----------------------------------------------------------------------------------------

theorem ofList_ne_of_head?_ne {text : List Char} (first : text.head? ≠ some '<')
    : String.ofList text ≠ "<<" := by
  intro same
  rw [← String.toList_ofList (l := text), same] at first
  exact first rfl

/-- No key but the merge key has its text. -/
theorem isMergeKey_of_keyText {key : Node} (text : keyText key = .ok "<<")
    : Merge.isMergeKey key = true := by
  cases key with
  | string s =>
      cases text
      rfl
  | bool b =>
      rw [keyText, Except.ok.injEq] at text
      exact absurd text (ofList_ne_of_head?_ne (by cases b <;> decide))
  | int n =>
      rw [keyText, Except.ok.injEq] at text
      exact absurd text (ofList_ne_of_head?_ne (Binary64.intText_head?_ne n))
  | float x =>
      cases x with
      | finite x =>
          rw [keyText, Except.ok.injEq] at text
          exact absurd text (ofList_ne_of_head?_ne (Binary64.text_head?_ne _ x))
      | infinite | undefined => cases text
  | null | sequence | mapping | tagged => cases text

theorem keyText_of_isMergeKey {key : Node} (merges : Merge.isMergeKey key = true)
    : keyText key = .ok "<<" := by
  cases key with
  | string s =>
      rw [Merge.isMergeKey, beq_iff_eq] at merges
      rw [keyText, merges]
  | null | bool | int | float | sequence | mapping | tagged => cases merges

theorem tagKey_ne (tag : String) : tagKey tag ≠ "<<" := by
  intro same
  have first := congrArg (fun text => text.toList.head?) same
  simp [tagKey, String.toList_append] at first

-----------------------------------------------------------------------------------------
-- Trees
-----------------------------------------------------------------------------------------

theorem forall₂_of_itemsToValues {items : List Node} {values : List Value}
    (made : itemsToValues items = .ok values)
    : List.Forall₂ (fun item v => item.toValue = .ok v) items values := by
  induction items generalizing values with
  | nil =>
      cases made
      exact .nil
  | cons item more ih =>
      obtain ⟨value, here, made⟩ := exists_of_bind_eq_ok made
      obtain ⟨values, later, made⟩ := exists_of_bind_eq_ok made
      cases made
      exact .cons here (ih later)

theorem forall₂_of_entriesToFields {entries : List (Node × Node)} {fields : List (String × Value)}
    (made : entriesToFields entries = .ok fields)
    : List.Forall₂ (fun e field => keyText e.1 = .ok field.1 ∧ e.2.toValue = .ok field.2) entries
        fields := by
  induction entries generalizing fields with
  | nil =>
      cases made
      exact .nil
  | cons e more ih =>
      obtain ⟨key, text, made⟩ := exists_of_bind_eq_ok made
      obtain ⟨value, here, made⟩ := exists_of_bind_eq_ok made
      obtain ⟨fields, later, made⟩ := exists_of_bind_eq_ok made
      cases made
      exact .cons ⟨text, here⟩ (ih later)

section Names

variable {entries : List (Node × Node)} {fields : List (String × Value)}

theorem map_fst_of_entriesToFields (made : entriesToFields entries = .ok fields)
    (strings : ∀ e ∈ entries, ∃ name, e.1 = .string name)
    : entries.map Prod.fst = (fields.map Prod.fst).map Node.string := by
  have pairs := forall₂_of_entriesToFields made
  clear made
  induction pairs with
  | nil => rfl
  | cons here _ ih =>
      obtain ⟨⟨name, same⟩, strings⟩ := List.forall_mem_cons.mp strings
      have text := here.1
      rw [same, keyText, Except.ok.injEq] at text
      rw [List.map_cons, ih strings, same, text, List.map_cons, List.map_cons]

/-- Different strings are different keys of a map. -/
theorem nodup_of_entriesToFields (made : entriesToFields entries = .ok fields)
    (strings : ∀ e ∈ entries, ∃ name, e.1 = .string name)
    (distinct : (entries.map Prod.fst).Nodup)
    : (fields.map Prod.fst).Nodup := by
  rw [map_fst_of_entriesToFields made strings] at distinct
  exact List.Pairwise.of_map Node.string (fun _ _ other same => other (congrArg _ same)) distinct

end Names

namespace Node

/-- In each mapping of the tree the keys are different strings. -/
inductive Named : Node → Prop where
  | null : Named .null
  | bool {b : Bool} : Named (.bool b)
  | int {n : Int} : Named (.int n)
  | float {x : FloatValue} : Named (.float x)
  | string {text : String} : Named (.string text)
  | sequence {items : List Node} (each : ∀ v ∈ items, Named v) : Named (.sequence items)
  | mapping {entries : List (Node × Node)} (strings : ∀ e ∈ entries, ∃ name, e.1 = .string name)
    (distinct : (entries.map Prod.fst).Nodup) (each : ∀ e ∈ entries, Named e.2)
    : Named (.mapping entries)
  | tagged {tag : String} {v : Node} (content : Named v) : Named (.tagged tag v)

/-- A tree with the key `<<` comes from a node with a merge key, by induction on its size. -/
theorem hasMergeKey_of_toValue {node : Node} {tree : Value} (made : node.toValue = .ok tree)
    (contains : tree.ContainsKey "<<")
    : node.HasMergeKey := by
  induction bound : Merge.size node using Nat.strongRecOn generalizing node tree with
  | ind k ih =>
      have smaller {child : Node} (member : child ∈ Merge.children node) : Merge.size child < k :=
        bound ▸ Merge.size_lt_of_child member
      cases node with
      | null | bool | int | string =>
          cases made
          cases contains
      | float x => cases x <;> cases made <;> cases contains
      | sequence items =>
          obtain ⟨values, each, made⟩ := exists_of_bind_eq_ok made
          cases made
          cases contains with
          | item member inside =>
              obtain ⟨item, listed, here⟩ :=
                exists_of_forall₂ (forall₂_of_itemsToValues each).flip member
              exact .inside listed (ih _ (smaller listed) here inside rfl)
      | tagged tag content =>
          obtain ⟨value, here, made⟩ := exists_of_bind_eq_ok made
          cases made
          cases contains with
          | here member =>
              exact absurd (Prod.mk.inj (List.mem_singleton.mp member)).1.symm (tagKey_ne tag)
          | field member inside =>
              cases List.mem_singleton.mp member
              have below := ih _ (smaller List.mem_cons_self) here inside rfl
              exact .inside List.mem_cons_self below
      | mapping entries =>
          obtain ⟨fields, each, made⟩ := exists_of_bind_eq_ok made
          have pairs := (forall₂_of_entriesToFields each).flip
          cases made
          cases contains with
          | here member =>
              obtain ⟨e, listed, text, _⟩ :=
                exists_of_forall₂ pairs (Value.mem_of_mem_ofFields rfl member)
              exact .here listed (isMergeKey_of_keyText text)
          | field member inside =>
              obtain ⟨e, listed, _, value⟩ :=
                exists_of_forall₂ pairs (Value.mem_of_mem_ofFields rfl member)
              have child : e.2 ∈ Merge.children (.mapping entries) := List.mem_map_of_mem listed
              exact .inside child (ih _ (smaller child) value inside rfl)

/-- Where the keys are strings no entry is lost, and so no merge key. -/
theorem Named.containsKey_of_toValue {node : Node} {tree : Value} (named : node.Named)
    (made : node.toValue = .ok tree) (left : node.HasMergeKey)
    : tree.ContainsKey "<<" := by
  induction named generalizing tree with
  | null | bool | int | float | string =>
      cases left with
      | inside member => cases member
  | @sequence items _ ih =>
      obtain ⟨values, each, made⟩ := exists_of_bind_eq_ok made
      cases made
      cases left with
      | inside member left =>
          obtain ⟨v, listed, here⟩ := exists_of_forall₂ (forall₂_of_itemsToValues each) member
          exact .item listed (ih _ member here left)
  | @tagged tag content _ ih =>
      obtain ⟨value, here, made⟩ := exists_of_bind_eq_ok made
      cases made
      cases left with
      | inside member left =>
          cases List.mem_singleton.mp member
          exact .field List.mem_cons_self (ih here left)
  | @mapping entries strings distinct _ ih =>
      obtain ⟨fields, each, made⟩ := exists_of_bind_eq_ok made
      have pairs := forall₂_of_entriesToFields each
      have kept {field : String × Value} (member : field ∈ fields)
          : field
              ∈ fields.foldl (fun sorted entry => Value.insertField entry.1 entry.2 sorted) [] :=
        Value.mem_foldl_insertField (nodup_of_entriesToFields each strings distinct) (.inl member)
      cases made
      cases left with
      | here member merges =>
          obtain ⟨⟨name, v⟩, listed, text, _⟩ := exists_of_forall₂ pairs member
          cases text.symm.trans (keyText_of_isMergeKey merges)
          exact .here (kept listed)
      | inside member left =>
          obtain ⟨e, listed, rfl⟩ := List.mem_map.mp member
          obtain ⟨⟨name, v⟩, found, _, value⟩ := exists_of_forall₂ pairs listed
          exact .field (kept found) (ih e listed value left)

end Node

end Yaml

end WorkflowLint
