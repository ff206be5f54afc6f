import WorkflowLint.Load
import WorkflowLint.Proofs.Json.PrintedSource
import WorkflowLint.Proofs.Outcomes

/-! Trees in which the keys of each map are different and in ascending order.
Whatever is read from a text is such a tree, and such a tree is read back from its own text.
-/

namespace WorkflowLint

namespace Value

/-- In each map of the tree the keys stand in ascending order, none of them twice. -/
inductive Ordered : Value → Prop where
  | null : Ordered .null
  | bool {b : Bool} : Ordered (.bool b)
  | number {n : Number} : Ordered (.number n)
  | string {text : String} : Ordered (.string text)
  | list {items : List Value} (each : ∀ item ∈ items, Ordered item) : Ordered (.list items)
  | map {fields : List (String × Value)} (ascending : (fields.map Prod.fst).Pairwise (· < ·))
    (each : ∀ field ∈ fields, Ordered field.2)
    : Ordered (.map fields)

-----------------------------------------------------------------------------------------
-- Sorting
-----------------------------------------------------------------------------------------

/-- Sorting the items of a list changes none of them where each is sorted. -/
theorem sortedItems_eq_self {items : List Value} (each : ∀ item ∈ items, item.sorted = item)
    : sortedItems items = items := by
  induction items with
  | nil => rfl
  | cons item more ih =>
      rcases List.forall_mem_cons.mp each with ⟨here, each⟩
      rw [sortedItems, here, ih each]

theorem sortedFields_eq_self {fields : List (String × Value)}
    (each : ∀ field ∈ fields, field.2.sorted = field.2)
    : sortedFields fields = fields := by
  induction fields with
  | nil => rfl
  | cons field more ih =>
      rcases List.forall_mem_cons.mp each with ⟨here, each⟩
      rw [sortedFields, here, ih each]

/-- Sorting changes nothing in an ordered tree, by induction on the tree. -/
theorem Ordered.sorted_eq {v : Value} (ordered : v.Ordered)
    : v.sorted = v := by
  induction ordered with
  | null | bool | number | string => rfl
  | list _ each => rw [sorted, sortedItems_eq_self each]
  | map ascending _ each => rw [sorted, sortedFields_eq_self each, ofFields_eq_map ascending]

theorem mem_insertField {key : String} {value : Value} {fields : List (String × Value)}
    {field : String × Value} (member : field ∈ insertField key value fields)
    : field = (key, value) ∨ field ∈ fields := by
  induction fields with
  | nil => exact .inl (List.mem_singleton.mp member)
  | cons first more ih =>
      obtain ⟨k, v⟩ := first
      rw [insertField] at member
      split at member
      · exact List.mem_cons.mp member
      split at member
      · exact (List.mem_cons.mp member).imp_right (List.mem_cons_of_mem _)
      · rcases List.mem_cons.mp member with rfl | later
        · exact .inr List.mem_cons_self
        · exact (ih later).imp_right (List.mem_cons_of_mem _)

/-- An entry is put in where its key belongs, by induction on the entries that are there. -/
theorem ascending_insertField {key : String} (value : Value) {fields : List (String × Value)}
    (ascending : (fields.map Prod.fst).Pairwise (· < ·))
    : ((insertField key value fields).map Prod.fst).Pairwise (· < ·) := by
  induction fields with
  | nil => exact List.pairwise_singleton ..
  | cons first more ih =>
      obtain ⟨k, v⟩ := first
      rcases List.pairwise_cons.mp ascending with ⟨least, rest⟩
      rw [insertField]
      split
      · rename_i before
        refine List.pairwise_cons.mpr ⟨?_, ascending⟩
        intro other member
        rcases List.mem_cons.mp member with rfl | later
        · exact before
        · exact String.lt_trans before (least other later)
      split
      · rename_i same
        exact same ▸ ascending
      · rename_i notBefore different
        have behind : k < key :=
          Std.lt_of_le_of_ne (String.not_lt.mp notBefore) (Ne.symm different)
        refine List.pairwise_cons.mpr ⟨?_, ih rest⟩
        intro other member
        obtain ⟨field, inside, rfl⟩ := List.mem_map.mp member
        rcases mem_insertField inside with rfl | later
        · exact behind
        · exact least _ (List.mem_map_of_mem later)

/-- A map of ordered trees is ordered, whatever the order of its entries was before. -/
theorem ordered_ofFields {fields : List (String × Value)} (each : ∀ field ∈ fields, field.2.Ordered)
    : (ofFields fields).Ordered := by
  have grown (placed more : List (String × Value)) (ordered : (Value.map placed).Ordered)
      (each : ∀ field ∈ more, field.2.Ordered)
      : (Value.map (more.foldl (fun sorted entry => insertField entry.1 entry.2 sorted)
          placed)).Ordered := by
    induction more generalizing placed with
    | nil => exact ordered
    | cons entry more ih =>
        rcases List.forall_mem_cons.mp each with ⟨here, each⟩
        cases ordered with
        | map ascending inside =>
            refine ih _ (.map (ascending_insertField _ ascending) ?_) each
            intro field member
            rcases mem_insertField member with rfl | known
            · exact here
            · exact inside field known
  exact grown [] fields (.map .nil (List.forall_mem_nil _)) each

end Value

-----------------------------------------------------------------------------------------
-- What is read
-----------------------------------------------------------------------------------------

namespace Json

/-- Every value that a reader takes off a text has a property. -/
def Yields (P : Value → Prop) (item : Reader Value) : Prop :=
  ∀ {text rest v}, item text = .ok (v, rest) → P v

section Containers

variable {P : Value → Prop} {item : Reader Value} {text rest : List Char}

/-- Further items have the property, by induction on the fuel. -/
theorem Yields.moreItems (yields : Yields P item) {fuel : Nat} {vs : List Value}
    (read : readMoreItems item fuel text = .ok (vs, rest))
    : ∀ v ∈ vs, P v := by
  induction fuel generalizing text rest vs with
  | zero => cases read
  | succ fuel ih =>
      rw [readMoreItems] at read
      split at read
      · cases read
      · cases read
        exact List.forall_mem_nil _
      · split at read
        · cases read
        · obtain ⟨⟨v, afterItem⟩, first, read⟩ := exists_of_bind_eq_ok read
          obtain ⟨⟨more, afterMore⟩, later, read⟩ := exists_of_bind_eq_ok read
          cases read
          exact List.forall_mem_cons.mpr ⟨yields first, ih later⟩
      · cases read

theorem Yields.items (yields : Yields P item) {vs : List Value}
    (read : readItems item text = .ok (vs, rest))
    : ∀ v ∈ vs, P v := by
  unfold readItems at read
  split at read
  · cases read
  · cases read
    exact List.forall_mem_nil _
  · obtain ⟨⟨v, afterItem⟩, first, read⟩ := exists_of_bind_eq_ok read
    obtain ⟨⟨more, afterMore⟩, later, read⟩ := exists_of_bind_eq_ok read
    cases read
    exact List.forall_mem_cons.mpr ⟨yields first, yields.moreItems later⟩

theorem Yields.field (yields : Yields P item) {field : String × Value}
    (read : readField item text = .ok (field, rest))
    : P field.2 := by
  obtain ⟨⟨key, afterKey⟩, _, read⟩ := exists_of_bind_eq_ok read
  dsimp only at read
  split at read
  · cases read
  · obtain ⟨⟨v, afterItem⟩, first, read⟩ := exists_of_bind_eq_ok read
    cases read
    exact yields first
  · cases read

/-- Further entries have the property, by induction on the fuel. -/
theorem Yields.moreFields (yields : Yields P item) {fuel : Nat} {fields : List (String × Value)}
    (read : readMoreFields item fuel text = .ok (fields, rest))
    : ∀ field ∈ fields, P field.2 := by
  induction fuel generalizing text rest fields with
  | zero => cases read
  | succ fuel ih =>
      rw [readMoreFields] at read
      split at read
      · cases read
      · cases read
        exact List.forall_mem_nil _
      · split at read
        · cases read
        · cases read
        · obtain ⟨⟨field, afterField⟩, first, read⟩ := exists_of_bind_eq_ok read
          obtain ⟨⟨more, afterMore⟩, later, read⟩ := exists_of_bind_eq_ok read
          cases read
          exact List.forall_mem_cons.mpr ⟨yields.field first, ih later⟩
        · cases read
      · cases read

theorem Yields.fields (yields : Yields P item) {fields : List (String × Value)}
    (read : readFields item text = .ok (fields, rest))
    : ∀ field ∈ fields, P field.2 := by
  unfold readFields at read
  split at read
  · cases read
  · cases read
    exact List.forall_mem_nil _
  · obtain ⟨⟨field, afterField⟩, first, read⟩ := exists_of_bind_eq_ok read
    obtain ⟨⟨more, afterMore⟩, later, read⟩ := exists_of_bind_eq_ok read
    cases read
    exact List.forall_mem_cons.mpr ⟨yields.field first, yields.moreFields later⟩
  · cases read

end Containers

/-- A word is read as the value that it stands for, by induction on its letters. -/
theorem readWord_eq_ok {value v : Value} {word text rest : List Char}
    (read : readWord value word text = .ok (v, rest))
    : v = value := by
  induction word generalizing text with
  | nil =>
      cases read
      rfl
  | cons expected word ih =>
      cases text with
      | nil => cases read
      | cons c text =>
          rw [readWord] at read
          split at read
          · exact ih read
          · cases read

/-- What is read is ordered if whatever stands one level deeper is. -/
theorem readValue_ordered_of {depth : Nat}
    (inner : ∀ less, depth = less + 1 → Yields Value.Ordered (readValue less))
    : Yields Value.Ordered (readValue depth) := by
  intro text rest v read
  rw [readValue.eq_def] at read
  split at read
  case h_1 => cases read
  case h_2 | h_3 | h_4 =>
    cases readWord_eq_ok read
    constructor
  case h_5 | h_6 =>
    obtain ⟨_, _, read⟩ := exists_of_bind_eq_ok read
    cases read
    constructor
  case h_7 =>
    split at read
    · cases read
    · obtain ⟨_, items, read⟩ := exists_of_bind_eq_ok read
      cases read
      exact .list (Yields.items (inner _ rfl) items)
  case h_8 =>
    split at read
    · cases read
    · obtain ⟨_, fields, read⟩ := exists_of_bind_eq_ok read
      cases read
      exact Value.ordered_ofFields (Yields.fields (inner _ rfl) fields)
  case h_9 =>
    split at read
    · obtain ⟨_, _, read⟩ := exists_of_bind_eq_ok read
      cases read
      exact .number
    · cases read

/-- What is read is ordered, by induction on how deep the reader may go. -/
theorem readValue_ordered (depth : Nat) : Yields Value.Ordered (readValue depth) := by
  induction depth with
  | zero => exact readValue_ordered_of (fun _ deeper => absurd deeper (Nat.zero_ne_add_one _))
  | succ depth ih =>
      apply readValue_ordered_of
      rintro _ ⟨rfl⟩
      exact ih

theorem read_ordered {text : List Char} {v : Value} (ok : read text = .ok v) : v.Ordered := by
  obtain ⟨⟨found, rest⟩, here, last⟩ := exists_of_bind_eq_ok (eq_ok_of_mapError ok)
  dsimp only at last
  split at last
  · cases last
    exact readValue_ordered depthLimit here
  · cases last

end Json

namespace Yaml

mutual
/-- The tree of a node is ordered, by induction on the node. -/
theorem toValue_ordered {v : Value} : ∀ node : Node, node.toValue = .ok v → v.Ordered
  | .null, ok => by
      cases ok
      exact .null
  | .bool _, ok => by
      cases ok
      exact .bool
  | .int _, ok | .float (.finite _), ok => by
      cases ok
      exact .number
  | .float (.infinite _), ok | .float .undefined, ok => by
      cases ok
      exact .null
  | .string _, ok => by
      cases ok
      exact .string
  | .sequence items, ok => by
      obtain ⟨values, inside, ok⟩ := exists_of_bind_eq_ok ok
      cases ok
      exact .list (itemsToValues_ordered items inside)
  | .mapping entries, ok => by
      obtain ⟨fields, inside, ok⟩ := exists_of_bind_eq_ok ok
      cases ok
      exact Value.ordered_ofFields (entriesToFields_ordered entries inside)
  | .tagged _ content, ok => by
      obtain ⟨value, inside, ok⟩ := exists_of_bind_eq_ok ok
      cases ok
      exact .map (List.pairwise_singleton ..)
        (List.forall_mem_singleton.mpr (toValue_ordered content inside))

theorem itemsToValues_ordered {values : List Value}
    : ∀ items : List Node, itemsToValues items = .ok values → ∀ v ∈ values, v.Ordered
  | [], ok => by
      cases ok
      exact List.forall_mem_nil _
  | item :: more, ok => by
      obtain ⟨value, here, ok⟩ := exists_of_bind_eq_ok ok
      obtain ⟨values, later, ok⟩ := exists_of_bind_eq_ok ok
      cases ok
      exact List.forall_mem_cons.mpr
        ⟨toValue_ordered item here, itemsToValues_ordered more later⟩

theorem entriesToFields_ordered {fields : List (String × Value)}
    : ∀ entries : List (Node × Node),
        entriesToFields entries = .ok fields → ∀ field ∈ fields, field.2.Ordered
  | [], ok => by
      cases ok
      exact List.forall_mem_nil _
  | (_, content) :: more, ok => by
      obtain ⟨key, _, ok⟩ := exists_of_bind_eq_ok ok
      obtain ⟨value, here, ok⟩ := exists_of_bind_eq_ok ok
      obtain ⟨fields, later, ok⟩ := exists_of_bind_eq_ok ok
      cases ok
      exact List.forall_mem_cons.mpr
        ⟨toValue_ordered content here, entriesToFields_ordered more later⟩
end

theorem read_ordered {text : List Char} {v : Value} (ok : read text = .ok v) : v.Ordered := by
  have ok := eq_ok_of_mapError ok
  unfold readText at ok
  split at ok
  · cases ok
    exact .null
  · obtain ⟨_, _, ok⟩ := exists_of_bind_eq_ok ok
    obtain ⟨merged, _, ok⟩ := exists_of_bind_eq_ok ok
    exact toValue_ordered merged (eq_ok_of_mapError ok)

end Yaml

/-- What is read from a text of either format is ordered. -/
theorem parse_ordered {format : Format} {text : String} {v : Value} (ok : parse format text = .ok v)
    : v.Ordered := by
  cases format with
  | json => exact Json.read_ordered (eq_ok_of_mapError ok)
  | yaml => exact Yaml.read_ordered (eq_ok_of_mapError ok)

-----------------------------------------------------------------------------------------
-- Reading back
-----------------------------------------------------------------------------------------

namespace Value

/-- A tree is read back from its compact text, with the entries of its maps sorted. -/
theorem Integral.parse_jsonText {v : Value} (integral : v.Integral Json.depthLimit)
    : parse .json v.jsonText = .ok v.sorted := by
  have read := Json.Printing.compact.read_value integral 0 Json.Layout.tight
  rw [Json.Layout.append_tight] at read
  rw [parse, jsonText, String.toList_ofList]
  exact congrArg (Except.mapError LoadError.json) read

/-- Anything but a string has its compact text as its id text. -/
theorem idText_eq_jsonText {v : Value} (other : ∀ text, v ≠ .string text)
    : v.idText = v.jsonText := by
  cases v with
  | string text => exact absurd rfl (other text)
  | _ => rfl

/-- In messages it has this text as well, unless it is `null`. -/
theorem render_eq_idText {v : Value} (given : v ≠ .null)
    : render (some v) = v.idText := by
  cases v with
  | null => exact absurd rfl given
  | _ => rfl

/-- An ordered tree of integers that fit into a word, with at most 127 lists and maps inside one
another, is read back from its id text as it is, unless it is a string; and so it is from
the text that it has in messages, unless it is `null`.
Witness: the text is that of a source of the tree, in the layout without spaces.
-/
theorem idText_reads_back {v : Value} (ordered : v.Ordered) (integral : v.Integral 127)
    (other : ∀ text, v ≠ .string text)
    : parse .json v.idText = .ok v
      ∧ (v ≠ .null → parse .json (render (some v)) = .ok v) := by
  have back : parse .json v.idText = .ok v := by
    rw [idText_eq_jsonText other, integral.parse_jsonText, ordered.sorted_eq]
  refine ⟨back, ?_⟩
  intro given
  rw [render_eq_idText given, back]

/-- The least and the greatest number, an empty list, and keys that need escapes. -/
theorem idText_reads_back_extremes
    : let inner := .list [.number (.int 18446744073709551615), .list [], .string "\\\x1f/😀"]
      let v := .map [("\x00\n\"", .number (.int (-9223372036854775808))), ("é", inner)]
      parse .json (idText v) = .ok v ∧ parse .json (render (some v)) = .ok v := by
  intro inner v
  refine (idText_reads_back ?ordered ?integral ?other).imp_right (fun back => back ?given)
  case ordered =>
    apply Ordered.map (by decide)
    simp only [List.forall_mem_cons]
    refine ⟨.number, .list ?_, List.forall_mem_nil _⟩
    simp only [List.forall_mem_cons]
    exact ⟨.number, .list (List.forall_mem_nil _), .string, List.forall_mem_nil _⟩
  case integral =>
    apply Integral.map
    simp only [List.forall_mem_cons]
    refine ⟨.int (by decide), .list ?_, List.forall_mem_nil _⟩
    simp only [List.forall_mem_cons]
    exact ⟨.int (by decide), .list (List.forall_mem_nil _), .string, List.forall_mem_nil _⟩
  case other =>
    intro text same
    simp [v] at same
  case given =>
    intro same
    simp [v] at same

end Value

end WorkflowLint
