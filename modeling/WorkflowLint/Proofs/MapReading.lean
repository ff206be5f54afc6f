import WorkflowLint.Graph
import WorkflowLint.NodeKind

/-! Lenient reading of a tree agrees with what its maps hold.
Every accessor of the rules is described by one relation between a tree, a key and a value.
-/

namespace WorkflowLint

namespace Value

/-- The value is a map that stores `content` under `key`. -/
def Holds (v : Value) (key : String) (content : Value) : Prop :=
  ∃ fields, v = .map fields ∧ fields.lookup key = some content

/-- The value is a map with an entry for `key`, whatever is stored there. -/
def HasKey (v : Value) (key : String) : Prop :=
  ∃ content, v.Holds key content

/-- A lookup succeeds exactly on what a map stores, by cases on the value. -/
theorem get?_eq_some_iff {v : Value} {key : String} {content : Value}
    : v.get? key = some content ↔ v.Holds key content := by
  cases v <;> simp [get?, fields, Holds]

/-- A lookup fails exactly on values without the key. -/
theorem get?_eq_none_iff {v : Value} {key : String}
    : v.get? key = none ↔ ¬ v.HasKey key := by
  simp only [Option.eq_none_iff_forall_ne_some, ne_eq, get?_eq_some_iff, HasKey, not_exists]

/-- A map stores one value under a key. -/
theorem Holds.unique {v : Value} {key : String} {first second : Value}
    (left : v.Holds key first) (right : v.Holds key second)
    : first = second := by
  rw [← get?_eq_some_iff] at left right
  exact Option.some.inj (left.symm.trans right)

/-- A key is there and all that is stored under it has a property exactly when the one value
that is stored there has it.
-/
theorem hasKey_and_forall_iff {v : Value} {key : String} {P : Value → Prop}
    : (v.HasKey key ∧ ∀ content, v.Holds key content → P content)
      ↔ ∃ content, v.Holds key content ∧ P content := by
  constructor
  · intro both
    rcases both with ⟨⟨content, stored⟩, all⟩
    exact ⟨content, stored, all content stored⟩
  · intro some
    rcases some with ⟨content, stored, holds⟩
    exact ⟨⟨content, stored⟩, fun other here => stored.unique here ▸ holds⟩

theorem has_iff {v : Value} {key : String} : v.has key = true ↔ v.HasKey key := by
  simp only [has, Option.isSome_iff_exists, get?_eq_some_iff, HasKey]

theorem truthy?_eq_some_iff {v : Value} {key : String} {content : Value}
    : v.truthy? key = some content ↔ v.Holds key content ∧ content.isTruthy = true := by
  simp only [truthy?, Option.filter_eq_some_iff, get?_eq_some_iff]

theorem asString?_eq_some_iff {v : Value} {text : String}
    : v.asString? = some text ↔ v = .string text := by
  cases v <;> simp [asString?]

/-- Reading a string below a key succeeds exactly where a map stores that string. -/
theorem get?_bind_asString?_eq_some_iff {v : Value} {key text : String}
    : (v.get? key).bind asString? = some text ↔ v.Holds key (.string text) := by
  simp only [Option.bind_eq_some_iff, get?_eq_some_iff, asString?_eq_some_iff, exists_eq_right]

/-- Items are read from lists only. -/
theorem mem_entries_iff {v item : Value}
    : item ∈ v.entries ↔ ∃ items, v = .list items ∧ item ∈ items := by
  cases v <;> simp [entries]

/-- A string is truthy exactly when it has a character. -/
theorem isTruthy_string {text : String} (nonempty : text ≠ "")
    : (Value.string text).isTruthy = true := by
  simpa [isTruthy] using nonempty

end Value

namespace NodeKind

/-- Reading back the tag of a kind finds that kind, by the finite table of kinds. -/
theorem ofTag?_tag (kind : NodeKind) : ofTag? kind.tag = some kind := by
  cases kind <;> decide

/-- Kinds are told apart by their tags. -/
theorem tag_injective : Function.Injective tag := by
  intro left right same
  apply Option.some.inj
  rw [← ofTag?_tag left, same, ofTag?_tag right]

/-- A tag names a kind exactly when it is that kind's tag. -/
theorem ofTag?_eq_some_iff {tag : String} {kind : NodeKind}
    : ofTag? tag = some kind ↔ tag = kind.tag := by
  constructor
  · intro found
    have matched := List.find?_some found
    simpa using (of_decide_eq_true matched).symm
  · intro same
    rw [same, ofTag?_tag]

/-- A type has rules exactly when it is the tag of a kind. -/
theorem bind_ofTag?_eq_some_iff {type : Value} {kind : NodeKind}
    : type.asString?.bind ofTag? = some kind ↔ type = .string kind.tag := by
  simp only [Option.bind_eq_some_iff, Value.asString?_eq_some_iff, ofTag?_eq_some_iff,
    exists_eq_right]

end NodeKind

namespace Graph

/-- A node declares an id text exactly when it stores a truthy id with that text. -/
theorem nodeId?_eq_some_iff {node : Value} {id : String}
    : nodeId? node = some id
      ↔ ∃ content,
          node.Holds "id" content ∧ content.isTruthy = true ∧ content.idText = id := by
  simp only [nodeId?, Option.map_eq_some_iff, Value.truthy?_eq_some_iff, and_assoc]

/-- A node has some id text exactly when it stores a truthy id. -/
theorem nodeId?_isSome_iff {node : Value}
    : (nodeId? node).isSome = true
      ↔ ∃ content, node.Holds "id" content ∧ content.isTruthy = true := by
  simp only [nodeId?, Option.isSome_map, Option.isSome_iff_exists, Value.truthy?_eq_some_iff]

/-- An edge names an id text exactly when it stores a truthy endpoint with that text. -/
theorem endpointId?_eq_some_iff {edge : Value} {endpoint id : String}
    : endpointId? edge endpoint = some id
      ↔ ∃ content,
          edge.Holds endpoint content ∧ content.isTruthy = true ∧ content.idText = id := by
  simp only [endpointId?, Option.map_eq_some_iff, Value.truthy?_eq_some_iff, and_assoc]

/-- A node has a type text exactly when its data stores that string as the type. -/
theorem nodeType?_eq_some_iff {node : Value} {text : String}
    : nodeType? node = some text
      ↔ ∃ data, node.Holds "data" data ∧ data.Holds "type" (.string text) := by
  simp only [nodeType?, Option.bind_eq_bind, Option.bind_eq_some_iff, Value.get?_eq_some_iff,
    Value.asString?_eq_some_iff, exists_eq_right]

/-- The type text of a node is read from the data that the node stores. -/
theorem nodeType?_of_data {node data : Value} {text : String} (stored : node.Holds "data" data)
    : nodeType? node = some text ↔ data.Holds "type" (.string text) := by
  rw [nodeType?_eq_some_iff]
  constructor
  · intro typed
    obtain ⟨other, here, tagged⟩ := typed
    exact stored.unique here ▸ tagged
  · intro tagged
    exact ⟨data, stored, tagged⟩

end Graph

end WorkflowLint
