import WorkflowLint.Proofs.MapReading

/-! Changing what a map holds under one key, changing every item of a list, and changing the shape
of a value. Such a change is seen by readers of that key and by no others.
-/

namespace WorkflowLint.Value

/-- A map with the value under a key changed, if there is one. Other values stay as they are. -/
def update (key : String) (change : Value → Value) : Value → Value
  | .map fields =>
      .map (fields.map
        (fun field => (field.1, if field.1 = key then change field.2 else field.2)))
  | v => v

/-- A list with every item changed. Other values stay as they are. -/
def mapItems (change : Value → Value) : Value → Value
  | .list items => .list (items.map change)
  | v => v

/-- A look-up finds the changed value under the key and the old one elsewhere, by induction on
the entries.
-/
theorem lookup_map_update (key other : String) (change : Value → Value)
    (fields : List (String × Value))
    : (fields.map
        (fun field => (field.1, if field.1 = key then change field.2 else field.2))).lookup other
      = (fields.lookup other).map (if other = key then change else id) := by
  induction fields with
  | nil => rfl
  | cons field more ih =>
      obtain ⟨k, v⟩ := field
      rw [List.map_cons, List.lookup_cons, List.lookup_cons]
      cases same : other == k with
      | false => exact ih
      | true =>
          obtain rfl := beq_iff_eq.mp same
          by_cases here : other = key <;> simp [here]

/-- What stands under the key is changed. -/
@[simp] theorem get?_update (key : String) (change : Value → Value) (v : Value)
    : (v.update key change).get? key = (v.get? key).map change := by
  cases v with
  | map fields => simpa [get?, update, Value.fields] using lookup_map_update key key change fields
  | _ => rfl

/-- What stands under another key is not. -/
theorem get?_update_of_ne {key other : String} (different : other ≠ key)
    (change : Value → Value) (v : Value)
    : (v.update key change).get? other = v.get? other := by
  cases v with
  | map fields =>
      simpa [get?, update, Value.fields, different] using lookup_map_update key other change fields
  | _ => rfl

@[simp] theorem entries_mapItems (change : Value → Value) (v : Value)
    : (v.mapItems change).entries = v.entries.map change := by
  cases v <;> rfl

/-- Changing what stands under a key does not add or remove keys. -/
theorem has_update (key other : String) (change : Value → Value) (v : Value)
    : (v.update key change).has other = v.has other := by
  by_cases same : other = key
  · rw [same, has, get?_update, Option.isSome_map, ← has]
  · rw [has, get?_update_of_ne same, ← has]

-----------------------------------------------------------------------------------------
-- Changes of shape
-----------------------------------------------------------------------------------------

/-- The same map, or an empty map in the place of another value. -/
def asMap (v : Value) : Value :=
  .map v.fields

/-- The same list, or an empty list in the place of another value. -/
def asList (v : Value) : Value :=
  .list v.entries

/-- A list with every item changed in a way that depends on its index. Other values stay as they
are.
-/
def mapIndexed (change : Nat → Value → Value) : Value → Value
  | .list items => .list (items.mapIdx change)
  | v => v

@[simp] theorem entries_mapIndexed (change : Nat → Value → Value) (v : Value)
    : (v.mapIndexed change).entries = v.entries.mapIdx change := by
  cases v <;> rfl

/-- A map without its entries under a key. Other values stay as they are. -/
def without (key : String) : Value → Value
  | .map fields => .map (fields.filter (fun field => field.1 ≠ key))
  | v => v

/-- A look-up finds nothing under a key without entries, and what it did elsewhere, by induction on
the entries.
-/
theorem lookup_filter_ne (key other : String) (fields : List (String × Value))
    : (fields.filter (fun field => field.1 ≠ key)).lookup other
      = if other = key then none else fields.lookup other := by
  induction fields with
  | nil => simp
  | cons field more ih =>
      obtain ⟨k, v⟩ := field
      by_cases here : k = key
      · rw [List.filter_cons_of_neg (by simpa using here), ih, List.lookup_cons]
        split
        · rfl
        · rename_i different
          rw [beq_false_of_ne (here ▸ different)]
      · rw [List.filter_cons_of_pos (by simpa using here), List.lookup_cons, List.lookup_cons, ih]
        cases same : other == k with
        | false => rfl
        | true =>
            obtain rfl := beq_iff_eq.mp same
            exact (if_neg here).symm

theorem get?_without (key other : String) (v : Value)
    : (v.without key).get? other = if other = key then none else v.get? other := by
  cases v with
  | map fields => exact lookup_filter_ne key other fields
  | _ => simp [without, get?, fields]

/-- A map without its entries under a key, if what it holds there is falsy. -/
def dropFalsy (key : String) (v : Value) : Value :=
  if (v.truthy? key).isNone then v.without key else v

theorem get?_dropFalsy_of_ne {key other : String} (different : other ≠ key) (v : Value)
    : (v.dropFalsy key).get? other = v.get? other := by
  unfold dropFalsy
  split
  · rw [get?_without, if_neg different]
  · rfl

/-- Readers of truthy values do not see that a falsy one is gone. -/
@[simp] theorem truthy?_dropFalsy (key other : String) (v : Value)
    : (v.dropFalsy key).truthy? other = v.truthy? other := by
  by_cases same : other = key
  · subst same
    unfold dropFalsy
    split
    · rename_i falsy
      rw [truthy?, get?_without, if_pos rfl, Option.isNone_iff_eq_none.mp falsy, Option.filter_none]
    · rfl
  · rw [truthy?, get?_dropFalsy_of_ne same, ← truthy?]

end WorkflowLint.Value
