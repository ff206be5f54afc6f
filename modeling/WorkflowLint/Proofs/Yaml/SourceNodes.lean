import WorkflowLint.Proofs.Yaml.MergeRecursion
import WorkflowLint.Proofs.Yaml.NumberWords
import WorkflowLint.Proofs.Yaml.SourceSteps

/-! From the steps of a JSON source its node is built, in which no key asks for a merge, and which
describes the tree that the source describes.
-/

namespace WorkflowLint.Yaml

open WorkflowLint.Json (Glyph Source Item Entry spelled)

namespace Build

-----------------------------------------------------------------------------------------
-- Places
-----------------------------------------------------------------------------------------

/-- The steps that are still to be read at a place. -/
def Ahead (d : Document) (p : Place) (steps : List Step) : Prop :=
  (d.steps.toList.map Prod.fst).drop p.position = steps

section Places

variable {d : Document} {p : Place} {s : Step} {steps more : List Step}

theorem Ahead.step_eq (ahead : Ahead d p (s :: more))
    : ∃ mark, Build.step d p = .ok (s, mark) := by
  have head : (d.steps.toList.map Prod.fst)[p.position]? = some s := by
    rw [← List.head?_drop, ahead]
    rfl
  rw [List.getElem?_map] at head
  obtain ⟨⟨_, mark⟩, found, rfl⟩ := Option.map_eq_some_iff.mp head
  refine ⟨mark, ?_⟩
  rw [Build.step, ← Array.getElem?_toList, found]

theorem Ahead.advance (ahead : Ahead d p (s :: more)) : Ahead d (advance p) more := by
  rw [Ahead, Build.advance, ← List.tail_drop, ahead]
  rfl

theorem Ahead.length_le (ahead : Ahead d p steps) : steps.length ≤ d.steps.size := by
  rw [← ahead, List.length_drop, List.length_map, Array.length_toList]
  exact Nat.sub_le _ _

/-- What takes a step each is less than all steps, if another step stands before it. -/
theorem Ahead.lt_size {count : Nat} (ahead : Ahead d p (s :: (steps ++ more)))
    (each : count ≤ steps.length)
    : count < d.steps.size := by
  have room := ahead.length_le
  rw [List.length_cons, List.length_append] at room
  omega

end Places

-----------------------------------------------------------------------------------------
-- Parts
-----------------------------------------------------------------------------------------

/-- A reader builds the node of a source from its steps, and goes on behind them. -/
def Builds (d : Document) (reader : Reader) (source : Source) : Prop :=
  ∀ (dealtWith : Bool) (path : Path) {p : Place} {rest : List Step},
    Ahead d p (stepsOf source ++ rest)
    → ∃ q, reader dealtWith path p = .ok (nodeOf source, q) ∧ Ahead d q rest

/-- A source starts with a scalar or with a collection. -/
theorem stepsOf_eq_cons (source : Source)
    : ∃ s more,
        stepsOf source = s :: more
        ∧ s ≠ .sequenceEnd
        ∧ ∀ anchor, s ≠ .alias anchor := by
  cases source <;> exact ⟨_, _, rfl, nofun, nofun⟩

/-- A source is no alias. -/
theorem Builds.followAlias {d : Document} {reader : Reader} {source : Source}
    (builds : Builds d reader source)
    : Builds d (Build.followAlias d reader) source := by
  intro dealtWith path p rest ahead
  obtain ⟨s, more, same, _, direct⟩ := stepsOf_eq_cons source
  obtain ⟨q, built, behind⟩ := builds dealtWith path ahead
  rw [same, List.cons_append] at ahead
  obtain ⟨mark, step⟩ := ahead.step_eq
  refine ⟨q, ?_, behind⟩
  simp only [Build.followAlias, step, bind, Except.bind]
  exact built

section Parts

variable {d : Document} {reader : Reader} {p : Place} {rest : List Step} {fuel : Nat}

/-- The items of a list are built up to its end. -/
theorem items_eq {parts : List (Item Source)}
    (builds : ∀ item ∈ parts, Builds d reader item.value)
    (ahead : Ahead d p (itemSteps parts ++ .sequenceEnd :: rest)) (enough : parts.length < fuel)
    (path : Path) (index : Nat)
    : ∃ q, items d reader path fuel index p = .ok (itemNodes parts, q) ∧ Ahead d q rest := by
  induction parts generalizing p fuel index with
  | nil =>
      obtain ⟨fuel, rfl⟩ := Nat.exists_eq_add_one.mpr enough
      obtain ⟨mark, step⟩ := Ahead.step_eq ahead
      refine ⟨advance p, ?_, Ahead.advance ahead⟩
      simp only [items, step, bind, Except.bind, itemNodes]
  | cons item parts ih =>
      obtain ⟨before, v, after⟩ := item
      obtain ⟨fuel, rfl⟩ := Nat.exists_eq_add_one.mpr (Nat.zero_lt_of_lt enough)
      rw [itemSteps, List.append_assoc] at ahead
      obtain ⟨q, built, behind⟩ := builds _ List.mem_cons_self false (.item path index) ahead
      obtain ⟨last, rest, finished⟩ :=
        ih (fun item member => builds item (List.mem_cons_of_mem _ member)) behind
          (Nat.lt_of_succ_lt_succ enough) (index + 1)
      -- The first step of an item is not taken for the end of the list.
      obtain ⟨s, more, same, inside, _⟩ := stepsOf_eq_cons v
      rw [same, List.cons_append] at ahead
      obtain ⟨mark, step⟩ := ahead.step_eq
      refine ⟨last, ?_, finished⟩
      simp only [items, step, built, rest, bind, Except.bind, itemNodes]

/-- A key is not found among others. -/
theorem findKey?_append_eq_none {found : List (Node × Node)} {key other : String} {v : Node}
    (absent : findKey? found (.string key) = none) (distinct : other ≠ key)
    : findKey? (found ++ [(.string other, v)]) (.string key) = none := by
  have different : Node.same (.string other) (.string key) = false := by
    simpa [Node.same] using distinct
  simp only [findKey?, Option.map_eq_none_iff] at absent ⊢
  simp [List.find?_append, absent, different]

/-- The entries of a map are built up to its end, behind those that are there, if their keys are
new and distinct.
-/
theorem entries_eq {parts : List (Entry Source)}
    (strings : ∀ key, Builds d reader (.string key))
    (builds : ∀ field ∈ parts, Builds d reader field.value) {found : List (Node × Node)}
    (new : ∀ field ∈ parts, findKey? found (.string (spelled field.key)) = none)
    (distinct : (parts.map (fun field => spelled field.key)).Nodup)
    (ahead : Ahead d p (fieldSteps parts ++ .mappingEnd :: rest)) (enough : parts.length < fuel)
    (dealtWith : Bool) (path : Path) (start : Mark)
    : ∃ q,
        entries d reader dealtWith path start fuel found p = .ok (found ++ fieldNodes parts, q)
        ∧ Ahead d q rest := by
  induction parts generalizing p fuel found with
  | nil =>
      obtain ⟨fuel, rfl⟩ := Nat.exists_eq_add_one.mpr enough
      obtain ⟨mark, step⟩ := Ahead.step_eq ahead
      refine ⟨advance p, ?_, Ahead.advance ahead⟩
      simp only [entries, step, bind, Except.bind, fieldNodes, List.append_nil]
  | cons field parts ih =>
      obtain ⟨before, key, toColon, fromColon, v, after⟩ := field
      obtain ⟨fuel, rfl⟩ := Nat.exists_eq_add_one.mpr (Nat.zero_lt_of_lt enough)
      rw [fieldSteps, keyStep, List.cons_append, List.append_assoc] at ahead
      obtain ⟨mark, step⟩ := ahead.step_eq
      obtain ⟨q, builtKey, toValue⟩ := strings key dealtWith path ahead
      obtain ⟨r, built, behind⟩ := builds _ List.mem_cons_self false
        (valuePath path (.scalar none (spelled key) false)) toValue
      have absent := new _ List.mem_cons_self
      obtain ⟨other, distinct⟩ := List.nodup_cons.mp distinct
      have new'
          : ∀ field ∈ parts,
              findKey? (found ++ [(.string (spelled key), nodeOf v)]) (.string (spelled field.key))
                = none := by
        intro field member
        refine findKey?_append_eq_none (new field (List.mem_cons_of_mem _ member)) ?_
        exact fun same => other (List.mem_map.mpr ⟨field, member, same.symm⟩)
      obtain ⟨last, rest, finished⟩ :=
        ih (fun field member => builds field (List.mem_cons_of_mem _ member)) new' distinct behind
          (Nat.lt_of_succ_lt_succ enough)
      refine ⟨last, ?_, finished⟩
      simp only [entries, step, builtKey, nodeOf, absent, built, rest, bind, Except.bind,
        fieldNodes, List.append_assoc, List.singleton_append]

end Parts

-----------------------------------------------------------------------------------------
-- Sources
-----------------------------------------------------------------------------------------

section Sources

variable {d : Document} {depth : Nat}

theorem localTagOf_none (dealtWith : Bool) : localTagOf dealtWith none = none := by
  cases dealtWith <;> rfl

theorem builds_scalar {source : Source} {text : String} {plain : Bool}
    (single : stepsOf source = [.scalar none text plain])
    (resolves : (if plain then Scalar.resolve text.toList else .ok (.string text))
      = .ok (nodeOf source))
    : Builds d (content d depth) source := by
  intro dealtWith path p rest ahead
  rw [single] at ahead
  obtain ⟨mark, step⟩ := Ahead.step_eq ahead
  have node (dealtWith : Bool) : Scalar.node dealtWith none text plain = .ok (nodeOf source) :=
    resolves
  refine ⟨advance p, ?_, Ahead.advance ahead⟩
  rw [content]
  simp only [step, bind, Except.bind, localTagOf_none, wrap, node]

theorem builds_string (glyphs : List Glyph) : Builds d (content d depth) (.string glyphs) :=
  builds_scalar rfl rfl

/-- Each item takes a step. -/
theorem length_itemSteps (parts : List (Item Source))
    : parts.length ≤ (itemSteps parts).length := by
  induction parts with
  | nil => exact Nat.le_refl 0
  | cons item parts ih =>
      obtain ⟨s, more, same, _⟩ := stepsOf_eq_cons item.value
      rw [itemSteps, same, List.length_append, List.length_cons, List.length_cons]
      omega

/-- Each entry takes a step. -/
theorem length_fieldSteps (parts : List (Entry Source))
    : parts.length ≤ (fieldSteps parts).length := by
  induction parts with
  | nil => exact Nat.le_refl 0
  | cons field parts ih =>
      rw [fieldSteps, List.length_cons, List.length_cons, List.length_append]
      omega

/-- A list is built from its items, if there are any. -/
theorem builds_items {source : Source} (parts : List (Item Source))
    (steps : stepsOf source = .sequenceStart none :: (itemSteps parts ++ [.sequenceEnd]))
    (node : nodeOf source = .sequence (itemNodes parts))
    (builds : ∀ item ∈ parts, Builds d (content d depth) item.value)
    : Builds d (content d (depth + 1)) source := by
  intro dealtWith path p rest ahead
  rw [steps, List.cons_append, List.append_assoc] at ahead
  obtain ⟨mark, step⟩ := Ahead.step_eq ahead
  have enough := Ahead.lt_size ahead (length_itemSteps parts)
  obtain ⟨q, built, behind⟩ := items_eq (fun item member => (builds item member).followAlias)
    (Ahead.advance ahead) enough path 0
  refine ⟨q, ?_, behind⟩
  rw [content]
  simp only [step, bind, Except.bind, localTagOf_none, wrap, built, node]

/-- A map is built from its entries, if there are any. -/
theorem builds_fields {source : Source} (parts : List (Entry Source))
    (steps : stepsOf source = .mappingStart none :: (fieldSteps parts ++ [.mappingEnd]))
    (node : nodeOf source = .mapping (fieldNodes parts))
    (distinct : (parts.map (fun field => spelled field.key)).Nodup)
    (builds : ∀ field ∈ parts, Builds d (content d depth) field.value)
    : Builds d (content d (depth + 1)) source := by
  intro dealtWith path p rest ahead
  rw [steps, List.cons_append, List.append_assoc] at ahead
  obtain ⟨start, step⟩ := Ahead.step_eq ahead
  have enough := Ahead.lt_size ahead (length_fieldSteps parts)
  have new : ∀ field ∈ parts, findKey? [] (.string (spelled field.key)) = none := fun _ _ => rfl
  obtain ⟨q, built, behind⟩ := entries_eq (fun key => (builds_string key).followAlias)
    (fun field member => (builds field member).followAlias) new distinct (Ahead.advance ahead)
    enough dealtWith path start
  refine ⟨q, ?_, behind⟩
  rw [content]
  simp only [step, bind, Except.bind, localTagOf_none, wrap, Option.isSome_none, Bool.or_false,
    built, node, List.nil_append]

end Sources

end Build

open Build

/-- The node of a source is built if its maps have distinct keys.
Witness: induction on the depth that the source is within.
-/
theorem Portable.builds {depth : Nat} {source : Source} (portable : Portable source)
    (within : source.Within depth) (d : Document)
    : Builds d (content d depth) source := by
  induction within with
  | null => exact builds_scalar rfl rfl
  | @bool _ b =>
      refine builds_scalar rfl ?_
      cases b <;> rfl
  | @int _ n =>
      refine builds_scalar rfl ?_
      rw [if_pos rfl, String.toList_ofList]
      exact Scalar.resolve_intText n
  | string => exact builds_string _
  | emptyList => exact builds_items [] rfl rfl (List.forall_mem_nil _)
  | list _ _ head tail =>
      cases portable with
      | list first more =>
          refine builds_items (_ :: _)
            (by rw [stepsOf, itemSteps, List.append_assoc]) rfl ?_
          exact List.forall_mem_cons.mpr
            ⟨head first, fun item member => tail item member (more item member)⟩
  | emptyMap => exact builds_fields [] rfl rfl .nil (List.forall_mem_nil _)
  | map _ _ head tail =>
      cases portable with
      | map keys distinct first more =>
          refine builds_fields (_ :: _)
            (by rw [stepsOf, fieldSteps, List.cons_append, List.append_assoc]) rfl distinct ?_
          exact List.forall_mem_cons.mpr
            ⟨head first, fun field member => tail field member (more field member)⟩

/-- The document with the steps of a source is read as its node. -/
theorem Portable.ofDocument_eq {source : Source} (portable : Portable source)
    (within : source.Within depthLimit) {d : Document} (holds : d.Holds (stepsOf source))
    : Node.ofDocument d = .ok (nodeOf source) := by
  have ahead : Ahead d ⟨0, 0⟩ (stepsOf source ++ []) := by
    rw [Ahead, List.drop_zero, List.append_nil, holds.steps]
  obtain ⟨q, built, _⟩ := (portable.builds within d).followAlias false .root ahead
  have present : d.steps.isEmpty = false := by
    obtain ⟨s, more, same, _⟩ := stepsOf_eq_cons source
    have length := ahead.length_le
    rw [same, List.append_nil, List.length_cons] at length
    rw [Array.isEmpty, decide_eq_false_iff_not]
    omega
  rw [Node.ofDocument]
  simp only [present, Bool.false_and, Bool.false_eq_true, if_false, built, bind, Except.bind,
    holds.failure, holds.last, if_true]

-----------------------------------------------------------------------------------------
-- Merge keys
-----------------------------------------------------------------------------------------

/-- No key asks for a merge. -/
theorem applyHere_eq {parts : List (Entry Source)} (keys : ∀ field ∈ parts, PortableKey field)
    : Merge.applyHere (fieldNodes parts) = .ok (fieldNodes parts) := by
  have absent : (fieldNodes parts).findIdx? (fun e => Merge.isMergeKey e.1) = none := by
    induction parts with
    | nil => rfl
    | cons field parts ih =>
        have other : Merge.isMergeKey (.string (spelled field.key)) = false := by
          simpa [Merge.isMergeKey] using (keys field List.mem_cons_self).plain
        rw [fieldNodes, List.findIdx?_cons, other,
          ih (fun field member => keys field (List.mem_cons_of_mem _ member))]
        rfl
  rw [Merge.applyHere, absent]

theorem itemNodes_eq_map (parts : List (Item Source))
    : itemNodes parts = parts.map (fun item => nodeOf item.value) := by
  induction parts with
  | nil => rfl
  | cons item parts ih => rw [itemNodes, ih, List.map_cons]

theorem map_snd_fieldNodes (parts : List (Entry Source))
    : (fieldNodes parts).map Prod.snd = parts.map (fun field => nodeOf field.value) := by
  induction parts with
  | nil => rfl
  | cons field parts ih => rw [fieldNodes, List.map_cons, ih, List.map_cons]

/-- Applying merge keys leaves the node of a portable source as it is. -/
theorem Portable.mergeKeys_eq {source : Source} (portable : Portable source)
    : (nodeOf source).mergeKeys = .ok (nodeOf source) := by
  induction portable with
  | null | bool | int | string => exact Node.mergeKeys_eq_self rfl (List.forall_mem_nil _)
  | emptyList | emptyMap => exact Node.mergeKeys_eq_self rfl (List.forall_mem_nil _)
  | @list first more _ _ head tail =>
      have each : ∀ v ∈ itemNodes (first :: more), v.mergeKeys = .ok v := by
        rw [itemNodes_eq_map]
        exact List.forall_mem_map.mpr (List.forall_mem_cons.mpr ⟨head, tail⟩)
      exact Node.mergeKeys_eq_self rfl each
  | @map first more keys _ _ _ head tail =>
      have here := applyHere_eq keys
      have each : ∀ v ∈ (fieldNodes (first :: more)).map Prod.snd, v.mergeKeys = .ok v := by
        rw [map_snd_fieldNodes]
        exact List.forall_mem_map.mpr (List.forall_mem_cons.mpr ⟨head, tail⟩)
      refine Node.mergeKeys_eq_self ?_ each
      rw [fieldNodes] at here
      simp only [nodeOf, Merge.visited, here, bind, Except.bind]

-----------------------------------------------------------------------------------------
-- Trees
-----------------------------------------------------------------------------------------

mutual
/-- The node of a source describes the tree that the source describes. -/
theorem toValue_nodeOf : ∀ source : Source, (nodeOf source).toValue = .ok source.value
  | .null | .bool _ | .int _ | .string _ | .emptyList _ | .emptyMap _ => rfl
  | .list ⟨_, v, _⟩ more => by
      simp only [nodeOf, Node.toValue, itemsToValues, toValue_nodeOf v,
        itemsToValues_itemNodes more, Source.value, bind, Except.bind]
  | .map ⟨_, key, _, _, v, _⟩ more => by
      simp only [nodeOf, Node.toValue, entriesToFields, keyText, toValue_nodeOf v,
        entriesToFields_fieldNodes more, Source.value, bind, Except.bind]

theorem itemsToValues_itemNodes
    : ∀ more : List (Item Source), itemsToValues (itemNodes more) = .ok (Source.itemValues more)
  | [] => rfl
  | ⟨_, v, _⟩ :: more => by
      simp only [itemNodes, itemsToValues, toValue_nodeOf v, itemsToValues_itemNodes more,
        Source.itemValues, bind, Except.bind]

theorem entriesToFields_fieldNodes
    : ∀ more : List (Entry Source),
        entriesToFields (fieldNodes more) = .ok (Source.fieldValues more)
  | [] => rfl
  | ⟨_, key, _, _, v, _⟩ :: more => by
      simp only [fieldNodes, entriesToFields, keyText, toValue_nodeOf v,
        entriesToFields_fieldNodes more, Source.fieldValues, bind, Except.bind]
end

end WorkflowLint.Yaml
