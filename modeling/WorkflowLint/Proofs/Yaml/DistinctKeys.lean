import WorkflowLint.Proofs.OrderedTrees

/-! In the node of a document no mapping has a key twice: each key is compared with those before it.
An alias stands for a node that is read again from its steps, so it needs no case of its own.
-/

namespace WorkflowLint.Yaml

/-- In each mapping of the tree no key is the same as one before it. -/
inductive Node.DistinctKeys : Node → Prop where
  | null : DistinctKeys .null
  | bool {b : Bool} : DistinctKeys (.bool b)
  | int {n : Int} : DistinctKeys (.int n)
  | float {x : FloatValue} : DistinctKeys (.float x)
  | string {text : String} : DistinctKeys (.string text)
  | sequence {items : List Node} (each : ∀ v ∈ items, DistinctKeys v)
    : DistinctKeys (.sequence items)
  | mapping {entries : List (Node × Node)}
    (distinct : entries.Pairwise (fun a b => a.1.same b.1 = false))
    (each : ∀ e ∈ entries, DistinctKeys e.2)
    : DistinctKeys (.mapping entries)
  | tagged {tag : String} {v : Node} (content : DistinctKeys v) : DistinctKeys (.tagged tag v)

/-- A new key and its value come behind the others. -/
theorem distinctKeys_concat {found : List (Node × Node)} {key v : Node}
    (before : (Node.mapping found).DistinctKeys) (absent : findKey? found key = none)
    (value : v.DistinctKeys)
    : (Node.mapping (found ++ [(key, v)])).DistinctKeys := by
  cases before with
  | mapping distinct each =>
      refine .mapping ?_ ?_
      · refine List.pairwise_append.mpr ⟨distinct, List.pairwise_singleton .., ?_⟩
        intro e member other only
        cases List.mem_singleton.mp only
        rw [findKey?, Option.map_eq_none_iff] at absent
        exact Bool.not_eq_true _ ▸ List.find?_eq_none.mp absent e member
      · exact List.forall_mem_append.mpr ⟨each, List.forall_mem_singleton.mpr value⟩

-----------------------------------------------------------------------------------------
-- Scalars
-----------------------------------------------------------------------------------------

namespace Scalar

variable {v : Node}

theorem intNode_distinctKeys {n : Int} (read : intNode n = .ok v) : v.DistinctKeys := by
  unfold intNode at read
  split at read <;> cases read
  exact .int

theorem resolve_distinctKeys {text : List Char} (read : resolve text = .ok v) : v.DistinctKeys := by
  unfold resolve at read
  split at read
  · cases read
    exact .null
  split at read
  · cases read
    exact .bool
  · exact intNode_distinctKeys read
  split at read
  · cases read
    exact .string
  split at read <;> cases read
  · exact .float
  · exact .string

theorem ofType_distinctKeys {type : CoreType} {text : String} (read : ofType type text = .ok v)
    : v.DistinctKeys := by
  unfold ofType at read
  cases type with
  | boolean =>
      cases found : bool? text.toList <;> simp only [found] at read <;> cases read
      exact .bool
  | integer =>
      cases found : integer? text.toList <;> simp only [found] at read
      · cases read
      · exact intNode_distinctKeys read
  | float =>
      cases found : float? text.toList <;> simp only [found] at read <;> cases read
      exact .float
  | null =>
      simp only at read
      split at read <;> cases read
      exact .null

theorem node_distinctKeys {dealtWith plain : Bool} {tag : Option TagText} {text : String}
    (read : node dealtWith tag text plain = .ok v)
    : v.DistinctKeys := by
  have asPlain
      : (if plain then resolve text.toList else .ok (.string text)) = .ok v → v.DistinctKeys := by
    intro read
    split at read
    · exact resolve_distinctKeys read
    · cases read
      exact .string
  cases tag with
  | none => exact asPlain read
  | some tag =>
      cases dealtWith with
      | true => exact asPlain read
      | false =>
          cases core : coreType? tag with
          | some type =>
              simp only [node, core] at read
              exact ofType_distinctKeys read
          | none =>
              by_cases mark : tag.head? = some 0x21
              · simp only [node, core, mark, if_true] at read
                exact asPlain read
              · simp only [node, core, mark, if_false] at read
                cases read
                exact .string

end Scalar

-----------------------------------------------------------------------------------------
-- Collections
-----------------------------------------------------------------------------------------

namespace Build

/-- Every node that a reader builds has distinct keys. -/
def Keeps (reader : Reader) : Prop :=
  ∀ ⦃dealtWith : Bool⦄ ⦃path : Path⦄ ⦃p q : Place⦄ ⦃v : Node⦄,
    reader dealtWith path p = .ok (v, q) → v.DistinctKeys

variable {d : Document} {reader : Reader} {p q : Place}

theorem Keeps.followAlias (keeps : Keeps reader) : Keeps (Build.followAlias d reader) := by
  intro dealtWith path p q v read
  obtain ⟨⟨s, _⟩, _, read⟩ := exists_of_bind_eq_ok read
  dsimp only at read
  split at read
  · split at read
    · cases read
    · obtain ⟨⟨w, r⟩, target, read⟩ := exists_of_bind_eq_ok read
      cases read
      exact keeps target
  · exact keeps read

theorem Keeps.items (keeps : Keeps reader) {path : Path} {fuel index : Nat} {vs : List Node}
    (read : Build.items d reader path fuel index p = .ok (vs, q))
    : ∀ v ∈ vs, v.DistinctKeys := by
  induction fuel generalizing index p vs with
  | zero =>
      cases read
      exact List.forall_mem_nil _
  | succ fuel ih =>
      obtain ⟨⟨s, _⟩, _, read⟩ := exists_of_bind_eq_ok read
      dsimp only at read
      split at read
      · cases read
        exact List.forall_mem_nil _
      · obtain ⟨⟨v, r⟩, here, read⟩ := exists_of_bind_eq_ok read
        obtain ⟨⟨more, r⟩, later, read⟩ := exists_of_bind_eq_ok read
        cases read
        exact List.forall_mem_cons.mpr ⟨keeps here, ih later⟩

/-- Entries are added to distinct ones as long as they are distinct, by induction on the fuel. -/
theorem Keeps.entries (keeps : Keeps reader) {dealtWith : Bool} {path : Path} {mark : Mark}
    {fuel : Nat} {found es : List (Node × Node)} (before : (Node.mapping found).DistinctKeys)
    (read : Build.entries d reader dealtWith path mark fuel found p = .ok (es, q))
    : (Node.mapping es).DistinctKeys := by
  induction fuel generalizing found p with
  | zero =>
      cases read
      exact before
  | succ fuel ih =>
      obtain ⟨⟨s, _⟩, _, read⟩ := exists_of_bind_eq_ok read
      dsimp only at read
      split at read
      · cases read
        exact before
      · obtain ⟨⟨key, r⟩, _, read⟩ := exists_of_bind_eq_ok read
        dsimp only at read
        split at read
        · cases read
        · rename_i absent
          obtain ⟨⟨v, r⟩, value, read⟩ := exists_of_bind_eq_ok read
          exact ih (distinctKeys_concat before absent (keeps value)) read

theorem distinctKeys_of_wrap {tag : Option String} {r : Except Error (Node × Place)} {v : Node}
    (read : wrap tag r = .ok (v, q)) (inner : ∀ w, r = .ok (w, q) → w.DistinctKeys)
    : v.DistinctKeys := by
  cases tag with
  | none => exact inner v read
  | some tag =>
      cases r with
      | error e => cases read
      | ok built =>
          cases read
          exact .tagged (inner _ rfl)

/-- What is built at a depth has distinct keys if what is built one level below has. -/
theorem keeps_content_of_below {depth : Nat}
    (below : ∀ smaller, depth = smaller + 1 → Keeps (content d smaller))
    : Keeps (content d depth) := by
  intro dealtWith path p q v read
  unfold content at read
  obtain ⟨⟨s, mark⟩, _, read⟩ := exists_of_bind_eq_ok read
  cases s with
  | scalar tag text plain =>
      refine distinctKeys_of_wrap read fun w inner => ?_
      split at inner <;> cases inner
      exact Scalar.node_distinctKeys ‹_›
  | sequenceStart tag =>
      cases depth with
      | zero => cases read
      | succ depth =>
          refine distinctKeys_of_wrap read fun w inner => ?_
          obtain ⟨⟨vs, r⟩, items, inner⟩ := exists_of_bind_eq_ok inner
          cases inner
          exact .sequence ((below depth rfl).followAlias.items items)
  | mappingStart tag =>
      cases depth with
      | zero => cases read
      | succ depth =>
          refine distinctKeys_of_wrap read fun w inner => ?_
          obtain ⟨⟨es, r⟩, entries, inner⟩ := exists_of_bind_eq_ok inner
          cases inner
          have start : (Node.mapping []).DistinctKeys := .mapping .nil (List.forall_mem_nil _)
          exact (below depth rfl).followAlias.entries start entries
  | _ =>
      cases read
      exact .null

/-- What is built at any depth has distinct keys, by induction on the depth. -/
theorem keeps_content (d : Document) (depth : Nat) : Keeps (content d depth) := by
  induction depth with
  | zero => exact keeps_content_of_below nofun
  | succ depth ih =>
      refine keeps_content_of_below fun smaller same => ?_
      cases same
      exact ih

end Build

/-- In the node of a document no mapping has a key twice. -/
theorem Node.distinctKeys_of_ofDocument {d : Document} {v : Node} (read : ofDocument d = .ok v)
    : v.DistinctKeys := by
  unfold ofDocument at read
  split at read
  · cases read
    exact .null
  · obtain ⟨⟨w, q⟩, built, read⟩ := exists_of_bind_eq_ok read
    dsimp only at read
    split at read
    · cases read
    · split at read <;> cases read
      exact (Build.keeps_content d depthLimit).followAlias built

end WorkflowLint.Yaml
