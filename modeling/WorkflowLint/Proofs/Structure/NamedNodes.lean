import WorkflowLint.Proofs.Structure.FindingOrigins

/-! Findings about a node carry the id text of a node of the document, which is never empty. -/

namespace WorkflowLint

-----------------------------------------------------------------------------------------
-- Id texts
-----------------------------------------------------------------------------------------

/-- A magnitude is written with at least one character, by cases on its layout. -/
theorem Binary64.magnitudeText_ne_nil (layout : FloatLayout) (d : Decimal)
    : magnitudeText layout d ≠ [] := by
  unfold magnitudeText
  dsimp only
  split
  · exact List.cons_ne_nil _ _
  split
  · rw [List.append_assoc]
    exact List.append_ne_nil_of_right_ne_nil _ (List.cons_ne_nil _ _)
  split
  · exact List.cons_ne_nil _ _
  split
  · exact List.append_ne_nil_of_right_ne_nil _ (List.cons_ne_nil _ _)
  · exact List.append_ne_nil_of_right_ne_nil _ (List.cons_ne_nil _ _)

theorem Json.numberText_ne_nil (n : Number) : numberText n ≠ [] := by
  cases n with
  | int n => cases n with
    | ofNat n => exact Nat.toDigits_ne_nil
    | negSucc n => exact List.cons_ne_nil _ _
  | float x => exact List.append_ne_nil_of_right_ne_nil _ (Binary64.magnitudeText_ne_nil _ _)

/-- The text of a truthy value is not empty. -/
theorem Value.idText_ne_empty {v : Value} (truthy : v.isTruthy = true) : v.idText ≠ "" := by
  have written {text : List Char} (some : text ≠ []) : String.ofList text ≠ "" := by
    simpa [← String.toList_inj] using some
  cases v with
  | null => cases truthy
  | bool b => cases b <;> exact written (by decide)
  | number n => exact written (Json.numberText_ne_nil n)
  | string text => simpa [isTruthy, idText] using truthy
  | list items => exact written (by simp [Json.text])
  | map fields => exact written (by simp [Json.text])

namespace Graph

/-- The id text of a node is that of a truthy value. -/
theorem nodeId?_ne_empty {node : Value} {id : String} (ident : nodeId? node = some id)
    : id ≠ "" := by
  obtain ⟨v, found, rfl⟩ := Option.map_eq_some_iff.mp ident
  exact Value.idText_ne_empty (Value.truthy?_eq_some_iff.mp found).2

theorem ne_empty_of_mem_declaredIds {nodes : List Value} {id : String}
    (declared : id ∈ declaredIds nodes)
    : id ≠ "" := by
  obtain ⟨_, _, ident⟩ := mem_declaredIds.mp declared
  exact nodeId?_ne_empty ident

end Graph

-----------------------------------------------------------------------------------------
-- Findings about nodes
-----------------------------------------------------------------------------------------

/-- Every node that the findings are about has one of these ids. -/
def Names (ids : List String) (found : List Finding) : Prop :=
  ∀ f ∈ found, ∀ id, f.nodeId? = some id → id ∈ ids

/-- What is found in a document is about nodes that its graph declares, if it is about a node. -/
theorem names_documentFindings (options : Options) (document : Value)
    : Names (Graph.declaredIds (Validation.checkedNodes document))
        (documentFindings options document) := by
  intro f member id about
  exact Graph.mem_declaredIds.mpr ((arises_of_mem_documentFindings member).exists_node about)

end WorkflowLint
