import WorkflowLint.Cli.Run
import WorkflowLint.Proofs.Json.PrintedSource

/-! A report that is printed as JSON loses nothing: each of its texts is read back as a map that
tells all that the report does, and different reports have different texts.
-/

namespace WorkflowLint

-----------------------------------------------------------------------------------------
-- The trees of reports
-----------------------------------------------------------------------------------------

/-- What is read back for a diagnostic. -/
def Diagnostic.tree (d : Diagnostic) : Value :=
  match d.nodeId with
  | none => .map [("code", .string d.code), ("message", .string d.message)]
  | some id =>
      .map [("code", .string d.code), ("message", .string d.message), ("node_id", .string id)]

/-- What is read back for a report. -/
def Report.tree (r : Report) : Value :=
  .map
    [
      ("errors", .list (r.errors.map Diagnostic.tree)),
      ("is_valid", .bool (decide (r.errors = []))),
      ("warnings", .list (r.warnings.map Diagnostic.tree))
    ]

theorem Diagnostic.tree_injective : Function.Injective Diagnostic.tree := by
  rintro ⟨code, message, nodeId⟩ ⟨otherCode, otherMessage, otherId⟩ same
  cases nodeId <;> cases otherId <;> simp_all [Diagnostic.tree]

theorem Report.tree_injective : Function.Injective Report.tree := by
  rintro ⟨errors, warnings⟩ ⟨otherErrors, otherWarnings⟩ same
  simp only [Report.tree, Value.map.injEq, List.cons.injEq, Prod.mk.injEq, Value.list.injEq,
    true_and, and_true] at same
  rcases same with ⟨sameErrors, _, sameWarnings⟩
  rw [(List.map_inj_right Diagnostic.tree_injective).mp sameErrors,
    (List.map_inj_right Diagnostic.tree_injective).mp sameWarnings]

-----------------------------------------------------------------------------------------
-- Sorting what is printed
-----------------------------------------------------------------------------------------

/-- The entries of a diagnostic are printed in the order of their keys. -/
theorem Diagnostic.sorted_toValue (d : Diagnostic)
    : d.toValue.sorted = d.tree := by
  rcases d with ⟨code, message, nodeId⟩
  have ordered : ["code", "message", "node_id"].Pairwise (· < ·) := by decide
  cases nodeId with
  | none => exact Value.ofFields_eq_map (ordered.sublist (List.sublist_append_left _ ["node_id"]))
  | some id => exact Value.ofFields_eq_map ordered

theorem sortedItems_map_toValue (diagnostics : List Diagnostic)
    : Value.sortedItems (diagnostics.map Diagnostic.toValue) = diagnostics.map Diagnostic.tree := by
  induction diagnostics with
  | nil => rfl
  | cons d more ih =>
      rw [List.map_cons, List.map_cons, Value.sortedItems, d.sorted_toValue, ih]

/-- The verdict is printed in front of the errors, and read back behind them. -/
theorem Report.sorted_toValue (r : Report)
    : r.toValue.sorted = r.tree := by
  have verdict : r.isValid = decide (r.errors = []) := by
    cases found : r.errors <;> simp [Report.isValid, found]
  have first (verdict : Value)
      : Value.insertField "is_valid" verdict [] = [("is_valid", verdict)] :=
    rfl
  have swapped (errors verdict : Value)
      : Value.insertField "errors" errors [("is_valid", verdict)]
        = [("errors", errors), ("is_valid", verdict)] :=
    if_pos (by decide)
  have last (errors verdict : Value)
      : ∀ field ∈ [("errors", errors), ("is_valid", verdict)], field.1 < "warnings" := by
    simp only [List.forall_mem_cons]
    exact ⟨by decide, by decide, List.forall_mem_nil _⟩
  rw [Report.toValue, Value.sorted, Value.ofFields]
  simp only [Value.sortedFields, Value.sorted, sortedItems_map_toValue, verdict, List.foldl_cons,
    List.foldl_nil, first, swapped, Value.insertField_last (last _ _)]
  rfl

-----------------------------------------------------------------------------------------
-- Reading back
-----------------------------------------------------------------------------------------

/-- A diagnostic is a map of strings. -/
theorem Diagnostic.integral_toValue (depth : Nat) (d : Diagnostic)
    : d.toValue.Integral (depth + 1) := by
  rcases d with ⟨code, message, nodeId⟩
  apply Value.Integral.map
  cases nodeId with
  | none =>
      simp only [Option.map_none, Option.toList_none, List.append_nil, List.forall_mem_cons]
      exact ⟨.string, .string, List.forall_mem_nil _⟩
  | some id =>
      simp only [Option.map_some, Option.toList_some, List.cons_append, List.nil_append,
        List.forall_mem_cons]
      exact ⟨.string, .string, .string, List.forall_mem_nil _⟩

/-- A report is a map of a verdict and two lists of diagnostics. -/
theorem Report.integral_toValue (depth : Nat) (r : Report)
    : r.toValue.Integral (depth + 3) := by
  have list (diagnostics : List Diagnostic)
      : (Value.list (diagnostics.map Diagnostic.toValue)).Integral (depth + 2) := by
    apply Value.Integral.list
    intro item member
    obtain ⟨d, _, rfl⟩ := List.mem_map.mp member
    exact d.integral_toValue depth
  apply Value.Integral.map
  simp only [List.forall_mem_cons]
  exact ⟨.bool, list _, list _, List.forall_mem_nil _⟩

/-- A report is read back in any layout, with white space behind it or not. -/
theorem Report.parse_value {layout : Json.Layout} (printing : Json.Printing layout) (r : Report)
    (after : Json.Space)
    : parse .json (String.ofList (printing.value 0 r.toValue ++ after.1)) = .ok r.tree := by
  have read := printing.read_value (r.integral_toValue 124) 0 after
  rw [parse, String.toList_ofList, read, r.sorted_toValue]
  rfl

theorem Report.parse_jsonText (r : Report)
    : parse .json r.toValue.jsonText = .ok r.tree := by
  have read := r.parse_value .compact Json.Layout.tight
  rw [Json.Layout.append_tight] at read
  exact read

theorem Report.parse_prettyJson (r : Report)
    : parse .json r.toValue.prettyJson = .ok r.tree := by
  have read := r.parse_value .indented Json.Layout.tight
  rw [Json.Layout.append_tight] at read
  exact read

theorem Report.parse_reportText (env : Cli.Environment) (r : Report)
    : parse .json (Cli.reportText env .json r) = .ok r.tree := by
  have read := r.parse_value .indented ⟨['\n'], List.forall_mem_singleton.mpr rfl⟩
  rw [String.ofList_append] at read
  exact read

/-- Texts are only the same for the same reports if all are read back. -/
theorem Report.text_inj {text : Report → String} (reads : ∀ r, parse .json (text r) = .ok r.tree)
    (other r : Report)
    : text other = text r ↔ other = r := by
  refine ⟨?_, congrArg text⟩
  intro same
  have trees : (.ok other.tree : Except LoadError Value) = .ok r.tree := by
    rw [← reads other, ← reads r, same]
  exact Report.tree_injective (Except.ok.inj trees)

/-- What is printed of a report, and its compact text, are read back as the map of its verdict, its
errors and its warnings. Only one report has these texts.
-/
theorem Report.printed_reads_back (env : Cli.Environment) (r : Report)
    : parse .json r.toValue.prettyJson = .ok r.tree
      ∧ parse .json r.toValue.jsonText = .ok r.tree
      ∧ parse .json (Cli.reportText env .json r) = .ok r.tree
      ∧ ∀ other : Report,
          (other.toValue.prettyJson = r.toValue.prettyJson ↔ other = r)
          ∧ (other.toValue.jsonText = r.toValue.jsonText ↔ other = r)
          ∧ (Cli.reportText env .json other = Cli.reportText env .json r ↔ other = r) := by
  refine ⟨r.parse_prettyJson, r.parse_jsonText, r.parse_reportText env, ?_⟩
  intro other
  refine ⟨?pretty, ?compact, ?command⟩
  case pretty => exact Report.text_inj (fun r => r.parse_prettyJson) other r
  case compact => exact Report.text_inj (fun r => r.parse_jsonText) other r
  case command => exact Report.text_inj (Report.parse_reportText env) other r

end WorkflowLint
