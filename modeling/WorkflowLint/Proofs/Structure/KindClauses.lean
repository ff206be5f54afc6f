import WorkflowLint.NodeRules
import WorkflowLint.Proofs.MapReading

/-! The rules of a node kind find an error in its data exactly when a clause of the kind fails.
What the rules only warn of has no clause.
-/

namespace WorkflowLint

-----------------------------------------------------------------------------------------
-- Findings without an error among them
-----------------------------------------------------------------------------------------

/-- Nothing that was found weighs as an error. -/
def ErrorFree {α : Type} (severity : α → Severity) (found : List α) : Prop :=
  ∀ f ∈ found, severity f ≠ .error

section ErrorFree

variable {α β : Type} {severity : α → Severity}

theorem errorFree_nil : ErrorFree severity [] := by
  simp [ErrorFree]

theorem errorFree_append {left right : List α}
    : ErrorFree severity (left ++ right) ↔ ErrorFree severity left ∧ ErrorFree severity right :=
  List.forall_mem_append

theorem errorFree_singleton {f : α} : ErrorFree severity [f] ↔ severity f ≠ .error := by
  simp [ErrorFree]

theorem errorFree_flatMap {xs : List β} {find : β → List α}
    : ErrorFree severity (xs.flatMap find) ↔ ∀ x ∈ xs, ErrorFree severity (find x) := by
  simp only [ErrorFree, List.mem_flatMap, forall_exists_index, and_imp]
  exact ⟨fun all x member f found => all f x member found,
    fun all f x member found => all x member f found⟩

variable {v : Value} {key : String} {otherwise : List α} {check : Value → List α}

/-- A section whose absence is an error has to be there and to pass its check. -/
theorem errorFree_required (error : ¬ ErrorFree severity otherwise)
    : ErrorFree severity
          (match v.get? key with
            | none => otherwise
            | some content => check content)
        ↔ ∃ content, v.Holds key content ∧ ErrorFree severity (check content) := by
  simp only [← Value.get?_eq_some_iff]
  cases v.get? key <;> simp [error]

/-- A section that need not be there has to pass its check where it is. -/
theorem errorFree_optional (free : ErrorFree severity otherwise)
    : ErrorFree severity
          (match v.get? key with
            | none => otherwise
            | some content => check content)
        ↔ ∀ content, v.Holds key content → ErrorFree severity (check content) := by
  simp only [← Value.get?_eq_some_iff]
  cases v.get? key <;> simp [free]

end ErrorFree

namespace NodeRules

/-- A condition whose failure is an error has to hold. -/
theorem require_errorFree {holds : Bool} {f : NodeFinding} (error : f.severity = .error)
    : ErrorFree NodeFinding.severity (require holds f) ↔ holds = true := by
  cases holds <;> simp [require, ErrorFree, error]

/-- A condition whose failure is worth a warning may fail. -/
theorem require_errorFree_of_warning {holds : Bool} {f : NodeFinding}
    (warning : f.severity = .warning)
    : ErrorFree NodeFinding.severity (require holds f) := by
  cases holds <;> simp [require, ErrorFree, warning]

/-- A section that may be empty only has to be there. -/
theorem sectionFindings_errorFree {data : Value} {key : String} {missing empty : NodeFinding}
    (error : missing.severity = .error) (warning : empty.severity = .warning)
    : ErrorFree NodeFinding.severity (sectionFindings data key missing empty)
      ↔ data.HasKey key := by
  have absent : ¬ ErrorFree NodeFinding.severity [missing] := by
    simp [errorFree_singleton, error]
  refine (errorFree_required absent).trans ?_
  simp only [require_errorFree_of_warning warning, and_true]
  rfl

/-- A list that need not be there is checked entry by entry where it is a list. -/
theorem listFindings_errorFree {data : Value} {key : String} {missing : NodeFinding}
    {check : Value → List NodeFinding} {Passes : Value → Prop}
    (warning : missing.severity = .warning)
    (each : ∀ entry, ErrorFree NodeFinding.severity (check entry) ↔ Passes entry)
    : ErrorFree NodeFinding.severity
          (match data.get? key with
            | none => [missing]
            | some declared => declared.entries.flatMap check)
        ↔ ∀ items, data.Holds key (.list items) → ∀ entry ∈ items, Passes entry := by
  have absent : ErrorFree NodeFinding.severity [missing] := by
    simp [errorFree_singleton, warning]
  refine (errorFree_optional absent).trans ?_
  simp only [errorFree_flatMap, each]
  constructor
  · intro all items stored entry member
    exact all (.list items) stored entry member
  · intro all declared stored entry member
    obtain ⟨items, rfl, inside⟩ := Value.mem_entries_iff.mp member
    exact all items stored entry inside

end NodeRules

-----------------------------------------------------------------------------------------
-- The clauses of each kind
-----------------------------------------------------------------------------------------

/-- What the data of a node of a kind has to hold. -/
def NodeKind.Clauses (options : Options) (data : Value) : NodeKind → Prop
  | .start =>
      ∀ items,
        data.Holds "variables" (.list items)
        → ∀ entry ∈ items, entry.HasKey "variable" ∧ entry.HasKey "type"
  | .end =>
      ∀ items,
        data.Holds "outputs" (.list items)
        → ∀ entry ∈ items, entry.HasKey "variable" ∧ entry.HasKey "value_selector"
  | .llm =>
      (∃ model,
        data.Holds "model" model
        ∧ model.HasKey "provider"
        ∧ model.HasKey "name"
        ∧ model.HasKey "mode")
      ∧ data.HasKey "prompt_template"
  | .code =>
      data.HasKey "code"
      ∧ ∃ language ∈ options.codeLanguages, data.Holds "code_language" (.string language)
  | .variableAggregator => data.HasKey "variables" ∧ data.HasKey "output_type"
  | .ifElse => data.HasKey "conditions"

namespace NodeRules

theorem startFindings_errorFree (options : Options) (data : Value)
    : ErrorFree NodeFinding.severity (startFindings data)
      ↔ NodeKind.start.Clauses options data := by
  apply listFindings_errorFree rfl
  intro entry
  simp only [variableFindings, errorFree_append, Value.has_iff,
    require_errorFree (f := .variableUnnamed) rfl,
    require_errorFree (f := .variableUntyped (entryName entry)) rfl]

theorem endFindings_errorFree (options : Options) (data : Value)
    : ErrorFree NodeFinding.severity (endFindings data)
      ↔ NodeKind.end.Clauses options data := by
  apply listFindings_errorFree rfl
  intro entry
  simp only [outputFindings, errorFree_append, Value.has_iff,
    require_errorFree (f := .outputUnnamed) rfl,
    require_errorFree (f := .outputWithoutSelector (entryName entry)) rfl]

/-- The model has to be a map with its three keys; other values have none of them. -/
theorem modelFindings_errorFree (data : Value)
    : ErrorFree NodeFinding.severity (modelFindings data)
      ↔ ∃ model,
          data.Holds "model" model
          ∧ model.HasKey "provider"
          ∧ model.HasKey "name"
          ∧ model.HasKey "mode" := by
  have absent : ¬ ErrorFree NodeFinding.severity [.modelMissing] := by
    simp [errorFree_singleton, NodeFinding.severity]
  refine (errorFree_required absent).trans ?_
  simp only [errorFree_flatMap, require_errorFree (f := .modelFieldMissing _) rfl,
    Value.has_iff, modelFields, List.forall_mem_cons, List.not_mem_nil, false_implies,
    implies_true, and_true]

theorem llmFindings_errorFree (options : Options) (data : Value)
    : ErrorFree NodeFinding.severity (llmFindings data)
      ↔ NodeKind.llm.Clauses options data := by
  rw [llmFindings, errorFree_append, modelFindings_errorFree, sectionFindings_errorFree rfl rfl]
  rfl

theorem isKnownLanguage_iff {languages : List String} {language : Value}
    : isKnownLanguage languages language = true
      ↔ ∃ name ∈ languages, language = .string name := by
  simp only [isKnownLanguage, Option.any_eq_true, Value.asString?_eq_some_iff, decide_eq_true_eq]
  exact ⟨fun ⟨name, same, known⟩ => ⟨name, known, same⟩,
    fun ⟨name, known, same⟩ => ⟨name, same, known⟩⟩

/-- A language that is there has to be a known string, and it has to be there. -/
theorem codeFindings_errorFree (options : Options) (data : Value)
    : ErrorFree NodeFinding.severity (codeFindings options.codeLanguages data)
      ↔ NodeKind.code.Clauses options data := by
  have language
      : ErrorFree NodeFinding.severity (languageFindings options.codeLanguages data)
        ↔ ∀ content,
            data.Holds "code_language" content
            → ∃ name ∈ options.codeLanguages, content = .string name := by
    refine (errorFree_optional errorFree_nil).trans ?_
    simp only [require_errorFree (f := .languageUnknown _) rfl, isKnownLanguage_iff]
  simp only [codeFindings, errorFree_append, errorFree_flatMap,
    require_errorFree (f := .codeFieldMissing _) rfl, Value.has_iff, codeFields,
    List.forall_mem_cons, List.not_mem_nil, false_implies, implies_true, and_true, language,
    require_errorFree_of_warning (f := .codeWithoutOutputs) rfl, and_assoc,
    Value.hasKey_and_forall_iff, NodeKind.Clauses]
  apply and_congr_right
  intro _
  constructor
  · intro known
    rcases known with ⟨_, stored, name, listed, rfl⟩
    exact ⟨name, listed, stored⟩
  · intro known
    rcases known with ⟨name, listed, stored⟩
    exact ⟨_, stored, name, listed, rfl⟩

theorem aggregatorFindings_errorFree (options : Options) (data : Value)
    : ErrorFree NodeFinding.severity (aggregatorFindings data)
      ↔ NodeKind.variableAggregator.Clauses options data := by
  rw [aggregatorFindings, errorFree_append, sectionFindings_errorFree rfl rfl,
    require_errorFree rfl, Value.has_iff]
  rfl

theorem ifElseFindings_errorFree (options : Options) (data : Value)
    : ErrorFree NodeFinding.severity (ifElseFindings data)
      ↔ NodeKind.ifElse.Clauses options data :=
  sectionFindings_errorFree rfl rfl

end NodeRules

/-- The rules of a kind find no error exactly when the data meets the clauses of the kind. -/
theorem NodeKind.findings_errorFree (kind : NodeKind) (options : Options) (data : Value)
    : ErrorFree NodeFinding.severity (kind.findings options data)
      ↔ kind.Clauses options data := by
  cases kind with
  | start => exact NodeRules.startFindings_errorFree options data
  | «end» => exact NodeRules.endFindings_errorFree options data
  | llm => exact NodeRules.llmFindings_errorFree options data
  | code => exact NodeRules.codeFindings_errorFree options data
  | variableAggregator => exact NodeRules.aggregatorFindings_errorFree options data
  | ifElse => exact NodeRules.ifElseFindings_errorFree options data

end WorkflowLint
