import WorkflowLint.Proofs.MapReading
import WorkflowLint.Proofs.ReportReading
import WorkflowLint.Proofs.Structure.GraphLints

/-! The outcome of the validate command. Its exit status is the verdict on the file whatever is
printed and whether or not the graph rules are asked for, and what is printed agrees with it.
-/

namespace WorkflowLint.Cli

/-- Lines of text, each with its end. -/
def unlines (lines : List String) : String :=
  String.join (lines.map (· ++ "\n"))

/-- A list of messages under a heading. -/
def listing (heading : String) (found : List Diagnostic) : List String :=
  heading :: found.map (fun d => "  - " ++ d.message)

/-- What is printed of a report as text: its warnings, if there are any, and an empty line, and
then success alone, or its errors.
-/
def printedLines (env : Environment) (success : Bool) (r : Report) : List String :=
  (if r.warnings = [] then [] else listing (env.heading .yellow "Warnings:") r.warnings ++ [""])
    ++ (if success then [env.heading .green "Workflow validation passed!"]
        else listing (env.heading .red "Validation failed with errors:") r.errors)

/-- What an outcome says about a document that was loaded, or that was not. -/
structure Answers (env : Environment) (options : Options) (format : OutputFormat)
    (loaded : Except LoadError Value) (o : Outcome)
    : Prop where
  success
    : o.exit = 0 ↔ ∃ document, loaded = .ok document ∧ (validate options document).errors = []
  failure : o.exit ≠ 0 → o.exit = 1
  silent : ∀ e, loaded = .error e → o.stdout = ""
  json
    : ∀ document,
        loaded = .ok document
        → format = .json
        → ∃ printed,
            parse .json o.stdout = .ok printed
            ∧ printed.Holds "is_valid" (.bool (decide (o.exit = 0)))
  text
    : ∀ document,
        loaded = .ok document
        → format = .text
        → o.stdout = unlines (printedLines env (o.exit = 0) (validate options document))

-----------------------------------------------------------------------------------------
-- What is printed
-----------------------------------------------------------------------------------------

theorem unlines_append (lines more : List String)
    : unlines (lines ++ more) = unlines lines ++ unlines more := by
  rw [unlines, List.map_append, String.join_append]
  rfl

theorem unlines_singleton (line : String) : unlines [line] = line ++ "\n" :=
  String.join_cons.trans String.append_empty

theorem unlines_listing (heading : String) (found : List Diagnostic)
    : unlines (listing heading found) = heading ++ "\n" ++ String.join (found.map itemLine) := by
  rw [unlines, listing, List.map_cons, List.map_map, String.join_cons]
  rfl

theorem warningText_eq_unlines (env : Environment) (r : Report)
    : warningText env r
      = unlines
          (if r.warnings = [] then []
            else listing (env.heading .yellow "Warnings:") r.warnings ++ [""]) := by
  unfold warningText
  cases r.warnings with
  | nil => rfl
  | cons d more =>
      rw [if_neg (by simp), if_neg (by simp), unlines_append, unlines_listing, unlines_singleton,
        String.empty_append]

theorem verdictText_eq_unlines (env : Environment) (r : Report)
    : verdictText env r
      = unlines
          (if r.isValid then [env.heading .green "Workflow validation passed!"]
            else listing (env.heading .red "Validation failed with errors:") r.errors) := by
  unfold verdictText
  split
  · exact (unlines_singleton _).symm
  · exact (unlines_listing _ _).symm

theorem reportText_eq_unlines (env : Environment) (r : Report)
    : reportText env .text r = unlines (printedLines env r.isValid r) := by
  rw [printedLines, unlines_append, ← warningText_eq_unlines, ← verdictText_eq_unlines]
  rfl

/-- A printed report is read back as a map that tells whether there are errors. -/
theorem holds_isValid_tree (r : Report)
    : r.tree.Holds "is_valid" (.bool (decide (r.errors = []))) :=
  ⟨_, rfl, rfl⟩

-----------------------------------------------------------------------------------------
-- The command
-----------------------------------------------------------------------------------------

/-- Languages that are given replace the usual ones, and the flag is the one that is given. -/
theorem runOptions_eq (topology : Bool) (languages : List String)
    : runOptions topology languages
      = ⟨if languages = [] then ["python3", "javascript"] else languages, topology⟩ := by
  cases languages <;> rfl

/-- The exit status after loading a file or failing to. -/
def exitOf (options : Options) : Except LoadError Value → Nat
  | .error _ => 1
  | .ok document => if (validate options document).isValid then 0 else 1

theorem isValid_eq_decide (r : Report) : r.isValid = decide (r.errors = []) := by
  cases found : r.errors <;> simp [Report.isValid, found]

/-- The exit status after loading a document says whether there are errors. -/
theorem decide_exit (r : Report)
    : decide ((if r.isValid then 0 else 1) = 0) = decide (r.errors = []) := by
  rw [← isValid_eq_decide]
  cases r.isValid <;> rfl

/-- The graph rules do not change the exit status, since they add no errors. -/
theorem exitOf_eq_unasked (languages : List String) (asked : Bool)
    (loaded : Except LoadError Value)
    : exitOf ⟨languages, asked⟩ loaded = exitOf ⟨languages, false⟩ loaded := by
  cases loaded with
  | error e => rfl
  | ok document =>
      have same := (validate_addsLints languages document).errors
      cases asked with
      | false => rfl
      | true => rw [exitOf, exitOf, isValid_eq_decide, isValid_eq_decide, same]

section ValidateOutcome

variable (env : Environment) (options : Options) (format : OutputFormat)
  (verbosity : Log.Verbosity) (path : String) (content : Except ReadError String)

theorem validateOutcome_exit
    : (validateOutcome env options format verbosity path content).exit
      = exitOf options (load path content) := by
  unfold validateOutcome
  cases load path content <;> rfl

/-- The outcome of a validation agrees with the file, by cases on whether it holds a document. -/
theorem validateOutcome_answers
    : Answers env options format (load path content)
        (validateOutcome env options format verbosity path content) := by
  unfold validateOutcome
  cases load path content with
  | error e =>
      exact {
        success := by simp
        failure := fun _ => rfl
        silent := fun _ _ => rfl
        json := by simp
        text := by simp
      }
  | ok document =>
      have status := decide_exit (validate options document)
      exact {
        success := by simpa using decide_eq_decide.mp status
        failure := by simp
        silent := by simp
        json := by
          rintro _ ⟨⟩ rfl
          exact ⟨_, Report.parse_reportText env _, status ▸ holds_isValid_tree _⟩
        text := by
          rintro _ ⟨⟩ rfl
          rw [status, ← isValid_eq_decide]
          exact reportText_eq_unlines env _
      }

end ValidateOutcome

/-- The validate command succeeds where a file holds a document without errors, and prints what
agrees with that. It admits the languages that are given, or else the two usual ones, and runs the
graph rules where they are asked for. Its exit status does not depend on the form of what is
printed nor on the graph rules, which only add warnings. Witness: the outcome of a validation is
fixed by the document.
-/
theorem outcome_answers (env : Environment) (readFile : String → Except ReadError String)
    (clock : Nat → List UInt64) (path : String) (languages : List String)
    (logLevel : Option String)
    : let admitted := if languages = [] then ["python3", "javascript"] else languages
      (∀ topology format,
        Answers env ⟨admitted, topology⟩ format (load path (readFile path))
          (outcome env readFile clock (.validate path topology format languages logLevel)))
      ∧ (∀ topology format otherTopology otherFormat,
          (outcome env readFile clock (.validate path topology format languages logLevel)).exit
            = (outcome env readFile clock
                (.validate path otherTopology otherFormat languages logLevel)).exit)
      ∧ ∀ document,
          AddsLints (validate ⟨admitted, false⟩ document) (validate ⟨admitted, true⟩ document) := by
  intro admitted
  have chosen (topology : Bool) : runOptions topology languages = ⟨admitted, topology⟩ :=
    runOptions_eq topology languages
  refine ⟨?answers, ?exits, ?lints⟩
  case answers =>
    intro topology format
    rw [← chosen]
    exact validateOutcome_answers env _ format _ path (readFile path)
  case exits =>
    intro topology format otherTopology otherFormat
    simp only [outcome, validateOutcome_exit, runOptions]
    rw [exitOf_eq_unasked _ topology, exitOf_eq_unasked _ otherTopology]
  case lints => exact validate_addsLints _

end WorkflowLint.Cli
