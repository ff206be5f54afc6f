import Mathlib.Algebra.GroupWithZero.Nat
import WorkflowLint.Proofs.CommandVerdicts
import WorkflowLint.Proofs.Structure.ShownTexts

/-! The text of a report, line by line.
Each diagnostic is written as an entry that ends with a line break, so the text has a line for each
diagnostic and one more for each line break in a message. Where no message has one, the diagnostics
are read back from the lines.
-/

namespace WorkflowLint

/-- The line breaks in a text. -/
def breaks (text : String) : Nat :=
  text.toList.count '\n'

/-- A text cut at its line breaks. -/
def pieces (text : String) : List String :=
  (text.toList.splitOn '\n').map String.ofList

/-- The lines of a text, where each ends with a line break. -/
def lines (text : String) : List String :=
  (pieces text).dropLast

/-- A diagnostic with its label, as it is written in a report. -/
def Report.entry (label : String) (d : Diagnostic) : String :=
  label ++ "[" ++ d.code ++ "]: " ++ d.message

/-- What is written in a report: the warnings, then the errors. -/
def Report.entries (r : Report) : List String :=
  r.warnings.map (entry "warning") ++ r.errors.map (entry "error")

/-- The messages of a report: those of the warnings, then those of the errors. -/
def Report.messages (r : Report) : List String :=
  (r.warnings ++ r.errors).map Diagnostic.message

/-- The labels, codes and messages of a report: the warnings, then the errors. -/
def Report.labelled (r : Report) : List (String × String × String) :=
  r.warnings.map (fun d => ("warning", d.code, d.message))
    ++ r.errors.map (fun d => ("error", d.code, d.message))

/-- Reads a label, a code in brackets behind it, and the message behind a colon and a space. -/
def readEntry (line : String) : String × String × String :=
  let inner := (line.toList.dropWhile (· != '[')).tail
  (
    String.ofList (line.toList.takeWhile (· != '[')),
    String.ofList (inner.takeWhile (· != ']')),
    String.ofList ((inner.dropWhile (· != ']')).drop 3)
  )

-----------------------------------------------------------------------------------------
-- Lines
-----------------------------------------------------------------------------------------

theorem breaks_eq_zero_iff {text : String} : breaks text = 0 ↔ Unbroken text :=
  List.count_eq_zero

theorem breaks_append (first second : String)
    : breaks (first ++ second) = breaks first + breaks second := by
  rw [breaks, String.toList_append, List.count_append]
  rfl

/-- A list is cut into one part more than it has separators, by induction on the list. -/
theorem length_splitOn {α : Type} [DecidableEq α] (separator : α) (xs : List α)
    : (xs.splitOn separator).length = xs.count separator + 1 := by
  induction xs with
  | nil => rfl
  | cons x more ih =>
      rw [List.splitOn_cons_eq_if_modifyHead, List.count_cons]
      split
      · rw [List.length_cons, ih]
      · rw [List.length_modifyHead, ih]

theorem length_pieces (text : String) : (pieces text).length = breaks text + 1 := by
  rw [pieces, List.length_map, length_splitOn]
  rfl

theorem pieces_ne_nil (text : String) : pieces text ≠ [] :=
  List.ne_nil_of_length_pos (length_pieces text ▸ Nat.succ_pos _)

theorem pieces_of_unbroken {text : String} (unbroken : Unbroken text) : pieces text = [text] := by
  rw [pieces, List.splitOn_eq_singleton unbroken, List.map_singleton, String.ofList_toList]

theorem pieces_append_newline (first rest : String)
    : pieces (first ++ "\n" ++ rest) = pieces first ++ pieces rest := by
  have split : (first ++ "\n" ++ rest).toList = first.toList ++ '\n' :: rest.toList := by simp
  rw [pieces, split, List.splitOn_append_cons_self, List.map_append]
  rfl

/-- The lines of texts that each end with a line break are their pieces, by induction on them. -/
theorem lines_unlines (texts : List String)
    : lines (Cli.unlines texts) = texts.flatMap pieces := by
  induction texts with
  | nil => rfl
  | cons text more ih =>
      have first : Cli.unlines (text :: more) = text ++ "\n" ++ Cli.unlines more := by
        rw [Cli.unlines, List.map_cons, String.join_cons]
        rfl
      rw [lines, first, pieces_append_newline, List.dropLast_append_of_ne_nil (pieces_ne_nil _),
        List.flatMap_cons]
      exact congrArg _ ih

/-- A text has a line more for each line break in it. -/
theorem length_flatMap_pieces (texts : List String)
    : (texts.flatMap pieces).length = texts.length + (texts.map breaks).sum := by
  induction texts with
  | nil => rfl
  | cons text more ih =>
      rw [List.flatMap_cons, List.length_append, length_pieces, ih, List.length_cons,
        List.map_cons, List.sum_cons]
      omega

theorem flatMap_pieces_of_unbroken {texts : List String} (unbroken : ∀ text ∈ texts, Unbroken text)
    : texts.flatMap pieces = texts := by
  rw [List.flatMap_congr (fun text member => pieces_of_unbroken (unbroken text member))]
  exact List.flatMap_singleton' texts

-----------------------------------------------------------------------------------------
-- Entries
-----------------------------------------------------------------------------------------

/-- A code without a line break and without the bracket that ends it in an entry. -/
structure TidyCode (code : String) : Prop where
  unbroken : Unbroken code
  bracket : ']' ∉ code.toList

/-- All codes are tidy, by the finite table of codes. -/
theorem NodeFinding.tidyCode (f : NodeFinding) : TidyCode f.code := by
  cases f <;> simp only [code] <;> exact ⟨by decide, by decide⟩

theorem Finding.tidyCode (f : Finding) : TidyCode f.code := by
  cases f with
  | inNode id f => exact f.tidyCode
  | _ => simp only [code]; exact ⟨by decide, by decide⟩

namespace Report

theorem breaks_entry {label : String} {d : Diagnostic} (plain : Unbroken label)
    (tidy : TidyCode d.code)
    : breaks (entry label d) = breaks d.message := by
  have ends : breaks "[" = 0 ∧ breaks "]: " = 0 := by decide
  simp only [entry, breaks_append, ends, breaks_eq_zero_iff.mpr plain,
    breaks_eq_zero_iff.mpr tidy.unbroken, Nat.zero_add]

/-- An entry is read back up to the brackets around its code. -/
theorem readEntry_entry {label : String} {d : Diagnostic} (plain : '[' ∉ label.toList)
    (tidy : TidyCode d.code)
    : readEntry (entry label d) = (label, d.code, d.message) := by
  have before : ∀ c ∈ label.toList, (c != '[') = true :=
    fun c member => bne_iff_ne.mpr (ne_of_mem_of_not_mem member plain)
  have within : ∀ c ∈ d.code.toList, (c != ']') = true :=
    fun c member => bne_iff_ne.mpr (ne_of_mem_of_not_mem member tidy.bracket)
  have split
      : (entry label d).toList
        = label.toList ++ '[' :: (d.code.toList ++ ']' :: ':' :: ' ' :: d.message.toList) := by
    simp [entry]
  simp [readEntry, split, List.takeWhile_append_of_pos before,
    List.dropWhile_append_of_pos before, List.takeWhile_append_of_pos within,
    List.dropWhile_append_of_pos within]

theorem text_eq_unlines (r : Report) : r.text = Cli.unlines r.entries := by
  rw [text, Cli.unlines, entries, List.map_append, List.map_map, List.map_map]
  rfl

section Tidy

variable {r : Report}

/-- The entries have the line breaks of the messages. -/
theorem map_breaks_entries (tidy : ∀ d ∈ r.warnings ++ r.errors, TidyCode d.code)
    : r.entries.map breaks = r.messages.map breaks := by
  obtain ⟨warnings, errors⟩ := List.forall_mem_append.mp tidy
  simp only [entries, messages, List.map_append, List.map_map, Function.comp_def]
  exact congrArg₂ _
    (List.map_congr_left (fun d member => breaks_entry (by decide) (warnings d member)))
    (List.map_congr_left (fun d member => breaks_entry (by decide) (errors d member)))

theorem map_readEntry_entries (tidy : ∀ d ∈ r.warnings ++ r.errors, TidyCode d.code)
    : r.entries.map readEntry = r.labelled := by
  obtain ⟨warnings, errors⟩ := List.forall_mem_append.mp tidy
  simp only [entries, labelled, List.map_append, List.map_map, Function.comp_def]
  exact congrArg₂ _
    (List.map_congr_left (fun d member => readEntry_entry (by decide) (warnings d member)))
    (List.map_congr_left (fun d member => readEntry_entry (by decide) (errors d member)))

/-- The entries are on one line each where the messages are. -/
theorem unbroken_entries (tidy : ∀ d ∈ r.warnings ++ r.errors, TidyCode d.code)
    (unbroken : ∀ message ∈ r.messages, Unbroken message)
    : ∀ text ∈ r.entries, Unbroken text := by
  have zero : ∀ n ∈ r.entries.map breaks, n = 0 := by
    rw [map_breaks_entries tidy]
    exact List.forall_mem_map.mpr
      (fun message member => breaks_eq_zero_iff.mpr (unbroken message member))
  exact fun text member => breaks_eq_zero_iff.mp (zero _ (List.mem_map_of_mem member))

end Tidy

end Report

-----------------------------------------------------------------------------------------
-- Reports on documents
-----------------------------------------------------------------------------------------

section Validate

variable {options : Options} {document : Value}

/-- Each diagnostic of a report is that of a finding in the document. -/
theorem exists_of_mem_validate {d : Diagnostic}
    (member : d ∈ (validate options document).warnings ++ (validate options document).errors)
    : ∃ f ∈ documentFindings options document, d = f.diagnostic := by
  have found (weight : Severity)
      (member : d ∈ diagnostics weight (documentFindings options document))
      : ∃ f ∈ documentFindings options document, d = f.diagnostic := by
    obtain ⟨f, found, rfl⟩ := List.mem_map.mp member
    exact ⟨f, (List.mem_filter.mp found).1, rfl⟩
  exact (List.mem_append.mp member).elim (found .warning) (found .error)

/-- Where the values that messages show are plain, no message has a line break. -/
theorem unbroken_messages (plain : ∀ v, document.Shows v → v.Plain)
    : ∀ message ∈ (validate options document).messages, Unbroken message := by
  refine List.forall_mem_map.mpr ?_
  intro d member
  obtain ⟨f, found, rfl⟩ := exists_of_mem_validate member
  exact f.unbroken_message_iff.mpr ((foundIn_of_mem_documentFindings found).oneLine plain)

end Validate

/-- The text of a report has a line for each diagnostic, warnings first, and one more for each line
break in a message. Without these, the lines are the entries of the diagnostics, and each label,
code and message is read back. Of all values that messages show, only a string brings in a line
break.
-/
theorem validate_text_lines (options : Options) (document : Value)
    : lines (validate options document).text = (validate options document).entries.flatMap pieces
      ∧ (lines (validate options document).text).length
        = (validate options document).warnings.length
          + (validate options document).errors.length
          + ((validate options document).messages.map breaks).sum
      ∧ ((∀ message ∈ (validate options document).messages, Unbroken message)
          → lines (validate options document).text = (validate options document).entries
            ∧ (lines (validate options document).text).map readEntry
              = (validate options document).labelled)
      ∧ ((∀ v, document.Shows v → v.Plain)
          → ∀ message ∈ (validate options document).messages, Unbroken message) := by
  have tidy
      : ∀ d ∈ (validate options document).warnings ++ (validate options document).errors,
          TidyCode d.code := by
    intro d member
    obtain ⟨f, _, rfl⟩ := exists_of_mem_validate member
    exact f.tidyCode
  have cut
      : lines (validate options document).text
        = (validate options document).entries.flatMap pieces := by
    rw [Report.text_eq_unlines, lines_unlines]
  refine ⟨cut, ?count, ?whole, unbroken_messages⟩
  case count =>
    rw [cut, length_flatMap_pieces, Report.map_breaks_entries tidy, Report.entries,
      List.length_append, List.length_map, List.length_map]
  case whole =>
    intro unbroken
    rw [cut, flatMap_pieces_of_unbroken (Report.unbroken_entries tidy unbroken)]
    exact ⟨rfl, Report.map_readEntry_entries tidy⟩

/-- A start node in a document that is no app: a warning and errors, each on its line. -/
theorem validate_text_lines_start
    : let start := .map [("data", .map [("type", .string "start")]), ("id", .string "1")]
      let document := .withGraph [("kind", .string "flow")] [start] []
      (∀ v, document.Shows v → v.Plain)
      ∧ lines (validate .default document).text
        = [
          "warning[N001]: Start node 1 has no variables defined",
          "error[D001]: Missing required top-level field: version",
          "error[D001]: Missing required top-level field: app",
          "error[D002]: Invalid 'kind' value: expected 'app', got 'flow'",
          "error[G006]: Workflow must have at least one 'end' node"
        ] := by
  intro start document
  have plain : ∀ v, document.Shows v → v.Plain := by
    intro v shows
    have flow : (Value.string "flow").Plain := by
      rintro _ ⟨⟩
      decide
    have one : (Value.string "1").Plain := by
      rintro _ ⟨⟩
      decide
    cases shows with
    | kind stored => simp_all [document, Value.Holds, Value.withGraph]
    | mode atApp stored => simp_all [document, Value.Holds, Value.withGraph, List.lookup_cons]
    | id here stored =>
        simp_all [document, start, Value.Holds, Value.withGraph, Value.HasNode, List.lookup_cons]
    | endpoint endpoint here stored =>
        simp_all [document, Value.Holds, Value.withGraph, Value.HasEdge, List.lookup_cons]
    | data here stored typed shows =>
        obtain rfl : _ = start := by
          simpa [document, Value.Holds, Value.withGraph, Value.HasNode, List.lookup_cons] using here
        obtain rfl : _ = Value.map [("type", .string "start")] := by
          simpa [start, Value.Holds, eq_comm] using stored
        cases shows <;> simp_all [Value.Holds, List.lookup_cons]
  obtain ⟨_, _, whole, quiet⟩ := validate_text_lines .default document
  exact ⟨plain, (whole (quiet plain)).1.trans (by decide)⟩

/-- The id of a node that an edge names is shown raw, so one error can be written as two. -/
theorem validate_text_lines_forged
    : let start := .map
        [("data", .map [("type", .string "start"), ("variables", .list [])]), ("id", .string "1")]
      let finish := .map
        [("data", .map [("outputs", .list []), ("type", .string "end")]), ("id", .string "2")]
      let edge := .map [("source", .string "1"), ("target", .string "3\nerror[T001]: forged")]
      let document := .withGraph
        [
          ("app", .map [("mode", .string "workflow"), ("name", .string "n")]),
          ("kind", .string "app"),
          ("version", .string "1")
        ]
        [start, finish] [edge]
      validate .default document
        = ⟨[⟨"E002", "Edge references non-existent target node: 3\nerror[T001]: forged", none⟩], []⟩
      ∧ lines (validate .default document).text
        = [
          "error[E002]: Edge references non-existent target node: 3",
          "error[T001]: forged"
        ] := by
  decide

end WorkflowLint
