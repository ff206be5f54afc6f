import WorkflowLint.Proofs.Structure.FindingOrigins
import WorkflowLint.Proofs.Structure.GraphSection
import WorkflowLint.Proofs.Structure.NamedNodes

/-! What the code of a diagnostic says about it: its weight, whether it is about a node, and by
which rules it was found. Each diagnostic of a report keeps to that.
-/

namespace WorkflowLint

open WorkflowLint.Graph

-----------------------------------------------------------------------------------------
-- Codes
-----------------------------------------------------------------------------------------

/-- The codes that belong to the rules of a kind. -/
def NodeKind.codes : NodeKind → List String
  | .start => ["N001", "N002", "N003"]
  | .end => ["N004", "N005", "N006"]
  | .llm => ["N007", "N008", "N009", "N010"]
  | .code => ["N011", "N012", "N013"]
  | .variableAggregator => ["N014", "N015", "N016"]
  | .ifElse => ["N017", "N018"]

/-- The codes of warnings. -/
def warningCodes : List String :=
  ["N001", "N004", "N010", "N013", "N015", "N018", "T001", "T002"]

/-- The codes of the graph rules. -/
def lintCodes : List String := ["T001", "T002"]

/-- The codes of diagnostics about a node. -/
def nodeCodes : List String :=
  ["G002", "G003", "G004", "T002"] ++ NodeKind.all.flatMap NodeKind.codes

/-- A code belongs to the rules of one kind at most, by the finite table of codes. -/
theorem NodeKind.eq_of_mem_codes {kind other : NodeKind} {code : String} (left : code ∈ kind.codes)
    (right : code ∈ other.codes)
    : kind = other := by
  have table : ∀ code ∈ kind.codes, code ∈ other.codes → kind = other := by
    cases kind <;> cases other <;> decide
  exact table code left right

/-- A text stands somewhere in a message. -/
def Mentions (text message : String) : Prop :=
  ∃ before after, message = before ++ text ++ after

theorem mentions_last (before text : String) : Mentions text (before ++ text) :=
  ⟨before, "", String.append_empty.symm⟩

theorem Mentions.append {text message : String} (mentions : Mentions text message) (more : String)
    : Mentions text (message ++ more) := by
  obtain ⟨before, after, rfl⟩ := mentions
  exact ⟨before, after ++ more, String.append_assoc⟩

namespace NodeFinding

theorem code_mem_warningCodes_iff (f : NodeFinding)
    : f.code ∈ warningCodes ↔ f.severity = .warning := by
  cases f <;> simp only [code, severity] <;> decide

theorem code_mem_nodeCodes (f : NodeFinding) : f.code ∈ nodeCodes := by
  cases f <;> simp only [code] <;> decide

/-- Each message mentions the node, by cases on the finding. -/
theorem mentions_message (id : String) (f : NodeFinding) : Mentions id (f.message id) := by
  unfold message
  split
  all_goals repeat first | with_reducible exact mentions_last _ _ | apply Mentions.append

end NodeFinding

namespace Finding

/-- The code tells the weight, by cases on the finding. -/
theorem code_mem_warningCodes_iff (f : Finding)
    : f.code ∈ warningCodes ↔ f.severity = .warning := by
  cases f with
  | inNode id f => exact f.code_mem_warningCodes_iff
  | _ => simp [code, severity, warningCodes]

/-- The code tells whether a node is named, by cases on the finding. -/
theorem nodeId?_isSome_iff (f : Finding) : f.nodeId?.isSome = true ↔ f.code ∈ nodeCodes := by
  cases f with
  | inNode id f => exact iff_of_true rfl f.code_mem_nodeCodes
  | _ => simp [nodeId?, code, nodeCodes, NodeKind.all, NodeKind.codes]

/-- A finding about a node mentions it, by cases on the finding. -/
theorem mentions_message {f : Finding} {id : String} (about : f.nodeId? = some id)
    : Mentions id f.message := by
  cases f <;> cases about
  case idRepeated => exact mentions_last _ _
  case inNode f => exact f.mentions_message id
  all_goals exact (mentions_last _ _).append _

/-- Only a finding in the data of a node has a code of the rules of a kind. -/
theorem exists_of_code_mem_codes {f : Finding} {kind : NodeKind} (member : f.code ∈ kind.codes)
    : ∃ id g, f = .inNode id g := by
  cases f with
  | inNode id g => exact ⟨id, g, rfl⟩
  | _ => cases kind <;> simp [code, NodeKind.codes] at member

end Finding

namespace NodeRules

variable {P : NodeFinding → Prop} {data : Value}

theorem forall_mem_require {holds : Bool} {f : NodeFinding} (failed : P f)
    : ∀ g ∈ require holds f, P g := by
  cases holds with
  | true => exact List.forall_mem_nil _
  | false => exact List.forall_mem_singleton.mpr failed

theorem forall_mem_fields {v : Value} {keys : List String} {finding : String → NodeFinding}
    (failed : ∀ key ∈ keys, P (finding key))
    : ∀ g ∈ keys.flatMap (fun key => require (v.has key) (finding key)), P g := by
  simp only [List.forall_mem_flatMap]
  exact fun key member => forall_mem_require (failed key member)

theorem forall_mem_sectionFindings {key : String} {missing empty : NodeFinding}
    (absent : P missing) (bare : P empty)
    : ∀ g ∈ sectionFindings data key missing empty, P g := by
  unfold sectionFindings
  split
  · exact List.forall_mem_singleton.mpr absent
  · exact forall_mem_require bare

end NodeRules

open NodeRules in
/-- The rules of a kind use the codes of that kind, rule by rule. -/
theorem NodeKind.code_mem_codes (kind : NodeKind) (options : Options) (data : Value)
    : ∀ f ∈ kind.findings options data, f.code ∈ kind.codes := by
  cases kind with
  | start =>
      change ∀ f ∈ startFindings data, f.code ∈ start.codes
      unfold startFindings
      split
      · exact List.forall_mem_singleton.mpr (by decide)
      · simp only [List.forall_mem_flatMap]
        intro entry _
        exact List.forall_mem_append.mpr
          ⟨forall_mem_require (by decide), forall_mem_require (by simp [NodeFinding.code, codes])⟩
  | «end» =>
      change ∀ f ∈ endFindings data, f.code ∈ «end».codes
      unfold endFindings
      split
      · exact List.forall_mem_singleton.mpr (by decide)
      · simp only [List.forall_mem_flatMap]
        intro entry _
        exact List.forall_mem_append.mpr
          ⟨forall_mem_require (by decide), forall_mem_require (by simp [NodeFinding.code, codes])⟩
  | llm =>
      refine List.forall_mem_append.mpr
        ⟨?_, forall_mem_sectionFindings (by decide) (by decide)⟩
      unfold modelFindings
      split
      · exact List.forall_mem_singleton.mpr (by decide)
      · exact forall_mem_fields (by simp [NodeFinding.code, codes])
  | code =>
      refine List.forall_mem_append.mpr
        ⟨List.forall_mem_append.mpr ⟨forall_mem_fields (by simp [NodeFinding.code, codes]), ?_⟩,
          forall_mem_require (by decide)⟩
      unfold languageFindings
      split
      · exact List.forall_mem_nil _
      · exact forall_mem_require (by simp [NodeFinding.code, codes])
  | variableAggregator =>
      exact List.forall_mem_append.mpr
        ⟨forall_mem_sectionFindings (by decide) (by decide), forall_mem_require (by decide)⟩
  | ifElse => exact forall_mem_sectionFindings (by decide) (by decide)

-----------------------------------------------------------------------------------------
-- Reports
-----------------------------------------------------------------------------------------

/-- What the code of a diagnostic of some weight promises, in the report on a document. -/
structure Disciplined (options : Options) (document : Value) (weight : Severity) (d : Diagnostic)
    : Prop where
  weight : d.code ∈ warningCodes ↔ weight = .warning
  asked : d.code ∈ lintCodes → options.topologyChecks = true
  named : d.nodeId.isSome = true ↔ d.code ∈ nodeCodes
  node
    : ∀ id,
        d.nodeId = some id
        → id ≠ ""
          ∧ Mentions id d.message
          ∧ ∃ node stored,
              document.HasNode node
              ∧ node.Holds "id" stored
              ∧ stored.isTruthy = true
              ∧ stored.idText = id
  kind
    : ∀ (id : String) (kind : NodeKind),
        d.nodeId = some id
        → d.code ∈ kind.codes
        → ∃ node data,
            document.HasNode node
            ∧ nodeId? node = some id
            ∧ node.Holds "data" data
            ∧ data.Holds "type" (.string kind.tag)
            ∧ ∃ f ∈ nodeDataFindings kind options id data, d = f.diagnostic

section Arises

variable {options : Options} {nodes : List Value} {f : Finding}

/-- Only the graph rules use their codes, and only where they are asked for. -/
theorem Arises.asked (arises : Arises options nodes f) (lint : f.code ∈ lintCodes)
    : options.topologyChecks = true := by
  cases arises with
  | general _ error =>
      have listed : ∀ code ∈ lintCodes, code ∈ warningCodes := by decide
      have warning : f.severity = .warning := f.code_mem_warningCodes_iff.mp (listed _ lint)
      cases error.symm.trans warning
  | outline _ _ listed =>
      simp only [List.mem_cons, List.not_mem_nil, or_false] at listed
      rcases listed with rfl | rfl | rfl <;> simp [Finding.code, lintCodes] at lint
  | @data _ _ _ kind g _ _ _ _ found =>
      have apart : ∀ code ∈ kind.codes, code ∉ lintCodes := by cases kind <;> decide
      exact absurd lint (apart _ (kind.code_mem_codes _ _ g found))
  | cycle asked => exact asked
  | unreachable asked => exact asked

/-- A code of the rules of a kind is only used for what they find in the data of such a node. -/
theorem Arises.exists_data {id : String} {kind : NodeKind} (arises : Arises options nodes f)
    (about : f.nodeId? = some id) (listed : f.code ∈ kind.codes)
    : ∃ node ∈ nodes, ∃ data,
        nodeId? node = some id
        ∧ node.Holds "data" data
        ∧ data.Holds "type" (.string kind.tag)
        ∧ f ∈ nodeDataFindings kind options id data := by
  obtain ⟨_, _, rfl⟩ := Finding.exists_of_code_mem_codes listed
  cases about
  cases arises with
  | general unnamed => cases unnamed
  | outline _ _ other => simp at other
  | @data node data _ other _ here ident stored typed found =>
      obtain rfl := NodeKind.eq_of_mem_codes listed (other.code_mem_codes _ _ _ found)
      exact ⟨node, here, data, ident, stored, typed, List.mem_map_of_mem found⟩

/-- The diagnostic of a finding keeps to what its code says. -/
theorem Arises.disciplined {document : Value}
    (arises : Arises options (Validation.checkedNodes document) f)
    : Disciplined options document f.severity f.diagnostic where
  weight := f.code_mem_warningCodes_iff
  asked := arises.asked
  named := f.nodeId?_isSome_iff
  node := by
    intro id about
    obtain ⟨node, here, ident⟩ := arises.exists_node about
    obtain ⟨stored, atId, truthy, text⟩ := nodeId?_eq_some_iff.mp ident
    exact ⟨nodeId?_ne_empty ident, Finding.mentions_message about, node, stored,
      hasNode_of_mem_checkedNodes here, atId, truthy, text⟩
  kind := by
    intro id kind about listed
    obtain ⟨node, here, data, ident, stored, typed, found⟩ := arises.exists_data about listed
    exact ⟨node, data, hasNode_of_mem_checkedNodes here, ident, stored, typed, f, found, rfl⟩

end Arises

/-- Every diagnostic of a report keeps to what its code says: on its weight, on the graph rules, on
the node that it is about, and on the rules that it comes from.
Witness: each finding arises from a part of the document that fixes its code.
-/
theorem validate_disciplined (options : Options) (document : Value)
    : (∀ d ∈ (validate options document).errors, Disciplined options document .error d)
      ∧ ∀ d ∈ (validate options document).warnings, Disciplined options document .warning d := by
  have kept (weight : Severity)
      : ∀ d ∈ diagnostics weight (documentFindings options document),
          Disciplined options document weight d := by
    intro d member
    obtain ⟨f, found, rfl⟩ := List.mem_map.mp member
    obtain ⟨member, same⟩ := List.mem_filter.mp found
    exact of_decide_eq_true same ▸ (arises_of_mem_documentFindings member).disciplined
  exact ⟨kept .error, kept .warning⟩

/-- An end node without outputs, declared twice. -/
theorem validate_disciplined_repeated
    : let node := .map [("data", .map [("type", .string "end")]), ("id", .number (.int 7))]
      let document := .withGraph [] [node, node] []
      (⟨"G002", "Duplicate node ID: 7", some "7"⟩ ∈ (validate .default document).errors
        ∧ Disciplined .default document .error ⟨"G002", "Duplicate node ID: 7", some "7"⟩)
      ∧ ⟨"N004", "End node 7 has no outputs defined", some "7"⟩
          ∈ (validate .default document).warnings
      ∧ Disciplined .default document .warning
          ⟨"N004", "End node 7 has no outputs defined", some "7"⟩ := by
  intro node document
  obtain ⟨errors, warnings⟩ := validate_disciplined .default document
  exact ⟨(and_iff_left_of_imp (errors _)).mpr (by decide),
    (and_iff_left_of_imp (warnings _)).mpr (by decide)⟩

end WorkflowLint
