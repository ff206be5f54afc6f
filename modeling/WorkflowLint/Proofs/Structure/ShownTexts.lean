import WorkflowLint.Proofs.CodeDiscipline
import WorkflowLint.Proofs.Json.SingleLines

/-! Which texts the messages of a report show.
A message is broken exactly where a text that it shows is, and what messages show of a document are
the values at a few places. Where these are plain, no message is broken.
-/

namespace WorkflowLint

open WorkflowLint.Graph

-----------------------------------------------------------------------------------------
-- Messages
-----------------------------------------------------------------------------------------

/-- The texts that the message of a finding shows, besides the id of the node. -/
def NodeFinding.shown : NodeFinding → List String
  | .variableUntyped name | .outputWithoutSelector name => [name]
  | .modelFieldMissing field | .codeFieldMissing field => [field]
  | .languageUnknown language => [Value.render (some language)]
  | _ => []

/-- The texts that the message of a finding shows. -/
def Finding.shown : Finding → List String
  | .topLevelFieldMissing field | .appFieldMissing field | .notAList field => [field]
  | .kindNotApp kind => [Value.render kind]
  | .modeNotWorkflow mode => [Value.render (some mode)]
  | .idRepeated id | .dataMissing id | .typeMissing id => [id]
  | .endpointUnknown _ id | .unreachable id => [id]
  | .inNode id finding => id :: finding.shown
  | _ => []

/-- No text that is shown has a line break. -/
def NodeFinding.OneLine (f : NodeFinding) : Prop :=
  ∀ text ∈ f.shown, Unbroken text

/-- No text that is shown has a line break. -/
def Finding.OneLine (f : Finding) : Prop :=
  ∀ text ∈ f.shown, Unbroken text

instance (f : NodeFinding) : Decidable f.OneLine :=
  inferInstanceAs (Decidable (∀ text ∈ f.shown, Unbroken text))

theorem unbroken_toString (n : Nat) : Unbroken (toString n) := by
  simpa [Unbroken, digitsOf] using newline_not_mem_digitsOf n

theorem Endpoint.unbroken_name (endpoint : Endpoint) : Unbroken endpoint.name := by
  cases endpoint <;> simp [name, Unbroken]

theorem NodeFinding.unbroken_message_iff (id : String) (f : NodeFinding)
    : Unbroken (f.message id) ↔ Unbroken id ∧ f.OneLine := by
  cases f <;> unfold message OneLine shown <;> simp [Unbroken, and_comm]

/-- A message is on one line where the texts that it shows are, by cases on the finding. -/
theorem Finding.unbroken_message_iff (f : Finding) : Unbroken f.message ↔ f.OneLine := by
  cases f with
  | inNode id f => exact (f.unbroken_message_iff id).trans List.forall_mem_cons.symm
  | idMissing index =>
      have number := unbroken_toString index
      unfold message OneLine shown
      simp_all [Unbroken]
  | endpointMissing index endpoint =>
      have number := unbroken_toString index
      have name := endpoint.unbroken_name
      unfold message OneLine shown
      simp_all [Unbroken]
  | endpointUnknown endpoint id =>
      have name := endpoint.unbroken_name
      unfold message OneLine shown
      simp_all [Unbroken]
  | _ =>
      unfold message OneLine shown
      simp [Unbroken]

-----------------------------------------------------------------------------------------
-- What a document lets messages show
-----------------------------------------------------------------------------------------

/-- The values in the data of a node that the rules of its kind show. -/
inductive NodeKind.Shows (data : Value) : NodeKind → Value → Prop where
  | variable {entries : List Value} {entry name : Value}
    (declared : data.Holds "variables" (.list entries)) (member : entry ∈ entries)
    (named : entry.Holds "variable" name)
    : Shows data .start name
  | output {entries : List Value} {entry name : Value}
    (declared : data.Holds "outputs" (.list entries)) (member : entry ∈ entries)
    (named : entry.Holds "variable" name)
    : Shows data .end name
  | language {language : Value} (stored : data.Holds "code_language" language)
    : Shows data .code language

/-- The values of a document that messages show. -/
inductive Value.Shows (document : Value) : Value → Prop where
  | kind {kind : Value} (stored : document.Holds "kind" kind) : Shows document kind
  | mode {app mode : Value} (atApp : document.Holds "app" app) (stored : app.Holds "mode" mode)
    : Shows document mode
  | id {node id : Value} (here : document.HasNode node) (stored : node.Holds "id" id)
    : Shows document id
  | endpoint {edge id : Value} (endpoint : Endpoint) (here : document.HasEdge edge)
    (stored : edge.Holds endpoint.name id)
    : Shows document id
  | data {node data shown : Value} {kind : NodeKind} (here : document.HasNode node)
    (stored : node.Holds "data" data) (typed : data.Holds "type" (.string kind.tag))
    (shows : kind.Shows data shown)
    : Shows document shown

-----------------------------------------------------------------------------------------
-- The rules of a kind
-----------------------------------------------------------------------------------------

/-- What is rendered of an entry that may be missing, when the value is plain. -/
theorem Value.unbroken_render_get? {v : Value} {key : String}
    (plain : ∀ content, v.Holds key content → content.Plain)
    : Unbroken (render (v.get? key)) := by
  cases found : v.get? key with
  | none => exact (by decide : Unbroken "None")
  | some content => exact (plain content (get?_eq_some_iff.mp found)).unbroken_render

namespace NodeRules

theorem unbroken_entryName {entry : Value}
    (plain : ∀ name, entry.Holds "variable" name → name.Plain)
    : Unbroken (entryName entry) := by
  unfold entryName
  split
  · rename_i name stored
    exact (plain name (Value.get?_eq_some_iff.mp stored)).unbroken_render
  · decide

/-- The two rules on an entry show its name. -/
theorem oneLine_namedFindings {entry : Value} {key : String} {unnamed : NodeFinding}
    {lacking : String → NodeFinding} (bare : unnamed.OneLine)
    (shown : ∀ name, (lacking name).shown = [name])
    (plain : ∀ name, entry.Holds "variable" name → name.Plain)
    : ∀ f ∈ require (entry.has "variable") unnamed
          ++ require (entry.has key) (lacking (entryName entry)),
        f.OneLine := by
  refine List.forall_mem_append.mpr ⟨forall_mem_require bare, forall_mem_require ?_⟩
  rw [NodeFinding.OneLine, shown]
  exact List.forall_mem_singleton.mpr (unbroken_entryName plain)

end NodeRules

open NodeRules in
/-- What the rules of a kind show is on one line where the values in the data are plain. -/
theorem NodeKind.oneLine_findings (kind : NodeKind) (options : Options) {data : Value}
    (plain : ∀ v, kind.Shows data v → v.Plain)
    : ∀ f ∈ kind.findings options data, f.OneLine := by
  cases kind with
  | start =>
      change ∀ f ∈ startFindings data, f.OneLine
      unfold startFindings
      split
      · exact List.forall_mem_singleton.mpr (by decide)
      rename_i declared stored
      simp only [List.forall_mem_flatMap]
      intro entry member
      obtain ⟨entries, rfl, member⟩ := Value.mem_entries_iff.mp member
      exact oneLine_namedFindings (by decide) (fun _ => rfl)
        (fun v named => plain v (.variable (Value.get?_eq_some_iff.mp stored) member named))
  | «end» =>
      change ∀ f ∈ endFindings data, f.OneLine
      unfold endFindings
      split
      · exact List.forall_mem_singleton.mpr (by decide)
      rename_i outputs stored
      simp only [List.forall_mem_flatMap]
      intro entry member
      obtain ⟨entries, rfl, member⟩ := Value.mem_entries_iff.mp member
      exact oneLine_namedFindings (by decide) (fun _ => rfl)
        (fun v named => plain v (.output (Value.get?_eq_some_iff.mp stored) member named))
  | llm =>
      refine List.forall_mem_append.mpr
        ⟨?_, forall_mem_sectionFindings (by decide) (by decide)⟩
      unfold modelFindings
      split
      · exact List.forall_mem_singleton.mpr (by decide)
      · exact forall_mem_fields (by decide)
  | code =>
      refine List.forall_mem_append.mpr
        ⟨List.forall_mem_append.mpr ⟨forall_mem_fields (by decide), ?_⟩,
          forall_mem_require (by decide)⟩
      unfold languageFindings
      split
      · exact List.forall_mem_nil _
      · rename_i language stored
        have shown := plain language (.language (Value.get?_eq_some_iff.mp stored))
        exact forall_mem_require (List.forall_mem_singleton.mpr shown.unbroken_render)
  | variableAggregator =>
      exact List.forall_mem_append.mpr
        ⟨forall_mem_sectionFindings (by decide) (by decide), forall_mem_require (by decide)⟩
  | ifElse => exact forall_mem_sectionFindings (by decide) (by decide)

-----------------------------------------------------------------------------------------
-- The document
-----------------------------------------------------------------------------------------

/-- Where the values that messages show are plain, each finding shows texts on one line.
Witness: one case for each place where findings are made.
-/
theorem FoundIn.oneLine {options : Options} {document : Value} {f : Finding}
    (found : FoundIn options document f) (plain : ∀ v, document.Shows v → v.Plain)
    : f.OneLine := by
  have ident {node : Value} {id : String} (here : node ∈ Validation.checkedNodes document)
      (ident : nodeId? node = some id)
      : Unbroken id := by
    obtain ⟨stored, atId, -, rfl⟩ := nodeId?_eq_some_iff.mp ident
    exact (plain stored (.id (hasNode_of_mem_checkedNodes here) atId)).unbroken_idText
  cases found with
  | topLevelFieldMissing listed =>
      have fields : ∀ field ∈ StructureRules.topLevelFields, Unbroken field := by decide
      exact List.forall_mem_singleton.mpr (fields _ listed)
  | appFieldMissing listed =>
      have fields : ∀ field ∈ StructureRules.appFields, Unbroken field := by decide
      exact List.forall_mem_singleton.mpr (fields _ listed)
  | notAList listed =>
      have fields : ∀ field ∈ ["nodes", "edges"], Unbroken field := by decide
      exact List.forall_mem_singleton.mpr (fields _ listed)
  | kindNotApp =>
      exact List.forall_mem_singleton.mpr
        (Value.unbroken_render_get? (fun v stored => plain v (.kind stored)))
  | modeNotWorkflow atApp stored =>
      exact List.forall_mem_singleton.mpr (plain _ (.mode atApp stored)).unbroken_render
  | outline here about listed =>
      have id := ident here about
      simp only [List.mem_cons, List.not_mem_nil, or_false] at listed
      rcases listed with rfl | rfl | rfl <;> exact List.forall_mem_singleton.mpr id
  | @data _ _ _ kind _ here about stored typed found =>
      have data := kind.oneLine_findings options
        (fun v shows => plain v (.data (hasNode_of_mem_checkedNodes here) stored typed shows))
      exact List.forall_mem_cons.mpr ⟨ident here about, data _ found⟩
  | @endpointUnknown _ endpoint _ here about =>
      obtain ⟨stored, atEnd, -, rfl⟩ := endpointId?_eq_some_iff.mp about
      have shown := plain stored (.endpoint endpoint here atEnd)
      exact List.forall_mem_singleton.mpr shown.unbroken_idText
  | unreachable _ here about => exact List.forall_mem_singleton.mpr (ident here about)
  | _ => exact List.forall_mem_nil _

end WorkflowLint
