import WorkflowLint.Proofs.Yaml.FlowTokens
import WorkflowLint.Proofs.Yaml.SourceForms

/-! The scanner takes a portable JSON text for the tokens that its parts are. -/

namespace WorkflowLint.Yaml

open WorkflowLint.Json (Space Glyph Source Item Entry WordInt skipBlanks quoted spelled)

namespace Scanner

-----------------------------------------------------------------------------------------
-- Words
-----------------------------------------------------------------------------------------

theorem isWordChar_of_isDigit {c : Char} (digit : c.isDigit = true)
    : Plain.isWordChar c = true := by
  have other (y : Char) (letter : y.isDigit = false) : c ≠ y := by
    rintro rfl
    rw [letter] at digit
    contradiction
  simp [Plain.isWordChar, isBlank, isBreak, Plain.isFlowMark, other]

theorem not_mem_marks_of_isDigit {c : Char} (digit : c.isDigit = true) : c ∉ marks := by
  have none : ∀ y ∈ marks, y.isDigit = false := by simp [marks]
  intro member
  rw [none c member] at digit
  contradiction

theorem isWord_null : IsWord ['n', 'u', 'l', 'l'] :=
  ⟨List.all_eq_true.mp rfl, _, _, rfl, Or.inl (by decide)⟩

theorem isWord_bool (b : Bool) : IsWord (Json.boolText b) := by
  cases b
  · exact ⟨List.all_eq_true.mp rfl, 'f', ['a', 'l', 's', 'e'], rfl, Or.inl (by decide)⟩
  · exact ⟨List.all_eq_true.mp rfl, 't', ['r', 'u', 'e'], rfl, Or.inl (by decide)⟩

theorem isWord_int (n : Int) : IsWord (Binary64.intText n) := by
  have digit {k : Nat} {c : Char} (member : c ∈ digitsOf k) : c.isDigit = true :=
    isDigit_of_mem_digitsOf member
  cases n with
  | ofNat k =>
      obtain ⟨c, more, digits, _⟩ := digitsOf_eq_cons k
      exact ⟨fun c member => isWordChar_of_isDigit (digit member), c, more, digits,
        Or.inl (not_mem_marks_of_isDigit (digit (digits ▸ List.mem_cons_self)))⟩
  | negSucc k =>
      obtain ⟨c, more, digits, _⟩ := digitsOf_eq_cons (k + 1)
      have first := not_mem_marks_of_isDigit (digit (digits ▸ List.mem_cons_self))
      refine ⟨?_, '-', digitsOf (k + 1), rfl, Or.inr ⟨rfl, c, by rw [digits]; rfl, first⟩⟩
      intro c member
      rcases List.mem_cons.mp member with rfl | member
      · rfl
      · exact isWordChar_of_isDigit (digit member)

-----------------------------------------------------------------------------------------
-- Single tokens
-----------------------------------------------------------------------------------------

section Tokens

variable {level : Nat} {done : List Token.Kind} {s : Scanner} {x : Char} {rest : List Char}

/-- The opening mark of a collection. -/
theorem At.opening {kind : Token.Kind} (here : At level done (x :: rest) s)
    (opening : (x, kind) ∈ openings) (passes : s.Passes)
    : ∃ next,
        Leads s next ∧ At (level + 1) (done ++ [kind]) rest next ∧ next.keyAllowed = true := by
  have starts
      : ∀ entry ∈ openings,
          Json.isBlank entry.1 = false
          ∧ isBreak entry.1 = false
          ∧ entry.1 ≠ '#'
          ∧ entry.1 ≠ '\ufeff' := by
    decide
  obtain ⟨solid, starts⟩ := starts _ opening
  obtain ⟨prepared, before, _, within⟩ := here.exists_before solid starts passes
  obtain ⟨next, fetched, after, allowed⟩ := before.flat.fetchFlowStart before.rest kind
  obtain ⟨leads, there⟩ := here.step before within
    ((fetchHere_opening opening before.rest).trans fetched) after (Nat.le_refl _)
  exact ⟨next, leads, there, allowed⟩

/-- The closing mark of a collection. -/
theorem At.closing {kind : Token.Kind} (here : At (level + 1) done (x :: rest) s)
    (closing : (x, kind) ∈ closings)
    : ∃ next,
        Leads s next ∧ At level (done ++ [kind]) rest next ∧ next.cursor.rest = rest := by
  have starts
      : ∀ entry ∈ closings,
          Json.isBlank entry.1 = false
          ∧ isBreak entry.1 = false
          ∧ entry.1 ≠ '#'
          ∧ entry.1 ≠ '\ufeff' := by
    decide
  obtain ⟨solid, starts⟩ := starts _ closing
  obtain ⟨prepared, before, _, within⟩ := here.exists_before solid starts here.flat.passes
  obtain ⟨next, fetched, after⟩ := before.flat.fetchFlowEnd before.rest kind
  obtain ⟨leads, there⟩ := here.step before within
    ((fetchHere_closing closing before.rest).trans fetched) after (Nat.le_refl _)
  exact ⟨next, leads, there, after.rest⟩

/-- The comma between parts of a collection. -/
theorem At.comma (here : At (level + 1) done (',' :: rest) s)
    : ∃ next,
        Leads s next
        ∧ At (level + 1) (done ++ [.flowEntry]) rest next
        ∧ next.keyAllowed = true := by
  obtain ⟨prepared, before, _, within⟩ :=
    here.exists_before (by decide) (by decide) here.flat.passes
  obtain ⟨next, fetched, after, allowed⟩ := before.flat.fetchFlowEntry before.rest
  obtain ⟨leads, there⟩ := here.step before within
    ((fetchHere_comma before.rest).trans fetched) after (Nat.le_refl _)
  exact ⟨next, leads, there, allowed⟩

/-- A string that is no key. -/
theorem At.quoted {glyphs : List Glyph} (here : At (level + 1) done (quoted glyphs rest) s)
    (portable : ∀ g ∈ glyphs, PortableGlyph g)
    : ∃ next,
        Leads s next
        ∧ At (level + 1) (done ++ [.scalar (glyphs.map Glyph.char) false]) rest next := by
  obtain ⟨prepared, before, _, within⟩ :=
    here.exists_before (by decide) (by decide) here.flat.passes
  obtain ⟨next, fetched, after, _⟩ := before.flat.fetchQuoted portable before.rest
  obtain ⟨leads, there⟩ := here.step before within
    ((fetchHere_quote before.rest).trans fetched) after
    (by simp only [List.length_append, List.length_cons]; omega)
  exact ⟨next, leads, there⟩

/-- A word starts a token. -/
theorem IsWord.starts_token {word : List Char} (isWord : IsWord word)
    : ∃ x more,
        word = x :: more
        ∧ Json.isBlank x = false
        ∧ isBreak x = false
        ∧ x ≠ '#'
        ∧ x ≠ '\ufeff' := by
  obtain ⟨x, more, rfl, ordinary | ⟨rfl, _⟩⟩ := isWord.starts
  · have wordChar := isWord.plain x List.mem_cons_self
    simp only [Plain.isWordChar, Bool.and_eq_true, Bool.not_eq_true'] at wordChar
    obtain ⟨⟨⟨blank, unbroken⟩, _⟩, _⟩ := wordChar
    refine ⟨x, more, rfl, ?_, unbroken, ?_, ?_⟩
    · apply Bool.eq_false_iff.mpr
      intro white
      simp only [Json.isBlank, Bool.or_eq_true, decide_eq_true_eq] at white
      rcases white with ((rfl | rfl) | rfl) | rfl <;> contradiction
    · rintro rfl
      exact ordinary (by decide)
    · rintro rfl
      exact ordinary (by decide)
  · exact ⟨'-', more, rfl, by decide⟩

/-- An unquoted word. -/
theorem At.word {word : List Char} (here : At (level + 1) done (word ++ rest) s)
    (isWord : IsWord word) (encloses : Encloses rest)
    : ∃ next, Leads s next ∧ At (level + 1) (done ++ [.scalar word true]) rest next := by
  obtain ⟨x, more, start, solid, starts⟩ := isWord.starts_token
  have text : word ++ rest = x :: (more ++ rest) := by rw [start, List.cons_append]
  rw [text] at here
  obtain ⟨prepared, before, _, within⟩ := here.exists_before solid starts here.flat.passes
  have flow : prepared.inFlow = true := by
    rw [before.flat.inFlow]
    rfl
  have wordText := before.rest.trans text.symm
  obtain ⟨fetchHere, unmarked, uncommented⟩ := fetchHere_word isWord flow wordText
  obtain ⟨next, fetched, after⟩ := before.flat.fetchPlain isWord.plain
    (by rw [start]; exact Nat.succ_pos _) encloses wordText unmarked uncommented
  obtain ⟨leads, there⟩ := here.step before within (fetchHere.trans fetched) after
    (by
      have length := (List.dropWhile_suffix Json.isBlank (l := rest)).length_le
      simp only [skipBlanks, List.length_append]
      omega)
  refine ⟨next, leads, { there with rest := ?_ }⟩
  rw [after.rest, Json.skipBlanks_skipBlanks]

/-- A key with its colon. -/
theorem At.key {key : List Glyph} {toColon : Space}
    (here : At (level + 1) done (Json.quoted key (toColon.1 ++ ':' :: rest)) s)
    (allowed : s.keyAllowed = true) (portable : ∀ g ∈ key, PortableGlyph g)
    (oneLine : ∀ x ∈ toColon.1, isBlank x = true)
    (near : (Json.quoted key toColon.1).length ≤ 1024)
    : ∃ next, Leads s next ∧ At (level + 1) (done ++ keyKinds key) rest next := by
  obtain ⟨prepared, before, same, within⟩ :=
    here.exists_before (by decide) (by decide) here.flat.passes
  obtain ⟨next, fetched, after, cursor, count, saved⟩ :=
    before.flat.fetchQuoted portable before.rest
  -- The string is saved as a candidate, which is still there at the colon.
  have candidate := saved ((same (Nat.succ_pos level)).trans allowed)
  obtain ⟨leads, there⟩ := here.step before within
    ((fetchHere_quote before.rest).trans fetched) after
    (by simp only [List.length_append, List.length_cons]; omega)
  simp only [Json.quoted, List.length_cons, List.length_append] at near
  obtain ⟨ready, behind, kept, counted⟩ := after.flat.exists_before_colon candidate
    (by rw [cursor]; rfl) after.rest oneLine (by rw [cursor]; simp only [Cursor.skip]; omega)
  obtain ⟨t, more, tokens, scalar, earlier⟩ := List.map_eq_cons_iff.mp after.tokens
  obtain ⟨last, valued, flat, kinds, left⟩ := behind.flat.fetchValue kept
    (behind.tokens.trans tokens) (counted.trans count) behind.rest
  have flow : ready.inFlow = true := by
    rw [behind.flat.inFlow]
    rfl
  have colon : Leads next last := by
    refine .step after.flat
      (behind.round.trans ((fetchHere_colon flow behind.rest).trans valued)) ?_ (.refl last)
    rw [left, after.rest, List.length_append, List.length_cons]
    omega
  refine ⟨last, leads.trans colon, flat, ?_, by rw [left]⟩
  rw [kinds, scalar, earlier, before.tokens]
  simp only [List.reverse_cons, here.done, List.append_assoc, keyKinds]
  rfl

end Tokens

-----------------------------------------------------------------------------------------
-- Sources
-----------------------------------------------------------------------------------------

/-- In a flow collection the scanner takes a source for its tokens. -/
def Scans (source : Source) : Prop :=
  ∀ {level : Nat} {done : List Token.Kind} {s : Scanner} {rest : List Char},
    Encloses rest
    → At (level + 1) done (source.spell rest) s
    → ∃ next, Leads s next ∧ At (level + 1) (done ++ kindsOf source) rest next

theorem encloses_space (space : Space) {rest : List Char} (encloses : Encloses rest)
    : Encloses (space.1 ++ rest) := by
  rwa [Encloses, Json.skipBlanks_space]

theorem encloses_items (more : List (Item Source)) (rest : List Char)
    : Encloses (Source.spellItems more (']' :: rest)) := by
  cases more with
  | nil => exact ⟨']', by decide, rfl⟩
  | cons i more => exact ⟨',', by decide, rfl⟩

theorem encloses_fields (more : List (Entry Source)) (rest : List Char)
    : Encloses (Source.spellFields more ('}' :: rest)) := by
  cases more with
  | nil => exact ⟨'}', by decide, rfl⟩
  | cons f more => exact ⟨',', by decide, rfl⟩

section Collections

variable {level : Nat} {done : List Token.Kind} {s : Scanner} {rest : List Char}

/-- Further items are taken for their tokens, up to the closing bracket. -/
theorem scans_items {more : List (Item Source)} (tail : ∀ item ∈ more, Scans item.value)
    (here : At (level + 1) done (Source.spellItems more (']' :: rest)) s)
    : ∃ next, Leads s next ∧ At (level + 1) (done ++ itemKinds more) (']' :: rest) next := by
  induction more generalizing done s with
  | nil => exact ⟨s, .refl s, by simpa [itemKinds, Source.spellItems] using here⟩
  | cons item more ih =>
      obtain ⟨before, v, after⟩ := item
      obtain ⟨s₁, leads₁, there, _⟩ := here.comma
      obtain ⟨s₂, leads₂, there⟩ := tail _ List.mem_cons_self
        (encloses_space after (encloses_items more rest)) there.space
      obtain ⟨s₃, leads₃, there⟩ :=
        ih (fun item member => tail item (List.mem_cons_of_mem _ member)) there.space
      refine ⟨s₃, (leads₁.trans leads₂).trans leads₃, ?_⟩
      simpa only [itemKinds, List.append_assoc, List.singleton_append, List.cons_append,
        List.nil_append] using there

/-- Further entries are taken for their tokens, up to the closing brace. -/
theorem scans_fields {more : List (Entry Source)} (keys : ∀ field ∈ more, PortableKey field)
    (tail : ∀ field ∈ more, Scans field.value)
    (here : At (level + 1) done (Source.spellFields more ('}' :: rest)) s)
    : ∃ next, Leads s next ∧ At (level + 1) (done ++ fieldKinds more) ('}' :: rest) next := by
  induction more generalizing done s with
  | nil => exact ⟨s, .refl s, by simpa [fieldKinds, Source.spellFields] using here⟩
  | cons field more ih =>
      obtain ⟨before, key, toColon, fromColon, v, after⟩ := field
      have portable := keys _ List.mem_cons_self
      obtain ⟨s₁, leads₁, there, allowed⟩ := here.comma
      obtain ⟨s₂, leads₂, there⟩ :=
        there.space.key allowed portable.glyphs portable.oneLine portable.near
      obtain ⟨s₃, leads₃, there⟩ := tail _ List.mem_cons_self
        (encloses_space after (encloses_fields more rest)) there.space
      obtain ⟨s₄, leads₄, there⟩ :=
        ih (fun field member => keys field (List.mem_cons_of_mem _ member))
          (fun field member => tail field (List.mem_cons_of_mem _ member)) there.space
      refine ⟨s₄, ((leads₁.trans leads₂).trans leads₃).trans leads₄, ?_⟩
      simpa only [fieldKinds, List.append_assoc, List.singleton_append, List.cons_append,
        List.nil_append] using there

end Collections

/-- The end of a text is read outside of collections. -/
theorem Flat.fetchEnd (flat : Flat 0 s)
    : ∃ next,
        s.fetchEnd = .ok next
        ∧ next.ended = true
        ∧ next.tokens.map Token.kind = .streamEnd :: s.tokens.map Token.kind
        ∧ next.candidate = none
        ∧ next.outerCandidates = [] := by
  let last : Scanner :=
    { s with
      cursor :=
        { s.cursor with
          mark :=
            if s.cursor.mark.column = 0 then s.cursor.mark
            else { s.cursor.mark with line := s.cursor.mark.line + 1, column := 0 } } }
  have flat' : Flat 0 last := { flat with }
  have fetched
      : s.fetchEnd
        = .ok
            { ({ last with candidate := none }).pushMark .streamEnd 0 with
              keyAllowed := false
              ended := true } := by
    have given : s.fetchEnd = ((last.closeBlocks (-1)).dropCandidate).bind _ := rfl
    rw [given, flat'.closeBlocks_eq, flat'.dropCandidate_eq]
    rfl
  exact ⟨_, fetched, rfl, rfl, rfl, List.eq_nil_of_length_eq_zero flat.level⟩

/-- At any level the scanner takes a source for its tokens, and leaves what is behind it. -/
def Collects (source : Source) : Prop :=
  ∀ {level : Nat} {done : List Token.Kind} {s : Scanner} {rest : List Char},
    At level done (source.spell rest) s
    → s.Passes
    → ∃ next,
        Leads s next ∧ At level (done ++ kindsOf source) rest next ∧ next.cursor.rest = rest

theorem Collects.scans {source : Source} (collects : Collects source) : Scans source := by
  intro level done s rest _ here
  obtain ⟨next, leads, there, _⟩ := collects here here.flat.passes
  exact ⟨next, leads, there⟩

theorem collects_emptyList (inside : Space) : Collects (.emptyList inside) := by
  intro level done s rest here passes
  obtain ⟨s₁, leads₁, there, _⟩ :=
    here.opening (by decide : ('[', Token.Kind.flowSequenceStart) ∈ openings) passes
  obtain ⟨s₂, leads₂, there, left⟩ :=
    there.space.closing (by decide : (']', Token.Kind.flowSequenceEnd) ∈ closings)
  refine ⟨s₂, leads₁.trans leads₂, ?_, left⟩
  simpa only [kindsOf, List.append_assoc, List.singleton_append] using there

theorem collects_emptyMap (inside : Space) : Collects (.emptyMap inside) := by
  intro level done s rest here passes
  obtain ⟨s₁, leads₁, there, _⟩ :=
    here.opening (by decide : ('{', Token.Kind.flowMappingStart) ∈ openings) passes
  obtain ⟨s₂, leads₂, there, left⟩ :=
    there.space.closing (by decide : ('}', Token.Kind.flowMappingEnd) ∈ closings)
  refine ⟨s₂, leads₁.trans leads₂, ?_, left⟩
  simpa only [kindsOf, List.append_assoc, List.singleton_append] using there

theorem collects_list {first : Item Source} {more : List (Item Source)}
    (head : Scans first.value) (tail : ∀ item ∈ more, Scans item.value)
    : Collects (.list first more) := by
  intro level done s rest here passes
  obtain ⟨before, v, after⟩ := first
  obtain ⟨s₁, leads₁, there, _⟩ :=
    here.opening (by decide : ('[', Token.Kind.flowSequenceStart) ∈ openings) passes
  obtain ⟨s₂, leads₂, there⟩ :=
    head (encloses_space after (encloses_items more rest)) there.space
  obtain ⟨s₃, leads₃, there⟩ := scans_items tail there.space
  obtain ⟨s₄, leads₄, there, left⟩ :=
    there.closing (by decide : (']', Token.Kind.flowSequenceEnd) ∈ closings)
  refine ⟨s₄, ((leads₁.trans leads₂).trans leads₃).trans leads₄, ?_, left⟩
  simpa only [kindsOf, List.append_assoc, List.singleton_append, List.cons_append,
    List.nil_append] using there

theorem collects_map {first : Entry Source} {more : List (Entry Source)}
    (keys : ∀ field ∈ first :: more, PortableKey field) (head : Scans first.value)
    (tail : ∀ field ∈ more, Scans field.value)
    : Collects (.map first more) := by
  intro level done s rest here passes
  obtain ⟨before, key, toColon, fromColon, v, after⟩ := first
  have portable := keys _ List.mem_cons_self
  obtain ⟨s₁, leads₁, there, allowed⟩ :=
    here.opening (by decide : ('{', Token.Kind.flowMappingStart) ∈ openings) passes
  obtain ⟨s₂, leads₂, there⟩ :=
    there.space.key allowed portable.glyphs portable.oneLine portable.near
  obtain ⟨s₃, leads₃, there⟩ :=
    head (encloses_space after (encloses_fields more rest)) there.space
  obtain ⟨s₄, leads₄, there⟩ :=
    scans_fields (fun field member => keys field (List.mem_cons_of_mem _ member)) tail there.space
  obtain ⟨s₅, leads₅, there, left⟩ :=
    there.closing (by decide : ('}', Token.Kind.flowMappingEnd) ∈ closings)
  have leads := (((leads₁.trans leads₂).trans leads₃).trans leads₄).trans leads₅
  refine ⟨s₅, leads, ?_, left⟩
  simpa only [kindsOf, List.append_assoc, List.singleton_append, List.cons_append,
    List.nil_append] using there

end Scanner

open Scanner

/-- Witness: induction on the source; a value inside a collection is scanned in it. -/
theorem Portable.scans {source : Source} (portable : Portable source) : Scans source := by
  induction portable with
  | null => exact fun encloses here => here.word isWord_null encloses
  | bool => exact fun encloses here => here.word (isWord_bool _) encloses
  | int => exact fun encloses here => here.word (isWord_int _) encloses
  | string portable => exact fun _ here => here.quoted portable
  | emptyList => exact Collects.scans (collects_emptyList _)
  | list _ _ head tail => exact Collects.scans (collects_list head tail)
  | emptyMap => exact Collects.scans (collects_emptyMap _)
  | map keys _ _ _ head tail => exact Collects.scans (collects_map keys head tail)

/-- A list or a map, at any level, is taken for its tokens. -/
theorem Portable.collects {source : Source} (portable : Portable source)
    (collection : source.isCollection = true)
    : Collects source := by
  cases portable with
  | null | bool | int | string => contradiction
  | emptyList => exact collects_emptyList _
  | list head tail => exact collects_list head.scans (fun item member => (tail item member).scans)
  | emptyMap => exact collects_emptyMap _
  | map keys _ head tail =>
      exact collects_map keys head.scans (fun field member => (tail field member).scans)

-----------------------------------------------------------------------------------------
-- Whole texts
-----------------------------------------------------------------------------------------

/-- Where a text is over, its last round ends the stream. -/
theorem Scanner.At.run_eq {done : List Token.Kind} {s : Scanner} {space : Space}
    (here : At 0 done space.1 s) (passes : s.Passes) (fuel : Nat)
    : ∃ tokens,
        run (fuel + 2) s = (tokens, none) ∧ tokens.map Token.kind = done ++ [.streamEnd] := by
  have text : skipBlanks s.cursor.rest = [] := by
    rw [here.rest]
    have blank := Json.skipBlanks_space space []
    rwa [List.append_nil] at blank
  have starts : Starts s.cursor.rest := by
    rw [Starts, text]
    intro c first
    cases first
  obtain ⟨prepared, before, _⟩ := here.flat.exists_before starts passes
  rw [text] at before
  obtain ⟨next, fetched, ended, tokens, inner, outer⟩ := before.flat.fetchEnd
  have round : s.round = .ok next := by
    rw [before.round, fetchHere, before.rest]
    exact fetched
  refine ⟨next.tokens.reverse, ?_, ?_⟩
  · have dropped
        : next.dropStale = .ok { next with candidate := none, outerCandidates := [] } := by
      rw [dropStale, inner, outer]
      rfl
    rw [here.flat.run_succ round, run]
    by_cases waiting : next.delivered < next.count
    · simp only [waiting, if_true, dropped, ended]
    · simp only [waiting, if_false, ended, if_true]
  · rw [List.map_reverse, tokens, List.reverse_cons, before.tokens, here.done]

/-- The tokens of a portable list or map, with white space around it that has no tabs. -/
theorem Portable.scan_eq {source : Source} (portable : Portable source)
    (collection : source.isCollection = true) {before after : Space} (lead : '\t' ∉ before.1)
    (trail : '\t' ∉ after.1)
    : ∃ tokens,
        Token.scan (before.1 ++ source.spell after.1) = (tokens, none)
        ∧ tokens.map Token.kind = kindsOf source ++ [.streamEnd] := by
  have start : At 0 [] (before.1 ++ source.spell after.1)
      (.ofText (before.1 ++ source.spell after.1)) :=
    ⟨⟨rfl, rfl, rfl, rfl, nofun, nofun⟩, rfl, rfl⟩
  have tabless : '\t' ∉ (before.1 ++ source.spell after.1).takeWhile Json.isBlank := by
    have whole := List.takeWhile_append_dropWhile (p := Json.isBlank) (l := source.spell after.1)
    have solid : (source.spell after.1).dropWhile Json.isBlank = source.spell after.1 :=
      Json.skipBlanks_spell source after.1
    rw [solid, List.append_left_eq_self] at whole
    rwa [List.takeWhile_append_of_pos before.2, whole, List.append_nil]
  obtain ⟨s, leads, there, left⟩ := portable.collects collection start.space (Or.inr tabless)
  rw [List.nil_append] at there
  have passes : s.Passes := Or.inr (by
    rw [left]
    exact fun tab => trail ((List.takeWhile_prefix _).subset tab))
  obtain ⟨more, enough, same⟩ := leads.run_eq 2
  obtain ⟨tokens, ends, kinds⟩ := there.run_eq passes (s.cursor.rest.length + (more - 2))
  refine ⟨tokens, ?_, kinds⟩
  rw [← ends, Token.scan]
  refine same.trans ?_
  congr 1
  omega

end WorkflowLint.Yaml
