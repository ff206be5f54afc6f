import WorkflowLint.Proofs.Yaml.FlowRounds

/-! The tokens of JSON texts. -/

namespace WorkflowLint.Yaml

open WorkflowLint.Json (Space Glyph Source Item Entry skipBlanks)

namespace Scanner

theorem isDocumentMark_eq_false {dash x : Char} (other : x ≠ dash) (rest : List Char)
    : isDocumentMark dash (x :: rest) = false := by
  unfold isDocumentMark
  split
  case h_1 a b c rest same =>
    obtain ⟨rfl, _⟩ := List.cons.inj same
    simp [other]
  case h_2 => rfl

/-- The opening marks of collections with the tokens that they are. -/
def openings : List (Char × Token.Kind) :=
  [('[', .flowSequenceStart), ('{', .flowMappingStart)]

def closings : List (Char × Token.Kind) :=
  [(']', .flowSequenceEnd), ('}', .flowMappingEnd)]

variable {s : Scanner} {x : Char} {rest : List Char}

theorem fetchHere_opening {kind : Token.Kind} (opening : (x, kind) ∈ openings)
    (text : s.cursor.rest = x :: rest)
    : s.fetchHere = s.fetchFlowStart kind := by
  simp only [openings, List.mem_cons, Prod.mk.injEq, List.not_mem_nil, or_false] at opening
  rcases opening with ⟨rfl, rfl⟩ | ⟨rfl, rfl⟩ <;> simp [fetchHere, text, isDocumentMark_eq_false]

theorem fetchHere_closing {kind : Token.Kind} (closing : (x, kind) ∈ closings)
    (text : s.cursor.rest = x :: rest)
    : s.fetchHere = s.fetchFlowEnd kind := by
  simp only [closings, List.mem_cons, Prod.mk.injEq, List.not_mem_nil, or_false] at closing
  rcases closing with ⟨rfl, rfl⟩ | ⟨rfl, rfl⟩ <;> simp [fetchHere, text, isDocumentMark_eq_false]

theorem fetchHere_comma (text : s.cursor.rest = ',' :: rest)
    : s.fetchHere = s.fetchFlowEntry := by
  simp [fetchHere, text, isDocumentMark_eq_false]

theorem fetchHere_quote (text : s.cursor.rest = '"' :: rest)
    : s.fetchHere = s.fetchQuoted false := by
  simp [fetchHere, text, isDocumentMark_eq_false]

theorem fetchHere_colon (flow : s.inFlow = true) (text : s.cursor.rest = ':' :: rest)
    : s.fetchHere = s.fetchValue := by
  simp [fetchHere, text, flow, isDocumentMark_eq_false]

/-- Characters that may start something else than a plain scalar. -/
def marks : List Char :=
  [
    '%', '[', ']', '{', '}', ',', '-', '?', ':', '*', '&', '!', '|', '>', '\'', '"', '#', '@', '`',
    '.', '\ufeff'
  ]

/-- A plain scalar that starts with an ordinary character, or with a dash before another one. -/
structure IsWord (word : List Char) : Prop where
  plain : ∀ c ∈ word, Plain.isWordChar c = true
  starts : ∃ x more, word = x :: more ∧ (x ∉ marks ∨ x = '-' ∧ ∃ y ∈ more.head?, y ∉ marks)

theorem isIndicator_eq_false (ordinary : x ∉ marks) : isIndicator x = false := by
  have known : ∀ y ∈ ",[]\x7b\x7d#&*!|>'\"%@`".toList, y ∈ marks := by simp [marks]
  rw [isIndicator, Bool.eq_false_iff, ne_eq, List.contains_iff_mem]
  exact fun member => ordinary (known x member)

/-- A word in a flow collection is read as a plain scalar. -/
theorem fetchHere_word {word : List Char} (isWord : IsWord word) (flow : s.inFlow = true)
    (text : s.cursor.rest = word ++ rest)
    : s.fetchHere = s.fetchPlain
      ∧ s.cursor.atDocumentMark = false
      ∧ s.cursor.rest.head? ≠ some '#' := by
  obtain ⟨x, more, rfl, ordinary | ⟨rfl, y, next, ordinary⟩⟩ := isWord.starts
  · have indicator := isIndicator_eq_false ordinary
    have wordChar := isWord.plain x List.mem_cons_self
    simp only [marks, List.mem_cons, List.not_mem_nil, or_false, not_or] at ordinary
    simp only [Plain.isWordChar, Bool.and_eq_true, Bool.not_eq_true'] at wordChar
    simp [fetchHere, text, flow, Cursor.atDocumentMark, startsPlain, isDocumentMark_eq_false,
      ordinary, indicator, wordChar]
  · obtain ⟨z, more, rfl⟩ : ∃ z more', more = z :: more' := by
      cases more with
      | nil => contradiction
      | cons z more => exact ⟨z, more, rfl⟩
    obtain rfl := Option.some.inj next
    have wordChar := isWord.plain z (by simp)
    simp only [marks, List.mem_cons, List.not_mem_nil, or_false, not_or] at ordinary
    simp only [Plain.isWordChar, Bool.and_eq_true, Bool.not_eq_true'] at wordChar
    have unmarked : isDocumentMark '-' ('-' :: z :: (more ++ rest)) = false := by
      unfold isDocumentMark
      split
      case h_1 same =>
        obtain ⟨rfl, _⟩ := List.cons.inj (List.cons.inj same).2
        simp [ordinary]
      case h_2 => rfl
    simp [fetchHere, text, flow, Cursor.atDocumentMark, startsPlain, isDocumentMark_eq_false,
      unmarked, isPause, wordChar]

-----------------------------------------------------------------------------------------
-- Rounds one after another
-----------------------------------------------------------------------------------------

/-- Rounds lead from one scanner to another, and each of them takes characters. -/
inductive Leads : Scanner → Scanner → Prop where
  | refl (s : Scanner) : Leads s s
  | step {s next last : Scanner} {level : Nat} (flat : Flat level s) (round : s.round = .ok next)
    (shorter : next.cursor.rest.length < s.cursor.rest.length) (more : Leads next last)
    : Leads s last

theorem Leads.trans {first second third : Scanner} (head : Leads first second)
    (tail : Leads second third)
    : Leads first third := by
  induction head with
  | refl => exact tail
  | step flat round shorter _ ih => exact .step flat round shorter (ih tail)

/-- A round is one step of the run. -/
theorem Flat.run_succ {level : Nat} {s next : Scanner} (flat : Flat level s)
    (round : s.round = .ok next) (fuel : Nat)
    : run (fuel + 1) s = run fuel next := by
  rw [flat.round_eq_fetch] at round
  have running : s.settled.ended = false := flat.settled.running
  by_cases waiting : s.delivered < s.count
  · simp only [Scanner.settled, waiting, if_true] at round running
    simp only [running] at round
    simp only [run, waiting, if_true, flat.dropStale_eq, running, round, Bool.false_eq_true,
      if_false]
  · simp only [Scanner.settled, waiting, if_false] at round running
    simp only [running] at round
    simp only [run, waiting, running, round, Bool.false_eq_true, if_false]

/-- The run goes on from where rounds lead, with no less fuel than what is left takes. -/
theorem Leads.run_eq {s last : Scanner} (leads : Leads s last) (extra : Nat)
    : ∃ more,
        extra ≤ more
        ∧ run (s.cursor.rest.length + extra) s = run (last.cursor.rest.length + more) last := by
  induction leads generalizing extra with
  | refl => exact ⟨extra, Nat.le_refl _, rfl⟩
  | @step s next last level flat round shorter _ ih =>
      obtain ⟨spare, length⟩ := Nat.exists_eq_add_of_lt shorter
      obtain ⟨more, enough, same⟩ := ih (spare + extra)
      refine ⟨more, by omega, ?_⟩
      rw [← same, length, show next.cursor.rest.length + spare + 1 + extra
        = next.cursor.rest.length + (spare + extra) + 1 by omega]
      exact flat.run_succ round _

-----------------------------------------------------------------------------------------
-- Tokens one after another
-----------------------------------------------------------------------------------------

/-- Inside so many collections some tokens have been read, and a text is left up to white space. -/
structure At (level : Nat) (done : List Token.Kind) (text : List Char) (s : Scanner) : Prop where
  flat : Flat level s
  done : (s.tokens.map Token.kind).reverse = done
  rest : skipBlanks s.cursor.rest = skipBlanks text

theorem At.space {level : Nat} {done : List Token.Kind} {space : Space} {text : List Char}
    {s : Scanner} (here : At level done (space.1 ++ text) s)
    : At level done text s :=
  { here with rest := here.rest.trans (Json.skipBlanks_space space text) }

section Steps

variable {level : Nat} {done : List Token.Kind} {s : Scanner} {x : Char} {rest : List Char}

/-- Before the token that starts at a character. -/
theorem At.exists_before (here : At level done (x :: rest) s) (solid : Json.isBlank x = false)
    (starts : isBreak x = false ∧ x ≠ '#' ∧ x ≠ '\ufeff') (passes : s.Passes)
    : ∃ prepared,
        Before s prepared level (x :: rest)
        ∧ (0 < level → prepared.keyAllowed = s.keyAllowed)
        ∧ (x :: rest).length ≤ s.cursor.rest.length := by
  have text : skipBlanks s.cursor.rest = x :: rest := by
    rw [here.rest, Json.skipBlanks_cons solid]
  have starts' : Starts s.cursor.rest := by
    rw [Starts, text]
    rintro _ ⟨rfl⟩
    exact starts
  obtain ⟨prepared, before, same⟩ := here.flat.exists_before starts' passes
  rw [text] at before
  refine ⟨prepared, before, same, ?_⟩
  rw [← text]
  exact (List.dropWhile_suffix _).length_le

/-- A token that is read leads on, with its kind behind the others. -/
theorem At.step {prepared next : Scanner} {level' : Nat} {kind : Token.Kind}
    {text rest' : List Char} (here : At level done text s)
    (before : Before s prepared level (x :: rest))
    (within : (x :: rest).length ≤ s.cursor.rest.length)
    (fetched : prepared.fetchHere = .ok next) (after : After prepared next level' kind rest')
    (shorter : rest'.length ≤ rest.length)
    : Leads s next ∧ At level' (done ++ [kind]) rest' next := by
  constructor
  · refine .step here.flat (before.round.trans fetched) ?_ (.refl next)
    rw [after.rest]
    simp only [List.length_cons] at within
    omega
  · refine ⟨after.flat, ?_, by rw [after.rest]⟩
    rw [after.tokens, before.tokens, List.reverse_cons, here.done]

/-- A scanner inside a flow collection may pass over any white space. -/
theorem Flat.passes (flat : Flat (level + 1) s) : s.Passes := by
  refine Or.inl ?_
  rw [flat.inFlow]
  exact decide_eq_true (Nat.succ_pos level)

end Steps

end Scanner
end WorkflowLint.Yaml
