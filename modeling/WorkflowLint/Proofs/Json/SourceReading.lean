import WorkflowLint.Proofs.Json.IntegerText
import WorkflowLint.Proofs.Json.Source

/-! Reading a source gives the tree that it describes, whatever its layout and its spellings. -/

namespace WorkflowLint.Json

/-- White space, and the marks of the collection around a value. -/
def closers : List Char :=
  [' ', '\t', '\n', '\r', ',', ']', '}']

/-- What may follow a value: the end, white space, or a mark of the collection around it. -/
def Closes (rest : List Char) : Prop :=
  ∀ c ∈ rest.head?, c ∈ closers

-----------------------------------------------------------------------------------------
-- White space
-----------------------------------------------------------------------------------------

theorem skipBlanks_space (space : Space) (rest : List Char)
    : skipBlanks (space.1 ++ rest) = skipBlanks rest :=
  List.dropWhile_append_of_pos space.2

theorem skipBlanks_cons {c : Char} (solid : isBlank c = false) (rest : List Char)
    : skipBlanks (c :: rest) = c :: rest := by
  rw [skipBlanks, List.dropWhile_cons_of_neg (by simp [solid])]

theorem skipBlanks_skipBlanks (rest : List Char)
    : skipBlanks (skipBlanks rest) = skipBlanks rest := by
  let space : Space := ⟨rest.takeWhile isBlank, List.all_eq_true.mp List.all_takeWhile⟩
  have whole : space.1 ++ skipBlanks rest = rest := List.takeWhile_append_dropWhile
  rw [← skipBlanks_space space (skipBlanks rest), whole]

theorem closes_space (space : Space) {rest : List Char} (closes : Closes rest)
    : Closes (space.1 ++ rest) := by
  obtain ⟨blanks, blank⟩ := space
  cases blanks with
  | nil => exact closes
  | cons c more =>
      have first := blank c List.mem_cons_self
      simp only [isBlank, Bool.or_eq_true, decide_eq_true_eq] at first
      rintro _ ⟨rfl⟩
      rcases first with ((rfl | rfl) | rfl) | rfl <;> decide

theorem closes_of_mem {c : Char} (closer : c ∈ closers) (rest : List Char)
    : Closes (c :: rest) := by
  rintro _ ⟨rfl⟩
  exact closer

-----------------------------------------------------------------------------------------
-- Strings
-----------------------------------------------------------------------------------------

/-- The escape of a named character is read as that character. -/
theorem readEscape_named {letter c : Char} (listed : (letter, c) ∈ namedEscapes)
    (rest : List Char)
    : readEscape (letter :: rest) = .ok (c, rest) := by
  simp only [namedEscapes, List.mem_cons, Prod.mk.injEq, List.not_mem_nil, or_false] at listed
  rcases listed with ⟨rfl, rfl⟩ | ⟨rfl, rfl⟩ | ⟨rfl, rfl⟩ | ⟨rfl, rfl⟩ | ⟨rfl, rfl⟩ | ⟨rfl, rfl⟩
    | ⟨rfl, rfl⟩ | ⟨rfl, rfl⟩ <;> rfl

/-- Four digits are read as the number that they spell. -/
theorem readHex_digits {s t u v : Char} {a b c d : Nat} (first : hexValue? s = some a)
    (second : hexValue? t = some b) (third : hexValue? u = some c) (fourth : hexValue? v = some d)
    (rest : List Char)
    : readHex (s :: t :: u :: v :: rest) = .ok (codeOf a b c d, rest) := by
  have digits : [s, t, u, v].mapM hexValue? = some [a, b, c, d] := by
    simp [first, second, third, fourth]
  simp only [readHex, List.take_succ_cons, List.take_zero, digits]
  rfl

/-- A number outside the surrogates is read as the character that has it. -/
theorem readCodePoint_scalar {text rest : List Char} {n : Nat} (read : readHex text = .ok (n, rest))
    (scalar : ¬ (0xD800 ≤ n ∧ n ≤ 0xDFFF))
    : readCodePoint text = .ok (Char.ofNat n, rest) := by
  simp only [readCodePoint, read, bind, Except.bind]
  rw [if_neg (by omega), if_neg (by omega)]

/-- One glyph in front of a text gives one character. -/
theorem readChars_glyph (g : Glyph) (fuel : Nat) (rest : List Char)
    : readChars (fuel + 1) (g.text ++ rest)
      = (readChars fuel rest).map (fun r => (g.char :: r.1, r.2)) := by
  obtain ⟨text, char, spells⟩ := g
  have step (c : Char) (r : Except Failure (List Char × List Char))
      : r.bind (fun r => .ok (c :: r.1, r.2)) = r.map (fun r => (c :: r.1, r.2)) := by
    cases r <;> rfl
  cases spells with
  | plain visible quote backslash =>
      simp only [List.singleton_append]
      rw [readChars, if_neg (by omega)]
      · exact step _ _
      · exact quote
      · exact backslash
  | named listed =>
      simp only [List.cons_append, List.nil_append]
      rw [readChars, readEscape_named listed]
      exact step _ _
  | @numbered s t u v a b c d first second third fourth scalar =>
      simp only [List.cons_append, List.nil_append]
      rw [readChars, readEscape,
        readCodePoint_scalar (readHex_digits first second third fourth rest) scalar]
      exact step _ _

/-- Glyphs up to the closing quote are read as their characters. -/
theorem readChars_glyphs (glyphs : List Glyph) (rest : List Char) {fuel : Nat}
    (enough : glyphs.length < fuel)
    : readChars fuel (glyphs.flatMap Glyph.text ++ '"' :: rest)
      = .ok (glyphs.map Glyph.char, rest) := by
  induction glyphs generalizing fuel with
  | nil =>
      obtain ⟨fuel, rfl⟩ := Nat.exists_eq_add_one.mpr enough
      rfl
  | cons g glyphs ih =>
      obtain ⟨fuel, rfl⟩ := Nat.exists_eq_add_one.mpr (Nat.zero_lt_of_lt enough)
      rw [List.flatMap_cons, List.append_assoc, readChars_glyph, ih (by simpa using enough)]
      rfl

/-- A quoted string behind its opening quote is read as the string that it spells. -/
theorem readString_quoted (glyphs : List Glyph) (rest : List Char)
    : readString (glyphs.flatMap Glyph.text ++ '"' :: rest) = .ok (spelled glyphs, rest) := by
  have short := length_le_length_flatMap_text glyphs
  rw [readString, readChars_glyphs glyphs rest]
  · rfl
  · rw [List.length_append, List.length_cons]
    omega

-----------------------------------------------------------------------------------------
-- Integers
-----------------------------------------------------------------------------------------

theorem Closes.head?_any_isDigit {rest : List Char} (closes : Closes rest)
    : rest.head?.any isDigit = false := by
  have none : ∀ c ∈ closers, isDigit c = false := by simp [closers, isDigit]; decide
  cases rest with
  | nil => rfl
  | cons c more => exact none c (closes c rfl)

/-- Digits are gathered up to a character that is none, as long as they fit. -/
theorem gather_digits {digits rest : List Char} (digit : ∀ c ∈ digits, c.isDigit = true)
    (stop : rest.head?.any isDigit = false) {bound n : Nat}
    (fits : Nat.ofDigitChars 10 digits n ≤ bound)
    : gather bound n (digits ++ rest) = (Nat.ofDigitChars 10 digits n, rest) := by
  induction digits generalizing n with
  | nil =>
      cases rest with
      | nil => rfl
      | cons c more =>
          have none : digit? c = none := by simpa [isDigit] using stop
          simp only [List.nil_append, gather, none, Nat.ofDigitChars_nil]
  | cons c more ih =>
      rw [Nat.ofDigitChars_cons] at fits ⊢
      have small := Nat.le_trans (le_ofDigitChars more _) fits
      rw [List.cons_append, gather, digit?_of_isDigit (digit c List.mem_cons_self)]
      simp only [small, if_true]
      exact ih (fun x member => digit x (List.mem_cons_of_mem c member)) fits

/-- The digits of a number that fits into a word are read as it, with the given sign. -/
theorem readNumber_digitsOf (negative : Bool) {n : Nat} (fits : n ≤ wordBound)
    {rest : List Char} (closes : Closes rest)
    : readNumber negative (digitsOf n ++ rest) = integer negative n rest := by
  have stop := closes.head?_any_isDigit
  have gathered : gather wordBound 0 (digitsOf n ++ rest) = (n, rest) := by
    have total := ofDigitChars_digitsOf n
    rw [gather_digits (fun _ => isDigit_of_mem_digitsOf) stop (by rwa [total]), total]
  have none : rest.takeWhile isDigit = [] ∧ rest.dropWhile isDigit = rest := by
    cases rest with
    | nil => exact ⟨rfl, rfl⟩
    | cons c more => simp [show isDigit c = false from stop]
  obtain ⟨c, more, digits, zero⟩ := digitsOf_eq_cons n
  have digit : isDigit c = true := by
    rw [isDigit_eq]
    exact isDigit_of_mem_digitsOf (digits ▸ List.mem_cons_self)
  have canonical : ¬ (c = '0' ∧ (more ++ rest).head?.any isDigit = true) := by
    rintro ⟨rfl, more_digits⟩
    rw [digitsOf_eq_zero_cons digits, List.nil_append, stop] at more_digits
    exact absurd more_digits (by decide)
  rw [digits, List.cons_append] at gathered ⊢
  simp only [readNumber, digit, Bool.not_true, Bool.false_eq_true, if_false, if_neg canonical,
    gathered, none, List.length_nil]
  cases rest with
  | nil => rfl
  | cons x rest =>
      have closer := closes x rfl
      simp only [closers, List.mem_cons, List.not_mem_nil, or_false] at closer
      rcases closer with rfl | rfl | rfl | rfl | rfl | rfl | rfl <;> rfl

theorem readValue_space (depth : Nat) (space : Space) (text : List Char)
    : readValue depth (space.1 ++ text) = readValue depth text := by
  rw [readValue.eq_def, skipBlanks_space, ← readValue.eq_def]

/-- A text that starts with a digit is read as a number. -/
theorem readValue_digit {c : Char} (digit : c.isDigit = true) (depth : Nat) (rest : List Char)
    : readValue depth (c :: rest)
      = (readNumber false (c :: rest)).map (fun r => (.number r.1, r.2)) := by
  have digit' := (isDigit_eq c).trans digit
  have solid : isBlank c = false := by
    apply Bool.eq_false_iff.mpr
    intro blank
    simp only [isBlank, Bool.or_eq_true, decide_eq_true_eq] at blank
    rcases blank with ((rfl | rfl) | rfl) | rfl <;> exact absurd digit (by decide)
  rw [readValue.eq_def, skipBlanks_cons solid]
  split
  case h_1 => contradiction
  case h_9 first more _ _ _ _ _ _ _ same =>
    obtain ⟨rfl, rfl⟩ := List.cons.inj same
    rw [if_pos digit']
    cases readNumber false (c :: rest) <;> rfl
  all_goals
    obtain ⟨rfl, rfl⟩ := List.cons.inj ‹_ = _›
    exact absurd digit (by decide)

/-- The text of an integer is read as the integer. -/
theorem readValue_int (depth : Nat) (n : WordInt) {rest : List Char} (closes : Closes rest)
    : readValue depth (Binary64.intText n.1 ++ rest) = .ok (.number (.int n.1), rest) := by
  obtain ⟨n, low, high⟩ := n
  cases n with
  | ofNat k =>
      have fits : k ≤ wordBound := by
        simp only [wordBound, Word.count, Int.ofNat_eq_natCast] at high ⊢
        omega
      have read := readNumber_digitsOf false fits closes
      obtain ⟨c, more, digits, _⟩ := digitsOf_eq_cons k
      rw [show Binary64.intText (.ofNat k) = digitsOf k from rfl]
      rw [digits, List.cons_append] at read ⊢
      rw [readValue_digit (isDigit_of_mem_digitsOf (digits ▸ List.mem_cons_self)), read]
      rfl
  | negSucc k =>
      have inRange : ¬ (k + 1 = 0 ∨ Word.signedCount < k + 1) := by
        simp only [Word.signedCount] at low ⊢
        omega
      have fits : k + 1 ≤ wordBound := by
        simp only [wordBound, Word.count, Word.signedCount] at inRange ⊢
        omega
      have read := readNumber_digitsOf true fits closes
      rw [integer, Bool.not_true, if_neg Bool.false_ne_true, if_neg inRange] at read
      rw [show Binary64.intText (.negSucc k) = '-' :: digitsOf (k + 1) from rfl, List.cons_append,
        readValue.eq_def, skipBlanks_cons (by decide)]
      simp only [read]
      rfl

-----------------------------------------------------------------------------------------
-- Lists and maps
-----------------------------------------------------------------------------------------

/-- A value starts with a character that could not follow one. -/
theorem Source.spell_eq_cons (source : Source) (rest : List Char)
    : ∃ c more, source.spell rest = c :: more ∧ c ∉ closers := by
  cases source with
  | null => exact ⟨_, _, rfl, by decide⟩
  | bool b => cases b <;> exact ⟨_, _, rfl, by decide⟩
  | int n =>
      obtain ⟨n, range⟩ := n
      cases n with
      | ofNat k =>
          obtain ⟨c, more, digits, _⟩ := digitsOf_eq_cons k
          refine ⟨c, more ++ rest, ?_, ?_⟩
          · show digitsOf k ++ rest = _
            rw [digits, List.cons_append]
          · have none : ∀ c ∈ closers, c.isDigit = false := by simp [closers]
            intro closer
            have digit := isDigit_of_mem_digitsOf (n := k) (digits ▸ List.mem_cons_self)
            rw [none c closer] at digit
            exact absurd digit (by decide)
      | negSucc k => exact ⟨_, _, rfl, by decide⟩
  | string glyphs => exact ⟨_, _, rfl, by decide⟩
  | emptyList inside => exact ⟨_, _, rfl, by decide⟩
  | list first more => exact ⟨_, _, rfl, by decide⟩
  | emptyMap inside => exact ⟨_, _, rfl, by decide⟩
  | map first more => exact ⟨_, _, rfl, by decide⟩

theorem skipBlanks_spell (source : Source) (rest : List Char)
    : skipBlanks (source.spell rest) = source.spell rest := by
  obtain ⟨c, more, starts, opener⟩ := source.spell_eq_cons rest
  rw [starts]
  apply skipBlanks_cons
  apply Bool.eq_false_iff.mpr
  intro blank
  simp only [isBlank, Bool.or_eq_true, decide_eq_true_eq] at blank
  rcases blank with ((rfl | rfl) | rfl) | rfl <;> exact opener (by decide)

/-- A reader takes a source for the tree that it describes, wherever it stands. -/
def ReadsAs (item : Reader Value) (source : Source) : Prop :=
  ∀ (space : Space) (rest : List Char),
    Closes rest → item (space.1 ++ source.spell rest) = .ok (source.value, rest)

theorem ReadsAs.here {item : Reader Value} {source : Source} (reads : ReadsAs item source)
    {rest : List Char} (closes : Closes rest)
    : item (source.spell rest) = .ok (source.value, rest) :=
  reads ⟨[], by simp⟩ rest closes

theorem closes_spellItems (more : List (Item Source)) (rest : List Char)
    : Closes (Source.spellItems more (']' :: rest)) := by
  cases more with
  | nil => exact closes_of_mem (by decide) _
  | cons i more => exact closes_of_mem (by decide) _

theorem closes_spellFields (more : List (Entry Source)) (rest : List Char)
    : Closes (Source.spellFields more ('}' :: rest)) := by
  cases more with
  | nil => exact closes_of_mem (by decide) _
  | cons i more => exact closes_of_mem (by decide) _

/-- Further items are read up to the closing bracket. -/
theorem readMoreItems_spellItems {item : Reader Value} {more : List (Item Source)}
    (reads : ∀ i ∈ more, ReadsAs item i.value) (space : Space) (rest : List Char) {fuel : Nat}
    (enough : more.length < fuel)
    : readMoreItems item fuel (space.1 ++ Source.spellItems more (']' :: rest))
      = .ok (Source.itemValues more, rest) := by
  induction more generalizing space fuel with
  | nil =>
      obtain ⟨fuel, rfl⟩ := Nat.exists_eq_add_one.mpr enough
      rw [readMoreItems, skipBlanks_space]
      rfl
  | cons i more ih =>
      obtain ⟨fuel, rfl⟩ := Nat.exists_eq_add_one.mpr (Nat.zero_lt_of_lt enough)
      obtain ⟨before, v, after⟩ := i
      have closes := closes_space after (closes_spellItems more rest)
      have here := (reads _ List.mem_cons_self).here closes
      have later := ih (fun i member => reads i (List.mem_cons_of_mem _ member)) after
        (Nat.lt_of_succ_lt_succ enough)
      have solid := skipBlanks_spell v (after.1 ++ Source.spellItems more (']' :: rest))
      rw [readMoreItems, skipBlanks_space, Source.spellItems, skipBlanks_cons (by decide)]
      simp only [skipBlanks_space, solid]
      obtain ⟨c, text, starts, opener⟩ := v.spell_eq_cons _
      rw [starts] at here ⊢
      split
      case h_1 same =>
        obtain ⟨rfl, rfl⟩ := List.cons.inj same
        exact absurd (by decide) opener
      case h_2 =>
        simp only [here, later, bind, Except.bind]
        rfl

/-- The items of a list are read up to its closing bracket. -/
theorem readItems_spell {item : Reader Value} {first : Item Source} {more : List (Item Source)}
    (head : ReadsAs item first.value) (tail : ∀ i ∈ more, ReadsAs item i.value) (rest : List Char)
    : readItems item
          (first.before.1
            ++ first.value.spell (first.after.1 ++ Source.spellItems more (']' :: rest)))
      = .ok (first.value.value :: Source.itemValues more, rest) := by
  have here := head.here (closes_space first.after (closes_spellItems more rest))
  have enough : more.length < (first.after.1 ++ Source.spellItems more (']' :: rest)).length := by
    have length := Source.length_spellItems more (']' :: rest)
    simp only [List.length_append, List.length_cons] at length ⊢
    omega
  have later := readMoreItems_spellItems tail first.after rest enough
  rw [readItems, skipBlanks_space, skipBlanks_spell]
  obtain ⟨c, text, starts, opener⟩ := first.value.spell_eq_cons _
  rw [starts] at here ⊢
  split
  case h_1 => contradiction
  case h_2 same =>
    obtain ⟨rfl, rfl⟩ := List.cons.inj same
    exact absurd (by decide) opener
  case h_3 =>
    simp only [here, later, bind, Except.bind]

/-- A key, its colon and its value are read as an entry. -/
theorem readField_quoted {item : Reader Value} {source : Source} (reads : ReadsAs item source)
    (key : List Glyph) (toColon fromColon : Space) {rest : List Char} (closes : Closes rest)
    : readField item
          (key.flatMap Glyph.text
            ++ '"' :: (toColon.1 ++ ':' :: (fromColon.1 ++ source.spell rest)))
      = .ok ((spelled key, source.value), rest) := by
  simp only [readField, readString_quoted, bind, Except.bind, skipBlanks_space,
    skipBlanks_cons (show isBlank ':' = false by decide), reads fromColon rest closes]

/-- Further entries are read up to the closing brace. -/
theorem readMoreFields_spellFields {item : Reader Value} {more : List (Entry Source)}
    (reads : ∀ f ∈ more, ReadsAs item f.value) (space : Space) (rest : List Char) {fuel : Nat}
    (enough : more.length < fuel)
    : readMoreFields item fuel (space.1 ++ Source.spellFields more ('}' :: rest))
      = .ok (Source.fieldValues more, rest) := by
  induction more generalizing space fuel with
  | nil =>
      obtain ⟨fuel, rfl⟩ := Nat.exists_eq_add_one.mpr enough
      rw [readMoreFields, skipBlanks_space]
      rfl
  | cons f more ih =>
      obtain ⟨fuel, rfl⟩ := Nat.exists_eq_add_one.mpr (Nat.zero_lt_of_lt enough)
      obtain ⟨before, key, toColon, fromColon, v, after⟩ := f
      have here := readField_quoted (reads _ List.mem_cons_self) key toColon fromColon
        (closes_space after (closes_spellFields more rest))
      have later := ih (fun f member => reads f (List.mem_cons_of_mem _ member)) after
        (Nat.lt_of_succ_lt_succ enough)
      rw [readMoreFields, skipBlanks_space, Source.spellFields, skipBlanks_cons (by decide)]
      simp only [skipBlanks_space, quoted, skipBlanks_cons (show isBlank '"' = false by decide),
        here, later, bind, Except.bind]
      rfl

/-- The entries of a map are read up to its closing brace. -/
theorem readFields_spell {item : Reader Value} {first : Entry Source} {more : List (Entry Source)}
    (head : ReadsAs item first.value) (tail : ∀ f ∈ more, ReadsAs item f.value) (rest : List Char)
    : readFields item
          (first.before.1
            ++ quoted first.key
              (first.toColon.1
                ++ ':' :: (first.fromColon.1
                  ++ first.value.spell
                    (first.after.1 ++ Source.spellFields more ('}' :: rest)))))
      = .ok ((spelled first.key, first.value.value) :: Source.fieldValues more, rest) := by
  have here := readField_quoted head first.key first.toColon first.fromColon
    (closes_space first.after (closes_spellFields more rest))
  have enough : more.length < (first.after.1 ++ Source.spellFields more ('}' :: rest)).length := by
    have length := Source.length_spellFields more ('}' :: rest)
    simp only [List.length_append, List.length_cons] at length ⊢
    omega
  have later := readMoreFields_spellFields tail first.after rest enough
  simp only [readFields, skipBlanks_space, quoted,
    skipBlanks_cons (show isBlank '"' = false by decide), here, later, bind, Except.bind]

-----------------------------------------------------------------------------------------
-- Whole texts
-----------------------------------------------------------------------------------------

/-- A source is read as the tree that it describes, wherever it stands.
Witness: induction on how deep it is, which is how deep the reader may go.
-/
theorem Source.Within.readsAs {depth : Nat} {source : Source} (within : source.Within depth)
    : ReadsAs (readValue depth) source := by
  induction within with
  | null =>
      intro space rest _
      rw [readValue_space, readValue.eq_def, skipBlanks_spell]
      rfl
  | @bool _ b =>
      intro space rest _
      rw [readValue_space, readValue.eq_def, skipBlanks_spell]
      cases b <;> rfl
  | string =>
      intro space rest _
      rw [readValue_space, readValue.eq_def, skipBlanks_spell]
      simp only [Source.spell, quoted, readString_quoted, bind, Except.bind]
      rfl
  | emptyList =>
      intro space rest _
      rw [readValue_space, readValue.eq_def, skipBlanks_spell]
      simp only [Source.spell, readItems, skipBlanks_space,
        skipBlanks_cons (show isBlank ']' = false by decide), bind, Except.bind]
      rfl
  | emptyMap =>
      intro space rest _
      rw [readValue_space, readValue.eq_def, skipBlanks_spell]
      simp only [Source.spell, readFields, skipBlanks_space,
        skipBlanks_cons (show isBlank '}' = false by decide), bind, Except.bind]
      rfl
  | int =>
      intro space rest closes
      rw [readValue_space]
      exact readValue_int _ _ closes
  | @list depth first more _ _ head tail =>
      intro space rest _
      rw [readValue_space, readValue.eq_def, skipBlanks_spell]
      simp only [Source.spell, readItems_spell head tail, bind, Except.bind]
      rfl
  | @map depth first more _ _ head tail =>
      intro space rest _
      rw [readValue_space, readValue.eq_def, skipBlanks_spell]
      simp only [Source.spell, readFields_spell head tail, bind, Except.bind]
      rfl

/-- The text of a source between white space is read as the tree that it describes. -/
theorem readText_source {depth : Nat} {source : Source} (within : source.Within depth)
    (before after : Space)
    : readText depth (before.1 ++ source.spell after.1) = .ok source.value := by
  have closes : Closes after.1 := by
    have none : Closes [] := by simp [Closes]
    simpa using closes_space after none
  have finished : skipBlanks after.1 = [] := by
    simpa [skipBlanks] using skipBlanks_space after []
  simp only [readText, within.readsAs before after.1 closes, bind, Except.bind, finished]

end WorkflowLint.Json
