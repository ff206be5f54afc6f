import WorkflowLint.Proofs.Json.SourceReading
import WorkflowLint.Yaml.Document
import WorkflowLint.Proofs.Yaml.QuotedGlyphs

/-! Plain scalars inside flow collections: a word up to white space or a mark of the collection. -/

namespace WorkflowLint.Yaml

open WorkflowLint.Json (Space skipBlanks)

/-- White space and then a mark of the collection around a value. -/
def Encloses (rest : List Char) : Prop :=
  ∃ x ∈ [',', ']', '}'], (skipBlanks rest).head? = some x

/-- What comes next, behind white space, ends no line. -/
def Visible (rest : List Char) : Prop :=
  ∀ x ∈ (skipBlanks rest).head?, isBreak x = false

theorem Encloses.visible {rest : List Char} (encloses : Encloses rest) : Visible rest := by
  obtain ⟨x, mark, next⟩ := encloses
  have unbroken : ∀ x ∈ [',', ']', '}'], isBreak x = false := by simp [isBreak]
  intro y head
  obtain rfl := Option.some.inj (next.symm.trans head)
  exact unbroken x mark

/-- White space is a pause. -/
theorem isPause_of_isBlank {y : Char} (white : Json.isBlank y = true) (more : List Char)
    : isPause (y :: more) = true := by
  simp only [Json.isBlank, Bool.or_eq_true, decide_eq_true_eq] at white
  rcases white with ((rfl | rfl) | rfl) | rfl <;> rfl

theorem skipBlanks_of_not_isPause {rest : List Char} (going : isPause rest = false ∨ rest = [])
    : skipBlanks rest = rest := by
  cases rest with
  | nil => rfl
  | cons y more =>
      have solid : isPause (y :: more) = false := going.resolve_right (List.cons_ne_nil _ _)
      apply Json.skipBlanks_cons
      apply Bool.eq_false_iff.mpr
      intro white
      rw [isPause_of_isBlank white] at solid
      contradiction

/-- What encloses a value starts with no colon. -/
theorem Encloses.refusedAt {rest : List Char} (encloses : Encloses rest)
    : Plain.refusedAt true rest = false := by
  obtain ⟨x, mark, next⟩ := encloses
  unfold Plain.refusedAt
  split
  case h_1 =>
    obtain rfl := Option.some.inj next
    exact absurd mark (by decide)
  case h_2 => rfl

/-- A line break that is read is white space. -/
theorem exists_lineBreak {c behind : Cursor} {kept : List Char} (visible : Visible c.rest)
    (found : c.lineBreak? = some (kept, behind))
    : ∃ ends : Space, c.rest = ends.1 ++ behind.rest ∧ behind.rest.length < c.rest.length := by
  obtain ⟨rest, mark⟩ := c
  simp only [Cursor.lineBreak?] at found
  split at found
  case h_1 =>
    cases found
    exact ⟨⟨['\r', '\n'], by simp [Json.isBlank]⟩, rfl, by simp only [List.length_cons]; omega⟩
  case h_2 =>
    cases found
    exact ⟨⟨['\r'], by simp [Json.isBlank]⟩, rfl, Nat.lt_succ_self _⟩
  case h_3 =>
    cases found
    exact ⟨⟨['\n'], by simp [Json.isBlank]⟩, rfl, Nat.lt_succ_self _⟩
  case h_7 => contradiction
  all_goals
    have ends := visible _ (by rfl)
    exact absurd ends (by decide)

/-- Where neither a blank nor a line break stands, no white space does. -/
theorem isBlank_eq_false {c : Cursor} {y : Char} {more : List Char} (text : c.rest = y :: more)
    (solid : isBlank y = false) (going : c.lineBreak? = none)
    : Json.isBlank y = false := by
  obtain ⟨rest, mark⟩ := c
  subst text
  apply Bool.eq_false_iff.mpr
  intro white
  simp only [Json.isBlank, Bool.or_eq_true, decide_eq_true_eq] at white
  rcases white with ((rfl | rfl) | rfl) | rfl
  · exact absurd solid (by decide)
  · exact absurd solid (by decide)
  · cases more <;> contradiction
  · simp only [Cursor.lineBreak?] at going
    split at going <;> simp_all

namespace Plain

/-- A character that neither ends a plain scalar nor is refused in one. -/
def isWordChar (c : Char) : Bool :=
  !isBlank c && !isBreak c && !isFlowMark c && c ≠ ':'

/-- A word is taken as a whole, up to a pause or a mark of a collection. -/
theorem runLength_word {word rest : List Char} (plain : ∀ c ∈ word, isWordChar c = true)
    (encloses : Encloses rest)
    : runLength true (word ++ rest) = word.length := by
  induction word with
  | nil =>
      obtain ⟨x, mark, next⟩ := encloses
      cases rest with
      | nil => rfl
      | cons y rest =>
          have stops : isPause (y :: rest) = true ∨ endsAt true (y :: rest) = true := by
            by_cases blank : Json.isBlank y = true
            · exact Or.inl (isPause_of_isBlank blank rest)
            · rw [Json.skipBlanks_cons (Bool.eq_false_iff.mpr blank)] at next
              obtain rfl := Option.some.inj next
              simp only [List.mem_cons, List.not_mem_nil, or_false] at mark
              rcases mark with rfl | rfl | rfl <;> exact Or.inr rfl
          rcases stops with stops | stops <;> simp [runLength, stops]
  | cons c word ih =>
      obtain ⟨⟨⟨blank, unbroken⟩, flow⟩, colon⟩
          : ((isBlank c = false ∧ isBreak c = false) ∧ isFlowMark c = false) ∧ c ≠ ':' := by
        simpa [isWordChar] using plain c List.mem_cons_self
      have refused : refusedAt true (c :: (word ++ rest)) = false := by
        unfold refusedAt
        split
        case h_1 same => exact absurd (List.cons.inj same).1 colon
        case h_2 => rfl
      simp [runLength, isPause, endsAt, refused, blank, unbroken, flow, colon,
        ih (fun c member => plain c (List.mem_cons_of_mem _ member))]

/-- White space behind a scalar is passed over. -/
theorem read_space (refuse : Cursor → SyntaxError) (fuel : Nat) (gap : Gap) {c : Cursor}
    (visible : Visible c.rest) (enough : c.rest.length ≤ fuel)
    : ∃ gap' next,
        Gap.read (some 0) refuse fuel gap c = .ok (gap', next)
        ∧ next.rest = skipBlanks c.rest := by
  induction fuel generalizing gap c with
  | zero =>
      have none : c.rest = [] := List.length_eq_zero_iff.mp (Nat.le_zero.mp enough)
      exact ⟨gap, c, rfl, by rw [none]; rfl⟩
  | succ fuel ih =>
      rw [Gap.read]
      cases text : c.rest with
      | nil => exact ⟨gap, c, rfl, text⟩
      | cons y more =>
          dsimp only
          rw [← text]
          by_cases blank : isBlank y = true
          · have behind : (c.skip 1).rest = more := Cursor.rest_skip [y] text
            have white : Json.isBlank y = true := by
              simp only [isBlank, Bool.or_eq_true, decide_eq_true_eq] at blank
              rcases blank with rfl | rfl <;> rfl
            have same : skipBlanks (c.skip 1).rest = skipBlanks c.rest := by
              rw [behind, text]
              simp [skipBlanks, white]
            have shorter : (c.skip 1).rest.length ≤ fuel := by
              rw [behind]
              simpa [text] using enough
            have visible' : Visible (c.skip 1).rest := by
              rwa [Visible, same]
            have free
                : (some (0 : Int)).any (fun i => decide ((c.mark.column : Int) < i)) = false := by
              simp
            rw [if_pos blank, free, Bool.and_false, if_neg Bool.false_ne_true, ← same]
            split
            · exact ih gap visible' shorter
            · exact ih _ visible' shorter
          · rw [if_neg blank]
            cases found : c.lineBreak? with
            | none =>
                have solid := isBlank_eq_false text (Bool.eq_false_iff.mpr blank) found
                exact ⟨gap, c, rfl, by rw [text, Json.skipBlanks_cons solid]⟩
            | some lineBreak =>
                obtain ⟨kept, behind⟩ := lineBreak
                obtain ⟨ends, whole, shorter⟩ := exists_lineBreak visible found
                have same : skipBlanks c.rest = skipBlanks behind.rest := by
                  rw [whole, Json.skipBlanks_space]
                have visible' : Visible behind.rest := by
                  rwa [Visible, ← same]
                dsimp only
                rw [same]
                split
                · exact ih _ visible' (by omega)
                · exact ih _ visible' (by omega)

/-- Reading on at a mark of a collection adds nothing. -/
theorem readOn_mark (indentation : Int) (start : Mark) (fuel : Nat) (before : List Char) (gap : Gap)
    {c : Cursor} {x : Char} (mark : x ∈ [',', ']', '}']) (next : c.rest.head? = some x)
    : ∃ scanned,
        readOn true indentation start (fuel + 1) before gap c = .ok scanned
        ∧ scanned.text = before
        ∧ scanned.after.rest = c.rest := by
  obtain ⟨rest, place⟩ := c
  cases rest with
  | nil => contradiction
  | cons y more =>
      obtain rfl := Option.some.inj next
      have stop : runLength true (y :: more) = 0 ∧ refusedAt true (y :: more) = false
          ∧ isPause (y :: more) = false := by
        simp only [List.mem_cons, List.not_mem_nil, or_false] at mark
        rcases mark with rfl | rfl | rfl <;> exact ⟨rfl, rfl, rfl⟩
      rw [readOn]
      split
      · exact ⟨_, rfl, rfl, rfl⟩
      · simp only [stop, Cursor.skip, List.drop_zero, if_true, Bool.not_false, Bool.true_or]
        exact ⟨_, rfl, rfl, rfl⟩

/-- A word is read as itself, together with the white space behind it. -/
theorem read_word {word rest : List Char} (plain : ∀ c ∈ word, isWordChar c = true)
    (present : 0 < word.length) (encloses : Encloses rest) {c : Cursor}
    (text : c.rest = word ++ rest) (unmarked : c.atDocumentMark = false)
    (uncommented : c.rest.head? ≠ some '#')
    : ∃ scanned,
        read true (-1) c = .ok scanned
        ∧ scanned.text = word
        ∧ scanned.after.rest = skipBlanks rest := by
  have behind := Cursor.rest_skip word text
  have taken : c.rest.take word.length = word := by simp [text]
  have whole : runLength true c.rest = word.length := by
    rw [text, runLength_word plain encloses]
  obtain ⟨fuel, more⟩ : ∃ fuel, c.rest.length = fuel + 1 :=
    Nat.exists_eq_add_one.mpr (by simp only [text, List.length_append]; omega)
  rw [read, show (-1 : Int) + 1 = 0 from rfl, readOn]
  simp only [unmarked, uncommented, whole, behind, encloses.refusedAt, taken,
    Nat.ne_of_gt present, decide_false, Bool.or_self, Bool.false_eq_true, if_false]
  by_cases ended : (!isPause rest || rest.isEmpty) = true
  · rw [if_pos ended]
    refine ⟨_, rfl, rfl, ?_⟩
    rw [behind, skipBlanks_of_not_isPause (by simpa using ended)]
  · rw [if_neg ended]
    let refuse (tab : Cursor) := tab.fault .tabBreaksIndentation .plainScalar c.mark
    obtain ⟨gap, next, gapRead, there⟩ := read_space refuse rest.length Gap.empty
      (behind.symm ▸ encloses.visible) (Nat.le_of_eq (congrArg List.length behind))
    obtain ⟨x, mark, head⟩ := encloses
    rw [behind] at there
    obtain ⟨scanned, result, same, after⟩ :=
      readOn_mark 0 c.mark fuel word gap mark (there ▸ head)
    refine ⟨scanned, ?_, same, after.trans there⟩
    simp only [refuse] at gapRead
    simp only [gapRead, more, bind, Except.bind, Bool.not_true, Bool.false_and,
      Bool.false_eq_true, if_false]
    exact result

end Plain

end WorkflowLint.Yaml
