import WorkflowLint.Proofs.Json.Source
import WorkflowLint.Yaml.Document

/-! Scalars in JSON texts as the scanner of the other format reads them. -/

namespace WorkflowLint.Yaml

open WorkflowLint.Json (Glyph Spells codeOf)

-----------------------------------------------------------------------------------------
-- Cursors
-----------------------------------------------------------------------------------------

namespace Cursor

theorem skip_skip (c : Cursor) (m n : Nat) : (c.skip m).skip n = c.skip (m + n) := by
  simp only [skip, List.drop_drop, Nat.add_assoc]

theorem rest_skip {c : Cursor} (taken : List Char) {rest : List Char}
    (text : c.rest = taken ++ rest)
    : (c.skip taken.length).rest = rest := by
  rw [skip, text]
  exact List.drop_left

/-- Behind a character no mark between documents stands. -/
theorem atDocumentMark_skip (c : Cursor) {n : Nat} (moved : 0 < n)
    : (c.skip n).atDocumentMark = false := by
  have column : ¬ (c.skip n).mark.column = 0 := by
    simp only [skip]
    omega
  simp [atDocumentMark, column]

/-- A line ends only at the characters that end lines. -/
theorem lineBreak?_eq_none {c : Cursor} (going : ∀ x ∈ c.rest.head?, isBreak x = false)
    : c.lineBreak? = none := by
  obtain ⟨rest, mark⟩ := c
  simp only [lineBreak?]
  split
  all_goals first | rfl | exact absurd (going _ rfl) (by decide)

end Cursor

-----------------------------------------------------------------------------------------
-- Quoted scalars
-----------------------------------------------------------------------------------------

/-- The spelling of the character is kept inside quotes: no character of it is forbidden or ends
a line.
-/
def PortableGlyph (g : Glyph) : Prop :=
  ∀ c ∈ g.text, isAllowed c = true ∧ isBreak c = false

namespace Quoted

variable (start : Mark)

/-- The named escapes of JSON are read alike. -/
theorem readEscape_named {letter x : Char} (listed : (letter, x) ∈ Json.namedEscapes) (c : Cursor)
    : readEscape start c letter = .ok (x, c.skip 2) := by
  simp only [Json.namedEscapes, List.mem_cons, Prod.mk.injEq, List.not_mem_nil, or_false] at listed
  rcases listed with ⟨rfl, rfl⟩ | ⟨rfl, rfl⟩ | ⟨rfl, rfl⟩ | ⟨rfl, rfl⟩ | ⟨rfl, rfl⟩ | ⟨rfl, rfl⟩
    | ⟨rfl, rfl⟩ | ⟨rfl, rfl⟩ <;> rfl

/-- A hexadecimal digit is worth less than sixteen. -/
theorem hexValue?_lt {c : Char} {n : Nat} (value : Json.hexValue? c = some n) : n < 16 := by
  have atMost {limit : Char} (below : c ≤ limit) : c.toNat ≤ limit.toNat :=
    UInt32.le_iff_toNat_le.mp below
  simp only [Json.hexValue?] at value
  split at value
  case isTrue range =>
    have bound : c.toNat ≤ 57 := atMost range.2
    cases value
    omega
  split at value
  case isTrue range =>
    have bound : c.toNat ≤ 102 := atMost range.2
    cases value
    omega
  split at value
  case isTrue range =>
    have bound : c.toNat ≤ 70 := atMost range.2
    cases value
    omega
  case isFalse => contradiction

/-- Four digits outside the surrogates are read alike. -/
theorem readEscape_numbered {s t u v : Char} {a b c d : Nat} (first : Json.hexValue? s = some a)
    (second : Json.hexValue? t = some b) (third : Json.hexValue? u = some c)
    (fourth : Json.hexValue? v = some d)
    (scalar : ¬ (0xD800 ≤ codeOf a b c d ∧ codeOf a b c d ≤ 0xDFFF)) {place : Cursor}
    {rest : List Char} (text : place.rest = '\\' :: 'u' :: s :: t :: u :: v :: rest)
    : readEscape start place 'u' = .ok (Char.ofNat (codeOf a b c d), place.skip 6) := by
  have digits
      : ((place.skip 2).rest.take 4).filterMap hexValue? = [a, b, c, d] := by
    rw [Cursor.skip, text]
    simp [show hexValue? = Json.hexValue? from rfl, first, second, third, fourth]
  have number : hexNumber [a, b, c, d] = codeOf a b c d := by
    simp only [hexNumber, List.foldl_cons, List.foldl_nil, codeOf]
    omega
  have small : codeOf a b c d ≤ 0x10FFFF := by
    have one := hexValue?_lt first
    have two := hexValue?_lt second
    have three := hexValue?_lt third
    have four := hexValue?_lt fourth
    rw [codeOf]
    omega
  rw [readEscape, show namedEscape? 'u' = none from rfl, show escapeWidth? 'u' = some 4 from rfl]
  dsimp only
  rw [digits, if_neg (by simp), number, if_neg (by omega), Cursor.skip_skip]

/-- One glyph that is no blank is read as its character. -/
theorem readRun_glyph {g : Glyph} (portable : PortableGlyph g) (solid : g.text ≠ [' ']) {c : Cursor}
    {rest : List Char} (text : c.rest = g.text ++ rest) (fuel : Nat)
    : readRun false start (fuel + 1) c
      = (readRun false start fuel (c.skip g.text.length)).map (fun r => (g.char :: r.1, r.2)) := by
  obtain ⟨spelling, char, spells⟩ := g
  have step (x : Char) (r : Except SyntaxError (List Char × Cursor × Bool))
      : r.bind (fun r => .ok (x :: r.1, r.2)) = r.map (fun r => (x :: r.1, r.2)) := by
    cases r <;> rfl
  cases spells with
  | plain visible quote backslash =>
      have tab : char ≠ '\t' := by
        rintro rfl
        exact absurd visible (by decide)
      have space : char ≠ ' ' := fun same => solid (same ▸ rfl)
      have unbroken := (portable char List.mem_cons_self).2
      have going : isPause c.rest = false := by
        rw [text]
        simp [isPause, isBlank, tab, space, unbroken]
      rw [readRun.eq_def]
      dsimp only
      rw [going, text]
      simp only [List.singleton_append, Bool.false_eq_true, if_false]
      split
      case h_6 x more same _ _ _ _ _ =>
        obtain ⟨rfl, rfl⟩ := List.cons.inj same
        exact step _ _
      all_goals first | contradiction | simp_all
  | @named letter _ listed =>
      have unbroken := (portable letter (by simp)).2
      have going : isPause c.rest = false := by
        rw [text]
        rfl
      rw [readRun.eq_def]
      dsimp only
      rw [going, text]
      simp only [List.cons_append, List.nil_append, Bool.false_eq_true, if_false, unbroken,
        readEscape_named start listed]
      exact step _ _
  | numbered first second third fourth scalar =>
      have going : isPause c.rest = false := by
        rw [text]
        rfl
      have escape := readEscape_numbered start first second third fourth scalar text
      rw [readRun.eq_def]
      dsimp only
      rw [going]
      simp only [text, List.cons_append, List.nil_append, Bool.false_eq_true, if_false, escape,
        show isBreak 'u' = false from rfl]
      exact step _ _

/-- Glyphs that are no blanks are read as their characters, up to a blank or the closing quote. -/
theorem readRun_glyphs {glyphs : List Glyph} (portable : ∀ g ∈ glyphs, PortableGlyph g)
    (solid : ∀ g ∈ glyphs, g.text ≠ [' ']) {c : Cursor} {x : Char} {rest : List Char}
    (stop : x = ' ' ∨ x = '"') (text : c.rest = glyphs.flatMap Glyph.text ++ x :: rest) {fuel : Nat}
    (enough : glyphs.length < fuel)
    : readRun false start fuel c
      = .ok (glyphs.map Glyph.char, c.skip (glyphs.flatMap Glyph.text).length, false) := by
  induction glyphs generalizing c fuel with
  | nil =>
      obtain ⟨fuel, rfl⟩ := Nat.exists_eq_add_one.mpr enough
      obtain ⟨_, mark⟩ := c
      subst text
      rcases stop with rfl | rfl <;> rfl
  | cons g glyphs ih =>
      obtain ⟨fuel, rfl⟩ := Nat.exists_eq_add_one.mpr (Nat.zero_lt_of_lt enough)
      rw [List.flatMap_cons, List.append_assoc] at text
      rw [readRun_glyph start (portable g List.mem_cons_self) (solid g List.mem_cons_self) text,
        ih (fun g member => portable g (List.mem_cons_of_mem _ member))
          (fun g member => solid g (List.mem_cons_of_mem _ member)) (Cursor.rest_skip _ text)
          (by simpa using enough), Cursor.skip_skip, List.flatMap_cons, List.length_append]
      rfl

/-- Blanks inside quotes are kept. -/
theorem read_gap (count : Nat) (blanks : List Char) {c : Cursor} {x : Char} {rest : List Char}
    (refuse : Cursor → SyntaxError) (text : c.rest = List.replicate count ' ' ++ x :: rest)
    (solid : isBlank x = false) (unbroken : isBreak x = false) {fuel : Nat} (enough : count < fuel)
    : Gap.read none refuse fuel ⟨blanks, [], [], false⟩ c
      = .ok (⟨blanks ++ List.replicate count ' ', [], [], false⟩, c.skip count) := by
  induction count generalizing c blanks fuel with
  | zero =>
      obtain ⟨fuel, rfl⟩ := Nat.exists_eq_add_one.mpr enough
      have going : c.lineBreak? = none := by
        apply Cursor.lineBreak?_eq_none
        rw [text]
        rintro _ ⟨rfl⟩
        exact unbroken
      rw [Gap.read, text]
      simp only [List.replicate_zero, List.nil_append, List.append_nil, solid, going,
        Bool.false_eq_true, if_false]
      rfl
  | succ count ih =>
      obtain ⟨fuel, rfl⟩ := Nat.exists_eq_add_one.mpr (Nat.zero_lt_of_lt enough)
      rw [List.replicate_succ, List.cons_append] at text
      have later := ih (blanks ++ [' ']) (Cursor.rest_skip [' '] text)
        (show count < fuel by omega)
      rw [Cursor.skip_skip, List.length_singleton, Nat.add_comm 1 count, List.append_assoc,
        List.singleton_append, ← List.replicate_succ] at later
      rw [Gap.read, text]
      exact later

/-- A glyph that is written as a blank. -/
def isBlankGlyph (g : Glyph) : Bool :=
  g.text = [' ']

theorem char_of_isBlankGlyph {g : Glyph} (blank : isBlankGlyph g = true) : g.char = ' ' := by
  obtain ⟨text, char, spells⟩ := g
  have single : text = [' '] := of_decide_eq_true blank
  cases spells <;> simp_all

/-- Blanks in a row are spelled as blanks and stand for as many. -/
theorem blankGlyphs_eq {glyphs : List Glyph} (blank : ∀ g ∈ glyphs, isBlankGlyph g = true)
    : glyphs.flatMap Glyph.text = List.replicate glyphs.length ' '
      ∧ glyphs.map Glyph.char = List.replicate glyphs.length ' ' := by
  constructor
  · induction glyphs with
    | nil => rfl
    | cons g glyphs ih =>
        have first : g.text = [' '] := of_decide_eq_true (blank g List.mem_cons_self)
        rw [List.flatMap_cons, first, ih (fun g member => blank g (List.mem_cons_of_mem _ member))]
        rfl
  · exact List.map_eq_replicate_iff.mpr (fun g member => char_of_isBlankGlyph (blank g member))

/-- Glyphs are a run without blanks, and behind it, unless that is all, blanks and then others. -/
theorem exists_run (glyphs : List Glyph)
    : ∃ run blanks more,
        glyphs = run ++ (blanks ++ more)
        ∧ (∀ g ∈ run, isBlankGlyph g = false)
        ∧ (∀ g ∈ blanks, isBlankGlyph g = true)
        ∧ (∀ g ∈ more.head?, isBlankGlyph g = false)
        ∧ (blanks = [] → more = []) := by
  let tail := glyphs.dropWhile (fun g => !isBlankGlyph g)
  refine ⟨glyphs.takeWhile (fun g => !isBlankGlyph g), tail.takeWhile isBlankGlyph,
    tail.dropWhile isBlankGlyph, ?_, ?_, ?_, ?_, ?_⟩
  · rw [List.takeWhile_append_dropWhile, List.takeWhile_append_dropWhile]
  · intro g member
    simpa using List.all_eq_true.mp List.all_takeWhile g member
  · intro g member
    exact List.all_eq_true.mp List.all_takeWhile g member
  · intro g first
    have stop := List.head?_dropWhile_not isBlankGlyph tail
    rw [first] at stop
    exact stop
  · intro none
    have whole := List.takeWhile_append_dropWhile (p := isBlankGlyph) (l := tail)
    have stop := List.head?_dropWhile_not (fun g => !isBlankGlyph g) glyphs
    cases start : tail with
    | nil => rfl
    | cons g more =>
        rw [show glyphs.dropWhile (fun g => !isBlankGlyph g) = g :: more from start] at stop
        have blank : isBlankGlyph g = true := by simpa using stop
        rw [start, List.takeWhile_cons, blank] at none
        contradiction

/-- Behind blanks comes a character that is neither a blank nor the end of a line. -/
theorem exists_solid {more : List Glyph} (portable : ∀ g ∈ more, PortableGlyph g)
    (stop : ∀ g ∈ more.head?, isBlankGlyph g = false) (rest : List Char)
    : ∃ x later,
        more.flatMap Glyph.text ++ '"' :: rest = x :: later
        ∧ isBlank x = false
        ∧ isBreak x = false := by
  cases more with
  | nil => exact ⟨_, _, rfl, rfl, rfl⟩
  | cons g more =>
      have unbroken := portable g List.mem_cons_self
      have solid := of_decide_eq_false (stop g rfl)
      obtain ⟨text, char, spells⟩ := g
      cases spells with
      | plain visible quote backslash =>
          refine ⟨char, _, rfl, ?_, (unbroken char List.mem_cons_self).2⟩
          have tab : char ≠ '\t' := by
            rintro rfl
            exact absurd visible (by decide)
          have space : char ≠ ' ' := fun same => solid (same ▸ rfl)
          simp [isBlank, tab, space]
      | named listed => exact ⟨_, _, rfl, rfl, rfl⟩
      | numbered => exact ⟨_, _, rfl, rfl, rfl⟩

/-- The last round of reading ends at the closing quote. -/
theorem readOn_last {run : List Glyph} (portable : ∀ g ∈ run, PortableGlyph g)
    (solid : ∀ g ∈ run, isBlankGlyph g = false) {c : Cursor} {rest : List Char}
    (inLine : c.atDocumentMark = false)
    (text : c.rest = run.flatMap Glyph.text ++ '"' :: rest) (before : List Char) (fuel : Nat)
    : readOn false start (fuel + 1) before c
      = .ok (before ++ run.map Glyph.char, c.skip ((run.flatMap Glyph.text).length + 1)) := by
  have present : c.rest.isEmpty = false := by simp [text]
  have short : run.length < c.rest.length := by
    have length := Json.length_le_length_flatMap_text run
    simp only [text, List.length_append, List.length_cons]
    omega
  have read := readRun_glyphs start portable
    (fun g member => of_decide_eq_false (solid g member)) (Or.inr rfl) text short
  rw [readOn, inLine, present, read]
  simp only [Bool.false_eq_true, if_false, bind, Except.bind, Cursor.rest_skip _ text,
    List.head?_cons, if_true, Cursor.skip_skip]

/-- Any other round takes a run of characters and the blanks behind it. -/
theorem readOn_round {run : List Glyph} (portable : ∀ g ∈ run, PortableGlyph g)
    (solid : ∀ g ∈ run, isBlankGlyph g = false) {c : Cursor} {count : Nat} {x : Char}
    {rest : List Char} (inLine : c.atDocumentMark = false)
    (text : c.rest = run.flatMap Glyph.text ++ (List.replicate (count + 1) ' ' ++ x :: rest))
    (solidNext : isBlank x = false) (unbroken : isBreak x = false) (before : List Char)
    (fuel : Nat)
    : readOn false start (fuel + 1) before c
      = readOn false start fuel
          (before ++ run.map Glyph.char ++ List.replicate (count + 1) ' ')
          (c.skip ((run.flatMap Glyph.text).length + (count + 1))) := by
  have present : c.rest.isEmpty = false := by simp [text]
  have short : run.length < c.rest.length := by
    have length := Json.length_le_length_flatMap_text run
    simp only [text, List.length_append, List.length_cons, List.length_replicate]
    omega
  have spaced := text
  rw [List.replicate_succ, List.cons_append] at spaced
  have read := readRun_glyphs start portable
    (fun g member => of_decide_eq_false (solid g member)) (Or.inl rfl) spaced short
  have behind := Cursor.rest_skip _ text
  have wide : count + 1 < (c.skip (run.flatMap Glyph.text).length).rest.length := by
    simp only [behind, List.length_append, List.length_replicate, List.length_cons]
    omega
  have gap := read_gap (count + 1) []
    (fun tab => tab.fault .streamEnds .quotedScalar start) behind solidNext unbroken wide
  rw [readOn, inLine, present, read]
  simp only [Bool.false_eq_true, if_false, bind, Except.bind, Cursor.rest_skip _ spaced,
    List.head?_cons, Option.some.injEq, Char.reduceEq]
  rw [Cursor.rest_skip _ spaced] at gap
  simp only [Gap.empty, gap, Cursor.skip_skip]
  rfl

/-- Glyphs up to the closing quote are read as their characters.
Witness: strong induction on how many they are; each round takes a run of characters and a gap.
-/
theorem readOn_glyphs {glyphs : List Glyph} (portable : ∀ g ∈ glyphs, PortableGlyph g) {c : Cursor}
    {rest : List Char} (inLine : c.atDocumentMark = false)
    (text : c.rest = glyphs.flatMap Glyph.text ++ '"' :: rest) (before : List Char) {fuel : Nat}
    (enough : glyphs.length < fuel)
    : readOn false start fuel before c
      = .ok (before ++ glyphs.map Glyph.char, c.skip ((glyphs.flatMap Glyph.text).length + 1)) := by
  induction short : glyphs.length using Nat.strongRecOn generalizing glyphs c before fuel with
  | ind length ih =>
      subst short
      obtain ⟨fuel, rfl⟩ := Nat.exists_eq_add_one.mpr (Nat.zero_lt_of_lt enough)
      obtain ⟨run, blanks, more, rfl, solid, blank, stop, ends⟩ := exists_run glyphs
      have readable : ∀ g ∈ run, PortableGlyph g :=
        fun g member => portable g (List.mem_append_left _ member)
      cases count : blanks.length with
      | zero =>
          obtain rfl := List.length_eq_zero_iff.mp count
          obtain rfl := ends rfl
          simp only [List.append_nil] at text ⊢
          exact readOn_last start readable solid inLine text before fuel
      | succ wide =>
          obtain ⟨spelling, chars⟩ := blankGlyphs_eq blank
          have later : ∀ g ∈ more, PortableGlyph g := fun g member =>
            portable g (List.mem_append_right _ (List.mem_append_right _ member))
          obtain ⟨x, behind, next, solidNext, unbroken⟩ := exists_solid later stop rest
          have spaced := text
          rw [List.flatMap_append, List.flatMap_append, List.append_assoc, List.append_assoc,
            spelling, next, count] at spaced
          have fewer : more.length < (run ++ (blanks ++ more)).length := by
            simp only [List.length_append]
            omega
          have taken
              : c.rest
                = (run.flatMap Glyph.text ++ List.replicate (wide + 1) ' ')
                    ++ (more.flatMap Glyph.text ++ '"' :: rest) := by
            rw [List.append_assoc, next, spaced]
          have there := Cursor.rest_skip _ taken
          rw [List.length_append, List.length_replicate] at there
          rw [readOn_round start readable solid inLine spaced solidNext unbroken before fuel,
            ih more.length fewer later (Cursor.atDocumentMark_skip c (by omega)) there _
              (by omega) rfl]
          simp only [List.map_append, List.flatMap_append, List.length_append, chars, spelling,
            count, List.append_assoc, Cursor.skip_skip, List.length_replicate, Nat.add_assoc]

/-- A quoted string is read as the characters that it spells. -/
theorem read_quoted {glyphs : List Glyph} (portable : ∀ g ∈ glyphs, PortableGlyph g) {c : Cursor}
    {rest : List Char} (text : c.rest = Json.quoted glyphs rest)
    : read false c
      = .ok (glyphs.map Glyph.char, c.skip ((glyphs.flatMap Glyph.text).length + 2)) := by
  have behind := Cursor.rest_skip ['"'] text
  have enough : glyphs.length < c.rest.length + 1 := by
    have length := Json.length_le_length_flatMap_text glyphs
    simp only [text, Json.quoted, List.length_append, List.length_cons]
    omega
  rw [read, readOn_glyphs _ portable (Cursor.atDocumentMark_skip c Nat.one_pos) behind [] enough,
    Cursor.skip_skip, Nat.add_comm 1]
  rfl

end Quoted

end WorkflowLint.Yaml
