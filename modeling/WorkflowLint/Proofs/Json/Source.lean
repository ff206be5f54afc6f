import WorkflowLint.Json.Reader
import WorkflowLint.Json.Text

/-! JSON texts as trees that keep their spelling: where white space stands, and how each character
of a string is written. A source is a legal text by construction.
-/

namespace WorkflowLint.Json

/-- White space between the tokens of a text. -/
def Space := { text : List Char // ∀ c ∈ text, isBlank c = true }

def Space.append (first second : Space) : Space :=
  ⟨first.1 ++ second.1, fun c member => (List.mem_append.mp member).elim (first.2 c) (second.2 c)⟩

/-- The letters that may follow a backslash, with the characters they stand for. -/
def namedEscapes : List (Char × Char) :=
  [
    ('"', '"'), ('\\', '\\'), ('/', '/'), ('b', '\x08'), ('f', '\x0c'), ('n', '\n'), ('r', '\r'),
    ('t', '\t')
  ]

/-- The number that four hexadecimal digits are the values of. -/
def codeOf (a b c d : Nat) : Nat :=
  ((a * 16 + b) * 16 + c) * 16 + d

/-- Ways to write a character in a string: as itself, by a letter, or by its number. Pairs of
numbers for one character are left out.
-/
inductive Spells : List Char → Char → Prop where
  | plain {c : Char} (visible : 32 ≤ c.toNat) (quote : c ≠ '"') (backslash : c ≠ '\\')
    : Spells [c] c
  | named {letter c : Char} (listed : (letter, c) ∈ namedEscapes)
    : Spells ['\\', letter] c
  | numbered {s t u v : Char} {a b c d : Nat} (first : hexValue? s = some a)
    (second : hexValue? t = some b) (third : hexValue? u = some c) (fourth : hexValue? v = some d)
    (scalar : ¬ (0xD800 ≤ codeOf a b c d ∧ codeOf a b c d ≤ 0xDFFF))
    : Spells ['\\', 'u', s, t, u, v] (Char.ofNat (codeOf a b c d))

/-- A character of a string with its spelling. -/
structure Glyph where
  text : List Char
  char : Char
  spells : Spells text char

/-- An integer that fits into a word, with or without a sign. -/
def WordInt := { n : Int // -Word.signedCount ≤ n ∧ n < Word.count }

/-- An item of a list with the space around it. -/
structure Item (α : Type) where
  before : Space
  value : α
  after : Space

/-- An entry of a map with the space around its parts. -/
structure Entry (α : Type) where
  before : Space
  key : List Glyph
  toColon : Space
  fromColon : Space
  value : α
  after : Space

/-- A JSON text without fractions and exponents, with its layout. -/
inductive Source where
  | null
  | bool (b : Bool)
  | int (n : WordInt)
  | string (glyphs : List Glyph)
  | emptyList (inside : Space)
  | list (first : Item Source) (more : List (Item Source))
  | emptyMap (inside : Space)
  | map (first : Entry Source) (more : List (Entry Source))

/-- The string that glyphs spell. -/
def spelled (glyphs : List Glyph) : String :=
  String.ofList (glyphs.map Glyph.char)

/-- A quoted string in front of a text. -/
def quoted (glyphs : List Glyph) (rest : List Char) : List Char :=
  '"' :: (glyphs.flatMap Glyph.text ++ '"' :: rest)

theorem quoted_eq_append (glyphs : List Glyph) (rest : List Char)
    : quoted glyphs rest = quoted glyphs [] ++ rest := by
  simp [quoted]

theorem Glyph.length_text_pos (g : Glyph) : 0 < g.text.length := by
  obtain ⟨text, char, spells⟩ := g
  cases spells <;> exact Nat.succ_pos _

theorem length_le_length_flatMap_text (glyphs : List Glyph)
    : glyphs.length ≤ (glyphs.flatMap Glyph.text).length := by
  induction glyphs with
  | nil => exact Nat.le_refl 0
  | cons g glyphs ih =>
      rw [List.flatMap_cons, List.length_append, List.length_cons]
      have := g.length_text_pos
      omega

namespace Source

def isCollection : Source → Bool
  | .emptyList _ | .list _ _ | .emptyMap _ | .map _ _ => true
  | _ => false

mutual
/-- The text of a source in front of another text. -/
def spell : Source → List Char → List Char
  | .null, rest => 'n' :: 'u' :: 'l' :: 'l' :: rest
  | .bool b, rest => boolText b ++ rest
  | .int n, rest => Binary64.intText n.1 ++ rest
  | .string glyphs, rest => quoted glyphs rest
  | .emptyList inside, rest => '[' :: (inside.1 ++ ']' :: rest)
  | .list ⟨before, value, after⟩ more, rest =>
      '[' :: (before.1 ++ spell value (after.1 ++ spellItems more (']' :: rest)))
  | .emptyMap inside, rest => '{' :: (inside.1 ++ '}' :: rest)
  | .map ⟨before, key, toColon, fromColon, value, after⟩ more, rest =>
      '{'
        :: (before.1
          ++ quoted key
            (toColon.1
              ++ ':' :: (fromColon.1 ++ spell value (after.1 ++ spellFields more ('}' :: rest)))))

def spellItems : List (Item Source) → List Char → List Char
  | [], rest => rest
  | ⟨before, value, after⟩ :: more, rest =>
      ',' :: (before.1 ++ spell value (after.1 ++ spellItems more rest))

def spellFields : List (Entry Source) → List Char → List Char
  | [], rest => rest
  | ⟨before, key, toColon, fromColon, value, after⟩ :: more, rest =>
      ','
        :: (before.1
          ++ quoted key
            (toColon.1
              ++ ':' :: (fromColon.1 ++ spell value (after.1 ++ spellFields more rest))))
end

/-- The text of a source. -/
def text (source : Source) : List Char :=
  source.spell []

mutual
/-- The tree that a source describes. -/
def value : Source → Value
  | .null => .null
  | .bool b => .bool b
  | .int n => .number (.int n.1)
  | .string glyphs => .string (spelled glyphs)
  | .emptyList _ => .list []
  | .list ⟨_, v, _⟩ more => .list (value v :: itemValues more)
  | .emptyMap _ => .map []
  | .map ⟨_, key, _, _, v, _⟩ more =>
      Value.ofFields ((spelled key, value v) :: fieldValues more)

def itemValues : List (Item Source) → List Value
  | [] => []
  | ⟨_, v, _⟩ :: more => value v :: itemValues more

def fieldValues : List (Entry Source) → List (String × Value)
  | [] => []
  | ⟨_, key, _, _, v, _⟩ :: more => (spelled key, value v) :: fieldValues more
end

mutual
/-- The text in front of another one is the text of the source by itself. -/
theorem spell_eq_append
    : ∀ (source : Source) (rest : List Char), source.spell rest = source.text ++ rest
  | .null, _ | .emptyList _, _ | .emptyMap _, _ | .bool _, _ | .int _, _ | .string _, _ => by
      simp [spell, text, quoted]
  | .list ⟨before, v, after⟩ more, rest => by
      rw [text, spell, spell, spell_eq_append v, spell_eq_append v (after.1 ++ _),
        spellItems_eq_append more, spellItems_eq_append more [']']]
      simp
  | .map ⟨before, key, toColon, fromColon, v, after⟩ more, rest => by
      rw [text, spell, spell, quoted_eq_append, quoted_eq_append key (toColon.1 ++ _),
        spell_eq_append v, spell_eq_append v (after.1 ++ _), spellFields_eq_append more,
        spellFields_eq_append more ['}']]
      simp

theorem spellItems_eq_append
    : ∀ (more : List (Item Source)) (rest : List Char),
        spellItems more rest = spellItems more [] ++ rest
  | [], _ => rfl
  | ⟨before, v, after⟩ :: more, rest => by
      rw [spellItems, spellItems, spell_eq_append v, spell_eq_append v (after.1 ++ _),
        spellItems_eq_append more rest]
      simp

theorem spellFields_eq_append
    : ∀ (more : List (Entry Source)) (rest : List Char),
        spellFields more rest = spellFields more [] ++ rest
  | [], _ => rfl
  | ⟨before, key, toColon, fromColon, v, after⟩ :: more, rest => by
      rw [spellFields, spellFields, quoted_eq_append, quoted_eq_append key (toColon.1 ++ _),
        spell_eq_append v, spell_eq_append v (after.1 ++ _), spellFields_eq_append more rest]
      simp
end

/-- Each further item takes up characters. -/
theorem length_spellItems (more : List (Item Source)) (rest : List Char)
    : more.length + rest.length ≤ (spellItems more rest).length := by
  induction more with
  | nil => simp [spellItems]
  | cons i more ih =>
      simp only [spellItems, spell_eq_append i.value, List.length_cons, List.length_append]
      omega

/-- Each further entry takes up characters. -/
theorem length_spellFields (more : List (Entry Source)) (rest : List Char)
    : more.length + rest.length ≤ (spellFields more rest).length := by
  induction more with
  | nil => simp [spellFields]
  | cons f more ih =>
      simp only [spellFields, quoted_eq_append f.key (_ ++ _), spell_eq_append f.value,
        List.length_cons, List.length_append]
      omega

/-- At most so many lists and maps stand inside one another. -/
inductive Within : Nat → Source → Prop where
  | null {depth : Nat} : Within depth .null
  | bool {depth : Nat} {b : Bool} : Within depth (.bool b)
  | int {depth : Nat} {n : WordInt} : Within depth (.int n)
  | string {depth : Nat} {glyphs : List Glyph} : Within depth (.string glyphs)
  | emptyList {depth : Nat} {inside : Space} : Within (depth + 1) (.emptyList inside)
  | list {depth : Nat} {first : Item Source} {more : List (Item Source)}
    (head : Within depth first.value) (tail : ∀ item ∈ more, Within depth item.value)
    : Within (depth + 1) (.list first more)
  | emptyMap {depth : Nat} {inside : Space} : Within (depth + 1) (.emptyMap inside)
  | map {depth : Nat} {first : Entry Source} {more : List (Entry Source)}
    (head : Within depth first.value) (tail : ∀ field ∈ more, Within depth field.value)
    : Within (depth + 1) (.map first more)

theorem Within.mono {depth more : Nat} {source : Source} (within : Within depth source)
    (le : depth ≤ more)
    : Within more source := by
  induction within generalizing more with
  | null => exact .null
  | bool => exact .bool
  | int => exact .int
  | string => exact .string
  | emptyList =>
      obtain ⟨more, rfl⟩ := Nat.exists_eq_add_one.mpr (Nat.zero_lt_of_lt le)
      exact .emptyList
  | list _ _ head tail =>
      obtain ⟨more, rfl⟩ := Nat.exists_eq_add_one.mpr (Nat.zero_lt_of_lt le)
      have le := Nat.le_of_succ_le_succ le
      exact .list (head le) (fun item member => tail item member le)
  | emptyMap =>
      obtain ⟨more, rfl⟩ := Nat.exists_eq_add_one.mpr (Nat.zero_lt_of_lt le)
      exact .emptyMap
  | map _ _ head tail =>
      obtain ⟨more, rfl⟩ := Nat.exists_eq_add_one.mpr (Nat.zero_lt_of_lt le)
      have le := Nat.le_of_succ_le_succ le
      exact .map (head le) (fun field member => tail field member le)

end Source

end WorkflowLint.Json
