import Mathlib.Tactic.SplitIfs
import WorkflowLint.Proofs.Json.SourceReading

/-! Printed trees are sources, in both layouts: compact, and with one item or entry a line.
So what is printed is read back, with the entries of each map sorted by key.
-/

namespace WorkflowLint

-----------------------------------------------------------------------------------------
-- Trees that are read back
-----------------------------------------------------------------------------------------

/-- A tree whose numbers are integers that fit into a word, with at most so many lists and maps
inside one another. -/
inductive Value.Integral : Nat → Value → Prop where
  | null {depth : Nat} : Integral depth .null
  | bool {depth : Nat} {b : Bool} : Integral depth (.bool b)
  | int {depth : Nat} {n : Int} (fits : -Word.signedCount ≤ n ∧ n < Word.count)
    : Integral depth (.number (.int n))
  | string {depth : Nat} {s : String} : Integral depth (.string s)
  | list {depth : Nat} {items : List Value} (each : ∀ item ∈ items, Integral depth item)
    : Integral (depth + 1) (.list items)
  | map {depth : Nat} {fields : List (String × Value)}
    (each : ∀ field ∈ fields, Integral depth field.2)
    : Integral (depth + 1) (.map fields)

namespace Value

mutual
/-- The tree with the entries of each map sorted by key. -/
def sorted : Value → Value
  | .null => .null
  | .bool b => .bool b
  | .number n => .number n
  | .string s => .string s
  | .list items => .list (sortedItems items)
  | .map fields => .ofFields (sortedFields fields)

def sortedItems : List Value → List Value
  | [] => []
  | v :: more => sorted v :: sortedItems more

def sortedFields : List (String × Value) → List (String × Value)
  | [] => []
  | (key, v) :: more => (key, sorted v) :: sortedFields more
end

/-- An entry with a key behind all others is put in at the end. -/
theorem insertField_last {key : String} {value : Value} {fields : List (String × Value)}
    (behind : ∀ field ∈ fields, field.1 < key)
    : insertField key value fields = fields ++ [(key, value)] := by
  induction fields with
  | nil => rfl
  | cons field more ih =>
      rcases List.forall_mem_cons.mp behind with ⟨here, behind⟩
      rw [insertField, if_neg (String.lt_asymm here), if_neg (String.ne_of_lt here).symm, ih behind]
      rfl

/-- Entries whose keys are in order stay as they are, by induction on those to be put in. -/
theorem ofFields_eq_map {fields : List (String × Value)}
    (ordered : (fields.map Prod.fst).Pairwise (· < ·))
    : ofFields fields = .map fields := by
  have grown (placed more : List (String × Value))
      (ordered : ((placed ++ more).map Prod.fst).Pairwise (· < ·))
      : more.foldl (fun sorted entry => insertField entry.1 entry.2 sorted) placed
        = placed ++ more := by
    induction more generalizing placed with
    | nil => exact (List.append_nil placed).symm
    | cons entry more ih =>
        have before : ∀ field ∈ placed, field.1 < entry.1 := by
          intro field member
          rw [List.map_append, List.pairwise_append] at ordered
          exact ordered.2.2 _ (List.mem_map_of_mem member) _ List.mem_cons_self
        rw [List.append_cons] at ordered ⊢
        rw [List.foldl_cons, insertField_last before, ih _ ordered]
  exact congrArg Value.map (grown [] fields ordered)

end Value

namespace Json

-----------------------------------------------------------------------------------------
-- Strings
-----------------------------------------------------------------------------------------

theorem hexValue?_hexDigit
    : ∀ n < 16, hexValue? (hexDigit n) = some n := by
  decide

/-- A character is the one with the number that its last two digits give. -/
theorem ofNat_codeOf (c : Char)
    : Char.ofNat (codeOf 0 0 (c.toNat / 16) (c.toNat % 16)) = c := by
  have number : codeOf 0 0 (c.toNat / 16) (c.toNat % 16) = c.toNat := by
    rw [codeOf]
    omega
  rw [number, Char.ofNat_toNat]

/-- Each character is escaped in a way in which it can be spelled.
Witness: the characters that have a name, the control characters without one, and all others.
-/
theorem spells_escape (c : Char)
    : Spells (escape c) c := by
  unfold escape
  split_ifs with quote backslash backspace tab line feed start control
  · subst quote
    exact .named (by decide)
  · subst backslash
    exact .named (by decide)
  · subst backspace
    exact .named (by decide)
  · subst tab
    exact .named (by decide)
  · subst line
    exact .named (by decide)
  · subst feed
    exact .named (by decide)
  · subst start
    exact .named (by decide)
  · have zero : hexValue? '0' = some 0 := by decide
    have high := hexValue?_hexDigit (c.toNat / 16) (by omega)
    have low := hexValue?_hexDigit (c.toNat % 16) (by omega)
    have scalar : ¬ (0xD800 ≤ codeOf 0 0 (c.toNat / 16) (c.toNat % 16)
        ∧ codeOf 0 0 (c.toNat / 16) (c.toNat % 16) ≤ 0xDFFF) := by
      rw [codeOf]
      omega
    have numbered := Spells.numbered zero zero high low scalar
    rwa [ofNat_codeOf] at numbered
  · exact .plain (by omega) quote backslash

def escaped (c : Char) : Glyph :=
  ⟨escape c, c, spells_escape c⟩

def glyphsOf (s : String) : List Glyph :=
  s.toList.map escaped

theorem spelled_glyphsOf (s : String)
    : spelled (glyphsOf s) = s := by
  simp [spelled, glyphsOf, escaped, Function.comp_def]

theorem quoted_glyphsOf (s : String) (rest : List Char)
    : quoted (glyphsOf s) rest = quote s.toList ++ rest := by
  simp [quoted, quote, glyphsOf, escaped, List.flatMap_map]

-----------------------------------------------------------------------------------------
-- Layouts
-----------------------------------------------------------------------------------------

/-- The space in a printed text. -/
structure Layout where
  /-- In front of an item or entry of a level, and of the end of a list or map of a level. -/
  line : Nat → Space
  fromColon : Space

namespace Layout

def tight : Space := ⟨[], List.forall_mem_nil _⟩

@[simp] theorem tight_append (rest : List Char)
    : tight.1 ++ rest = rest :=
  rfl

@[simp] theorem append_tight (before : List Char)
    : before ++ tight.1 = before :=
  List.append_nil before

def compact : Layout := ⟨fun _ => tight, tight⟩

theorem isBlank_newline (level : Nat)
    : ∀ c ∈ newline level, isBlank c = true := by
  intro c member
  rcases List.mem_cons.mp member with rfl | inLine
  · rfl
  · rw [List.eq_of_mem_replicate inLine]
    rfl

def indented : Layout :=
  ⟨fun level => ⟨newline level, isBlank_newline level⟩, ⟨[' '], List.forall_mem_singleton.mpr rfl⟩⟩

/-- The space behind an item or entry: the last one has the end of the list or map behind it. -/
def closing {α : Type} (layout : Layout) (level : Nat) (more : List α) : Space :=
  if more.isEmpty then layout.line level else tight

mutual
/-- The source of a tree. Numbers that are no integers of a word have none, and stand as `null`. -/
def source (layout : Layout) (level : Nat) : Value → Source
  | .null => .null
  | .bool b => .bool b
  | .number (.int n) =>
      if fits : -Word.signedCount ≤ n ∧ n < Word.count then .int ⟨n, fits⟩ else .null
  | .number (.float _) => .null
  | .string s => .string (glyphsOf s)
  | .list [] => .emptyList tight
  | .list (v :: more) =>
      .list ⟨layout.line (level + 1), source layout (level + 1) v, layout.closing level more⟩
        (items layout level more)
  | .map [] => .emptyMap tight
  | .map ((key, v) :: more) =>
      .map
        ⟨layout.line (level + 1), glyphsOf key, tight, layout.fromColon,
          source layout (level + 1) v, layout.closing level more⟩
        (fields layout level more)

/-- The sources of the items behind the first one. -/
def items (layout : Layout) (level : Nat) : List Value → List (Item Source)
  | [] => []
  | v :: more =>
      ⟨layout.line (level + 1), source layout (level + 1) v, layout.closing level more⟩
        :: items layout level more

/-- The sources of the entries behind the first one. -/
def fields (layout : Layout) (level : Nat) : List (String × Value) → List (Entry Source)
  | [] => []
  | (key, v) :: more =>
      ⟨layout.line (level + 1), glyphsOf key, tight, layout.fromColon,
          source layout (level + 1) v, layout.closing level more⟩
        :: fields layout level more
end

end Layout

-----------------------------------------------------------------------------------------
-- Printing
-----------------------------------------------------------------------------------------

/-- A way to print trees in a layout. -/
structure Printing (layout : Layout) where
  value : Nat → Value → List Char
  items : Nat → List Value → List Char
  fields : Nat → List (String × Value) → List Char
  null : ∀ level, value level .null = "null".toList
  bool : ∀ level b, value level (.bool b) = boolText b
  number : ∀ level n, value level (.number n) = numberText n
  string : ∀ level s, value level (.string s) = quote s.toList
  emptyList : ∀ level, value level (.list []) = ['[', ']']
  list
    : ∀ level v more,
        value level (.list (v :: more))
        = '[' :: items (level + 1) (v :: more) ++ (layout.line level).1 ++ [']']
  emptyMap : ∀ level, value level (.map []) = ['{', '}']
  map
    : ∀ level field more,
        value level (.map (field :: more))
        = '{' :: fields (level + 1) (field :: more) ++ (layout.line level).1 ++ ['}']
  lastItem : ∀ level v, items level [v] = (layout.line level).1 ++ value level v
  item
    : ∀ level v w more,
        items level (v :: w :: more)
        = (layout.line level).1 ++ value level v ++ ',' :: items level (w :: more)
  lastField
    : ∀ level key v,
        fields level [(key, v)]
        = (layout.line level).1 ++ quote key.toList ++ ':' :: layout.fromColon.1 ++ value level v
  field
    : ∀ level key v next more,
        fields level ((key, v) :: next :: more)
        = (layout.line level).1 ++ quote key.toList ++ ':' :: layout.fromColon.1 ++ value level v
            ++ ',' :: fields level (next :: more)

namespace Printing

def compact : Printing .compact where
  value _ := text
  items _ := itemsText
  fields _ := fieldsText
  null _ := rfl
  bool _ _ := rfl
  number _ _ := rfl
  string _ _ := rfl
  emptyList _ := rfl
  list _ _ _ := by simp [text, Layout.compact, Layout.tight]
  emptyMap _ := rfl
  map _ _ _ := by simp [text, Layout.compact, Layout.tight]
  lastItem _ _ := rfl
  item _ _ _ _ := rfl
  lastField _ _ _ := by simp [fieldsText, Layout.compact, Layout.tight]
  field _ _ _ _ _ := by simp [fieldsText, Layout.compact, Layout.tight]

def indented : Printing .indented where
  value := prettyText
  items := prettyItems
  fields := prettyFields
  null _ := rfl
  bool _ _ := rfl
  number _ _ := rfl
  string _ _ := rfl
  emptyList _ := rfl
  list _ _ _ := rfl
  emptyMap _ := rfl
  map _ _ _ := rfl
  lastItem _ _ := rfl
  item _ _ _ _ := rfl
  lastField _ _ _ := by simp [prettyFields, Layout.indented]
  field _ _ _ _ _ := by simp [prettyFields, Layout.indented]

variable {layout : Layout} (printing : Printing layout)

/-- The source of a tree is spelled as the tree is printed, at any level. -/
def SpelledAs (v : Value) : Prop :=
  ∀ level rest, (layout.source level v).spell rest = printing.value level v ++ rest

/-- The items of a list are spelled as they are printed, by induction on all but the first one. -/
theorem spell_items (level : Nat) (v : Value) (more : List Value) (rest : List Char)
    (each : ∀ item ∈ v :: more, printing.SpelledAs item)
    : (layout.line (level + 1)).1
        ++ (layout.source (level + 1) v).spell
          ((layout.closing level more).1 ++ Source.spellItems (layout.items level more) rest)
      = printing.items (level + 1) (v :: more) ++ (layout.line level).1 ++ rest := by
  rw [each v List.mem_cons_self]
  induction more generalizing v with
  | nil => simp [printing.lastItem, Layout.items, Layout.closing, Source.spellItems]
  | cons w more ih =>
      have behind := ih w (fun item member => each item (List.mem_cons_of_mem _ member))
      rw [printing.item, Layout.items, Source.spellItems, each w (by simp), behind]
      simp [Layout.closing, Layout.tight]

/-- The entries of a map are spelled as they are printed, by induction on all but the first one. -/
theorem spell_fields (level : Nat) (key : String) (v : Value) (more : List (String × Value))
    (rest : List Char) (each : ∀ field ∈ (key, v) :: more, printing.SpelledAs field.2)
    : (layout.line (level + 1)).1
        ++ quoted (glyphsOf key)
          (':' :: (layout.fromColon.1
            ++ (layout.source (level + 1) v).spell
              ((layout.closing level more).1
                ++ Source.spellFields (layout.fields level more) rest)))
      = printing.fields (level + 1) ((key, v) :: more) ++ (layout.line level).1 ++ rest := by
  rw [show printing.SpelledAs v from each (key, v) List.mem_cons_self, quoted_glyphsOf]
  induction more generalizing key v with
  | nil => simp [printing.lastField, Layout.fields, Layout.closing, Source.spellFields]
  | cons next more ih =>
      rcases next with ⟨nextKey, w⟩
      have behind := ih nextKey w (fun field member => each field (List.mem_cons_of_mem _ member))
      have value : printing.SpelledAs w := each (nextKey, w) (by simp)
      rw [printing.field, Layout.fields, Source.spellFields, value, quoted_glyphsOf,
        Layout.tight_append, behind]
      simp [Layout.closing, Layout.tight]

/-- The source of a tree is spelled as the tree is printed, by induction on the tree. -/
theorem spelledAs {depth : Nat} {v : Value} (integral : v.Integral depth)
    : printing.SpelledAs v := by
  induction integral with
  | null =>
      intro level rest
      rw [printing.null]
      rfl
  | bool =>
      intro level rest
      rw [printing.bool]
      rfl
  | int fits =>
      intro level rest
      rw [printing.number, Layout.source, dif_pos fits]
      rfl
  | string =>
      intro level rest
      rw [printing.string]
      exact quoted_glyphsOf _ _
  | @list _ items _ each =>
      intro level rest
      cases items with
      | nil =>
          rw [printing.emptyList]
          rfl
      | cons v more =>
          rw [printing.list, Layout.source, Source.spell,
            printing.spell_items level v more (']' :: rest) each]
          simp
  | @map _ fields _ each =>
      intro level rest
      cases fields with
      | nil =>
          rw [printing.emptyMap]
          rfl
      | cons field more =>
          rcases field with ⟨key, v⟩
          have entries := printing.spell_fields level key v more ('}' :: rest) each
          rw [printing.map, Layout.source, Source.spell]
          simpa using entries

end Printing

-----------------------------------------------------------------------------------------
-- Reading back
-----------------------------------------------------------------------------------------

namespace Layout

variable (layout : Layout)

/-- What the source of a tree describes is the sorted tree, by induction on the tree. -/
theorem value_source {depth : Nat} {v : Value} (integral : v.Integral depth)
    : ∀ level, (layout.source level v).value = v.sorted := by
  induction integral with
  | null | bool => exact fun _ => rfl
  | int fits =>
      intro level
      rw [source, dif_pos fits]
      rfl
  | string =>
      intro level
      exact congrArg Value.string (spelled_glyphsOf _)
  | @list _ values _ each =>
      intro level
      have behind : ∀ more : List Value, (∀ item ∈ more, item ∈ values) →
          Source.itemValues (layout.items level more) = Value.sortedItems more := by
        intro more part
        induction more with
        | nil => rfl
        | cons v more ih =>
            rcases List.forall_mem_cons.mp part with ⟨here, part⟩
            rw [items, Source.itemValues, Value.sortedItems, each v here, ih part]
      cases values with
      | nil => rfl
      | cons v more =>
          rw [source, Source.value, Value.sorted, Value.sortedItems, each v List.mem_cons_self,
            behind more (fun _ => List.mem_cons_of_mem v)]
  | @map _ entries _ each =>
      intro level
      have behind : ∀ more : List (String × Value), (∀ field ∈ more, field ∈ entries) →
          Source.fieldValues (layout.fields level more) = Value.sortedFields more := by
        intro more part
        induction more with
        | nil => rfl
        | cons field more ih =>
            rcases List.forall_mem_cons.mp part with ⟨here, part⟩
            rw [fields, Source.fieldValues, Value.sortedFields, each field here, ih part,
              spelled_glyphsOf]
      cases entries with
      | nil => rfl
      | cons field more =>
          rw [source, Source.value, Value.sorted, Value.sortedFields,
            each field List.mem_cons_self, behind more (fun _ => List.mem_cons_of_mem field),
            spelled_glyphsOf]

theorem mem_items {level : Nat} {more : List Value} {item : Item Source}
    (member : item ∈ layout.items level more)
    : ∃ v ∈ more, item.value = layout.source (level + 1) v := by
  induction more with
  | nil => cases member
  | cons v more ih =>
      rcases List.mem_cons.mp member with rfl | later
      · exact ⟨v, List.mem_cons_self, rfl⟩
      · obtain ⟨w, known, same⟩ := ih later
        exact ⟨w, List.mem_cons_of_mem v known, same⟩

theorem mem_fields {level : Nat} {more : List (String × Value)} {entry : Entry Source}
    (member : entry ∈ layout.fields level more)
    : ∃ field ∈ more, entry.value = layout.source (level + 1) field.2 := by
  induction more with
  | nil => cases member
  | cons field more ih =>
      rcases List.mem_cons.mp member with rfl | later
      · exact ⟨field, List.mem_cons_self, rfl⟩
      · obtain ⟨next, known, same⟩ := ih later
        exact ⟨next, List.mem_cons_of_mem field known, same⟩

/-- The source of a tree is as deep as the tree. -/
theorem within_source {depth : Nat} {v : Value} (integral : v.Integral depth)
    : ∀ level, (layout.source level v).Within depth := by
  induction integral with
  | null => exact fun _ => .null
  | bool => exact fun _ => .bool
  | int fits =>
      intro level
      rw [source, dif_pos fits]
      exact .int
  | string => exact fun _ => .string
  | @list _ values _ each =>
      intro level
      cases values with
      | nil => exact .emptyList
      | cons v more =>
          refine .list (each v List.mem_cons_self _) ?_
          intro item member
          obtain ⟨w, known, same⟩ := layout.mem_items member
          exact same ▸ each w (List.mem_cons_of_mem v known) _
  | @map _ entries _ each =>
      intro level
      cases entries with
      | nil => exact .emptyMap
      | cons field more =>
          refine .map (each field List.mem_cons_self _) ?_
          intro entry member
          obtain ⟨next, known, same⟩ := layout.mem_fields member
          exact same ▸ each next (List.mem_cons_of_mem field known) _

end Layout

/-- A printed tree is read back, sorted, with white space behind it or not. -/
theorem Printing.read_value {layout : Layout} (printing : Printing layout) {v : Value}
    (integral : v.Integral depthLimit) (level : Nat) (after : Space)
    : read (printing.value level v ++ after.1) = .ok v.sorted := by
  have source := readText_source (layout.within_source integral level) Layout.tight after
  rw [Layout.tight_append, printing.spelledAs integral, layout.value_source integral] at source
  rw [read, source]
  rfl

end Json

end WorkflowLint
