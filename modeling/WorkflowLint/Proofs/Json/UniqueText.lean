import WorkflowLint.Graph
import WorkflowLint.Proofs.OrderedTrees

/-! Compact texts tell trees apart: a text is split off from what stands behind it in one way only.
So trees have the same id text if they are the same, or if one is a string that spells the other.
-/

namespace WorkflowLint

/-- All numbers of the tree are integers that fit into a word. -/
def Value.Whole (v : Value) : Prop :=
  ∃ depth, v.Integral depth

namespace Json

-----------------------------------------------------------------------------------------
-- First characters
-----------------------------------------------------------------------------------------

/-- What the first character of a text tells about the tree. -/
inductive Shape where
  | null
  | bool
  | number
  | string
  | list
  | map

namespace Shape

def of : Value → Shape
  | .null => .null
  | .bool _ => .bool
  | .number _ => .number
  | .string _ => .string
  | .list _ => .list
  | .map _ => .map

/-- The shape of the trees whose texts start with a character. -/
def starting? (c : Char) : Option Shape :=
  if c.isDigit ∨ c = '-' then some .number
  else if c = 'n' then some .null
  else if c = 't' ∨ c = 'f' then some .bool
  else if c = '"' then some .string
  else if c = '[' then some .list
  else if c = '{' then some .map
  else none

theorem starting?_closer : ∀ c ∈ closers, starting? c = none := by
  simp only [closers, List.forall_mem_cons]
  exact ⟨rfl, rfl, rfl, rfl, rfl, rfl, rfl, List.forall_mem_nil _⟩

end Shape

/-- The text of a tree starts with a character of its shape. -/
theorem text_eq_cons {v : Value} (whole : v.Whole)
    : ∃ c more, text v = c :: more ∧ Shape.starting? c = some (Shape.of v) := by
  obtain ⟨_, integral⟩ := whole
  cases integral with
  | null | string | list | map => exact ⟨_, _, rfl, rfl⟩
  | @bool _ b => cases b <;> exact ⟨_, _, rfl, rfl⟩
  | @int _ n fits =>
      cases n with
      | negSucc k => exact ⟨_, _, rfl, rfl⟩
      | ofNat k =>
          obtain ⟨c, more, digits, _⟩ := digitsOf_eq_cons k
          have digit := isDigit_of_mem_digitsOf (n := k) (digits ▸ List.mem_cons_self)
          exact ⟨c, more, digits, if_pos (.inl digit)⟩

/-- Texts that begin alike belong to trees of one shape. -/
theorem shape_eq_of_text {v w : Value} (left : v.Whole) (right : w.Whole) {r s : List Char}
    (same : text v ++ r = text w ++ s)
    : Shape.of v = Shape.of w := by
  obtain ⟨c, more, first, shape⟩ := text_eq_cons left
  obtain ⟨d, rest, second, other⟩ := text_eq_cons right
  rw [first, second] at same
  obtain rfl := (List.cons.inj same).1
  exact Option.some.inj (shape.symm.trans other)

-----------------------------------------------------------------------------------------
-- Separated lists
-----------------------------------------------------------------------------------------

section Joined

variable {α : Type} {print : α → List Char} {P : α → Prop}

/-- The text of a thing is told from the texts of others, whatever stands behind them. -/
def Splits (print : α → List Char) (P : α → Prop) (x : α) : Prop :=
  ∀ ⦃y r s⦄, P y → Closes r → Closes s → print x ++ r = print y ++ s → x = y ∧ r = s

/-- Texts with a comma in front of each. -/
def behindCommas (print : α → List Char) (xs : List α) : List Char :=
  xs.flatMap (fun x => ',' :: print x)

/-- Texts with commas between them. -/
def joined (print : α → List Char) : List α → List Char
  | [] => []
  | x :: more => print x ++ behindCommas print more

theorem closes_behindCommas (xs : List α) {c : Char} (closer : c ∈ closers) (rest : List Char)
    : Closes (behindCommas print xs ++ c :: rest) := by
  cases xs with
  | nil => exact closes_of_mem closer rest
  | cons x more => exact closes_of_mem (by decide) _

variable {closer : Char} (listed : closer ∈ closers) (noComma : closer ≠ ',')

include listed noComma

/-- Further things are told from others up to what closes the list, by induction on them. -/
theorem splits_behindCommas {xs ys : List α} (each : ∀ x ∈ xs, Splits print P x)
    (known : ∀ y ∈ ys, P y) {r s : List Char}
    (same : behindCommas print xs ++ closer :: r = behindCommas print ys ++ closer :: s)
    : xs = ys ∧ r = s := by
  induction xs generalizing ys with
  | nil =>
      cases ys with
      | nil => exact ⟨rfl, (List.cons.inj same).2⟩
      | cons y ys => exact absurd (List.cons.inj same).1 noComma
  | cons x xs ih =>
      cases ys with
      | nil => exact absurd (List.cons.inj same).1.symm noComma
      | cons y ys =>
          simp only [behindCommas, List.flatMap_cons, List.cons_append, List.append_assoc,
            List.cons.injEq, true_and] at same
          obtain ⟨rfl, behind⟩ := each x List.mem_cons_self (known y List.mem_cons_self)
            (closes_behindCommas xs listed r) (closes_behindCommas ys listed s) same
          obtain ⟨rfl, rest⟩ := ih (fun x member => each x (List.mem_cons_of_mem _ member))
            (fun y member => known y (List.mem_cons_of_mem _ member)) behind
          exact ⟨rfl, rest⟩

/-- Joined texts are told from others up to what closes the list, since none starts with that. -/
theorem splits_joined {xs ys : List α} (each : ∀ x ∈ xs, Splits print P x)
    (here : ∀ x ∈ xs, P x) (known : ∀ y ∈ ys, P y)
    (opens : ∀ x, P x → ∀ r, ¬ Closes (print x ++ r)) {r s : List Char}
    (same : joined print xs ++ closer :: r = joined print ys ++ closer :: s)
    : xs = ys ∧ r = s := by
  cases xs with
  | nil =>
      cases ys with
      | nil => exact ⟨rfl, (List.cons.inj same).2⟩
      | cons y ys =>
          rw [joined, joined, List.nil_append, List.append_assoc] at same
          exact absurd (same ▸ closes_of_mem listed r) (opens y (known y List.mem_cons_self) _)
  | cons x xs =>
      cases ys with
      | nil =>
          rw [joined, joined, List.nil_append, List.append_assoc] at same
          exact absurd (same ▸ closes_of_mem listed s) (opens x (here x List.mem_cons_self) _)
      | cons y ys =>
          rw [joined, joined, List.append_assoc, List.append_assoc] at same
          obtain ⟨rfl, behind⟩ := each x List.mem_cons_self (known y List.mem_cons_self)
            (closes_behindCommas xs listed r) (closes_behindCommas ys listed s) same
          obtain ⟨rfl, rest⟩ := splits_behindCommas listed noComma
            (fun x member => each x (List.mem_cons_of_mem _ member))
            (fun y member => known y (List.mem_cons_of_mem _ member)) behind
          exact ⟨rfl, rest⟩

end Joined

-----------------------------------------------------------------------------------------
-- Trees
-----------------------------------------------------------------------------------------

/-- The text of an entry of a map. -/
def fieldText (field : String × Value) : List Char :=
  quote field.1.toList ++ ':' :: text field.2

theorem itemsText_eq_joined (items : List Value) : itemsText items = joined text items := by
  induction items with
  | nil => rfl
  | cons v more ih =>
      cases more with
      | nil => exact (List.append_nil _).symm
      | cons w more => rw [itemsText, ih]; rfl

theorem fieldsText_eq_joined (fields : List (String × Value))
    : fieldsText fields = joined fieldText fields := by
  induction fields with
  | nil => rfl
  | cons field more ih =>
      cases more with
      | nil => simp [fieldsText, joined, behindCommas, fieldText]
      | cons next more =>
          rw [fieldsText, ih]
          simp [joined, behindCommas, fieldText]

/-- A quoted string is told from others, since reading it gives the string and what is behind. -/
theorem quote_append_inj {a b : String} {r s : List Char}
    (same : quote a.toList ++ r = quote b.toList ++ s)
    : a = b ∧ r = s := by
  rw [← quoted_glyphsOf, ← quoted_glyphsOf] at same
  have read := congrArg readString (List.cons.inj same).2
  rw [readString_quoted, readString_quoted, spelled_glyphsOf, spelled_glyphsOf] at read
  exact Prod.mk.inj (Except.ok.inj read)

/-- No text starts like what may follow a value. -/
theorem not_closes_text {v : Value} (whole : v.Whole) (rest : List Char)
    : ¬ Closes (text v ++ rest) := by
  obtain ⟨c, more, starts, shape⟩ := text_eq_cons whole
  intro closes
  rw [starts] at closes
  rw [Shape.starting?_closer c (closes c rfl)] at shape
  cases shape

theorem not_closes_fieldText (field : String × Value) (rest : List Char)
    : ¬ Closes (fieldText field ++ rest) :=
  fun closes => absurd (closes '"' rfl) (by decide)

/-- The text of an entry is told from others, since its key ends with a quote and its value is
told from others.
-/
theorem splits_fieldText {field : String × Value} (value : Splits text Value.Whole field.2)
    : Splits fieldText (fun field => field.2.Whole) field := by
  intro other r s whole before behind same
  rw [fieldText, fieldText, List.append_assoc, List.append_assoc] at same
  obtain ⟨key, same⟩ := quote_append_inj same
  obtain ⟨content, rest⟩ := value whole before behind (List.cons.inj same).2
  exact ⟨Prod.ext key content, rest⟩

/-- The text of a tree is told from those of all others, whatever stands behind.
Witness: induction on the tree; the first character fixes the shape of the other one.
-/
theorem splits_text {v : Value} {depth : Nat} (integral : v.Integral depth)
    : Splits text Value.Whole v := by
  induction integral with
  | null =>
      intro w r s whole _ _ same
      have shape := shape_eq_of_text ⟨0, .null⟩ whole same
      cases w <;> cases shape
      exact ⟨rfl, List.append_cancel_left same⟩
  | @bool _ b =>
      intro w r s whole _ _ same
      have shape := shape_eq_of_text ⟨0, .bool⟩ whole same
      cases w with
      | bool c => cases b <;> cases c <;> simp_all [text, boolText]
      | _ => cases shape
  | @int _ n fits =>
      intro w r s whole before behind same
      have shape := shape_eq_of_text ⟨0, .int fits⟩ whole same
      obtain ⟨_, other⟩ := whole
      cases other with
      | @int _ m fitsToo =>
          have left := readValue_int 0 ⟨n, fits⟩ before
          have right := readValue_int 0 ⟨m, fitsToo⟩ behind
          exact Prod.mk.inj (Except.ok.inj (left.symm.trans (same ▸ right)))
      | _ => cases shape
  | @string _ a =>
      intro w r s whole _ _ same
      have shape := shape_eq_of_text ⟨0, .string⟩ whole same
      cases w with
      | string b =>
          obtain ⟨rfl, rest⟩ := quote_append_inj same
          exact ⟨rfl, rest⟩
      | _ => cases shape
  | @list _ items inside each =>
      intro w r s whole _ _ same
      have shape := shape_eq_of_text ⟨_, .list inside⟩ whole same
      obtain ⟨_, other⟩ := whole
      cases other with
      | @list _ others insideToo =>
          simp only [text, itemsText_eq_joined, List.cons_append, List.append_assoc,
            List.nil_append, List.cons.injEq, true_and] at same
          obtain ⟨rfl, rest⟩ := splits_joined (by decide) (by decide) each
            (fun v member => ⟨_, inside v member⟩) (fun v member => ⟨_, insideToo v member⟩)
            (fun v whole => not_closes_text whole) same
          exact ⟨rfl, rest⟩
      | _ => cases shape
  | @map _ fields inside each =>
      intro w r s whole _ _ same
      have shape := shape_eq_of_text ⟨_, .map inside⟩ whole same
      obtain ⟨_, other⟩ := whole
      cases other with
      | @map _ others insideToo =>
          simp only [text, fieldsText_eq_joined, List.cons_append, List.append_assoc,
            List.nil_append, List.cons.injEq, true_and] at same
          obtain ⟨rfl, rest⟩ := splits_joined (by decide) (by decide)
            (fun field member => splits_fieldText (each field member))
            (fun field member => ⟨_, inside field member⟩)
            (fun field member => ⟨_, insideToo field member⟩)
            (fun field _ => not_closes_fieldText field) same
          exact ⟨rfl, rest⟩
      | _ => cases shape

end Json

-----------------------------------------------------------------------------------------
-- Id texts
-----------------------------------------------------------------------------------------

namespace Value

/-- Trees have the same compact text only if they are the same. -/
theorem Whole.jsonText_inj {v w : Value} (left : v.Whole) (right : w.Whole)
    : v.jsonText = w.jsonText ↔ v = w := by
  constructor
  · intro same
    obtain ⟨_, integral⟩ := left
    have ended : Json.Closes [] := by simp [Json.Closes]
    have texts : Json.text v ++ [] = Json.text w ++ [] :=
      congrArg (· ++ []) (String.ofList_injective same)
    exact (Json.splits_text integral right ended ended texts).1
  · intro same
    rw [same]

/-- The first is a string, the compact text of the second, which is no string. -/
def SpelledBy (v w : Value) : Prop :=
  v = .string w.jsonText ∧ ∀ text, w ≠ .string text

/-- The trees are the same, or one of them is a string that spells the other. -/
def SameText (v w : Value) : Prop :=
  v = w ∨ v.SpelledBy w ∨ w.SpelledBy v

theorem not_spelledBy_of_not_string {v w : Value} (other : ∀ text, v ≠ .string text)
    : ¬ v.SpelledBy w :=
  fun spelled => other _ spelled.1

theorem not_spelledBy_string {v : Value} {text : String}
    : ¬ v.SpelledBy (.string text) :=
  fun spelled => spelled.2 text rfl

/-- A string and a tree that is none have the same id text if the string is the text of the tree. -/
theorem string_sameText_iff {text : String} {w : Value} (other : ∀ text, w ≠ .string text)
    : text = w.idText ↔ SameText (.string text) w := by
  have different : Value.string text ≠ w := (other text).symm
  rw [idText_eq_jsonText other, SameText, or_iff_right different,
    or_iff_left (not_spelledBy_of_not_string other), SpelledBy, and_iff_left other, string.injEq]

theorem sameText_comm {v w : Value} : v.SameText w ↔ w.SameText v := by
  rw [SameText, SameText, eq_comm, or_comm (a := v.SpelledBy w)]

/-- Two trees of whole numbers have the same id text exactly if they are the same or one is a string
that spells the other. So only then are nodes with such ids taken for one.
Witness: trees that are no strings are told apart by their compact texts.
-/
theorem idText_eq_iff {v w : Value} (left : v.Whole) (right : w.Whole)
    : (v.idText = w.idText ↔ v.SameText w)
      ∧ ∀ first second : Value,
          first.truthy? "id" = some v
          → second.truthy? "id" = some w
          → (Graph.nodeId? first = Graph.nodeId? second ↔ v.SameText w) := by
  have texts : v.idText = w.idText ↔ v.SameText w := by
    by_cases string : ∃ text, v = .string text
    · obtain ⟨a, rfl⟩ := string
      by_cases stringToo : ∃ text, w = .string text
      · obtain ⟨b, rfl⟩ := stringToo
        rw [SameText, or_iff_left (by simp only [not_spelledBy_string, or_self, not_false_iff])]
        exact ⟨congrArg string, string.inj⟩
      · exact string_sameText_iff (not_exists.mp stringToo)
    · have other := not_exists.mp string
      by_cases stringToo : ∃ text, w = .string text
      · obtain ⟨b, rfl⟩ := stringToo
        rw [sameText_comm, ← string_sameText_iff other, eq_comm]
        rfl
      · have otherToo := not_exists.mp stringToo
        rw [idText_eq_jsonText other, idText_eq_jsonText otherToo, left.jsonText_inj right,
          SameText, or_iff_left]
        simp only [not_spelledBy_of_not_string other, not_spelledBy_of_not_string otherToo, or_self,
          not_false_iff]
  refine ⟨texts, ?_⟩
  intro first second atFirst atSecond
  rw [Graph.nodeId?, Graph.nodeId?, atFirst, atSecond, Option.map_some, Option.map_some,
    Option.some.injEq, texts]

/-- A list with a comma and a bracket in a string, and the string that spells it. -/
theorem idText_eq_iff_spelled
    : let items := .list [.string "\",[", .number (.int (-1))]
      let spelled := .string "[\"\\\",[\",-1]"
      Whole items ∧ Whole spelled ∧ SameText items spelled := by
  intro items spelled
  have list : Whole items := by
    refine ⟨1, .list ?_⟩
    simp only [List.forall_mem_cons]
    exact ⟨.string, .int (by decide), List.forall_mem_nil _⟩
  exact ⟨list, ⟨0, .string⟩, (idText_eq_iff list ⟨0, .string⟩).1.mp (by decide)⟩

end Value

end WorkflowLint
