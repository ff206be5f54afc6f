import Mathlib.Data.List.Basic
import WorkflowLint.Json.Text
import WorkflowLint.Proofs.Json.IntegerText

/-! Compact texts stay on one line: control characters are escaped in strings, and nothing else
that is written is one. So of all values only a string can bring a line break into a message.
-/

namespace WorkflowLint

/-- There is no line break in a text. -/
def Unbroken (text : String) : Prop :=
  '\n' ∉ text.toList

instance (text : String) : Decidable (Unbroken text) :=
  inferInstanceAs (Decidable ('\n' ∉ text.toList))

-----------------------------------------------------------------------------------------
-- Numbers
-----------------------------------------------------------------------------------------

theorem newline_not_mem_digitsOf (n : Nat) : '\n' ∉ digitsOf n := by
  intro member
  exact absurd (isDigit_of_mem_digitsOf member) (by decide)

namespace Binary64

theorem newline_not_mem_intText (n : Int) : '\n' ∉ intText n := by
  cases n with
  | ofNat n => exact newline_not_mem_digitsOf n
  | negSucc n =>
      exact List.not_mem_cons_of_ne_of_not_mem (by decide) (newline_not_mem_digitsOf (n + 1))

/-- A magnitude is written with digits, a point, an exponent and the sign of that, by cases on its
layout.
-/
theorem newline_not_mem_magnitudeText {layout : FloatLayout} (plus : '\n' ∉ layout.plus)
    (d : Decimal)
    : '\n' ∉ magnitudeText layout d := by
  have digits := newline_not_mem_digitsOf d.coefficient
  unfold magnitudeText
  rw [digitsOf] at digits
  generalize Nat.toDigits 10 d.coefficient = text at digits
  have exponent := newline_not_mem_intText (text.length + d.exponent - 1)
  dsimp only
  split
  · decide
  split
  · have sign
        : '\n' ∉ (if (text.length : Int) + d.exponent - 1 < 0 then [] else layout.plus) := by
      split
      · exact List.not_mem_nil
      · exact plus
    rcases text with _ | ⟨first, _ | ⟨second, more⟩⟩ <;> simp_all
  split
  · simp [digits]
  split
  · simp [digits]
  · have before (n : Nat) : '\n' ∉ text.take n := mt List.mem_of_mem_take digits
    have behind (n : Nat) : '\n' ∉ text.drop n := mt List.mem_of_mem_drop digits
    simp [before, behind]

end Binary64

-----------------------------------------------------------------------------------------
-- Trees
-----------------------------------------------------------------------------------------

namespace Json

theorem newline_not_mem_numberText (n : Number) : '\n' ∉ numberText n := by
  cases n with
  | int n => exact Binary64.newline_not_mem_intText n
  | float x =>
      have plus : '\n' ∉ floatLayout.plus := by decide
      have magnitude := Binary64.newline_not_mem_magnitudeText plus x.shortest
      rw [numberText, Binary64.text]
      split <;> simp [magnitude]

/-- What a character is escaped to is no line break, by the finite table of control characters. -/
theorem newline_not_mem_escape (c : Char) : '\n' ∉ escape c := by
  by_cases control : c.toNat < 32
  · have table : ∀ n < 32, '\n' ∉ escape (Char.ofNat n) := by decide
    rw [← Char.ofNat_toNat c]
    exact table c.toNat control
  · have other : '\n' ≠ c := by
      rintro rfl
      exact control (by decide)
    unfold escape
    split_ifs <;> simp_all

theorem newline_not_mem_quote (s : List Char) : '\n' ∉ quote s := by
  simp [quote, newline_not_mem_escape]

mutual
/-- The text of a tree has no line break, by induction on the tree. -/
theorem newline_not_mem_text : ∀ v : Value, '\n' ∉ text v
  | .null => by decide
  | .bool true | .bool false => by decide
  | .number n => newline_not_mem_numberText n
  | .string s => newline_not_mem_quote s.toList
  | .list items => by simp [text, newline_not_mem_itemsText items]
  | .map fields => by simp [text, newline_not_mem_fieldsText fields]

theorem newline_not_mem_itemsText : ∀ items : List Value, '\n' ∉ itemsText items
  | [] => List.not_mem_nil
  | [v] => newline_not_mem_text v
  | v :: w :: more => by
      simp [itemsText, newline_not_mem_text v, newline_not_mem_itemsText (w :: more)]

theorem newline_not_mem_fieldsText : ∀ fields : List (String × Value), '\n' ∉ fieldsText fields
  | [] => List.not_mem_nil
  | [(k, v)] => by simp [fieldsText, newline_not_mem_quote, newline_not_mem_text v]
  | (k, v) :: field :: more => by
      simp [fieldsText, newline_not_mem_quote, newline_not_mem_text v,
        newline_not_mem_fieldsText (field :: more)]
end

end Json

namespace Value

theorem unbroken_jsonText (v : Value) : Unbroken v.jsonText := by
  rw [Unbroken, jsonText, String.toList_ofList]
  exact Json.newline_not_mem_text v

/-- A value is no string that has a line break. -/
def Plain (v : Value) : Prop :=
  ∀ text, v = .string text → Unbroken text

/-- In messages and as an id, only a string shows its line breaks. -/
theorem Plain.unbroken_idText {v : Value} (plain : v.Plain) : Unbroken v.idText := by
  cases v with
  | string text => exact plain text rfl
  | _ => exact unbroken_jsonText _

theorem Plain.unbroken_render {v : Value} (plain : v.Plain) : Unbroken (render (some v)) := by
  cases v with
  | null => exact (by decide : Unbroken "None")
  | string text => exact plain text rfl
  | _ => exact unbroken_jsonText _

end Value

end WorkflowLint
