import WorkflowLint.Json.Number
import WorkflowLint.Binary64.Shortest

/-! The decimal text of integers: all of it are digits but for the sign, its first digit is no
zero unless the number is one, and its digits add up to the number.
-/

namespace WorkflowLint

/-- The decimal digits of a number. -/
def digitsOf (n : Nat) : List Char :=
  Nat.toDigits 10 n

theorem isDigit_of_mem_digitsOf {n : Nat} {c : Char} (member : c ∈ digitsOf n)
    : c.isDigit = true :=
  Nat.isDigit_of_mem_toDigits (by decide) (by decide) member

/-- Only zero has digits that start with a zero.
Witness: strong induction; the digits of a tenth come first.
-/
theorem digitsOf_eq_cons (n : Nat) : ∃ c more, digitsOf n = c :: more ∧ (c = '0' → n = 0) := by
  induction n using Nat.strongRecOn with
  | ind n ih =>
      by_cases short : n < 10
      · exact ⟨n.digitChar, [], Nat.toDigits_of_lt_base short, Nat.digitChar_eq_zero.mp⟩
      · obtain ⟨c, more, digits, zero⟩ := ih (n / 10) (by omega)
        have longer : digitsOf n = digitsOf (n / 10) ++ [(n % 10).digitChar] :=
          Nat.toDigits_of_base_le (by decide) (by omega)
        refine ⟨c, more ++ [(n % 10).digitChar], by rw [longer, digits, List.cons_append], ?_⟩
        intro isZero
        have tenth := zero isZero
        omega

/-- The only number with a leading zero has no digits behind it. -/
theorem digitsOf_eq_zero_cons {n : Nat} {more : List Char} (digits : digitsOf n = '0' :: more)
    : more = [] := by
  obtain ⟨c, rest, same, zero⟩ := digitsOf_eq_cons n
  obtain ⟨rfl, rfl⟩ := List.cons.inj (digits.symm.trans same)
  obtain rfl := zero rfl
  exact (List.cons.inj (digits.symm.trans (Nat.toDigits_zero 10))).2

/-- The digits of a number, taken up one by one, give the number. -/
theorem ofDigitChars_digitsOf (n : Nat) : Nat.ofDigitChars 10 (digitsOf n) 0 = n :=
  Nat.ofDigitChars_ten_toDigits

/-- Taking up more digits makes a number no smaller. -/
theorem le_ofDigitChars (digits : List Char) (n : Nat) : n ≤ Nat.ofDigitChars 10 digits n := by
  induction digits generalizing n with
  | nil => exact Nat.le_refl n
  | cons c more ih =>
      rw [Nat.ofDigitChars_cons]
      exact Nat.le_trans (by omega) (ih _)

namespace Json

theorem digit?_of_isDigit {c : Char} (digit : c.isDigit = true)
    : digit? c = some (c.toNat - '0'.toNat) := by
  have range : '0' ≤ c ∧ c ≤ '9' := by simpa [Char.isDigit, Char.le_def] using digit
  rw [digit?, if_pos range]
  rfl

/-- Digits are what the library takes for digits. -/
theorem isDigit_eq (c : Char) : isDigit c = c.isDigit := by
  simp only [isDigit, digit?, Char.isDigit, Char.le_def]
  split <;> simp_all

end Json

end WorkflowLint
