import WorkflowLint.Proofs.Json.Source
import WorkflowLint.Proofs.Json.IntegerText
import WorkflowLint.Yaml.Build

/-! Integers in decimal digits are read as the numbers that they spell. -/

namespace WorkflowLint.Yaml.Scalar

/-- A text that starts unlike any of some names is none of them. -/
theorem any_toList_eq_false {names : List String} {text : List Char}
    (unlike : ∀ name ∈ names, name.toList.head? ≠ text.head?)
    : names.any (fun name => name.toList = text) = false := by
  rw [List.any_eq_false]
  intro name member same
  exact unlike name member (congrArg List.head? (of_decide_eq_true same))

/-- The character with which a number in decimal digits starts. -/
def startsNumber (c : Char) : Prop :=
  c = '-' ∨ c.isDigit = true

/-- A text that starts like a number is no name of `null` or of a truth value. -/
theorem not_name {c : Char} (start : startsNumber c) (more : List Char)
    : isNull (c :: more) = false ∧ bool? (c :: more) = none := by
  have unlike (names : List String)
      (letters : ∀ name ∈ names, name.toList.head?.all (fun x => x ≠ '-' && !x.isDigit) = true)
      : names.any (fun name => name.toList = c :: more) = false := by
    apply any_toList_eq_false
    intro name member same
    have letter := letters name member
    rw [same, List.head?_cons, Option.all_some, Bool.and_eq_true, decide_eq_true_eq,
      Bool.not_eq_true'] at letter
    rcases start with rfl | isDigit
    · exact letter.1 rfl
    · rw [letter.2] at isDigit
      contradiction
  constructor
  · exact unlike _ (by decide)
  · rw [bool?, unlike _ (by decide), unlike _ (by decide)]
    rfl

theorem splitSign_digits {c : Char} {more : List Char} (digit : c.isDigit = true)
    : splitSign (c :: more) = (false, c :: more) := by
  unfold splitSign
  split
  case h_1 same =>
    obtain ⟨rfl, rfl⟩ := List.cons.inj same
    contradiction
  case h_2 same =>
    obtain ⟨rfl, rfl⟩ := List.cons.inj same
    contradiction
  case h_3 => rfl

/-- Digits add up to their number. -/
theorem foldlM_digits {digits : List Char} (digit : ∀ c ∈ digits, c.isDigit = true) (n : Nat)
    : digits.foldlM
          (fun n c =>
            (hexValue? c).bind (fun d => if d < 10 then some (10 * n + d) else none)) n
      = some (Nat.ofDigitChars 10 digits n) := by
  induction digits generalizing n with
  | nil => rfl
  | cons c more ih =>
      have isDigit := digit c List.mem_cons_self
      have range : '0' ≤ c ∧ c ≤ '9' := by simpa [Char.isDigit, Char.le_def] using isDigit
      have value : hexValue? c = some (c.toNat - '0'.toNat) := by
        rw [hexValue?, if_pos range]
        rfl
      have small : c.toNat - '0'.toNat < 10 := by
        have below : c.toNat ≤ 57 := UInt32.le_iff_toNat_le.mp range.2
        simp only [Char.reduceToNat]
        omega
      rw [List.foldlM_cons, value, Option.bind_some, if_pos small, Nat.ofDigitChars_cons]
      exact ih (fun c member => digit c (List.mem_cons_of_mem _ member)) _

/-- The digits of a number are read as it. -/
theorem magnitude?_digitsOf (n : Nat) : magnitude? (digitsOf n) = some n := by
  obtain ⟨c, more, digits, _⟩ := digitsOf_eq_cons n
  have digit : c.isDigit = true := isDigit_of_mem_digitsOf (digits ▸ List.mem_cons_self)
  have plain : hasLeadingZero (digitsOf n) = false := by
    rw [digits, hasLeadingZero, splitSign_digits digit]
    split
    case h_1 same =>
      obtain ⟨rfl, rfl⟩ := List.cons.inj same
      exact absurd (digitsOf_eq_zero_cons digits) (List.cons_ne_nil _ _)
    case h_2 => rfl
  have total : natural? 10 (digitsOf n) = some n := by
    have present : (digitsOf n).isEmpty = false := by rw [digits]; rfl
    rw [natural?, present, foldlM_digits (fun _ => isDigit_of_mem_digitsOf), ofDigitChars_digitsOf]
    rfl
  unfold magnitude?
  split
  case h_4 => rw [plain, total]; rfl
  all_goals
    rename_i same
    exact absurd (digitsOf_eq_zero_cons same) (List.cons_ne_nil _ _)

/-- What is read as an integer stands for one, since no name starts like a number. -/
theorem resolve_of_integer? {c : Char} {more : List Char} {n : Int} (start : startsNumber c)
    (whole : integer? (c :: more) = some n)
    : resolve (c :: more) = intNode n := by
  obtain ⟨null, bool⟩ := not_name start more
  simp only [resolve, null, bool, whole, List.isEmpty_cons, Bool.or_self, Bool.false_eq_true,
    if_false]

/-- The text of an integer that fits into a word stands for the integer. -/
theorem resolve_intText (n : Json.WordInt) : resolve (Binary64.intText n.1) = .ok (.int n.1) := by
  obtain ⟨n, low, high⟩ := n
  have inRange : intNode n = .ok (.int n) := by rw [intNode, if_pos ⟨low, high⟩]
  have wide : Word.count ≤ twoTo 128 ∧ Word.signedCount ≤ twoTo 127 := by decide
  rw [← inRange]
  cases n with
  | ofNat k =>
      obtain ⟨c, more, digits, _⟩ := digitsOf_eq_cons k
      have digit : c.isDigit = true := isDigit_of_mem_digitsOf (digits ▸ List.mem_cons_self)
      have fits : k < twoTo 128 := by
        simp only [Int.ofNat_eq_natCast] at high
        omega
      have whole : integer? (digitsOf k) = some (.ofNat k) := by
        rw [integer?, digits, splitSign_digits digit, ← digits]
        simp only [magnitude?_digitsOf, bind, Option.bind, fits, if_true, Bool.false_eq_true,
          if_false]
        rfl
      rw [show Binary64.intText (.ofNat k) = c :: more from digits]
      exact resolve_of_integer? (Or.inr digit) (digits ▸ whole)
  | negSucc k =>
      have fits : k + 1 ≤ twoTo 127 := by omega
      have whole : integer? ('-' :: digitsOf (k + 1)) = some (.negSucc k) := by
        simp only [integer?, splitSign, magnitude?_digitsOf, bind, Option.bind, fits, if_true]
        rfl
      exact resolve_of_integer? (Or.inl rfl) whole

end WorkflowLint.Yaml.Scalar
