import WorkflowLint.Binary64

/-! The decimal text of a binary number: the fewest digits that read back as the number, the nearest
of those to it, a tie to the even last digit. Small and large numbers are written with an exponent.
-/

namespace WorkflowLint

/-- The number `coefficient * 10 ^ exponent`. -/
structure Decimal where
  coefficient : Nat
  exponent : Int
  deriving DecidableEq

/-- How a finite number is written: positionally when the point falls at a place between
`leastPoint` and `greatestPoint` after the first digit, else with an exponent. -/
structure FloatLayout where
  leastPoint : Int
  greatestPoint : Int
  /-- The sign of an exponent that is not negative. -/
  plus : List Char

namespace Binary64

/-- The numbers that read back as a given one lie between two halves of gaps, as quotients over one
denominator; the ends count when `closed`. -/
structure Basin where
  low : Nat
  centre : Nat
  high : Nat
  den : Nat
  closed : Bool

/-- Below a power of two the gap is half as wide. -/
def basin (x : Binary64) : Basin :=
  let up := twoTo x.exponent.toNat
  let below := if x.significand = binadeSize ∧ 1 < x.binade then 1 else 2
  {
    low := (4 * x.significand - below) * up
    centre := 4 * x.significand * up
    high := (4 * x.significand + 2) * up
    den := 4 * twoTo (-x.exponent).toNat
    closed := x.significand % 2 == 0
  }

def Basin.contains (b : Basin) (num den : Nat) : Bool :=
  let value := num * b.den
  if b.closed then b.low * den ≤ value && value ≤ b.high * den
  else b.low * den < value && value < b.high * den

/-- The place of the decimal point: `num / den` lies between `10 ^ (point - 1)`, which counts,
and `10 ^ point`. -/
def decimalPoint (num den : Nat) : Int :=
  let guess : Int := (Nat.toDigits 10 num).length - (Nat.toDigits 10 den).length
  if den * tenTo guess.toNat ≤ num * tenTo (-guess).toNat then guess + 1 else guess

/-- The neighbour of the centre on the grid of multiples of `10 ^ place` that is in the basin and
nearest. -/
def Basin.onGrid? (b : Basin) (place : Int) : Option Nat :=
  let num := b.centre * tenTo (-place).toNat
  let den := b.den * tenTo place.toNat
  let floor := num / den
  let inside n := b.contains (n * tenTo place.toNat) (tenTo (-place).toNat)
  match inside floor, inside (floor + 1) with
  | true, true => some (roundDiv num den)
  | true, false => some floor
  | false, true => some (floor + 1)
  | false, false => none

/-- A coefficient without zeros at its end. -/
def Decimal.trim : Nat → Decimal → Decimal
  | 0, d => d
  | fuel + 1, d =>
      if d.coefficient ≠ 0 ∧ d.coefficient % 10 = 0 then
        trim fuel ⟨d.coefficient / 10, d.exponent + 1⟩
      else d

/-- The first grid with a hit wins; seventeen digits always suffice. -/
def Basin.shortest (b : Basin) (point : Int) : List Nat → Decimal
  | [] => ⟨b.centre / b.den, 0⟩
  | digits :: more =>
      match b.onGrid? (point - digits) with
      | some coefficient => ⟨coefficient, point - digits⟩
      | none => b.shortest point more

/-- The shortest decimal that reads back as the magnitude of the number. -/
def shortest (x : Binary64) : Decimal :=
  if x.isZero then ⟨0, 0⟩
  else
    let b := x.basin
    Decimal.trim 20 (b.shortest (decimalPoint b.centre b.den) (List.range' 1 17))

def intText : Int → List Char
  | .ofNat n => Nat.toDigits 10 n
  | .negSucc n => '-' :: Nat.toDigits 10 (n + 1)

/-- The text of a magnitude whose first digit stands right of the point shifted by `point`. -/
def magnitudeText (layout : FloatLayout) (d : Decimal) : List Char :=
  let digits := Nat.toDigits 10 d.coefficient
  let point : Int := digits.length + d.exponent
  if d.coefficient = 0 then ['0', '.', '0']
  else if point < layout.leastPoint ∨ layout.greatestPoint < point then
    let mantissa :=
      match digits with
      | first :: second :: more => first :: '.' :: second :: more
      | short => short
    let exponent := point - 1
    mantissa ++ 'e' :: (if exponent < 0 then [] else layout.plus) ++ intText exponent
  else if point ≤ 0 then
    '0' :: '.' :: List.replicate (-point).toNat '0' ++ digits
  else if digits.length ≤ point.toNat then
    digits ++ List.replicate (point.toNat - digits.length) '0' ++ ['.', '0']
  else
    digits.take point.toNat ++ '.' :: digits.drop point.toNat

def text (layout : FloatLayout) (x : Binary64) : List Char :=
  (if x.negative then ['-'] else []) ++ magnitudeText layout x.shortest

end Binary64

end WorkflowLint
