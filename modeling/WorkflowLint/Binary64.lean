import WorkflowLint.Powers

/-! Finite binary floating-point numbers with 53 significant bits. The non-negative ones are
numbered in increasing order, so a number is a sign and a rank; quotients of naturals are rounded to
the nearest of them, a tie to the even rank.
-/

namespace WorkflowLint

/-- A finite number of the 64-bit binary format. The rank counts the smaller non-negative ones,
which is also the bit pattern without its sign. -/
structure Binary64 where
  negative : Bool
  rank : Fin 9218868437227405312
  deriving DecidableEq

namespace Binary64

/-- How many numbers lie between two neighbouring powers of two: `2 ^ 52`. There are 2047 such
ranges, the first of which goes down to zero. -/
def binadeSize : Nat := 4503599627370496

/-- The exponent field: which binade the number lies in, `0` for the numbers next to zero. -/
def binade (x : Binary64) : Nat :=
  x.rank.val / binadeSize

/-- The magnitude is `significand * 2 ^ exponent`. -/
def significand (x : Binary64) : Nat :=
  if x.binade = 0 then x.rank.val else x.rank.val % binadeSize + binadeSize

def exponent (x : Binary64) : Int :=
  (max x.binade 1 : Nat) - 1075

def isZero (x : Binary64) : Bool :=
  x.rank.val == 0

/-- The magnitude as a quotient of naturals. -/
def ratio (x : Binary64) : Nat × Nat :=
  (x.significand * twoTo x.exponent.toNat, twoTo (-x.exponent).toNat)

/-- A quotient rounded to an integer, a half to the even neighbour. -/
def roundDiv (num den : Nat) : Nat :=
  let quotient := num / den
  let rest := num % den
  if den < 2 * rest ∨ (den = 2 * rest ∧ quotient % 2 = 1) then quotient + 1 else quotient

/-- The exponent of the last binary place that a number of size `num / den` keeps: 53 places from
its leading one, and never below the smallest place of the format. -/
def lastPlace (num den : Nat) : Int :=
  let guess : Int := (num.log2 : Int) - den.log2 - 52
  let exact :=
    if num * twoTo (-guess).toNat < den * twoTo guess.toNat * binadeSize then guess - 1 else guess
  max exact (-1074)

/-- The number nearest to `num / den`, unless that lies beyond the largest one. -/
def ofRatio? (negative : Bool) (num den : Nat) : Option Binary64 :=
  if num = 0 ∨ den = 0 then
    some ⟨negative, ⟨0, by decide⟩⟩
  else
    let place := lastPlace num den
    let rank :=
      (place + 1074).toNat * binadeSize
        + roundDiv (num * twoTo (-place).toNat) (den * twoTo place.toNat)
    if h : rank < 9218868437227405312 then some ⟨negative, ⟨rank, h⟩⟩ else none

def ofNat? (n : Nat) : Option Binary64 :=
  ofRatio? false n 1

/-- The product of two magnitudes, rounded once. -/
def mul? (x y : Binary64) : Option Binary64 :=
  ofRatio? (x.negative != y.negative) (x.ratio.1 * y.ratio.1) (x.ratio.2 * y.ratio.2)

/-- The quotient of two magnitudes, rounded once. -/
def div? (x y : Binary64) : Option Binary64 :=
  ofRatio? (x.negative != y.negative) (x.ratio.1 * y.ratio.2) (x.ratio.2 * y.ratio.1)

/-- The two zeros are one number. -/
def sameNumber (x y : Binary64) : Bool :=
  x.rank == y.rank && (x.negative == y.negative || x.isZero)

end Binary64

end WorkflowLint
