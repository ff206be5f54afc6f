/-! The powers that numbers in two bases are scaled by, and the bounds of machine words. -/

namespace WorkflowLint

def twoTo (n : Nat) : Nat :=
  Nat.pow 2 n

def tenTo (n : Nat) : Nat :=
  Nat.pow 10 n

namespace Word

/-- The number of values of a word of 64 bits. -/
def count : Nat := 18446744073709551616

/-- The number of values of the half of a word that stands for the numbers that are not negative,
where words have a sign. -/
def signedCount : Nat := 9223372036854775808

end Word

end WorkflowLint
