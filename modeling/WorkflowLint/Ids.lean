/-! Node ids: milliseconds of the clock, moved on as far as it takes to make each id greater than
the one before.
-/

namespace WorkflowLint.Ids

/-- The id that is claimed at a reading of the clock, given the last one. It is the last one from
then on. -/
def claim (last now : UInt64) : UInt64 :=
  max now (last + 1)

/-- The ids claimed at successive readings of the clock, and the last one afterwards. -/
def claimAll (last : UInt64) : List UInt64 → List UInt64 × UInt64
  | [] => ([], last)
  | now :: more =>
      let id := claim last now
      let (ids, final) := claimAll id more
      (id :: ids, final)

/-- An id as it is written. -/
def text (id : UInt64) : String :=
  toString id.toNat

end WorkflowLint.Ids
