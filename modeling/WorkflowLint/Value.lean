import WorkflowLint.Binary64

/-! The document tree and the lenient way in which rules read it: what is not a map reads as an
empty map, and what is not a list reads as an empty list.
-/

namespace WorkflowLint

inductive Number where
  | int (value : Int)
  | float (value : Binary64)
  deriving DecidableEq

/-- A tree of values. The entries of a map stand in the order in which they are written out;
reading a document sorts them by key. -/
inductive Value where
  | null
  | bool (value : Bool)
  | number (value : Number)
  | string (text : String)
  | list (items : List Value)
  | map (fields : List (String × Value))

def Number.isZero : Number → Bool
  | .int n => n == 0
  | .float x => x.isZero

namespace Value

/-- Everything but `null`, `false`, zero and what is empty. -/
def isTruthy : Value → Bool
  | .null => false
  | .bool b => b
  | .number n => !n.isZero
  | .string s => !s.isEmpty
  | .list items => !items.isEmpty
  | .map fields => !fields.isEmpty

/-- The entries of a map; none for any other value. -/
def fields : Value → List (String × Value)
  | .map fields => fields
  | _ => []

/-- The items of a list; none for any other value. -/
def entries : Value → List Value
  | .list items => items
  | _ => []

def asString? : Value → Option String
  | .string s => some s
  | _ => none

/-- What a map holds under a key. -/
def get? (v : Value) (key : String) : Option Value :=
  v.fields.lookup key

/-- Presence of a key, whatever is stored under it. -/
def has (v : Value) (key : String) : Bool :=
  (v.get? key).isSome

/-- What a map holds under a key, when it is truthy. -/
def truthy? (v : Value) (key : String) : Option Value :=
  (v.get? key).filter isTruthy

/-- Puts an entry into a list of entries sorted by key; an entry with the same key gives way. -/
def insertField (key : String) (value : Value)
    : List (String × Value) → List (String × Value)
  | [] => [(key, value)]
  | (k, v) :: more =>
      if key < k then (key, value) :: (k, v) :: more
      else if key = k then (key, value) :: more
      else (k, v) :: insertField key value more

/-- The map with the given entries, sorted by key; of equal keys the last one counts. -/
def ofFields (fields : List (String × Value)) : Value :=
  .map (fields.foldl (fun sorted entry => insertField entry.1 entry.2 sorted) [])

end Value

end WorkflowLint
