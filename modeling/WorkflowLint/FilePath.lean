/-! File paths as texts, and the format that a path announces. -/

namespace WorkflowLint

inductive Format where
  | yaml
  | json
  deriving DecidableEq

namespace FilePath

/-- The parts between slashes, without those that stay in place. -/
def parts (path : String) : List String :=
  (path.splitOn "/").filter (fun part => part ≠ "" ∧ part ≠ ".")

/-- The last part, unless it leads upwards. -/
def fileName? (path : String) : Option String :=
  (parts path).getLast?.filter (fun part => part ≠ "..")

/-- What follows the last dot of a name, if something stands before that dot. -/
def extension? (name : String) : Option (List Char) :=
  let reversed := name.toList.reverse
  let ending := (reversed.takeWhile (· ≠ '.')).reverse
  match reversed.dropWhile (· ≠ '.') with
  | '.' :: _ :: _ => some ending
  | _ => none

end FilePath

/-- A file is JSON if its extension says so in letters of any case, and YAML otherwise. -/
def Format.ofPath (path : String) : Format :=
  match (FilePath.fileName? path).bind FilePath.extension? with
  | some ending => if ending.map Char.toLower = "json".toList then .json else .yaml
  | none => .yaml

end WorkflowLint
