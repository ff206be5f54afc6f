import WorkflowLint.FilePath

/-! A directory and what is in it, and how a path is looked up there. -/

namespace WorkflowLint

/-- Why a file cannot be read. -/
inductive ReadError where
  | notFound
  | isDirectory
  | notDirectory
  | nameTooLong
  | zeroInPath
  | notText
  | other (detail : String)
  deriving DecidableEq

def ReadError.message : ReadError → String
  | .notFound => "No such file or directory (os error 2)"
  | .isDirectory => "Is a directory (os error 21)"
  | .notDirectory => "Not a directory (os error 20)"
  | .nameTooLong => "File name too long (os error 36)"
  | .zeroInPath => "file name contained an unexpected NUL byte"
  | .notText => "stream did not contain valid UTF-8"
  | .other detail => detail

inductive FileTree where
  | file (bytes : List UInt8)
  | directory (entries : List (String × FileTree))

namespace FileTree

def empty : FileTree := .directory []

def entries : FileTree → List (String × FileTree)
  | .file _ => []
  | .directory entries => entries

/-- Puts an entry in the place of one with the same name, or behind all others. -/
def replace (name : String) (t : FileTree) : List (String × FileTree) → List (String × FileTree)
  | [] => [(name, t)]
  | (n, old) :: more => if n = name then (n, t) :: more else (n, old) :: replace name t more

/-- Puts a tree at the end of a path, with directories on the way. A directory that is there
already keeps its entries. -/
def insert (tree : FileTree) (leaf : FileTree) : List String → FileTree
  | [] =>
      match leaf, tree with
      | .directory [], .directory entries => .directory entries
      | _, _ => leaf
  | name :: more =>
      let inner := (tree.entries.lookup name).getD empty
      .directory (replace name (insert inner leaf more) tree.entries)

def insertFile (tree : FileTree) (path : String) (bytes : List UInt8) : FileTree :=
  tree.insert (.file bytes) (FilePath.parts path)

def insertDirectory (tree : FileTree) (path : String) : FileTree :=
  tree.insert empty (FilePath.parts path)

/-- The longest name of a file and the longest path, in bytes. -/
def nameLimit : Nat := 255

def pathLimit : Nat := 4095

/-- Walks on from a tree with the given directories above it, the nearest first. Above the topmost
one there are only directories of which nothing is known. -/
def walk : FileTree → List FileTree → List String → Except ReadError FileTree
  | t, _, [] => .ok t
  | .file _, _, _ :: _ => .error .notDirectory
  | .directory entries, above, name :: more =>
      if name = "" ∨ name = "." then walk (.directory entries) above more
      else if name = ".." then
        match above with
        | [] => walk empty [] more
        | parent :: above => walk parent above more
      else if nameLimit < name.utf8ByteSize then .error .nameTooLong
      else
        match entries.lookup name with
        | none => .error .notFound
        | some t => walk t (.directory entries :: above) more

/-- What a path leads to. A slash at its end asks for a directory. -/
def find (tree : FileTree) (path : String) : Except ReadError FileTree :=
  if path.toList.contains '\x00' then .error .zeroInPath
  else if path.isEmpty then .error .notFound
  else if pathLimit < path.utf8ByteSize then .error .nameTooLong
  else
    match path.splitOn "/" with
    | "" :: more => walk empty [] more
    | parts => walk tree [] parts

/-- The text of the file to which a path leads. -/
def read (tree : FileTree) (path : String) : Except ReadError String := do
  match ← tree.find path with
  | .directory _ => .error .isDirectory
  | .file bytes =>
      match String.fromUTF8? ⟨bytes.toArray⟩ with
      | some text => .ok text
      | none => .error .notText

end FileTree

end WorkflowLint
