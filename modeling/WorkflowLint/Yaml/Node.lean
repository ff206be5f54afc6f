import WorkflowLint.Binary64.Shortest

/-! The tree that a YAML document describes, with its mappings in the order of the text. -/

namespace WorkflowLint.Yaml

/-- A floating-point number of the format, which has infinities and a value that is no number. -/
inductive FloatValue where
  | finite (value : Binary64)
  | infinite (negative : Bool)
  | undefined
  deriving DecidableEq

inductive Node where
  | null
  | bool (value : Bool)
  | int (value : Int)
  | float (value : FloatValue)
  | string (text : String)
  | sequence (items : List Node)
  | mapping (entries : List (Node × Node))
  | tagged (tag : String) (content : Node)

/-- One exclamation mark in front of a tag does not count. -/
def bareTag (tag : String) : String :=
  match tag.toList with
  | '!' :: c :: rest => String.ofList (c :: rest)
  | _ => tag

namespace FloatValue

/-- The two zeros are the same number, and what is no number is the same as itself. -/
def same : FloatValue → FloatValue → Bool
  | .finite x, .finite y => x.sameNumber y
  | .infinite a, .infinite b => a == b
  | .undefined, .undefined => true
  | _, _ => false

/-- A positive exponent goes without a sign here. -/
def layout : FloatLayout := ⟨-4, 16, []⟩

def text : FloatValue → String
  | .finite x => String.ofList (x.text layout)
  | .infinite false => ".inf"
  | .infinite true => "-.inf"
  | .undefined => ".nan"

end FloatValue

mutual
/-- Whether two nodes are the same key: in mappings the order of the entries does not count. -/
def Node.same : Node → Node → Bool
  | .null, .null => true
  | .bool a, .bool b => a == b
  | .int a, .int b => a == b
  | .float a, .float b => a.same b
  | .string a, .string b => a == b
  | .sequence as, .sequence bs => sameItems as bs
  | .mapping as, .mapping bs => as.length == bs.length && sameEntries as bs
  | .tagged t a, .tagged u b => bareTag t == bareTag u && a.same b
  | _, _ => false

def sameItems : List Node → List Node → Bool
  | [], [] => true
  | a :: as, b :: bs => a.same b && sameItems as bs
  | _, _ => false

/-- Whether all entries of one mapping are found in another. -/
def sameEntries : List (Node × Node) → List (Node × Node) → Bool
  | [], _ => true
  | (k, v) :: more, bs => bs.any (fun b => k.same b.1 && v.same b.2) && sameEntries more bs
end

/-- The key of a list of entries that is the same as a given one. -/
def findKey? (entries : List (Node × Node)) (key : Node) : Option Node :=
  (entries.find? (fun entry => entry.1.same key)).map Prod.fst

end WorkflowLint.Yaml
