import WorkflowLint.Json.Text
import WorkflowLint.Yaml.Build
import WorkflowLint.Yaml.Merge

/-! Reading YAML text into a document tree. -/

namespace WorkflowLint.Yaml

/-- The key of a map under which an entry with a given key is stored. -/
def keyText : Node → Except KeyFault String
  | .string s => .ok s
  | .bool b => .ok (String.ofList (Json.boolText b))
  | .int n => .ok (String.ofList (Json.numberText (.int n)))
  | .float (.finite x) => .ok (String.ofList (Json.numberText (.float x)))
  | .float _ => .error .notFinite
  | _ => .error .notText

/-- A local tag becomes the key of a map with one entry. -/
def tagKey (tag : String) : String :=
  "!" ++ bareTag tag

mutual
/-- The document tree of a node, entry by entry in the order of the text. Numbers that are not
finite become `null`. -/
def Node.toValue : Node → Except KeyFault Value
  | .null => .ok .null
  | .bool b => .ok (.bool b)
  | .int n => .ok (.number (.int n))
  | .float (.finite x) => .ok (.number (.float x))
  | .float _ => .ok .null
  | .string s => .ok (.string s)
  | .sequence items => do
      let values ← itemsToValues items
      .ok (.list values)
  | .mapping entries => do
      let fields ← entriesToFields entries
      .ok (Value.ofFields fields)
  | .tagged tag content => do
      let value ← content.toValue
      .ok (.map [(tagKey tag, value)])

def itemsToValues : List Node → Except KeyFault (List Value)
  | [] => .ok []
  | v :: more => do
      let value ← v.toValue
      let values ← itemsToValues more
      .ok (value :: values)

def entriesToFields : List (Node × Node) → Except KeyFault (List (String × Value))
  | [] => .ok []
  | (k, v) :: more => do
      let key ← keyText k
      let value ← v.toValue
      let fields ← entriesToFields more
      .ok ((key, value) :: fields)
end

/-- White space of any script. -/
def isSpace (c : Char) : Bool :=
  let n := c.toNat
  (9 ≤ n && n ≤ 13) || n == 0x20 || n == 0x85 || n == 0xA0 || n == 0x1680
    || (0x2000 ≤ n && n ≤ 0x200A) || n == 0x2028 || n == 0x2029 || n == 0x202F || n == 0x205F
    || n == 0x3000

/-- Reads a whole text. A text of nothing but white space is `null`. -/
def readText (text : List Char) : Except Error Value :=
  if text.all isSpace then .ok .null
  else do
    let node ← Node.ofDocument (.ofText text)
    let merged ← node.mergeKeys.mapError Error.merge
    merged.toValue.mapError Error.key

/-- Reads a whole text, or words what is wrong with it. -/
def read (text : List Char) : Except String Value :=
  (readText text).mapError Error.message

end WorkflowLint.Yaml
