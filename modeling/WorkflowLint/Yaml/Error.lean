import WorkflowLint.Text.Quoted
import WorkflowLint.Yaml.Node
import WorkflowLint.Yaml.SyntaxError

/-! Everything that can be wrong with a YAML text, with the wording of each fault. -/

namespace WorkflowLint.Yaml

/-- Where in the tree a node stands. -/
inductive Path where
  | root
  | item (parent : Path) (index : Nat)
  | field (parent : Path) (key : String)
  /-- Below a key that is no scalar. -/
  | under (parent : Path)
  deriving DecidableEq

mutual
def Path.text : Path → String
  | .root => "."
  | .item parent index => parent.text ++ "[" ++ toString index ++ "]"
  | .field parent key => parent.dotted ++ key
  | .under parent => parent.dotted ++ "?"

/-- A path in front of a key; the root goes without a dot. -/
def Path.dotted : Path → String
  | .root => ""
  | .item parent index => parent.text ++ "[" ++ toString index ++ "]" ++ "."
  | .field parent key => parent.dotted ++ key ++ "."
  | .under parent => parent.dotted ++ "?" ++ "."
end

/-- What a scalar with a core tag has to be. -/
inductive CoreType where
  | boolean
  | integer
  | float
  | null
  deriving DecidableEq

def CoreType.words : CoreType → String
  | .boolean => "a boolean"
  | .integer => "an integer"
  | .float => "a float"
  | .null => "null"

/-- What can be wrong with one node. -/
inductive NodeFault where
  | notA (type : CoreType) (text : String)
  | tooLarge (value : Int)
  | repeatedKey (key : Node)

def keyWords : Node → String
  | .null => "with null key"
  | .bool b => "with key `" ++ toString b ++ "`"
  | .int n => "with key " ++ toString n
  | .float x => "with key " ++ x.text
  | .string s => "with key " ++ Text.quoted s
  | _ => "in YAML map"

def NodeFault.message : NodeFault → String
  | .notA type text =>
      "invalid value: string " ++ Text.quoted text ++ ", expected " ++ type.words
  | .tooLarge n =>
      "invalid type: integer `" ++ toString n ++ "` as " ++ (if n < 0 then "i128" else "u128")
        ++ ", expected any YAML value"
  | .repeatedKey key => "duplicate entry " ++ keyWords key

inductive MergeFault where
  | scalar
  | scalarItem
  | sequenceItem
  | tagged
  deriving DecidableEq

def MergeFault.message : MergeFault → String
  | .scalar => "expected a mapping or list of mappings for merging, but found scalar"
  | .scalarItem => "expected a mapping for merging, but found scalar"
  | .sequenceItem => "expected a mapping for merging, but found sequence"
  | .tagged => "unexpected tagged value in merge"

/-- What cannot be the key of a map in a document tree. -/
inductive KeyFault where
  | notText
  | notFinite
  deriving DecidableEq

def KeyFault.message : KeyFault → String
  | .notText => "key must be a string"
  | .notFinite => "float key must be finite (got NaN or +/-inf)"

inductive Error where
  | malformed (fault : SyntaxError)
  | unknownAnchor (mark : Mark)
  | tooDeep (mark : Mark)
  | tooManyAliases
  | atNode (fault : NodeFault) (path : Path) (mark : Mark)
  | severalDocuments
  | merge (fault : MergeFault)
  | key (fault : KeyFault)

def Error.message : Error → String
  | .malformed fault => fault.message
  | .unknownAnchor mark => "unknown anchor" ++ mark.suffix
  | .tooDeep mark => "recursion limit exceeded" ++ mark.suffix
  | .tooManyAliases => "repetition limit exceeded"
  | .atNode fault path mark =>
      (if path = .root then "" else path.text ++ ": ") ++ fault.message ++ mark.suffix
  | .severalDocuments =>
      "deserializing from YAML containing more than one document is not supported"
  | .merge fault => fault.message
  | .key fault => fault.message

end WorkflowLint.Yaml
