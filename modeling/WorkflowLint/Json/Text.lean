import WorkflowLint.Value
import WorkflowLint.Binary64.Shortest

/-! JSON text of a tree: compact, or indented by two spaces a level. Also the texts under which a
value appears in messages and as a node id.
-/

namespace WorkflowLint

namespace Json

/-- Plain notation from `0.00001` up to sixteen digits before the point. -/
def floatLayout : FloatLayout := ⟨-4, 16, ['+']⟩

def hexDigit (n : Nat) : Char :=
  if n < 10 then Char.ofNat (48 + n) else Char.ofNat (87 + n)

/-- Quotes, backslashes and control characters are escaped, by name where they have one. -/
def escape (c : Char) : List Char :=
  if c = '"' then ['\\', '"']
  else if c = '\\' then ['\\', '\\']
  else if c = '\x08' then ['\\', 'b']
  else if c = '\t' then ['\\', 't']
  else if c = '\n' then ['\\', 'n']
  else if c = '\x0c' then ['\\', 'f']
  else if c = '\r' then ['\\', 'r']
  else if c.toNat < 32 then
    ['\\', 'u', '0', '0', hexDigit (c.toNat / 16), hexDigit (c.toNat % 16)]
  else [c]

def quote (s : List Char) : List Char :=
  '"' :: s.flatMap escape ++ ['"']

def numberText : Number → List Char
  | .int n => Binary64.intText n
  | .float x => x.text floatLayout

def boolText (b : Bool) : List Char :=
  if b then "true".toList else "false".toList

mutual
/-- The text of a tree without any space. -/
def text : Value → List Char
  | .null => "null".toList
  | .bool b => boolText b
  | .number n => numberText n
  | .string s => quote s.toList
  | .list items => '[' :: itemsText items ++ [']']
  | .map fields => '{' :: fieldsText fields ++ ['}']

def itemsText : List Value → List Char
  | [] => []
  | [v] => text v
  | v :: w :: more => text v ++ ',' :: itemsText (w :: more)

def fieldsText : List (String × Value) → List Char
  | [] => []
  | [(k, v)] => quote k.toList ++ ':' :: text v
  | (k, v) :: field :: more =>
      quote k.toList ++ ':' :: text v ++ ',' :: fieldsText (field :: more)
end

/-- A line break and two spaces for each level. -/
def newline (level : Nat) : List Char :=
  '\n' :: List.replicate (2 * level) ' '

mutual
/-- The text of a tree with one item or entry a line; what is empty stays closed up. -/
def prettyText (level : Nat) : Value → List Char
  | .null => "null".toList
  | .bool b => boolText b
  | .number n => numberText n
  | .string s => quote s.toList
  | .list [] => ['[', ']']
  | .list (v :: more) =>
      '[' :: prettyItems (level + 1) (v :: more) ++ newline level ++ [']']
  | .map [] => ['{', '}']
  | .map (f :: more) =>
      '{' :: prettyFields (level + 1) (f :: more) ++ newline level ++ ['}']

def prettyItems (level : Nat) : List Value → List Char
  | [] => []
  | [v] => newline level ++ prettyText level v
  | v :: w :: more =>
      newline level ++ prettyText level v ++ ',' :: prettyItems level (w :: more)

def prettyFields (level : Nat) : List (String × Value) → List Char
  | [] => []
  | [(k, v)] => newline level ++ quote k.toList ++ ':' :: ' ' :: prettyText level v
  | (k, v) :: field :: more =>
      newline level ++ quote k.toList ++ ':' :: ' ' :: prettyText level v
        ++ ',' :: prettyFields level (field :: more)
end

end Json

namespace Value

/-- The compact JSON text. -/
def jsonText (v : Value) : String :=
  String.ofList (Json.text v)

/-- The indented JSON text. -/
def prettyJson (v : Value) : String :=
  String.ofList (Json.prettyText 0 v)

/-- A value in a message: strings as they are, and one word for `null` and for no value. -/
def render : Option Value → String
  | none | some .null => "None"
  | some (.string s) => s
  | some v => v.jsonText

/-- The text by which node ids and edge endpoints are compared. -/
def idText : Value → String
  | .string s => s
  | v => v.jsonText

end Value

end WorkflowLint
