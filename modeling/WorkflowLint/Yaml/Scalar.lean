import WorkflowLint.Yaml.Error
import WorkflowLint.Yaml.Token.Tag

/-! What the text of a scalar stands for: `null`, a truth value, a number, or itself. -/

namespace WorkflowLint.Yaml.Scalar

def isNull (text : List Char) : Bool :=
  ["null", "Null", "NULL", "~"].any (fun s => s.toList = text)

def bool? (text : List Char) : Option Bool :=
  if ["true", "True", "TRUE"].any (fun s => s.toList = text) then some true
  else if ["false", "False", "FALSE"].any (fun s => s.toList = text) then some false
  else none

/-- A non-empty run of digits of a base. -/
def natural? (base : Nat) (digits : List Char) : Option Nat :=
  if digits.isEmpty then none
  else
    digits.foldlM
      (fun n c => (hexValue? c).bind (fun d => if d < base then some (base * n + d) else none)) 0

/-- A sign in front of a text. -/
def splitSign : List Char → Bool × List Char
  | '-' :: rest => (true, rest)
  | '+' :: rest => (false, rest)
  | rest => (false, rest)

/-- Zeros in front of other digits make a text. -/
def hasLeadingZero (text : List Char) : Bool :=
  match (splitSign text).2 with
  | '0' :: c :: rest => (c :: rest).all isDigit
  | _ => false

/-- A natural number with its base in front, or in decimal digits. -/
def magnitude? (digits : List Char) : Option Nat :=
  match digits with
  | '0' :: 'x' :: rest => natural? 16 rest
  | '0' :: 'o' :: rest => natural? 8 rest
  | '0' :: 'b' :: rest => natural? 2 rest
  | _ => if hasLeadingZero digits then none else natural? 10 digits

/-- An integer, as far as 128 bits go. -/
def integer? (text : List Char) : Option Int := do
  let (negative, digits) := splitSign text
  let n ← magnitude? digits
  if negative then (if n ≤ twoTo 127 then some (-n) else none)
  else if n < twoTo 128 then some n
  else none

/-- The node of an integer, which has to fit into a word with or without a sign. -/
def intNode (n : Int) : Except NodeFault Node :=
  if -Word.signedCount ≤ n ∧ n < Word.count then .ok (.int n) else .error (.tooLarge n)

/-- The exponent of a decimal number after its letter. -/
def exponent? (text : List Char) : Option Int := do
  let (negative, digits) := splitSign text
  let n ← natural? 10 digits
  return if negative then -n else n

/-- Digits with a point somewhere and an exponent, as a coefficient and a power of ten. -/
def decimal? (text : List Char) : Option Decimal := do
  let whole := text.takeWhile isDigit
  let rest := text.dropWhile isDigit
  let (fraction, rest) :=
    match rest with
    | '.' :: rest => (rest.takeWhile isDigit, rest.dropWhile isDigit)
    | rest => ([], rest)
  let coefficient ← natural? 10 (whole ++ fraction)
  match rest with
  | [] => return ⟨coefficient, -fraction.length⟩
  | c :: rest =>
      if c = 'e' ∨ c = 'E' then
        let exponent ← exponent? rest
        return ⟨coefficient, exponent - fraction.length⟩
      else none

/-- The number nearest to a decimal. Far beyond the range of the format nothing is computed. -/
def nearest? (negative : Bool) (d : Decimal) : Option Binary64 :=
  let point : Int := (Nat.toDigits 10 d.coefficient).length + d.exponent
  if d.coefficient = 0 ∨ point < -400 then Binary64.ofRatio? negative 0 1
  else if 400 < point then none
  else
    Binary64.ofRatio? negative (d.coefficient * tenTo d.exponent.toNat)
      (tenTo (-d.exponent).toNat)

/-- A floating-point number: a decimal that is not too large, or one of the names of the others. -/
def float? (text : List Char) : Option FloatValue :=
  let (negative, digits) := splitSign text
  if [".inf", ".Inf", ".INF"].any (fun s => s.toList = digits) then some (.infinite negative)
  else if [".nan", ".NaN", ".NAN"].any (fun s => s.toList = text) then some .undefined
  else ((decimal? digits).bind (nearest? negative)).map FloatValue.finite

/-- What an unquoted text stands for. -/
def resolve (text : List Char) : Except NodeFault Node :=
  if text.isEmpty || isNull text then .ok .null
  else
    match bool? text, integer? text with
    | some b, _ => .ok (.bool b)
    | none, some n => intNode n
    | none, none =>
        if hasLeadingZero text then .ok (.string (String.ofList text))
        else
          match float? text with
          | some x => .ok (.float x)
          | none => .ok (.string (String.ofList text))

/-- The tags of the core types. -/
def coreType? (tag : TagText) : Option CoreType :=
  if tag = Tag.bytes "tag:yaml.org,2002:bool".toList then some .boolean
  else if tag = Tag.bytes "tag:yaml.org,2002:int".toList then some .integer
  else if tag = Tag.bytes "tag:yaml.org,2002:float".toList then some .float
  else if tag = Tag.bytes "tag:yaml.org,2002:null".toList then some .null
  else none

/-- A scalar that a core tag says the type of. -/
def ofType (type : CoreType) (text : String) : Except NodeFault Node :=
  let fault : Except NodeFault Node := .error (.notA type text)
  let text := text.toList
  match type with
  | .boolean => ((bool? text).map (fun b => .ok (.bool b))).getD fault
  | .integer => ((integer? text).map intNode).getD fault
  | .float => ((float? text).map (fun x => .ok (.float x))).getD fault
  | .null => if isNull text then .ok .null else fault

/-- The local tag that starts with these bytes, less its mark; they have to spell a text. -/
def localTag? (tag : TagText) : Option String :=
  match tag with
  | 0x21 :: [] => some "!"
  | 0x21 :: rest => String.fromUTF8? ⟨rest.toArray⟩
  | _ => none

/-- A scalar with a tag that is not taken for a local one. Only a plain scalar without a tag is
resolved; where the tag has been dealt with it does not count. -/
def node (dealtWith : Bool) (tag : Option TagText) (text : String) (plain : Bool)
    : Except NodeFault Node :=
  let asPlain := if plain then resolve text.toList else .ok (.string text)
  match tag, dealtWith with
  | some tag, false =>
      match coreType? tag with
      | some type => ofType type text
      | none => if tag.head? = some 0x21 then asPlain else .ok (.string text)
  | _, _ => asPlain

end WorkflowLint.Yaml.Scalar
