import WorkflowLint.Json.Failure
import WorkflowLint.Value

/-! Numbers in JSON text. Digits are gathered into a word of 64 bits; what does not fit is only
counted, and a fraction or an exponent scales the word by a power of ten, each step rounded.
-/

namespace WorkflowLint.Json

def digit? (c : Char) : Option Nat :=
  if '0' ≤ c ∧ c ≤ '9' then some (c.toNat - 48) else none

def isDigit (c : Char) : Bool :=
  (digit? c).isSome

/-- Takes digits into a number for as long as it stays within a bound. -/
def gather (bound : Nat) : Nat → List Char → Nat × List Char
  | n, [] => (n, [])
  | n, c :: rest =>
      match digit? c with
      | none => (n, c :: rest)
      | some d =>
          if 10 * n + d ≤ bound then gather bound (10 * n + d) rest else (n, c :: rest)

def wordBound : Nat := Word.count - 1

def exponentBound : Nat := 2147483647

/-- Powers of ten up to this one are applied in one step. -/
def greatestPower : Nat := 308

def powerOfTen? (n : Nat) : Option Binary64 :=
  Binary64.ofNat? (tenTo n)

/-- Scales a magnitude by a power of ten; `none` when it grows too large. A word divided twice by
the greatest power is zero, so two steps before the last one suffice. -/
def scale : Nat → Binary64 → Int → Option Binary64
  | steps, x, exponent =>
      if exponent.natAbs ≤ greatestPower then do
        let power ← powerOfTen? exponent.natAbs
        if 0 ≤ exponent then x.mul? power else x.div? power
      else if x.isZero then some x
      else if 0 ≤ exponent then none
      else
        match steps with
        | 0 => some x
        | steps + 1 => do
            let power ← powerOfTen? greatestPower
            scale steps (← x.div? power) (exponent + greatestPower)

def float? (negative : Bool) (word : Nat) (exponent : Int) : Option Number := do
  let x ← scale 2 (← Binary64.ofNat? word) exponent
  return .float { x with negative }

/-- A number and the text after it. -/
def scaled (negative : Bool) (word : Nat) (exponent : Int) (rest : List Char)
    : Except Failure (Number × List Char) :=
  match float? negative word exponent with
  | some x => .ok (x, rest)
  | none => .error ⟨.numberOutOfRange, rest, 0⟩

/-- Reads what follows the letter of an exponent. -/
def readExponent (negative : Bool) (word : Nat) (exponent : Int) (text : List Char)
    : Except Failure (Number × List Char) :=
  let (down, digits) :=
    match text with
    | '+' :: rest => (false, rest)
    | '-' :: rest => (true, rest)
    | rest => (false, rest)
  match digits with
  | [] => .error (.at .endInValue [])
  | c :: _ =>
      if !isDigit c then .error (.at .invalidNumber digits)
      else
        let (n, rest) := gather exponentBound 0 digits
        let after := rest.dropWhile isDigit
        if !rest.head?.any isDigit then
          scaled negative word (if down then exponent - n else exponent + n) rest
        else if word = 0 ∨ down then scaled negative 0 0 after
        else .error (.at .numberOutOfRange rest)

/-- Reads an exponent if there is one. -/
def readScale (negative : Bool) (word : Nat) (exponent : Int) (text : List Char)
    : Except Failure (Number × List Char) :=
  match text with
  | 'e' :: rest | 'E' :: rest => readExponent negative word exponent rest
  | rest => scaled negative word exponent rest

/-- Reads what follows the decimal point. -/
def readFraction (negative : Bool) (word : Nat) (exponent : Int) (text : List Char)
    : Except Failure (Number × List Char) :=
  match text with
  | [] => .error (.at .endInValue [])
  | c :: _ =>
      if !isDigit c then .error (.at .invalidNumber text)
      else
        let (word', rest) := gather wordBound word text
        let after := text.dropWhile isDigit
        let digits := (text.takeWhile isDigit).length
        let ignored := (rest.takeWhile isDigit).length
        readScale negative word' (exponent - (digits - ignored : Nat)) after

/-- An integer as it stands; zero with a sign, and what lies below the words with a sign, are
floating-point numbers. -/
def integer (negative : Bool) (word : Nat) (rest : List Char)
    : Except Failure (Number × List Char) :=
  if !negative then .ok (.int word, rest)
  else if word = 0 ∨ Word.signedCount < word then scaled true word 0 rest
  else .ok (.int (-word), rest)

/-- Reads a number after its sign. -/
def readNumber (negative : Bool) (text : List Char) : Except Failure (Number × List Char) :=
  match text with
  | [] => .error (.at .endInValue [])
  | c :: more =>
      if !isDigit c then .error (.at .invalidNumber text)
      else if c = '0' ∧ (more.head?.any isDigit) then .error (.at .invalidNumber more)
      else
        let (word, rest) := gather wordBound 0 text
        let after := rest.dropWhile isDigit
        let dropped := (rest.takeWhile isDigit).length
        match after with
        | '.' :: fraction => readFraction negative word dropped fraction
        | 'e' :: rest | 'E' :: rest => readExponent negative word dropped rest
        | _ =>
            if dropped = 0 then integer negative word after
            else scaled negative word dropped after

end WorkflowLint.Json
