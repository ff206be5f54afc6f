import WorkflowLint.Powers

/-! The arguments of the command line. Options may stand on both sides of the path; what follows two
dashes is never an option.
-/

namespace WorkflowLint.Cli

inductive OutputFormat where
  | text
  | json
  deriving DecidableEq

structure ValidateArguments where
  path : Option String
  topology : Bool
  format : Option OutputFormat
  languages : List String
  logLevel : Option String
  deriving DecidableEq

structure IdArguments where
  count : Option Nat
  logLevel : Option String
  deriving DecidableEq

/-- What the command line asks for. A log level is given only where an argument says so. -/
inductive Request where
  | validate (path : String) (topology : Bool) (format : OutputFormat) (languages : List String)
      (logLevel : Option String)
  | ids (count : Nat) (logLevel : Option String)
  | version
  | help
  | misuse
  deriving DecidableEq

/-- An argument by its form. -/
inductive Argument where
  /-- Two dashes alone. -/
  | terminator
  | long (name : List Char) (value : Option (List Char))
  | short (letters : List Char)
  | plain

def classify (argument : String) : Argument :=
  match argument.toList with
  | ['-', '-'] => .terminator
  | '-' :: '-' :: rest =>
      match rest.dropWhile (· ≠ '=') with
      | '=' :: value => .long (rest.takeWhile (· ≠ '=')) (some value)
      | _ => .long rest none
  | '-' :: c :: rest => .short (c :: rest)
  | _ => .plain

/-- The value of an option: joined to it, or else the next argument, which may not look like an
option. -/
def takeValue (joined : Option (List Char)) (more : List String)
    : Option (String × List String) :=
  match joined, more with
  | some value, _ => some (String.ofList value, more)
  | none, next :: more =>
      match classify next with
      | .plain => some (next, more)
      | _ => none
  | none, [] => none

def outputFormat? (name : String) : Option OutputFormat :=
  if name = "text" then some .text
  else if name = "json" then some .json
  else none

/-- A number of 64 bits in decimal digits, perhaps with a plus sign. -/
def count? (text : String) : Option Nat :=
  let digits :=
    match text.toList with
    | '+' :: rest => rest
    | digits => digits
  if digits.isEmpty || !digits.all Char.isDigit then none
  else
    let n := digits.foldl (fun n c => 10 * n + (c.toNat - 48)) 0
    if n < Word.count then some n else none

/-- A request for help or the version ends the reading; anything wrong does so too. -/
abbrev Reading (α : Type) := Except Request α

/-- Sets an option that may be given once. -/
def setOnce {α : Type} (old : Option α) (new : Option α) : Reading (Option α) :=
  match old, new with
  | none, some value => .ok (some value)
  | _, _ => .error .misuse

/-- A single dash with letters: only the letter for help is known everywhere. -/
def shortRequest (letters : List Char) : Request :=
  match letters with
  | 'h' :: _ => .help
  | _ => .misuse

def setPath (a : ValidateArguments) (path : String) : Reading ValidateArguments :=
  if a.path.isSome ∨ path.isEmpty then .error .misuse else .ok { a with path := some path }

def setCount (a : IdArguments) (text : String) : Reading IdArguments :=
  match a.count, count? text with
  | none, some n => .ok { a with count := some n }
  | _, _ => .error .misuse

/-- Reads a long option of the validate command, given the arguments behind it. -/
def validateOption (a : ValidateArguments) (name : String) (joined : Option (List Char))
    (more : List String)
    : Reading (ValidateArguments × List String) :=
  match name, joined with
  | "topology", none =>
      if a.topology then .error .misuse else .ok ({ a with topology := true }, more)
  | "help", none => .error .help
  | _, _ =>
      match takeValue joined more with
      | none => .error .misuse
      | some (value, more) => do
          let a ←
            match name with
            | "format" => (setOnce a.format (outputFormat? value)).map ({ a with format := · })
            | "code-language" => .ok { a with languages := a.languages ++ [value] }
            | "log-level" => (setOnce a.logLevel (some value)).map ({ a with logLevel := · })
            | _ => .error .misuse
          .ok (a, more)

def readPaths (a : ValidateArguments) (paths : List String) : Reading ValidateArguments :=
  paths.foldlM setPath a

/-- Reads the arguments of the validate command; each round takes one at least. -/
def readValidate : Nat → ValidateArguments → List String → Reading ValidateArguments
  | 0, a, _ => .ok a
  | _, a, [] => .ok a
  | fuel + 1, a, argument :: more =>
      match classify argument with
      | .terminator => readPaths a more
      | .long name joined => do
          let (a, more) ← validateOption a (String.ofList name) joined more
          readValidate fuel a more
      | .short letters => .error (shortRequest letters)
      | .plain => do
          let a ← setPath a argument
          readValidate fuel a more

def idOption (a : IdArguments) (name : String) (joined : Option (List Char)) (more : List String)
    : Reading (IdArguments × List String) :=
  match name, joined, takeValue joined more with
  | "help", none, _ => .error .help
  | "log-level", _, some (value, more) => do
      let logLevel ← setOnce a.logLevel (some value)
      .ok ({ a with logLevel }, more)
  | _, _, _ => .error .misuse

/-- Reads the arguments of the id command; each round takes one at least. -/
def readId : Nat → IdArguments → List String → Reading IdArguments
  | 0, a, _ => .ok a
  | _, a, [] => .ok a
  | fuel + 1, a, argument :: more =>
      match classify argument with
      | .terminator => more.foldlM setCount a
      | .long name joined => do
          let (a, more) ← idOption a (String.ofList name) joined more
          readId fuel a more
      | .short letters => .error (shortRequest letters)
      | .plain => do
          let a ← setCount a argument
          readId fuel a more

/-- A log level behind the command counts before one in front of it. -/
def commandRequest (outer : Option String) (command : String) (arguments : List String)
    : Reading Request :=
  match command with
  | "validate" => do
      let a ← readValidate (arguments.length + 1) ⟨none, false, none, [], none⟩ arguments
      match a.path with
      | none => .error .misuse
      | some path =>
          .ok (.validate path a.topology (a.format.getD .text) a.languages (a.logLevel <|> outer))
  | "id" => do
      let a ← readId (arguments.length + 1) ⟨none, none⟩ arguments
      .ok (.ids (a.count.getD 1) (a.logLevel <|> outer))
  | "help" =>
      if arguments.all (fun a => a = "validate" ∨ a = "id" ∨ a = "help") ∧ arguments.length ≤ 1
      then .error .help
      else .error .misuse
  | _ => .error .misuse

/-- Reads the options in front of the command, and the command with what belongs to it. -/
def readRequest : Nat → Option String → List String → Reading Request
  | 0, _, _ => .error .misuse
  | _, _, [] => .error .misuse
  | fuel + 1, logLevel, argument :: more =>
      match classify argument with
      | .terminator => .error .misuse
      | .long name joined =>
          match String.ofList name, joined, takeValue joined more with
          | "help", none, _ => .error .help
          | "version", none, _ => .error .version
          | "log-level", _, some (value, more) => do
              let logLevel ← setOnce logLevel (some value)
              readRequest fuel logLevel more
          | _, _, _ => .error .misuse
      | .short letters =>
          .error (if letters.head? = some 'V' then .version else shortRequest letters)
      | .plain => commandRequest logLevel argument more

/-- What a list of arguments asks for. -/
def Request.ofArguments (arguments : List String) : Request :=
  match readRequest (arguments.length + 1) none arguments with
  | .ok request => request
  | .error request => request

end WorkflowLint.Cli
