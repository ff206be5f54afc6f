/-! Log lines: what is told about a run besides its result, and how much of it is shown. -/

namespace WorkflowLint.Log

inductive Level where
  | error
  | warn
  | info
  | debug
  | trace
  deriving DecidableEq

namespace Level

def rank : Level → Nat
  | .error => 1
  | .warn => 2
  | .info => 3
  | .debug => 4
  | .trace => 5

/-- Names are filled up to five places. -/
def label : Level → String
  | .error => "ERROR"
  | .warn => " WARN"
  | .info => " INFO"
  | .debug => "DEBUG"
  | .trace => "TRACE"

end Level

/-- The greatest rank that is shown. -/
abbrev Verbosity := Nat

def names : List (String × Verbosity) :=
  [("off", 0), ("error", 1), ("warn", 2), ("info", 3), ("debug", 4), ("trace", 5)]

/-- The verbosity with a name in letters of any case, or with a number. No name means errors only,
and any other word names a part of a program that this one does not have. -/
def verbosity (name : String) : Verbosity :=
  if name.isEmpty then 1
  else
    let lower := name.map Char.toLower
    match names.find? (fun entry => entry.1 = lower || toString entry.2 = lower) with
    | some (_, rank) => rank
    | none => 0

/-- An event; the scope is the name of the activity that it is part of, where it has one. -/
structure Event where
  level : Level
  scope : Option String
  source : String
  message : String
  fields : List (String × String)
  deriving DecidableEq

namespace Event

def line (e : Event) : String :=
  let scope := (e.scope.map (· ++ ": ")).getD ""
  e.level.label ++ " " ++ scope ++ e.source ++ ": " ++ e.message
    ++ String.join (e.fields.map (fun field => " " ++ field.1 ++ "=" ++ field.2)) ++ "\n"

def isShown (v : Verbosity) (e : Event) : Bool :=
  e.level.rank ≤ v

end Event

/-- The lines of the events that are shown. -/
def text (v : Verbosity) (events : List Event) : String :=
  String.join ((events.filter (Event.isShown v)).map Event.line)

end WorkflowLint.Log
