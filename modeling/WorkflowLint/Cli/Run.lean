import WorkflowLint.Cli.Arguments
import WorkflowLint.Ids
import WorkflowLint.Load
import WorkflowLint.Validation

/-! What a run of the program prints and how it exits, given what it reads. -/

namespace WorkflowLint.Cli

structure Outcome where
  exit : Nat
  stdout : String
  stderr : String
  deriving DecidableEq

/-- What the environment says about a run: the log levels of two variables, and whether headings
are coloured. -/
structure Environment where
  generalLog : Option String
  toolLog : Option String
  colour : Bool

inductive Colour where
  | red
  | green
  | yellow

def Colour.code : Colour → String
  | .red => "31"
  | .green => "32"
  | .yellow => "33"

def Environment.heading (env : Environment) (colour : Colour) (text : String) : String :=
  if env.colour then "\x1b[1;" ++ colour.code ++ "m" ++ text ++ "\x1b[0m" else text

/-- The general variable counts first, then the argument, then the variable of the tool. -/
def Environment.verbosity (env : Environment) (argument : Option String) : Log.Verbosity :=
  Log.verbosity ((env.generalLog <|> argument <|> env.toolLog).getD "warn")

def itemLine (d : Diagnostic) : String :=
  "  - " ++ d.message ++ "\n"

def warningText (env : Environment) (r : Report) : String :=
  if r.warnings.isEmpty then ""
  else
    env.heading .yellow "Warnings:" ++ "\n" ++ String.join (r.warnings.map itemLine) ++ "\n"

def verdictText (env : Environment) (r : Report) : String :=
  if r.isValid then env.heading .green "Workflow validation passed!" ++ "\n"
  else
    env.heading .red "Validation failed with errors:" ++ "\n"
      ++ String.join (r.errors.map itemLine)

/-- A report as it is printed. -/
def reportText (env : Environment) (format : OutputFormat) (r : Report) : String :=
  match format with
  | .json => r.toValue.prettyJson ++ "\n"
  | .text => warningText env r ++ verdictText env r

/-- The options of a run; languages that are given replace the usual ones. -/
def runOptions (topology : Bool) (languages : List String) : Options :=
  {
    codeLanguages :=
      if languages.isEmpty then Options.default.codeLanguages else languages
    topologyChecks := topology
  }

/-- Validates a file, given what reading it gave. The exit status says whether there is a document
without errors. -/
def validateOutcome (env : Environment) (options : Options) (format : OutputFormat)
    (verbosity : Log.Verbosity) (path : String) (content : Except ReadError String)
    : Outcome :=
  let loading := Log.text verbosity (Load.events path content)
  match load path content with
  | .error e =>
      ⟨1, "", loading ++ env.heading .red "Error:" ++ " " ++ e.message ++ "\n"⟩
  | .ok document =>
      let r := validate options document
      ⟨
        if r.isValid then 0 else 1,
        reportText env format r,
        loading ++ Log.text verbosity (Validation.events options document)
      ⟩

/-- Prints ids, one a line. -/
def idsOutcome (ids : List UInt64) : Outcome :=
  ⟨0, String.join (ids.map (fun id => Ids.text id ++ "\n")), ""⟩

def versionText : String := "dsl-validator 0.1.0\n"

def usageText : String :=
  "Usage: dsl-validator [--log-level LEVEL] validate PATH [--topology] [--format text|json]\n"
    ++ "           [--code-language LANG]...\n"
    ++ "       dsl-validator [--log-level LEVEL] id [COUNT]\n"

/-- The outcome of a request, given a way to read files and readings of the clock. -/
def outcome (env : Environment) (readFile : String → Except ReadError String)
    (clock : Nat → List UInt64)
    : Request → Outcome
  | .validate path topology format languages logLevel =>
      validateOutcome env (runOptions topology languages) format (env.verbosity logLevel) path
        (readFile path)
  | .ids count _ => idsOutcome (Ids.claimAll 0 (clock count)).1
  | .version => ⟨0, versionText, ""⟩
  | .help => ⟨0, usageText, ""⟩
  | .misuse => ⟨2, "", usageText⟩

end WorkflowLint.Cli
