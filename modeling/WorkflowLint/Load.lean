import WorkflowLint.FileTree
import WorkflowLint.Json.Reader
import WorkflowLint.Log
import WorkflowLint.Yaml.Reader

/-! Loading: from the text of a workflow file to its document tree, and what can go wrong. -/

namespace WorkflowLint

/-- Why there is no document to validate. -/
inductive LoadError where
  | notFound (path : String)
  | unreadable (path detail : String)
  | yaml (detail : String)
  | json (detail : String)
  deriving DecidableEq

def LoadError.message : LoadError → String
  | .notFound path => "File not found: " ++ path
  | .unreadable path detail => "Failed to read " ++ path ++ ": " ++ detail
  | .yaml detail => "YAML parsing error: " ++ detail
  | .json detail => "JSON parsing error: " ++ detail

/-- The document tree of a text. -/
def parse (format : Format) (text : String) : Except LoadError Value :=
  match format with
  | .json => (Json.read text.toList).mapError LoadError.json
  | .yaml => (Yaml.read text.toList).mapError LoadError.yaml

/-- The error for a file that cannot be read. -/
def LoadError.ofRead (path : String) : ReadError → LoadError
  | .notFound => .notFound path
  | e => .unreadable path e.message

/-- The document tree of a file, given what reading the file gave. -/
def load (path : String) (content : Except ReadError String) : Except LoadError Value :=
  match content with
  | .error e => .error (.ofRead path e)
  | .ok text => parse (.ofPath path) text

namespace Load

def logSource : String := "dsl_validator::load"

def formatName : Format → String
  | .yaml => "Yaml"
  | .json => "Json"

def event (level : Log.Level) (message path : String) (more : List (String × String))
    : Log.Event :=
  ⟨level, none, logSource, message, ("path", path) :: more⟩

/-- What is told about loading a file. -/
def events (path : String) (content : Except ReadError String) : List Log.Event :=
  match content with
  | .error .notFound => [event .warn "workflow file not found" path []]
  | .error e => [event .warn "failed to read workflow file" path [("error", e.message)]]
  | .ok text =>
      let format := Format.ofPath path
      event .debug "parsing workflow file" path
          [("format", formatName format), ("bytes", toString text.utf8ByteSize)]
        :: match parse format text with
          | .ok _ => []
          | .error e => [event .warn "failed to parse workflow file" path [("error", e.message)]]

end Load

end WorkflowLint
