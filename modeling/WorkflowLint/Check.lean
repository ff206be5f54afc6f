import WorkflowLint.Load
import WorkflowLint.Validation

/-! Checking texts and files: a report where there is a document, and the load error where there is
none.
-/

namespace WorkflowLint

/-- The report on a text under the usual options. Every text is read as YAML. -/
def checkText (text : String) : Except LoadError Report :=
  (parse .yaml text).map (validate Options.default)

/-- The report on a file, given what reading it gave. -/
def checkFile (options : Options) (path : String) (content : Except ReadError String)
    : Except LoadError Report :=
  (load path content).map (validate options)

end WorkflowLint
