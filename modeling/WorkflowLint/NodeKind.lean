/-! The kinds of workflow node that have rules of their own, and their tags. -/

namespace WorkflowLint

inductive NodeKind where
  | start
  | «end»
  | llm
  | code
  | variableAggregator
  | ifElse
  deriving DecidableEq

namespace NodeKind

/-- The text under which a node declares its kind. -/
def tag : NodeKind → String
  | .start => "start"
  | .end => "end"
  | .llm => "llm"
  | .code => "code"
  | .variableAggregator => "variable-aggregator"
  | .ifElse => "if-else"

def all : List NodeKind :=
  [.start, .end, .llm, .code, .variableAggregator, .ifElse]

/-- The kind with a tag. Other tags are allowed in a workflow but have no rules. -/
def ofTag? (tag : String) : Option NodeKind :=
  all.find? (fun kind => kind.tag = tag)

end NodeKind

end WorkflowLint
