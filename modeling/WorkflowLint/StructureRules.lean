import WorkflowLint.NodeRules
import WorkflowLint.TopologyRules

/-! The rules on a whole document, in their fixed order: top level, app section, workflow section,
nodes, edges, and the graph where that is asked for.
-/

namespace WorkflowLint

namespace StructureRules

def require (holds : Bool) (finding : Finding) : List Finding :=
  if holds then [] else [finding]

def topLevelFields : List String := ["kind", "version", "app", "workflow"]

def topLevelFindings (root : Value) : List Finding :=
  topLevelFields.flatMap (fun field => require (root.has field) (.topLevelFieldMissing field))
    ++ require ((root.get? "kind").bind Value.asString? = some "app")
        (.kindNotApp (root.get? "kind"))

def appFields : List String := ["name", "mode"]

def modeFindings (app : Value) : List Finding :=
  match app.get? "mode" with
  | none => []
  | some mode => require (mode.asString? = some "workflow") (.modeNotWorkflow mode)

def appFindings (app : Value) : List Finding :=
  appFields.flatMap (fun field => require (app.has field) (.appFieldMissing field))
    ++ modeFindings app

/-- What a walk over the nodes has seen so far: the ids, and whether there was a start node and an
end node. -/
structure Census where
  ids : List String
  hasStart : Bool
  hasEnd : Bool

namespace Census

def empty : Census := ⟨[], false, false⟩

def declare (c : Census) (id : String) : Census :=
  if id ∈ c.ids then c else { c with ids := c.ids ++ [id] }

def meet (c : Census) (kind : NodeKind) : Census :=
  { c with
    hasStart := c.hasStart || kind = .start
    hasEnd := c.hasEnd || kind = .end }

end Census

/-- How far a node can be checked: as far as it has an id, data, a type and a type with rules. -/
inductive Outline where
  | noId
  | noData (id : String)
  | noType (id : String)
  | unknownType (id : String) (type : Value)
  | known (id : String) (kind : NodeKind) (data : Value)

def outline (node : Value) : Outline :=
  match Graph.nodeId? node with
  | none => .noId
  | some id =>
      match node.get? "data" with
      | none => .noData id
      | some data =>
          match data.truthy? "type" with
          | none => .noType id
          | some type =>
              match type.asString?.bind NodeKind.ofTag? with
              | none => .unknownType id type
              | some kind => .known id kind data

/-- The finding for an id that was declared before. -/
def repeatFindings (c : Census) (id : String) : List Finding :=
  if id ∈ c.ids then [.idRepeated id] else []

/-- Checks one node. A node that repeats an id is still checked in full. -/
def visitNode (options : Options) (index : Nat) (c : Census) (node : Value)
    : Census × List Finding :=
  match outline node with
  | .noId => (c, [.idMissing index])
  | .noData id => (c.declare id, repeatFindings c id ++ [.dataMissing id])
  | .noType id => (c.declare id, repeatFindings c id ++ [.typeMissing id])
  | .unknownType id _ => (c.declare id, repeatFindings c id)
  | .known id kind data =>
      (
        (c.declare id).meet kind,
        repeatFindings c id ++ nodeDataFindings kind options id data
      )

/-- Checks the nodes in order, counting from an index. -/
def visitNodes (options : Options) : Nat → Census → List Value → Census × List Finding
  | _, c, [] => (c, [])
  | index, c, node :: more =>
      let (c₁, here) := visitNode options index c node
      let (c₂, rest) := visitNodes options (index + 1) c₁ more
      (c₂, here ++ rest)

/-- The findings on all nodes, and the ids that they declare. -/
def nodesFindings (options : Options) (nodes : List Value) : List String × List Finding :=
  let (c, findings) := visitNodes options 0 .empty nodes
  (c.ids, findings ++ require c.hasStart .noStart ++ require c.hasEnd .noEnd)

def endpointFindings (ids : List String) (index : Nat) (edge : Value) (endpoint : Endpoint)
    : List Finding :=
  match Graph.endpointId? edge endpoint.name with
  | none => [.endpointMissing index endpoint]
  | some id => require (id ∈ ids) (.endpointUnknown endpoint id)

def edgeFindings (ids : List String) (index : Nat) (edge : Value) : List Finding :=
  endpointFindings ids index edge .source ++ endpointFindings ids index edge .target

def edgesFindings (ids : List String) (edges : List Value) : List Finding :=
  edges.zipIdx.flatMap (fun entry => edgeFindings ids entry.2 entry.1)

/-- The finding for a value that should be a list and is not. -/
def listFindings (field : String) : Value → List Finding
  | .list _ => []
  | _ => [.notAList field]

def graphFindings (options : Options) (nodes edges : Value) : List Finding :=
  let (ids, found) := nodesFindings options nodes.entries
  listFindings "nodes" nodes
    ++ found
    ++ listFindings "edges" edges
    ++ edgesFindings ids edges.entries
    ++ (if options.topologyChecks then topologyFindings nodes.entries edges.entries else [])

def workflowFindings (options : Options) (workflow : Value) : List Finding :=
  match workflow.get? "graph" with
  | none => [.graphMissing]
  | some graph =>
      match graph.get? "nodes", graph.get? "edges" with
      | none, _ => [.nodesMissing]
      | some _, none => [.edgesMissing]
      | some nodes, some edges => graphFindings options nodes edges

/-- What is found in a section that need not be there. -/
def sectionFindings (root : Value) (key : String) (check : Value → List Finding)
    : List Finding :=
  match root.get? key with
  | none => []
  | some content => check content

end StructureRules

open StructureRules in
/-- Everything that the rules find in a document. -/
def documentFindings (options : Options) (document : Value) : List Finding :=
  topLevelFindings document
    ++ StructureRules.sectionFindings document "app" appFindings
    ++ StructureRules.sectionFindings document "workflow" (workflowFindings options)

end WorkflowLint
