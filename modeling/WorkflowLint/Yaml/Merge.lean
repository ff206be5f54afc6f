import WorkflowLint.Yaml.Error

/-! Merge keys: what stands under `<<` in a mapping, a mapping or a list of mappings, gives entries
to it. Own entries count before merged ones, and earlier merged ones before later ones. The tree is
changed in place, along a stack of the nodes that are still to be visited.
-/

namespace WorkflowLint.Yaml

namespace Merge

def isMergeKey : Node → Bool
  | .string s => s == "<<"
  | _ => false

/-- Adds the entries whose keys are not there yet. -/
def addMissing (entries : List (Node × Node)) (source : List (Node × Node))
    : List (Node × Node) :=
  source.foldl
    (fun found e => if (findKey? found e.1).isSome then found else found ++ [e]) entries

/-- Takes out an entry; the last one moves into its place. -/
def takeOut (index : Nat) (entries : List (Node × Node)) : List (Node × Node) :=
  match entries.getLast? with
  | none => []
  | some last => (entries.set index last).dropLast

/-- The mappings that a merge key refers to. -/
def sources : Node → Except MergeFault (List (List (Node × Node)))
  | .mapping entries => .ok [entries]
  | .sequence items =>
      items.mapM fun item =>
        match item with
        | .mapping entries => .ok entries
        | .sequence _ => .error .sequenceItem
        | .tagged _ _ => .error .tagged
        | _ => .error .scalarItem
  | .tagged _ _ => .error .tagged
  | _ => .error .scalar

/-- The entries of a mapping with its own merge key applied. -/
def applyHere (entries : List (Node × Node)) : Except MergeFault (List (Node × Node)) :=
  match entries.findIdx? (fun e => isMergeKey e.1) with
  | none => .ok entries
  | some index =>
      match entries[index]? with
      | none => .ok entries
      | some (_, source) => do
          let found ← sources source
          .ok (found.foldl addMissing (takeOut index entries))

/-- The way down from the top of a tree to a node: which child to take, step by step. -/
abbrev Address := List Nat

/-- The nodes right below a node. -/
def children : Node → List Node
  | .sequence items => items
  | .mapping entries => entries.map Prod.snd
  | .tagged _ content => [content]
  | _ => []

/-- A node with other nodes right below it, as many as there were. -/
def withChildren (v : Node) (below : List Node) : Node :=
  match v with
  | .sequence _ => .sequence below
  | .mapping entries => .mapping ((entries.map Prod.fst).zip below)
  | .tagged tag content => .tagged tag (below.headD content)
  | scalar => scalar

def at? : Address → Node → Option Node
  | [], v => some v
  | i :: more, v => (children v)[i]?.bind (at? more)

/-- The tree with a new node at an address. -/
def put (new : Node) : Address → Node → Node
  | [], _ => new
  | i :: more, v => withChildren v ((children v).modify i (put new more))

/-- A node that is visited: a mapping has its own merge key applied. -/
def visited : Node → Except MergeFault Node
  | .mapping entries => do
      let entries ← applyHere entries
      .ok (.mapping entries)
  | v => .ok v

/-- Where the first children of the node at an address stand, the last of them first. -/
def childAddresses (address : Address) (count : Nat) : List Address :=
  ((List.range count).map (fun i => address ++ [i])).reverse

/-- Visits the nodes on a stack, and those below each of them before the next one. -/
def walk : Nat → Node → List Address → Except MergeFault Node
  | 0, tree, _ => .ok tree
  | _, tree, [] => .ok tree
  | fuel + 1, tree, address :: pending =>
      match at? address tree with
      | none => walk fuel tree pending
      | some v => do
          let v ← visited v
          walk fuel (put v address tree)
            (childAddresses address (children v).length ++ pending)

mutual
/-- How many nodes a tree has, itself and without the keys of its mappings. What is merged in comes
from below, so this bounds how many nodes are visited. -/
def size : Node → Nat
  | .sequence items => sizeOfItems items + 1
  | .mapping entries => sizeOfEntries entries + 1
  | .tagged _ content => size content + 1
  | _ => 1

def sizeOfItems : List Node → Nat
  | [] => 0
  | v :: more => size v + sizeOfItems more

def sizeOfEntries : List (Node × Node) → Nat
  | [] => 0
  | (_, v) :: more => size v + sizeOfEntries more
end

end Merge

/-- The tree with all merge keys applied. -/
def Node.mergeKeys (v : Node) : Except MergeFault Node :=
  Merge.walk (Merge.size v) v [[]]

end WorkflowLint.Yaml
