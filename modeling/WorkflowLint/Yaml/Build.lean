import WorkflowLint.Yaml.Document
import WorkflowLint.Yaml.Scalar

/-! From the events of a document to its tree. Collections may stand inside one another up to a
depth, an alias stands for the node of its anchor, and aliases may be followed only so often.
-/

namespace WorkflowLint.Yaml

/-- How many collections may stand inside one another. -/
def depthLimit : Nat := 128

/-- The next step to read, and how many aliases have been followed. -/
structure Place where
  position : Nat
  jumps : Nat

/-- Reading at a place gives a result and the place behind it. -/
abbrev Build (α : Type) := Place → Except Error (α × Place)

namespace Build

/-- Reads the node at a place, of which the path is given. The flag says that a tag of the node has
been dealt with. -/
abbrev Reader := Bool → Path → Build Node

/-- The step at a place; behind the last one, the fault that ended the steps. -/
def step (d : Document) (p : Place) : Except Error (Step × Mark) :=
  match d.steps[p.position]?, d.failure with
  | some found, _ => .ok found
  | none, some e => .error e
  | none, none => .error .severalDocuments

def advance (p : Place) : Place :=
  { p with position := p.position + 1 }

/-- The items of a sequence up to its end. Each takes a step at least. -/
def items (d : Document) (node : Reader) (path : Path) : Nat → Nat → Build (List Node)
  | 0, _, p => .ok ([], p)
  | fuel + 1, index, p => do
      let (s, _) ← step d p
      match s with
      | .sequenceEnd => .ok ([], advance p)
      | _ => do
          let (v, p) ← node false (.item path index) p
          let (vs, p) ← items d node path fuel (index + 1) p
          .ok (v :: vs, p)

/-- The path of the value under the key at a place. -/
def valuePath (path : Path) : Step → Path
  | .scalar _ text _ => .field path text
  | _ => .under path

/-- The entries of a mapping up to its end, added to those before. A key is read like the mapping
itself, and it may not be there already. -/
def entries (d : Document) (node : Reader) (dealtWith : Bool) (path : Path) (mark : Mark)
    : Nat → List (Node × Node) → Build (List (Node × Node))
  | 0, found, p => .ok (found, p)
  | fuel + 1, found, p => do
      let (s, _) ← step d p
      match s with
      | .mappingEnd => .ok (found, advance p)
      | _ => do
          let (key, p) ← node dealtWith path p
          match findKey? found key with
          | some old => .error (.atNode (.repeatedKey old) path mark)
          | none => do
              let (value, p) ← node false (valuePath path s) p
              entries d node dealtWith path mark fuel (found ++ [(key, value)]) p

/-- The node that a local tag says something about. -/
def wrap (tag : Option String) (r : Except Error (Node × Place)) : Except Error (Node × Place) :=
  match tag with
  | none => r
  | some tag => r.map (fun (v, p) => (.tagged tag v, p))

def localTagOf (dealtWith : Bool) (tag : Option TagText) : Option String :=
  if dealtWith then none else tag.bind Scalar.localTag?

/-- Follows an alias to the node of its anchor, and goes on behind the alias. -/
def followAlias (d : Document) (content : Reader) (dealtWith : Bool) (path : Path) : Build Node :=
  fun p => do
    let (s, _) ← step d p
    match s with
    | .alias anchor =>
        if 100 * d.steps.size < p.jumps + 1 then .error .tooManyAliases
        else
          let target := (d.targets.lookup anchor).getD d.steps.size
          let (v, q) ← content false path ⟨target, p.jumps + 1⟩
          .ok (v, ⟨p.position + 1, q.jumps⟩)
    | _ => content dealtWith path p

/-- Reads a scalar or a collection with at most `depth` collections inside one another. -/
def content (d : Document) (depth : Nat) (dealtWith : Bool) (path : Path) (p : Place)
    : Except Error (Node × Place) := do
  let (s, mark) ← step d p
  match s with
  | .scalar tag text plain =>
      let tagged := localTagOf dealtWith tag
      wrap tagged
        (match Scalar.node (dealtWith || tagged.isSome) tag text plain with
        | .ok v => .ok (v, advance p)
        | .error fault => .error (.atNode fault path mark))
  | .sequenceStart tag =>
      match depth with
      | 0 => .error (.tooDeep mark)
      | depth + 1 =>
          wrap (localTagOf dealtWith tag) do
            let (vs, p) ←
              items d (followAlias d (content d depth)) path d.steps.size 0 (advance p)
            .ok (.sequence vs, p)
  | .mappingStart tag =>
      match depth with
      | 0 => .error (.tooDeep mark)
      | depth + 1 =>
          let tagged := localTagOf dealtWith tag
          wrap tagged do
            let (es, p) ←
              entries d (followAlias d (content d depth)) (dealtWith || tagged.isSome) path mark
                d.steps.size [] (advance p)
            .ok (.mapping es, p)
  | _ => .ok (.null, advance p)

end Build

/-- The tree of a document. What is wrong with a node shows before the fault that ended the events,
and that before a second document. -/
def Node.ofDocument (d : Document) : Except Error Node :=
  if d.steps.isEmpty && d.failure.isNone then .ok .null
  else do
    let (v, _) ← Build.followAlias d (Build.content d depthLimit) false .root ⟨0, 0⟩
    match d.failure with
    | some e => .error e
    | none => if d.last then .ok v else .error .severalDocuments

end WorkflowLint.Yaml
