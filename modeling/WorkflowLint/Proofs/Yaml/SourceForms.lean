import WorkflowLint.Proofs.Yaml.QuotedGlyphs
import WorkflowLint.Yaml.Reader

/-! What each stage of reading makes of a JSON source: its tokens, its steps and its node. Sources
are portable if that is all that happens to them.
-/

namespace WorkflowLint.Yaml

open WorkflowLint.Json (Space Glyph Source Item Entry WordInt quoted spelled)

/-- A key that both formats take for the same text: its colon stands in its line and near enough,
and it does not ask for a merge.
-/
structure PortableKey (field : Entry Source) : Prop where
  glyphs : ∀ g ∈ field.key, PortableGlyph g
  oneLine : ∀ x ∈ field.toColon.1, isBlank x = true
  near : (quoted field.key field.toColon.1).length ≤ 1024
  plain : spelled field.key ≠ "<<"

/-- A source that both formats read alike: its strings are portable, and its maps have distinct
keys that are portable.
-/
inductive Portable : Source → Prop where
  | null : Portable .null
  | bool {b : Bool} : Portable (.bool b)
  | int {n : WordInt} : Portable (.int n)
  | string {glyphs : List Glyph} (portable : ∀ g ∈ glyphs, PortableGlyph g)
    : Portable (.string glyphs)
  | emptyList {inside : Space} : Portable (.emptyList inside)
  | list {first : Item Source} {more : List (Item Source)} (head : Portable first.value)
    (tail : ∀ item ∈ more, Portable item.value)
    : Portable (.list first more)
  | emptyMap {inside : Space} : Portable (.emptyMap inside)
  | map {first : Entry Source} {more : List (Entry Source)}
    (keys : ∀ field ∈ first :: more, PortableKey field)
    (distinct : ((first :: more).map (fun field => spelled field.key)).Nodup)
    (head : Portable first.value) (tail : ∀ field ∈ more, Portable field.value)
    : Portable (.map first more)

/-- The tokens of a key with its colon. -/
def keyKinds (key : List Glyph) : List Token.Kind :=
  [.key, .scalar (key.map Glyph.char) false, .value]

mutual
/-- The tokens of a source. -/
def kindsOf : Source → List Token.Kind
  | .null => [.scalar ['n', 'u', 'l', 'l'] true]
  | .bool b => [.scalar (Json.boolText b) true]
  | .int n => [.scalar (Binary64.intText n.1) true]
  | .string glyphs => [.scalar (glyphs.map Glyph.char) false]
  | .emptyList _ => [.flowSequenceStart, .flowSequenceEnd]
  | .list ⟨_, v, _⟩ more =>
      .flowSequenceStart :: (kindsOf v ++ (itemKinds more ++ [.flowSequenceEnd]))
  | .emptyMap _ => [.flowMappingStart, .flowMappingEnd]
  | .map ⟨_, key, _, _, v, _⟩ more =>
      .flowMappingStart :: (keyKinds key ++ (kindsOf v ++ (fieldKinds more ++ [.flowMappingEnd])))

def itemKinds : List (Item Source) → List Token.Kind
  | [] => []
  | ⟨_, v, _⟩ :: more => .flowEntry :: (kindsOf v ++ itemKinds more)

def fieldKinds : List (Entry Source) → List Token.Kind
  | [] => []
  | ⟨_, key, _, _, v, _⟩ :: more =>
      .flowEntry :: (keyKinds key ++ (kindsOf v ++ fieldKinds more))
end

/-- The step of a key. -/
def keyStep (key : List Glyph) : Step :=
  .scalar none (spelled key) false

mutual
/-- The steps of a source. -/
def stepsOf : Source → List Step
  | .null => [.scalar none "null" true]
  | .bool b => [.scalar none (String.ofList (Json.boolText b)) true]
  | .int n => [.scalar none (String.ofList (Binary64.intText n.1)) true]
  | .string glyphs => [.scalar none (spelled glyphs) false]
  | .emptyList _ => [.sequenceStart none, .sequenceEnd]
  | .list ⟨_, v, _⟩ more =>
      .sequenceStart none :: (stepsOf v ++ (itemSteps more ++ [.sequenceEnd]))
  | .emptyMap _ => [.mappingStart none, .mappingEnd]
  | .map ⟨_, key, _, _, v, _⟩ more =>
      .mappingStart none :: keyStep key :: (stepsOf v ++ (fieldSteps more ++ [.mappingEnd]))

def itemSteps : List (Item Source) → List Step
  | [] => []
  | ⟨_, v, _⟩ :: more => stepsOf v ++ itemSteps more

def fieldSteps : List (Entry Source) → List Step
  | [] => []
  | ⟨_, key, _, _, v, _⟩ :: more => keyStep key :: (stepsOf v ++ fieldSteps more)
end

mutual
/-- The node of a source. -/
def nodeOf : Source → Node
  | .null => .null
  | .bool b => .bool b
  | .int n => .int n.1
  | .string glyphs => .string (spelled glyphs)
  | .emptyList _ => .sequence []
  | .list ⟨_, v, _⟩ more => .sequence (nodeOf v :: itemNodes more)
  | .emptyMap _ => .mapping []
  | .map ⟨_, key, _, _, v, _⟩ more =>
      .mapping ((.string (spelled key), nodeOf v) :: fieldNodes more)

def itemNodes : List (Item Source) → List Node
  | [] => []
  | ⟨_, v, _⟩ :: more => nodeOf v :: itemNodes more

def fieldNodes : List (Entry Source) → List (Node × Node)
  | [] => []
  | ⟨_, key, _, _, v, _⟩ :: more => (.string (spelled key), nodeOf v) :: fieldNodes more
end

end WorkflowLint.Yaml
