import WorkflowLint.Yaml.Error
import WorkflowLint.Yaml.Event

/-! The first document of a stream: its events with the aliases resolved, as far as they go, and the
fault behind them.
-/

namespace WorkflowLint.Yaml

/-- An event whose aliases are numbers of anchors. -/
inductive Step where
  | alias (anchor : Nat)
  | scalar (tag : Option TagText) (text : String) (plain : Bool)
  | sequenceStart (tag : Option TagText)
  | sequenceEnd
  | mappingStart (tag : Option TagText)
  | mappingEnd
  deriving DecidableEq

structure Document where
  steps : Array (Step × Mark)
  /-- Where the node of each anchor stands among the steps; a later entry counts first. -/
  targets : List (Nat × Nat)
  failure : Option Error
  /-- Whether the stream ends here. -/
  last : Bool

/-- The anchors declared so far, with their numbers. An anchor gets as its number how many names
are known; a name that is declared again keeps its place among them, so that numbers may repeat. -/
structure Anchors where
  numbers : List (List Char × Nat)
  targets : List (Nat × Nat)

namespace Anchors

def set (name : List Char) (number : Nat) : List (List Char × Nat) → List (List Char × Nat)
  | [] => [(name, number)]
  | (n, k) :: more => if n = name then (n, number) :: more else (n, k) :: set name number more

def declare (a : Anchors) (position : Nat) : Option (List Char) → Anchors
  | none => a
  | some name =>
      let number := a.numbers.length
      ⟨set name number a.numbers, (number, position) :: a.targets⟩

end Anchors

/-- Numbers the aliases, up to one that names no anchor. -/
def resolveAliases
    : Nat → Anchors → List (Event × Mark) → List (Step × Mark) × Anchors × Option Error
  | _, a, [] => ([], a, none)
  | position, a, (event, mark) :: more =>
      let followedBy (a : Anchors) (step : Step) :=
        let (steps, a, failure) := resolveAliases (position + 1) a more
        ((step, mark) :: steps, a, failure)
      match event with
      | .alias name =>
          match a.numbers.lookup name with
          | some number => followedBy a (.alias number)
          | none => ([], a, some (.unknownAnchor mark))
      | .scalar p text plain =>
          followedBy (a.declare position p.anchor) (.scalar p.tag (String.ofList text) plain)
      | .sequenceStart p => followedBy (a.declare position p.anchor) (.sequenceStart p.tag)
      | .sequenceEnd => followedBy a .sequenceEnd
      | .mappingStart p => followedBy (a.declare position p.anchor) (.mappingStart p.tag)
      | .mappingEnd => followedBy a .mappingEnd

/-- A document that failed after some events. -/
def Document.broken (e : SyntaxError) (events : List (Event × Mark)) : Document :=
  let (steps, a, failure) := resolveAliases 0 ⟨[], []⟩ events
  ⟨steps.toArray, a.targets, some (failure.getD (.malformed e)), true⟩

/-- A document that ends well, unless the token behind it is at fault. -/
def Document.complete (m : Machine) (events : List (Event × Mark)) : Document :=
  match m.peek with
  | .error e => .broken e events
  | .ok _ =>
      let (steps, a, failure) := resolveAliases 0 ⟨[], []⟩ events
      ⟨steps.toArray, a.targets, failure, m.isOver⟩

/-- The first document of a stream of tokens; a stream without one has an empty document. -/
def Document.ofTokens (tokens : List Token) (failure : Option SyntaxError) : Document :=
  match (Machine.mk tokens failure [] []).start? with
  | .error e => .broken e []
  | .ok none => ⟨#[], [], none, true⟩
  | .ok (some m) =>
      match m.run (4 * tokens.length + 8) with
      | (events, .error e) => .broken e events
      | (events, .ok m) => .complete m events

/-- The characters that may occur in a text. -/
def isAllowed (c : Char) : Bool :=
  let n := c.toNat
  n == 0x09 || n == 0x0A || n == 0x0D || (0x20 ≤ n && n ≤ 0x7E) || n == 0x85
    || (0xA0 ≤ n && n ≤ 0xD7FF) || (0xE000 ≤ n && n ≤ 0xFFFD)
    || (0x10000 ≤ n && n ≤ 0x10FFFF)

/-- The byte at which the first forbidden character starts. -/
def forbiddenAt? : Nat → List Char → Option Nat
  | _, [] => none
  | byte, c :: rest =>
      if isAllowed c then forbiddenAt? (byte + c.utf8Size) rest else some byte

def Document.ofText (text : List Char) : Document :=
  match forbiddenAt? 0 text with
  | some byte => .broken (.forbiddenCharacter byte) []
  | none =>
      let (tokens, failure) := Token.scan text
      .ofTokens tokens failure

end WorkflowLint.Yaml
