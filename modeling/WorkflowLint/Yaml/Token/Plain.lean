import WorkflowLint.Yaml.Token

/-! Plain scalars: unquoted text, which ends where a key, a comment or the enclosing construct says
so or where a line is indented too little.
-/

namespace WorkflowLint.Yaml.Plain

def isFlowMark (c : Char) : Bool :=
  c = ',' || c = '[' || c = ']' || c = '{' || c = '}'

/-- A colon ends the scalar before a pause; in a flow collection the marks of such collections end
it too. -/
def endsAt (inFlow : Bool) : List Char → Bool
  | [] => true
  | c :: rest => (c = ':' && isPause rest) || (inFlow && isFlowMark c)

/-- A colon before a mark of flow collections is refused inside one. -/
def refusedAt (inFlow : Bool) : List Char → Bool
  | ':' :: c :: _ => inFlow && (isFlowMark c || c = '?')
  | _ => false

/-- How many characters stand before the next pause or end. -/
def runLength (inFlow : Bool) : List Char → Nat
  | [] => 0
  | c :: rest =>
      if isPause (c :: rest) || refusedAt inFlow (c :: rest) || endsAt inFlow (c :: rest) then 0
      else runLength inFlow rest + 1

structure Scanned where
  text : List Char
  after : Cursor
  /-- Whether a line break was read after the last character. -/
  broken : Bool

/-- Reads the rest of a scalar, given the text so far and the gap after it. Each round takes a
character or ends. -/
def readOn (inFlow : Bool) (indentation : Int) (start : Mark)
    : Nat → List Char → Gap → Cursor → Except SyntaxError Scanned
  | 0, text, gap, c => .ok ⟨text, c, gap.broken⟩
  | fuel + 1, text, gap, c =>
      if c.atDocumentMark || c.rest.head? = some '#' then .ok ⟨text, c, gap.broken⟩
      else
        let count := runLength inFlow c.rest
        let behind := c.skip count
        if refusedAt inFlow behind.rest then
          .error (behind.fault .colonUnexpected .plainScalar start)
        else
          let text' := if count = 0 then text else text ++ gap.text ++ c.rest.take count
          let gap' := if count = 0 then gap else Gap.empty
          if !isPause behind.rest || behind.rest.isEmpty then .ok ⟨text', behind, gap'.broken⟩
          else do
            let refuse (tab : Cursor) := tab.fault .tabBreaksIndentation .plainScalar start
            let (gap'', next) ←
              Gap.read (some indentation) refuse behind.rest.length gap' behind
            if !inFlow && next.mark.column < indentation then .ok ⟨text', next, gap''.broken⟩
            else readOn inFlow indentation start fuel text' gap'' next

/-- Reads a scalar inside a block with the given indentation. -/
def read (inFlow : Bool) (blockIndent : Int) (c : Cursor) : Except SyntaxError Scanned :=
  readOn inFlow (blockIndent + 1) c.mark (c.rest.length + 1) [] .empty c

end WorkflowLint.Yaml.Plain
