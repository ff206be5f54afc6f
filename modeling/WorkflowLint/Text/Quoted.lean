import WorkflowLint.Text.Printable

/-! Text in quotes for messages: quotes, backslashes and what cannot be seen on a page are escaped.
-/

namespace WorkflowLint.Text

/-- An escape by name where there is one, else by the number of the code point. -/
def escape (c : Char) : List Char :=
  if c = '"' then ['\\', '"']
  else if c = '\\' then ['\\', '\\']
  else if c = '\x00' then ['\\', '0']
  else if c = '\t' then ['\\', 't']
  else if c = '\n' then ['\\', 'n']
  else if c = '\r' then ['\\', 'r']
  else if isPrintable c then [c]
  else ['\\', 'u', '{'] ++ Nat.toDigits 16 c.toNat ++ ['}']

def quoted (s : String) : String :=
  String.ofList ('"' :: s.toList.flatMap escape ++ ['"'])

end WorkflowLint.Text
