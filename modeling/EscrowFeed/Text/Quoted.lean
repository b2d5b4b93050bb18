/-
A text between quotes, as it is shown in a diagnostic.
-/
import EscrowFeed.Text.Printable

set_option autoImplicit false

namespace EscrowFeed.Quoted

/-- A character as it is shown between quotes. -/
def showChar (c : Char) : List Char :=
  if c = '"' ∨ c = '\\' then ['\\', c]
  else if c = '\x00' then ['\\', '0']
  else if c = '\t' then ['\\', 't']
  else if c = '\n' then ['\\', 'n']
  else if c = '\r' then ['\\', 'r']
  else if isPrintable c then [c]
  else ['\\', 'u', '\x7b'] ++ Nat.toDigits 16 c.toNat ++ ['\x7d']

/-- A text as it is shown between quotes. -/
def text (content : String) : String :=
  String.ofList ('"' :: content.toList.flatMap showChar ++ ['"'])

end EscrowFeed.Quoted
