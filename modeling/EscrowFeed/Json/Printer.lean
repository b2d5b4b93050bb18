/-
Writing JSON text: one line, no blanks, members in key order.

Only what has to be escaped is: the quote, the backslash, and the control
characters, of which five have letters of their own. All other characters stand
as they are, whatever their range, so a text that holds none of these three
kinds is written as itself between quotes.
-/
import EscrowFeed.Json.Basic

set_option autoImplicit false

namespace EscrowFeed.Json

/-- A character as it stands in a quoted string. -/
def escapeChar (c : Char) : List Char :=
  if c = '"' then ['\\', '"']
  else if c = '\\' then ['\\', '\\']
  else if c = '\x08' then ['\\', 'b']
  else if c = '\t' then ['\\', 't']
  else if c = '\n' then ['\\', 'n']
  else if c = '\x0c' then ['\\', 'f']
  else if c = '\r' then ['\\', 'r']
  else if c.toNat < 0x20 then
    ['\\', 'u', '0', '0', Nat.digitChar (c.toNat / 16), Nat.digitChar (c.toNat % 16)]
  else [c]

/-- A text between quotes. -/
def printText (text : String) : List Char := '"' :: text.toList.flatMap escapeChar ++ ['"']

mutual

/-- The characters of a value. -/
def print : Json → List Char
  | .null => "null".toList
  | .bool true => "true".toList
  | .bool false => "false".toList
  | .number text => text.toList
  | .string text => printText text
  | .array items => '[' :: [','].intercalate (printItems items) ++ [']']
  | .object members => '{' :: [','].intercalate (printMembers members) ++ ['}']

/-- The characters of each item. -/
def printItems : List Json → List (List Char)
  | [] => []
  | item :: rest => print item :: printItems rest

/-- The characters of each member. -/
def printMembers : List (String × Json) → List (List Char)
  | [] => []
  | (key, value) :: rest => (printText key ++ ':' :: print value) :: printMembers rest

end

/-- The written form of a value. -/
def text (value : Json) : String := String.ofList value.print

end EscrowFeed.Json
