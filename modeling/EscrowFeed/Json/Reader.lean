/-
Reading JSON text.

Nesting and length are bounded by different things, and each recursion here
follows its own. An array or object opens one level, the levels are counted
down from `Json.levels`, and `readValue?` recurses on what is left of them; so
a text that nests too deeply is refused by running out of levels, which is the
format's own rule. Along one level the reader goes from item to item, and that
loop ends because the text gets shorter. `readSeries?` is the loop. It knows
nothing of values, only of a reader for one item, so it checks for itself that
an item took something from the text; every item does.

An object is first read as the list of its members in the order of the text.
What that list means is decided once it is complete, by `ofMembers?`: the last
member of a key stands, and an object that opens with `Json.numberKey` is a
number written out or else an error.
-/
import EscrowFeed.Json.Basic
import EscrowFeed.Json.Lexeme

set_option autoImplicit false

namespace EscrowFeed.Json

/-- Arrays and objects may nest this deep. -/
def levels : Nat := 127

/-- The rest of the text after the letters of a word, which it must begin
with. -/
def readWord? (word : String) (s : List Char) : Option (List Char) :=
  word.toList.isPrefixOf? s

/-- The value that the members of an object make, in the order of the text. -/
def ofMembers? : List (String × Json) → Option Json
  | [] => some (.object [])
  | (key, value) :: rest =>
    if key = numberKey then
      match value, rest with
      | .string text, [] => if isNumber text then some (.number text) else none
      | _, _ => none
    else
      some (.object (Members.ofList ((key, value) :: rest)))

/-! ## Series -/

section Series

variable {α : Type} (item : List Char → Option (α × List Char)) (close : Char)

/-- One item or more with commas between them, up to the closing mark. -/
def readSeries? (s : List Char) : Option (List α × List Char) :=
  match item s with
  | none => none
  | some (a, rest) =>
    match skipBlank rest with
    | [] => none
    | c :: rest =>
      if c = close then some ([a], rest)
      else if c = ',' ∧ rest.length < s.length then do
        let (items, after) ← readSeries? rest
        return (a :: items, after)
      else none
termination_by s.length

/-- Any number of items, up to the closing mark. -/
def readList? (s : List Char) : Option (List α × List Char) :=
  match skipBlank s with
  | [] => none
  | c :: rest => if c = close then some ([], rest) else readSeries? item close (c :: rest)

end Series

/-! ## Values -/

/-- A value that opens no level. -/
def readScalar? (s : List Char) : Option (Json × List Char) :=
  match s with
  | [] => none
  | c :: rest =>
    if c = '"' then (readText? rest).map fun (text, after) => (.string (String.ofList text), after)
    else if c = 'n' then (readWord? "null" s).map (.null, ·)
    else if c = 't' then (readWord? "true" s).map (.bool true, ·)
    else if c = 'f' then (readWord? "false" s).map (.bool false, ·)
    else (readNumber? s).map fun (text, after) => (.number (String.ofList text), after)

/-- A key, a colon, and a value read by `value`. -/
def readMember? (value : List Char → Option (Json × List Char)) (s : List Char) :
    Option ((String × Json) × List Char) :=
  match skipBlank s with
  | '"' :: rest => do
    let (key, rest) ← readText? rest
    match skipBlank rest with
    | ':' :: rest => do
      let (v, after) ← value rest
      return ((String.ofList key, v), after)
    | _ => none
  | _ => none

/-- A value behind any blanks, with at most so many levels in it. -/
def readValue? : Nat → List Char → Option (Json × List Char)
  | 0, s => readScalar? (skipBlank s)
  | levels + 1, s =>
    match skipBlank s with
    | '[' :: rest =>
      (readList? (readValue? levels) ']' rest).map fun (items, after) => (.array items, after)
    | '{' :: rest => do
      let (members, after) ← readList? (readMember? (readValue? levels)) '}' rest
      let value ← ofMembers? members
      return (value, after)
    | s => readScalar? s

/-- The value of a text that is one value and blanks around it. -/
def read? (text : String) : Option Json := do
  let (value, rest) ← readValue? levels text.toList
  if skipBlank rest = [] then some value else none

end EscrowFeed.Json
