/-
The language of JSON texts: which texts are written forms of which values.

Nothing here reads. Each relation says of a thing and of a list of characters
that the characters spell it, and most things are spelled in many ways: blanks
may stand around every part, a character may be escaped or not, and an object
may list its members in any order and name a key more than once. So a relation
between values and texts is the natural statement, and a reader is right when it
finds the value of every spelling and finds nothing else.

Two rules of the language are about more than characters. Arrays and objects
nest, and `Spells` counts the levels down: a value that is spelled with `n`
levels opens at most `n` of them. And an object's entries are a list in the
order of the text, of which `OfEntries` says what value they make: the last
entry of a key counts, and an object that opens with `numberKey` is a number or
no value at all.

The definitions mention no reader, and their leaves are literal characters and
numbers.
-/
import EscrowFeed.Proofs.Hex
import EscrowFeed.Proofs.Members

set_option autoImplicit false

namespace EscrowFeed.Json

/-! ## Blanks -/

/-- Spaces, tabs, line feeds and carriage returns, any number of them. -/
def Blank (s : List Char) : Prop :=
  ∀ c ∈ s, c = ' ' ∨ c = '\t' ∨ c = '\n' ∨ c = '\r'

/-! ## Numbers -/

/-- One decimal digit or more. -/
def Digits (s : List Char) : Prop :=
  s ≠ [] ∧ ∀ c ∈ s, c.isDigit = true

/-- An optional minus. -/
def Minus (s : List Char) : Prop := s = [] ∨ s = ['-']

/-- Digits without a leading zero, or zero. -/
def Whole (s : List Char) : Prop :=
  Digits s ∧ (s.head? = some '0' → s = ['0'])

/-- An optional fraction. -/
def Fraction (s : List Char) : Prop :=
  s = [] ∨ ∃ digits, Digits digits ∧ s = '.' :: digits

/-- The sign that an exponent may have. -/
def ExponentSign (s : List Char) : Prop := s = [] ∨ s = ['+'] ∨ s = ['-']

/-- An optional exponent. -/
def Exponent (s : List Char) : Prop :=
  s = [] ∨ ∃ mark sign digits, (mark = 'e' ∨ mark = 'E') ∧ ExponentSign sign ∧ Digits digits
    ∧ s = mark :: sign ++ digits

/-- The text of a number. -/
def Numeral (s : List Char) : Prop :=
  ∃ minus whole fraction exponent, Minus minus ∧ Whole whole ∧ Fraction fraction
    ∧ Exponent exponent ∧ s = minus ++ whole ++ fraction ++ exponent

/-- The text of a whole number: an optional minus, and digits. -/
def Integer (s : List Char) : Prop :=
  ∃ minus digits, Minus minus ∧ Digits digits ∧ s = minus ++ digits

/-! ## Strings -/

/-- A number of 16 bits in four hex digits. -/
def CodeUnit (value : Nat) (s : List Char) : Prop :=
  ∃ a b c d x y z w, s = [a, b, c, d] ∧ Hex.Digit a x ∧ Hex.Digit b y ∧ Hex.Digit c z
    ∧ Hex.Digit d w ∧ value = 4096 * x + 256 * y + 16 * z + w

/-- The letters that may follow a backslash, and what each stands for. -/
def namedEscapes : List (Char × Char) :=
  [('"', '"'), ('\\', '\\'), ('/', '/'), ('b', '\x08'), ('f', '\x0c'), ('n', '\n'), ('r', '\r'),
    ('t', '\t')]

/-- The spellings of one character inside a string. A character beyond the first
65536 is no code unit: escaped, it is a leading and a trailing one. -/
inductive CharSpelling : Char → List Char → Prop where
  | plain {c : Char} : c ≠ '"' → c ≠ '\\' → 0x20 ≤ c.toNat → CharSpelling c [c]
  | named {letter c : Char} : (letter, c) ∈ namedEscapes → CharSpelling c ['\\', letter]
  | unit {c : Char} {s : List Char} : CodeUnit c.toNat s → CharSpelling c ('\\' :: 'u' :: s)
  | pair {c : Char} {s t : List Char} {leading trailing : Nat} :
      CodeUnit leading s → CodeUnit trailing t →
      0xD800 ≤ leading → leading ≤ 0xDBFF → 0xDC00 ≤ trailing → trailing ≤ 0xDFFF →
      c.toNat = 0x10000 + 0x400 * (leading - 0xD800) + (trailing - 0xDC00) →
      CharSpelling c ('\\' :: 'u' :: s ++ '\\' :: 'u' :: t)

/-- The spellings of a run of characters. -/
inductive TextSpelling : List Char → List Char → Prop where
  | nil : TextSpelling [] []
  | cons {c : Char} {text s t : List Char} :
      CharSpelling c s → TextSpelling text t → TextSpelling (c :: text) (s ++ t)

/-- The spellings of a text between quotes. -/
def Quoted (text : String) (s : List Char) : Prop :=
  ∃ inner, TextSpelling text.toList inner ∧ s = '"' :: inner ++ ['"']

/-! ## Series -/

/-- One item or more with commas between them, and blanks around each. -/
inductive Series {α : Type} (Item : α → List Char → Prop) : List α → List Char → Prop where
  | one {a : α} {before s after : List Char} :
      Blank before → Item a s → Blank after → Series Item [a] (before ++ s ++ after)
  | more {a : α} {items : List α} {before s after t : List Char} :
      Blank before → Item a s → Blank after → Series Item items t →
      Series Item (a :: items) (before ++ s ++ after ++ ',' :: t)

/-- Any number of items between two brackets. -/
def Bracketed {α : Type} (Item : α → List Char → Prop) (opening closing : Char) (items : List α)
    (s : List Char) : Prop :=
  ∃ inner, (items = [] ∧ Blank inner ∨ Series Item items inner) ∧ s = opening :: inner ++ [closing]

/-- A key, a colon, and a value, with blanks around the colon. -/
def Member (Value : Json → List Char → Prop) (entry : String × Json) (s : List Char) : Prop :=
  ∃ key before after value, Quoted entry.1 key ∧ Blank before ∧ Blank after ∧ Value entry.2 value
    ∧ s = key ++ before ++ ':' :: after ++ value

/-! ## Values -/

/-- The spellings of a value that is neither an array nor an object. -/
inductive Scalar : Json → List Char → Prop where
  | null : Scalar .null "null".toList
  | isTrue : Scalar (.bool true) "true".toList
  | isFalse : Scalar (.bool false) "false".toList
  | number {s : List Char} : Numeral s → Scalar (.number (String.ofList s)) s
  | string {text : String} {s : List Char} : Quoted text s → Scalar (.string text) s

/-- The value of an object with these entries. -/
inductive OfEntries : List (String × Json) → Json → Prop where
  /-- A number that is written out as an object. -/
  | number {s : List Char} : Numeral s →
      OfEntries [(numberKey, .string (String.ofList s))] (.number (String.ofList s))
  | object {entries members : List (String × Json)} :
      (∀ entry, entries.head? = some entry → entry.1 ≠ numberKey) →
      Members.LastOfEach entries members → OfEntries entries (.object members)

/-- The spellings of a value that opens at most so many levels. -/
def Spells : Nat → Json → List Char → Prop
  | 0, value, s => Scalar value s
  | levels + 1, value, s =>
    Scalar value s
      ∨ (∃ items, value = .array items ∧ Bracketed (Spells levels) '[' ']' items s)
      ∨ (∃ entries, OfEntries entries value
          ∧ Bracketed (Member (Spells levels)) '\x7b' '\x7d' entries s)

/-- A text of the language: one value of at most 127 levels, and blanks around
it. -/
def IsText (value : Json) (text : String) : Prop :=
  ∃ before s after, Blank before ∧ Spells 127 value s ∧ Blank after
    ∧ text.toList = before ++ s ++ after

end EscrowFeed.Json
