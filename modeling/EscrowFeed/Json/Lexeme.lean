/-
The pieces that a JSON text is made of: blanks, numbers and quoted strings.

A reader here takes the text that is left and returns what it read together
with the text after it, or nothing. A number is read as far as its grammar goes
and comes back as the characters it was written with; a quoted string comes
back decoded, and is read from behind its opening quote.
-/
import EscrowFeed.Bytes

set_option autoImplicit false

namespace EscrowFeed.Json

/-! ## Blanks -/

/-- Space, tab, line feed and carriage return, and nothing else. -/
def isBlank (c : Char) : Bool := c == ' ' || c == '\t' || c == '\n' || c == '\r'

/-- The text from its first character that is not blank. -/
def skipBlank (s : List Char) : List Char := s.dropWhile isBlank

/-! ## Numbers -/

/-- An optional minus. -/
def readMinus : List Char → List Char × List Char
  | '-' :: rest => (['-'], rest)
  | s => ([], s)

/-- One decimal digit or more. -/
def readDigits? (s : List Char) : Option (List Char × List Char) :=
  let digits := s.takeWhile Char.isDigit
  if digits = [] then none else some (digits, s.dropWhile Char.isDigit)

/-- Digits of which the first is not zero, or zero alone. -/
def readWhole? (s : List Char) : Option (List Char × List Char) := do
  let (digits, rest) ← readDigits? s
  if digits.head? = some '0' ∧ digits.length ≠ 1 then none else some (digits, rest)

/-- An optional point, with digits after it. -/
def readFraction? : List Char → Option (List Char × List Char)
  | '.' :: s => do
    let (digits, rest) ← readDigits? s
    return ('.' :: digits, rest)
  | s => some ([], s)

/-- The sign that an exponent may have. -/
def readExponentSign : List Char → List Char × List Char
  | '+' :: rest => (['+'], rest)
  | '-' :: rest => (['-'], rest)
  | s => ([], s)

/-- An optional exponent mark, with a sign or none and digits after it. -/
def readExponent? : List Char → Option (List Char × List Char)
  | [] => some ([], [])
  | c :: s =>
    if c = 'e' ∨ c = 'E' then do
      let (sign, rest) := readExponentSign s
      let (digits, rest) ← readDigits? rest
      return (c :: sign ++ digits, rest)
    else
      some ([], c :: s)

/-- A number: its characters, and what follows them. -/
def readNumber? (s : List Char) : Option (List Char × List Char) := do
  let (minus, s) := readMinus s
  let (whole, s) ← readWhole? s
  let (fraction, s) ← readFraction? s
  let (exponent, s) ← readExponent? s
  return (minus ++ whole ++ fraction ++ exponent, s)

/-- The text is one number and nothing more. -/
def isNumber (text : String) : Bool :=
  match readNumber? text.toList with
  | some (_, []) => true
  | _ => false

/-- The number is written without a fraction and without an exponent. -/
def isWhole (text : String) : Bool :=
  let digits := (readMinus text.toList).2
  !digits.isEmpty && digits.all Char.isDigit

/-! ## Quoted strings -/

/-- Four hex digits. -/
def readUnit? : List Char → Option (Nat × List Char)
  | a :: b :: c :: d :: rest => do
    let a ← Hex.digitValue? a
    let b ← Hex.digitValue? b
    let c ← Hex.digitValue? c
    let d ← Hex.digitValue? d
    return (4096 * a + 256 * b + 16 * c + d, rest)
  | _ => none

/-- The first half of a pair of units. -/
def isLeading (unit : Nat) : Bool := 0xD800 ≤ unit && unit ≤ 0xDBFF

/-- The second half of a pair of units. -/
def isTrailing (unit : Nat) : Bool := 0xDC00 ≤ unit && unit ≤ 0xDFFF

/-- The character of a pair of units. -/
def pairChar (leading trailing : Nat) : Char :=
  Char.ofNat (0x10000 + 1024 * (leading - 0xD800) + (trailing - 0xDC00))

/-- The second unit of a pair, with the mark that announces it. -/
def readTrailing? : List Char → Option (Nat × List Char)
  | '\\' :: 'u' :: s => do
    let (unit, rest) ← readUnit? s
    if isTrailing unit then some (unit, rest) else none
  | _ => none

/-- A character written as one unit, or as a pair of which neither half stands
alone. -/
def readUnicode? (s : List Char) : Option (Char × List Char) := do
  let (unit, rest) ← readUnit? s
  if isTrailing unit then none
  else if isLeading unit then
    let (trailing, rest) ← readTrailing? rest
    return (pairChar unit trailing, rest)
  else
    return (Char.ofNat unit, rest)

/-- The characters that one letter behind a backslash stands for. -/
def namedEscape? : Char → Option Char
  | '"' => some '"'
  | '\\' => some '\\'
  | '/' => some '/'
  | 'b' => some '\x08'
  | 'f' => some '\x0c'
  | 'n' => some '\n'
  | 'r' => some '\r'
  | 't' => some '\t'
  | _ => none

/-- What stands behind a backslash. -/
def readEscape? : List Char → Option (Char × List Char)
  | [] => none
  | c :: rest => if c = 'u' then readUnicode? rest else (namedEscape? c).map (·, rest)

/-- One character of a string: escaped, or as it is unless it is a control
character. -/
def readChar? : List Char → Option (Char × List Char)
  | [] => none
  | c :: rest =>
    if c = '\\' then readEscape? rest
    else if c.toNat < 0x20 then none
    else some (c, rest)

/-- A unit takes four characters. -/
theorem readUnit?_length {s rest : List Char} {unit : Nat} (h : readUnit? s = some (unit, rest)) :
    rest.length < s.length := by
  match s, h with
  | a :: b :: c :: d :: t, h =>
    simp only [readUnit?, Option.bind_eq_bind, Option.bind_eq_some_iff, Option.pure_def,
      Option.some.injEq, Prod.mk.injEq] at h
    obtain ⟨_, _, _, _, _, _, _, _, _, rfl⟩ := h
    simp only [List.length_cons]
    omega

theorem readTrailing?_length {s rest : List Char} {unit : Nat}
    (h : readTrailing? s = some (unit, rest)) : rest.length < s.length := by
  unfold readTrailing? at h
  split at h
  · simp only [Option.bind_eq_bind, Option.bind_eq_some_iff, Prod.exists] at h
    obtain ⟨u, r, hu, h⟩ := h
    split at h
    · simp only [Option.some.injEq, Prod.mk.injEq] at h
      obtain ⟨rfl, rfl⟩ := h
      have := readUnit?_length hu
      simp only [List.length_cons]
      omega
    · simp at h
  · simp at h

/-- An escape by number leaves less than there was. -/
theorem readUnicode?_length {s rest : List Char} {c : Char}
    (h : readUnicode? s = some (c, rest)) : rest.length < s.length := by
  simp only [readUnicode?, Option.bind_eq_bind, Option.bind_eq_some_iff, Prod.exists] at h
  obtain ⟨u, r, hu, h⟩ := h
  have hr := readUnit?_length hu
  split at h
  · simp at h
  · split at h
    · simp only [Option.bind_eq_some_iff, Prod.exists, Option.pure_def, Option.some.injEq,
        Prod.mk.injEq] at h
      obtain ⟨_, r', ht, _, rfl⟩ := h
      have := readTrailing?_length ht
      omega
    · simp only [Option.pure_def, Option.some.injEq, Prod.mk.injEq] at h
      obtain ⟨_, rfl⟩ := h
      exact hr

/-- A character takes at least one, which is why a text ends. -/
theorem readChar?_length {s rest : List Char} {c : Char} (h : readChar? s = some (c, rest)) :
    rest.length < s.length := by
  match s, h with
  | d :: t, h =>
    simp only [readChar?] at h
    split at h
    · match t, h with
      | e :: t, h =>
        simp only [readEscape?] at h
        split at h
        · have := readUnicode?_length h
          simp only [List.length_cons]
          omega
        · simp only [Option.map_eq_some_iff, Prod.mk.injEq] at h
          obtain ⟨_, _, _, rfl⟩ := h
          simp only [List.length_cons]
          omega
    · split at h
      · simp at h
      · simp only [Option.some.injEq, Prod.mk.injEq] at h
        obtain ⟨_, rfl⟩ := h
        simp

/-- The characters of a string up to its closing quote, and what follows the
quote. -/
def readText? (s : List Char) : Option (List Char × List Char) :=
  if s.head? = some '"' then some ([], s.tail)
  else
    match _h : readChar? s with
    | none => none
    | some (c, rest) => do
      let (text, after) ← readText? rest
      return (c :: text, after)
termination_by s.length
decreasing_by exact readChar?_length _h

end EscrowFeed.Json
