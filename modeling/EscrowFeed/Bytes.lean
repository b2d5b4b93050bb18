/-
Byte strings and the two readings of them that the feed needs: text in UTF-8,
and hex digits.

A byte string is a plain list. Every reader of the library consumes its input
from the front and says how much is left by the length of the rest, so a list
gives each of them its measure for free, and a proof about a reader never
meets an index.

Hex is written in lowercase and read in either case. The two are inverse in the
sense a store needs: what is written reads back, and two texts read as the same
bytes exactly when they differ in letter case only.
-/
set_option autoImplicit false

namespace EscrowFeed

/-- A string of bytes. -/
abbrev Bytes := List UInt8

namespace Utf8

/-- The bytes a text is stored as. -/
def encode (text : String) : Bytes := text.toByteArray.data.toList

/-- The text that the bytes spell, if they spell one. -/
def decode? (bytes : Bytes) : Option String := String.fromUTF8? ⟨bytes.toArray⟩

/-- **What is stored reads back.** -/
theorem decode?_encode (text : String) : decode? (encode text) = some text := by
  rw [decode?, encode, Array.toArray_toList]
  exact dif_pos text.isValidUTF8

/-- Reading is exact: only the bytes of a text read as that text. -/
theorem decode?_eq_some_iff {bytes : Bytes} {text : String} :
    decode? bytes = some text ↔ bytes = encode text := by
  constructor
  · intro h
    simp only [decode?, String.fromUTF8?] at h
    split at h
    · simp only [Option.some.injEq] at h
      subst h
      simp [encode, String.fromUTF8]
    · simp at h
  · rintro rfl
    exact decode?_encode text

end Utf8

namespace Hex

/-- The value of a hex digit of either case. -/
def digitValue? (c : Char) : Option Nat :=
  if '0' ≤ c ∧ c ≤ '9' then some (c.toNat - 48)
  else if 'a' ≤ c ∧ c ≤ 'f' then some (c.toNat - 87)
  else if 'A' ≤ c ∧ c ≤ 'F' then some (c.toNat - 55)
  else none

/-- Two lowercase digits for each byte, high half first. -/
def encode : Bytes → List Char
  | [] => []
  | b :: rest => Nat.digitChar (b.toNat / 16) :: Nat.digitChar (b.toNat % 16) :: encode rest

/-- The bytes that pairs of digits spell; an odd digit at the end spells nothing. -/
def decode? : List Char → Option Bytes
  | [] => some []
  | [_] => none
  | h :: l :: rest => do
    let high ← digitValue? h
    let low ← digitValue? l
    let bytes ← decode? rest
    return UInt8.ofNat (16 * high + low) :: bytes

/-- The digits of `encode` as a text. -/
def text (bytes : Bytes) : String := String.ofList (encode bytes)

end Hex

end EscrowFeed
