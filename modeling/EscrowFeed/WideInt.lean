/-
Signed integers with a 256-bit magnitude, the numbers that a contract's events
carry: amounts, identifiers, heights and times.

A number is a sign beside a magnitude, and two numbers are equal when both are.
Such pairs have two zeros, and of these one has to go, or equal amounts would
compare and be stored as different ones. So the type has the normal form as a
field, every function that builds a number goes through `ofSignMagnitude`, which
drops the sign of zero, and the integer that a number stands for is computed
from its two parts.

The written form is plain decimal with a leading minus for a negative number.
Reading is generous in one way only: any number of leading zeros is fine.
-/
set_option autoImplicit false

namespace EscrowFeed

/-- Magnitudes stay below this bound. -/
def WideInt.bound : Nat := Nat.pow 2 256

/-- A sign and a magnitude of 256 bits, of which zero has no sign. -/
structure WideInt where
  negative : Bool
  magnitude : Nat
  magnitude_lt : magnitude < WideInt.bound
  /-- Zero is not negative. -/
  normal : negative = true → magnitude ≠ 0
deriving DecidableEq

namespace WideInt

/-- The integer that a number stands for. -/
def value (n : WideInt) : Int := if n.negative then -(n.magnitude : Int) else n.magnitude

/-- The number of a sign and a magnitude. The sign of zero is lost. -/
def ofSignMagnitude (negative : Bool) (magnitude : Nat) (h : magnitude < bound) : WideInt where
  negative := negative && magnitude != 0
  magnitude := magnitude
  magnitude_lt := h
  normal hsign := bne_iff_ne.mp (Bool.and_eq_true_iff.mp hsign).2

/-- The number of a sign and a magnitude, if the magnitude fits. -/
def ofSignMagnitude? (negative : Bool) (magnitude : Nat) : Option WideInt :=
  if h : magnitude < bound then some (ofSignMagnitude negative magnitude h) else none

/-- A magnitude as a number, with a plus sign. -/
def ofMagnitude (magnitude : Nat) (h : magnitude < bound) : WideInt :=
  ofSignMagnitude false magnitude h

/-- A natural number of at most 64 bits, as a block's own counters are. -/
def ofUInt64 (n : UInt64) : WideInt :=
  ofMagnitude n.toNat (Nat.lt_trans n.toNat_lt (by decide))

/-! ## Decimal text -/

/-- The number that a nonempty run of decimal digits spells. -/
def digits? (ds : List Char) : Option Nat :=
  if ds ≠ [] ∧ ds.all Char.isDigit then some (Nat.ofDigitChars 10 ds 0) else none

/-- Reads an optional minus and decimal digits, nothing before, between or after
them, as long as the magnitude fits. -/
def parse? (text : String) : Option WideInt :=
  match text.toList with
  | '-' :: ds => (digits? ds).bind (ofSignMagnitude? true)
  | ds => (digits? ds).bind (ofSignMagnitude? false)

/-- The decimal form: no leading zero, and no minus before zero. -/
def text (n : WideInt) : String :=
  if n.negative then "-" ++ n.magnitude.repr else n.magnitude.repr

end WideInt

end EscrowFeed
