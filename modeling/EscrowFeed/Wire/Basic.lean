/-
The wire format under an envelope: numbers in groups of seven bits, field keys,
and blocks of a stated length.

A reader takes the bytes that are left and returns what it read together with
the bytes after it, or the cause why it could not. Each takes at least one byte,
which is what the loops over fields end by, and the lemmas that say so stand
beside the readers.

A number takes at most ten bytes, and the tenth may be 0 or 1: more would not
fit in 64 bits. Within that a number may be written with more bytes than it
needs.
-/
import EscrowFeed.Bytes

set_option autoImplicit false

namespace EscrowFeed.Wire

/-- How the content of a field is laid out. -/
inductive WireType where
  | varint
  | sixtyFourBit
  | lengthDelimited
  | startGroup
  | endGroup
  | thirtyTwoBit
deriving DecidableEq

namespace WireType

/-- The layout of a code in a key. -/
def ofCode? : Nat → Option WireType
  | 0 => some .varint
  | 1 => some .sixtyFourBit
  | 2 => some .lengthDelimited
  | 3 => some .startGroup
  | 4 => some .endGroup
  | 5 => some .thirtyTwoBit
  | _ => none

/-- The name in an error's text. -/
def name : WireType → String
  | .varint => "Varint"
  | .sixtyFourBit => "SixtyFourBit"
  | .lengthDelimited => "LengthDelimited"
  | .startGroup => "StartGroup"
  | .endGroup => "EndGroup"
  | .thirtyTwoBit => "ThirtyTwoBit"

end WireType

/-- The key in front of a field's content. -/
structure Key where
  tag : Nat
  type : WireType
deriving DecidableEq

/-- Why bytes cannot be read. -/
inductive Cause where
  | invalidVarint
  /-- The number of a key does not fit in 32 bits. -/
  | keyTooLarge (number : Nat)
  | unknownWireType (code : Nat)
  | zeroTag
  /-- A field of known tag is laid out differently from what its tag says. -/
  | unexpectedWireType (found : WireType)
  /-- A length reaches past the end of the bytes. -/
  | underflow
  /-- The fields of a message end behind the end of the message. -/
  | lengthExceeded
  | notUtf8
  /-- A group's end that belongs to no group, or to another one. -/
  | strayEndGroup
  /-- Groups nest too deeply. -/
  | tooDeep
deriving DecidableEq

/-- The text of a cause. -/
def Cause.message : Cause → String
  | .invalidVarint => "invalid varint"
  | .keyTooLarge number => "invalid key value: " ++ number.repr
  | .unknownWireType code => "invalid wire type value: " ++ code.repr
  | .zeroTag => "invalid tag value: 0"
  | .unexpectedWireType found =>
    "invalid wire type: " ++ found.name ++ " (expected " ++ WireType.lengthDelimited.name ++ ")"
  | .underflow => "buffer underflow"
  | .lengthExceeded => "delimited length exceeded"
  | .notUtf8 => "invalid string value: data is not UTF-8 encoded"
  | .strayEndGroup => "unexpected end group tag"
  | .tooDeep => "recursion limit reached"

/-! ## Numbers -/

/-- A number of at most so many bytes, low groups first. Of the bytes allowed
the last may only be 0 or 1. -/
def readVarintWithin? : Nat → Bytes → Option (Nat × Bytes)
  | 0, _ => none
  | _, [] => none
  | more + 1, b :: rest =>
    if b.toNat < 128 then
      if more = 0 ∧ 2 ≤ b.toNat then none else some (b.toNat, rest)
    else
      (readVarintWithin? more rest).map fun (high, after) => (b.toNat - 128 + 128 * high, after)

/-- A number. -/
def readVarint (s : Bytes) : Except Cause (Nat × Bytes) :=
  match readVarintWithin? 10 s with
  | none => .error .invalidVarint
  | some result => .ok result

/-- The shortest bytes of a number. -/
def varint (n : Nat) : Bytes :=
  if n < 128 then [UInt8.ofNat n] else UInt8.ofNat (n % 128 + 128) :: varint (n / 128)

/-- A number takes a byte at least. -/
theorem readVarintWithin?_length {most n : Nat} {s rest : Bytes}
    (h : readVarintWithin? most s = some (n, rest)) : rest.length < s.length := by
  induction most generalizing n s with
  | zero => simp [readVarintWithin?] at h
  | succ more ih =>
    match s with
    | [] => simp [readVarintWithin?] at h
    | b :: t =>
      simp only [readVarintWithin?] at h
      split at h
      · split at h
        · simp at h
        · simp only [Option.some.injEq, Prod.mk.injEq] at h
          obtain ⟨_, rfl⟩ := h
          simp
      · simp only [Option.map_eq_some_iff, Prod.exists, Prod.mk.injEq] at h
        obtain ⟨_, _, hread, _, rfl⟩ := h
        have := ih hread
        simp only [List.length_cons]
        omega

theorem readVarint_length {s rest : Bytes} {n : Nat} (h : readVarint s = .ok (n, rest)) :
    rest.length < s.length := by
  unfold readVarint at h
  split at h
  · simp at h
  · next hread =>
    simp only [Except.ok.injEq] at h
    subst h
    exact readVarintWithin?_length hread

/-! ## Keys -/

/-- A field's key: the layout in the low three bits of a number of 32 bits, and
a tag above them that is not zero. -/
def readKey (s : Bytes) : Except Cause (Key × Bytes) :=
  match readVarint s with
  | .error cause => .error cause
  | .ok (number, rest) =>
    if UInt32.size ≤ number then .error (.keyTooLarge number)
    else
      match WireType.ofCode? (number % 8) with
      | none => .error (.unknownWireType (number % 8))
      | some type => if number / 8 = 0 then .error .zeroTag else .ok (⟨number / 8, type⟩, rest)

theorem readKey_length {s rest : Bytes} {key : Key} (h : readKey s = .ok (key, rest)) :
    rest.length < s.length := by
  unfold readKey at h
  split at h
  · simp at h
  · next hread =>
    split at h
    · simp at h
    · split at h
      · simp at h
      · split at h
        · simp at h
        · simp only [Except.ok.injEq, Prod.mk.injEq] at h
          obtain ⟨_, rfl⟩ := h
          exact readVarint_length hread

/-! ## Blocks -/

/-- So many bytes. -/
def readBytes (count : Nat) (s : Bytes) : Except Cause (Bytes × Bytes) :=
  if s.length < count then .error .underflow else .ok (s.take count, s.drop count)

/-- A length and so many bytes. -/
def readBlock (s : Bytes) : Except Cause (Bytes × Bytes) :=
  match readVarint s with
  | .error cause => .error cause
  | .ok (length, rest) => readBytes length rest

theorem readBytes_length {s block rest : Bytes} {count : Nat}
    (h : readBytes count s = .ok (block, rest)) : rest.length ≤ s.length := by
  unfold readBytes at h
  split at h
  · simp at h
  · simp only [Except.ok.injEq, Prod.mk.injEq] at h
    obtain ⟨_, rfl⟩ := h
    simp

/-- A block takes its length and so many bytes. -/
theorem readBlock_length {s block rest : Bytes} (h : readBlock s = .ok (block, rest)) :
    rest.length ≤ s.length := by
  unfold readBlock at h
  split at h
  · simp at h
  · next hread => exact Nat.le_trans (readBytes_length h) (Nat.le_of_lt (readVarint_length hread))

end EscrowFeed.Wire
