/-
The grammar of the wire format: which bytes are written forms of which numbers,
keys, blocks and messages.

Nothing here reads. A thing has many written forms, because a number may be
written with more bytes than it needs and a message may hold fields that nobody
asked for, so each relation says of a thing and of some bytes that the bytes are
one of its forms.

Two rules are about more than the bytes at hand. A field that stands in groups
is allowed only below a limit on their number, so the content of an unknown
field is described together with the number of groups around it. And a message
is described by the fields of it that are known: unknown ones may stand anywhere
among them and leave no trace in what the message says.

The definitions mention no reader, and their limits and codes are literal
numbers.
-/
import EscrowFeed.Wire.Basic
import Mathlib.Algebra.Ring.Nat

set_option autoImplicit false

namespace EscrowFeed.Wire

/-! ## Numbers -/

/-- The number in groups of seven bits, low group first. The top bit of a byte
is no part of its group. -/
def groupsValue : Bytes → Nat
  | [] => 0
  | b :: rest => b.toNat % 128 + 128 * groupsValue rest

/-- The forms of a number with at most so many bytes: the top bit is set in all
bytes but the last, and of the bytes allowed the last is 0 or 1. -/
def IsVarintWithin (most n : Nat) (s : Bytes) : Prop :=
  ∃ more last, s = more ++ [last] ∧ (∀ b ∈ more, 128 ≤ b.toNat) ∧ last.toNat < 128
    ∧ s.length ≤ most ∧ (s.length = most → last.toNat ≤ 1) ∧ n = groupsValue s

/-- The forms of a number. -/
def IsVarint (n : Nat) (s : Bytes) : Prop := IsVarintWithin 10 n s

/-! ## Keys and blocks -/

/-- The code of a layout in a key. -/
def WireType.code : WireType → Nat
  | .varint => 0
  | .sixtyFourBit => 1
  | .lengthDelimited => 2
  | .startGroup => 3
  | .endGroup => 4
  | .thirtyTwoBit => 5

/-- The forms of a key: a number of 32 bits, the tag over three bits of code. -/
def IsKey (key : Key) (s : Bytes) : Prop :=
  1 ≤ key.tag ∧ 8 * key.tag + key.type.code < 2 ^ 32
    ∧ IsVarint (8 * key.tag + key.type.code) s

/-- The forms of a block: its length, and exactly so many bytes. -/
def IsBlock (block s : Bytes) : Prop :=
  ∃ length, IsVarint block.length length ∧ s = length ++ block

/-! ## Unknown fields -/

/-- What may follow the key of an unknown field that stands in so many groups.
What follows the key of a group is its ending, or a field of it and then what
may follow the key again; the tags inside are any. -/
inductive IsContent (limit : Nat) : Nat → Key → Bytes → Prop where
  | varint {groups tag n : Nat} {s : Bytes} :
      groups < limit → IsVarint n s → IsContent limit groups ⟨tag, .varint⟩ s
  | sixtyFourBit {groups tag : Nat} {s : Bytes} :
      groups < limit → s.length = 8 → IsContent limit groups ⟨tag, .sixtyFourBit⟩ s
  | thirtyTwoBit {groups tag : Nat} {s : Bytes} :
      groups < limit → s.length = 4 → IsContent limit groups ⟨tag, .thirtyTwoBit⟩ s
  | block {groups tag : Nat} {block s : Bytes} :
      groups < limit → IsBlock block s → IsContent limit groups ⟨tag, .lengthDelimited⟩ s
  | ending {groups tag : Nat} {s : Bytes} :
      groups < limit → IsKey ⟨tag, .endGroup⟩ s → IsContent limit groups ⟨tag, .startGroup⟩ s
  | member {groups tag : Nat} {key : Key} {head content rest : Bytes} :
      groups < limit → IsKey key head → IsContent limit (groups + 1) key content →
      IsContent limit groups ⟨tag, .startGroup⟩ rest →
      IsContent limit groups ⟨tag, .startGroup⟩ (head ++ content ++ rest)

/-- An unknown field that stands in no group. The tag 1 is the known one. -/
def IsUnknown (limit : Nat) (s : Bytes) : Prop :=
  ∃ key head content, IsKey key head ∧ 2 ≤ key.tag ∧ IsContent limit 0 key content
    ∧ s = head ++ content

/-! ## Messages -/

/-- A known field: a block under the tag 1. -/
def IsTagged (block s : Bytes) : Prop :=
  ∃ head content, IsKey ⟨1, .lengthDelimited⟩ head ∧ IsBlock block content ∧ s = head ++ content

/-- The forms of a message: its known fields in order, and unknown ones between
them. -/
inductive IsMessage {α : Type} (Known : α → Bytes → Prop) (limit : Nat) :
    List α → Bytes → Prop where
  | nil : IsMessage Known limit [] []
  | known {a : α} {fields : List α} {s t : Bytes} :
      Known a s → IsMessage Known limit fields t → IsMessage Known limit (a :: fields) (s ++ t)
  | unknown {fields : List α} {s t : Bytes} :
      IsUnknown limit s → IsMessage Known limit fields t → IsMessage Known limit fields (s ++ t)

end EscrowFeed.Wire
