/-
Identities, told apart.

The hash in front of the dash is written in hex and the place behind it in
decimal, and neither of the two forms has a dash in it. So the dash of an
identity is the one between them, whatever the length of the hash, and the two
sides can be compared on their own. A key is the identity's bytes in hex again;
that layer merges no two texts, because what it writes reads back.

So a key can be taken apart, and `origin?` does: it undoes the two layers of hex
and cuts at the dash. It is written without a look at how keys are made, and a
key that it reads as one hash and one place is the key of no other.
-/
import EscrowFeed.Event.Identity
import EscrowFeed.Proofs.Hex
import EscrowFeed.Proofs.WideInt
import Mathlib.Data.List.Basic

set_option autoImplicit false

namespace EscrowFeed

/-! ## Bytes of a text, and their digits -/

/-- Texts are told from their bytes. -/
theorem Utf8.encode_inj {s t : String} : Utf8.encode s = Utf8.encode t ↔ s = t := by
  refine ⟨fun h => ?_, congrArg Utf8.encode⟩
  apply Option.some.inj
  rw [← Utf8.decode?_encode s, h, Utf8.decode?_encode]

namespace Hex

/-- Bytes are told from their hex digits. -/
theorem encode_inj {a b : Bytes} : encode a = encode b ↔ a = b := by
  refine ⟨fun h => ?_, congrArg encode⟩
  apply Option.some.inj
  rw [← decode?_encode a, h, decode?_encode]

/-- Nothing but hex digits is written. -/
theorem digitValue?_isSome_of_mem_encode {bytes : Bytes} {c : Char} (h : c ∈ encode bytes) :
    (digitValue? c).isSome = true := by
  induction bytes with
  | nil => cases h
  | cons b rest ih =>
    have hb := b.toNat_lt
    have hhigh := digitValue?_digitChar (show b.toNat / 16 < 16 by omega)
    have hlow := digitValue?_digitChar (show b.toNat % 16 < 16 by omega)
    rw [encode] at h
    rcases List.mem_cons.mp h with rfl | h
    · rw [hhigh]
      rfl
    · rcases List.mem_cons.mp h with rfl | h
      · rw [hlow]
        rfl
      · exact ih h

theorem length_encode (bytes : Bytes) : (encode bytes).length = 2 * bytes.length := by
  induction bytes with
  | nil => rfl
  | cons b rest ih =>
    rw [encode, List.length_cons, List.length_cons, List.length_cons, ih]
    omega

/-- The digits that are written are the lowercase ones. -/
theorem encode_subset (bytes : Bytes) : encode bytes ⊆ "0123456789abcdef".toList := by
  have hdigit : ∀ n < 16, Nat.digitChar n ∈ "0123456789abcdef".toList := by decide
  induction bytes with
  | nil => exact List.nil_subset _
  | cons b rest ih =>
    have hb := b.toNat_lt
    rw [encode]
    exact List.cons_subset.mpr ⟨hdigit _ (by omega),
      List.cons_subset.mpr ⟨hdigit _ (by omega), ih⟩⟩

theorem dash_not_mem_encode (bytes : Bytes) : '-' ∉ encode bytes := by
  intro h
  have hdigit := digitValue?_isSome_of_mem_encode h
  exact absurd hdigit (by decide)

end Hex

/-! ## Identities and keys -/

namespace Identity

theorem dash_not_mem_toDigits (index : Nat) : '-' ∉ Nat.toDigits 10 index := by
  intro h
  have hdigit := Nat.isDigit_of_mem_toDigits (by decide) (by decide) h
  exact absurd hdigit (by decide)

theorem toDigits_inj {i j : Nat} : Nat.toDigits 10 i = Nat.toDigits 10 j ↔ i = j := by
  refine ⟨fun h => ?_, congrArg (Nat.toDigits 10)⟩
  calc
    i = Nat.ofDigitChars 10 (Nat.toDigits 10 i) 0 := Nat.ofDigitChars_ten_toDigits.symm
    _ = Nat.ofDigitChars 10 (Nat.toDigits 10 j) 0 := by rw [h]
    _ = j := Nat.ofDigitChars_ten_toDigits

theorem toList_text (transactionHash : Bytes) (index : Nat) :
    (text transactionHash index).toList =
      Hex.encode transactionHash ++ '-' :: Nat.toDigits 10 index := by
  rw [text, String.toList_append, String.toList_append, Hex.toList_text, Nat.toList_repr,
    List.append_assoc]
  rfl

/-- **An identity is its hash and its place.** -/
theorem text_inj {a b : Bytes} {i j : Nat} : text a i = text b j ↔ a = b ∧ i = j := by
  have hchars : text a i = text b j ↔
      Hex.encode a ++ '-' :: Nat.toDigits 10 i = Hex.encode b ++ '-' :: Nat.toDigits 10 j := by
    rw [← String.toList_inj, toList_text, toList_text]
  -- No dash stands to the left or to the right of the one in the middle, so the two must meet.
  rw [hchars, List.append_cons_inj_of_notMem (Hex.dash_not_mem_encode a) (dash_not_mem_toDigits i),
    Hex.encode_inj, toDigits_inj]
  exact and_congr_right fun _ => and_iff_right rfl

/-- Identities with one key are one identity. -/
theorem key_inj {s t : String} : key s = key t ↔ s = t := by
  rw [key, key, ← String.toList_inj, Hex.toList_text, Hex.toList_text, Hex.encode_inj,
    Utf8.encode_inj]

/-! ## Back to the hash and the place -/

/-- The hash and the place that an identity names. -/
def parse? (identity : String) : Option (Bytes × Nat) :=
  match identity.toList.splitOn '-' with
  | [hash, index] => do
    let hash ← Hex.decode? hash
    let index ← WideInt.digits? index
    return (hash, index)
  | _ => none

/-- The hash and the place that a key stands for. -/
def origin? (key : String) : Option (Bytes × Nat) := do
  let bytes ← Hex.decode? key.toList
  let identity ← Utf8.decode? bytes
  parse? identity

/-- **An identity is read back**: the dash is the only one, so it splits where
it was joined. -/
theorem parse?_text (transactionHash : Bytes) (index : Nat) :
    parse? (text transactionHash index) = some (transactionHash, index) := by
  have hparts : (text transactionHash index).toList.splitOn '-' =
      [Hex.encode transactionHash, Nat.toDigits 10 index] := by
    rw [toList_text,
      List.splitOn_append_cons_self_of_not_mem (Hex.dash_not_mem_encode transactionHash),
      List.splitOn_eq_singleton (dash_not_mem_toDigits index)]
  simp only [parse?, hparts, Hex.decode?_encode, WideInt.digits?_toDigits, Option.bind_eq_bind,
    Option.bind_some, Option.pure_def]

/-- The key of a row is the identity in bytes, so it is read back as the
identity is. -/
theorem origin?_key (identity : String) : origin? (key identity) = parse? identity := by
  rw [origin?, key, Hex.toList_text, Hex.decode?_encode, Option.bind_eq_bind, Option.bind_some,
    Utf8.decode?_encode, Option.bind_eq_bind, Option.bind_some]

/-- **Keys do not collide, and each can be read back.** Two keys are one key only
if they were made of the same hash and the same place, in whatever envelopes the
entries are and however long the hashes are. From a key alone its hash and its
place can be told, and its text is an even number of lowercase hex digits. -/
theorem key_uniquely_decodable (a b : Bytes) (i j : Nat) :
    (key (text a i) = key (text b j) ↔ a = b ∧ i = j)
      ∧ origin? (key (text a i)) = some (a, i)
      ∧ 2 ∣ (key (text a i)).length
      ∧ (key (text a i)).toList ⊆ "0123456789abcdef".toList := by
  have hdigits : (key (text a i)).toList = Hex.encode (Utf8.encode (text a i)) := by
    rw [key, Hex.toList_text]
  refine ⟨key_inj.trans text_inj, (origin?_key _).trans (parse?_text a i), ?_, ?_⟩
  · rw [← String.length_toList, hdigits, Hex.length_encode]
    exact Nat.dvd_mul_right 2 _
  · rw [hdigits]
    exact Hex.encode_subset _

end Identity

end EscrowFeed
