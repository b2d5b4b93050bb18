/-
Envelopes one behind the other, and envelopes that are cut off.

Decoding goes through concatenation, faults included: a decoder that has come to
the end of an envelope stands where a decoder stands at the beginning. The half
about faults is why the proof follows the decoder and not the grammar, which
has nothing to say about bytes that are no envelope.

From this and from the encoder's envelopes being the shortest it follows what
the front of an encoded envelope decodes to, without a look at where the cut is.
If the front decodes, then so does what was cut off, and the two lists of
descriptions make the whole one; each part is at least as long as what the
encoder writes for its list, and the parts are together as long as the whole. So
both are what the encoder writes, and the cut is between two entries.
-/
import EscrowFeed.Proofs.Envelope.Shortest

set_option autoImplicit false

namespace EscrowFeed.Envelope

open Success Wire

/-! ## Concatenation -/

/-- Bytes behind an envelope are decoded as if they stood alone. The induction is
on the fields of the envelope in front. -/
theorem decode_append {a : Bytes} {front : List String} (h : decode a = .ok front) (b : Bytes) :
    decode (a ++ b) = (decode b).map (front ++ ·) := by
  fun_induction decode a generalizing front with
  | case1 =>
    obtain rfl := Except.ok.inj h
    rw [List.nil_append]
    cases decode b <;> rfl
  | case2 => cases h
  -- A field that was read from `a` is read from `a ++ b` as well, and leaves `b` behind the rest.
  | case3 a _ entry rest hread ih =>
    obtain ⟨more, hmore, h⟩ := bind_eq_ok.mp h
    obtain rfl := pure_eq_ok.mp h
    rw [decode_of_field (readField_reads.append hread b), ih hmore]
    cases decode b with
    | error error => rfl
    | ok descriptions =>
      simp only [Except.map, List.append_assoc]

/-- **What follows an envelope is decoded on its own**: its descriptions are put
behind those of the envelope, and its fault is the fault of the whole. -/
theorem decode_concatenation {a : Bytes} {front : List String} (h : decode a = .ok front)
    (b : Bytes) :
    (∀ rest, decode b = .ok rest → decode (a ++ b) = .ok (front ++ rest))
      ∧ ∀ error, decode b = .error error → decode (a ++ b) = .error error := by
  constructor
  · intro rest hb
    rw [decode_append h, hb]
    rfl
  · intro error hb
    rw [decode_append h, hb]
    rfl

/-- An unknown group behind an entry, and behind that an entry that is cut off
and one that is not. -/
theorem decode_concatenation_group :
    let a : Bytes := [0x0a, 0x03, 0x0a, 0x01, 0x78, 0x13, 0x08, 0x05, 0x14]
    decode a = .ok ["x"]
      ∧ decode [0x0a, 0x05, 0x01] = .error ⟨.entry, .underflow⟩
      ∧ decode (a ++ [0x0a, 0x05, 0x01]) = .error ⟨.entry, .underflow⟩
      ∧ decode [0x0a, 0x00] = .ok [""]
      ∧ decode (a ++ [0x0a, 0x00]) = .ok ["x", ""] := by
  intro a
  have ha : decode a = .ok ["x"] := by decide +kernel
  have hfault : decode [0x0a, 0x05, 0x01] = .error ⟨.entry, .underflow⟩ := by decide +kernel
  have hentry : decode [0x0a, 0x00] = .ok [""] := by decide +kernel
  exact ⟨ha, hfault, (decode_concatenation ha _).2 _ hfault, hentry,
    (decode_concatenation ha _).1 _ hentry⟩

/-! ## Truncation -/

/-- What the front of an encoded envelope decodes to, if it does: the entries in
front of the cut, which is between two of them. -/
theorem eq_take_of_decode_take {descriptions front : List String}
    (hsize : (encode descriptions).length < 2 ^ 64) {n : Nat}
    (hn : n ≤ (encode descriptions).length)
    (h : decode ((encode descriptions).take n) = .ok front) :
    ∃ k ≤ descriptions.length, front = descriptions.take k ∧ n = (encode front).length := by
  -- The back decodes too, since the whole does, into what is left of the descriptions.
  have hwhole := decode_append h ((encode descriptions).drop n)
  rw [List.take_append_drop, decode_encode hsize] at hwhole
  obtain ⟨back, hback, rfl⟩ := map_eq_ok.mp hwhole.symm
  have hfrontlength := (orLonger_of_decode h).length_le
  have hbacklength := (orLonger_of_decode hback).length_le
  rw [List.length_take_of_le hn] at hfrontlength
  rw [List.length_drop] at hbacklength
  rw [encode_append, List.length_append] at hn hbacklength
  refine ⟨front.length, ?_, List.take_left.symm, by omega⟩
  rw [List.length_append]
  exact Nat.le_add_right _ _

/-- **A cut never changes an entry.** If an encoded envelope is cut off between
two entries, then what is left decodes into the descriptions in front of the
cut; if it is cut off anywhere else, what is left does not decode. -/
theorem decode_take_encode {descriptions : List String}
    (hsize : (encode descriptions).length < 2 ^ 64) {n : Nat}
    (hn : n ≤ (encode descriptions).length) :
    (∀ k, n = (encode (descriptions.take k)).length →
        decode ((encode descriptions).take n) = .ok (descriptions.take k))
      ∧ ((∀ k ≤ descriptions.length, n ≠ (encode (descriptions.take k)).length) →
        ∃ error, decode ((encode descriptions).take n) = .error error) := by
  constructor
  · rintro k rfl
    have hsplit : encode descriptions =
        encode (descriptions.take k) ++ encode (descriptions.drop k) := by
      rw [← encode_append, List.take_append_drop]
    rw [hsplit, List.take_left]
    rw [hsplit, List.length_append] at hsize
    exact decode_encode (by omega)
  · -- A cut that decodes would be the end of an entry.
    intro hcut
    cases hfront : decode ((encode descriptions).take n) with
    | error error => exact ⟨error, rfl⟩
    | ok front =>
      obtain ⟨k, hk, rfl, hlength⟩ := eq_take_of_decode_take hsize hn hfront
      exact absurd hlength (hcut k hk)

/-- A text of two bytes and an empty one, cut off inside the text and between the
two entries. -/
theorem decode_take_encode_accented :
    let descriptions := ["é", ""]
    (encode descriptions).length = 8
      ∧ (∃ error, decode ((encode descriptions).take 5) = .error error)
      ∧ decode ((encode descriptions).take 6) = .ok ["é"] := by
  intro descriptions
  have hlength : (encode descriptions).length = 8 := by decide +kernel
  have hsize : (encode descriptions).length < 2 ^ 64 := by
    rw [hlength]
    decide
  have hinside : ∀ k ≤ descriptions.length, 5 ≠ (encode (descriptions.take k)).length := by
    decide +kernel
  have hbetween : 6 = (encode (descriptions.take 1)).length := by decide +kernel
  exact ⟨hlength, (decode_take_encode hsize (by rw [hlength]; decide)).2 hinside,
    (decode_take_encode hsize (by rw [hlength]; decide)).1 1 hbetween⟩

end EscrowFeed.Envelope
