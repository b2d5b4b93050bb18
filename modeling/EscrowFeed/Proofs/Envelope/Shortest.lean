/-
The encoder writes the shortest envelope of its descriptions, and no other
envelope of them is as short.

That a form is the shortest of its kind and the only one of its length is one
relation between it and every other form: the other is the same or longer. The
relation passes through concatenation on both sides and through chains, so the
proof takes an envelope apart as the grammar does and compares each piece with
what the encoder writes for it. The pieces that the encoder leaves out, which
are unknown fields and descriptions before the last one, are compared with no
bytes at all.

A length is the one piece that depends on another, the block behind it; it does
not get longer when the block gets shorter, and that is all there is to show.
-/
import EscrowFeed.Envelope.Encoder
import EscrowFeed.Proofs.Envelope.Language

set_option autoImplicit false

namespace EscrowFeed.Wire

/-! ## The order -/

/-- The bytes are the given ones, or there are more of them. -/
def OrLonger (least s : Bytes) : Prop := s = least ∨ least.length < s.length

theorem orLonger_refl (s : Bytes) : OrLonger s s := .inl rfl

theorem orLonger_nil (s : Bytes) : OrLonger [] s := by
  cases s with
  | nil => exact .inl rfl
  | cons b s => exact .inr (Nat.succ_pos _)

/-- The shorter of the two is never the other one. -/
theorem OrLonger.length_le {least s : Bytes} (h : OrLonger least s) : least.length ≤ s.length := by
  rcases h with rfl | h
  · exact Nat.le_refl _
  · exact Nat.le_of_lt h

/-- Of its own length the shortest form is the only one. -/
theorem OrLonger.length_eq_iff {least s : Bytes} (h : OrLonger least s) :
    least.length = s.length ↔ s = least := by
  constructor
  · intro heq
    rcases h with h | h
    · exact h
    · exact absurd heq (Nat.ne_of_lt h)
  · rintro rfl
    rfl

/-- Comparisons chain, so a form can be compared piece by piece in steps. -/
theorem OrLonger.trans {a b c : Bytes} (hab : OrLonger a b) (hbc : OrLonger b c) :
    OrLonger a c := by
  rcases hab with rfl | hab
  · exact hbc
  · exact .inr (Nat.lt_of_lt_of_le hab hbc.length_le)

/-- **Comparisons pass through concatenation**: one longer piece makes the whole
longer, and pieces that are the same make it the same. -/
theorem OrLonger.append {a b s t : Bytes} (hs : OrLonger a s) (ht : OrLonger b t) :
    OrLonger (a ++ b) (s ++ t) := by
  have hsle := hs.length_le
  have htle := ht.length_le
  unfold OrLonger
  rw [List.length_append, List.length_append]
  rcases hs with rfl | hs
  · rcases ht with rfl | ht
    · exact .inl rfl
    · exact .inr (by omega)
  · exact .inr (by omega)

/-! ## Numbers -/

/-- Below 128 a number is one byte. -/
theorem varint_of_lt {n : Nat} (h : n < 128) : varint n = [UInt8.ofNat n] := by
  rw [varint, if_pos h]

/-- From 128 on the lowest seven bits come first, marked as not the last. -/
theorem varint_of_le {n : Nat} (h : 128 ≤ n) :
    varint n = UInt8.ofNat (n % 128 + 128) :: varint (n / 128) := by
  rw [varint, if_neg (Nat.not_lt.mpr h)]

theorem varint_ne_nil (n : Nat) : varint n ≠ [] := by
  rw [varint]
  split <;> exact List.cons_ne_nil _ _

/-- A number of seven bits is written in one byte. -/
theorem isVarintWithin_varint_of_lt {most n : Nat} (h : n < 128) (htop : most = 0 → n ≤ 1) :
    IsVarintWithin (most + 1) n (varint n) := by
  have hbyte : (UInt8.ofNat n).toNat = n := UInt8.toNat_ofNat_of_lt' (show n < 256 by omega)
  rw [varint_of_lt h, isVarintWithin_singleton, hbyte]
  exact ⟨h, htop, rfl⟩

/-- What is written for a number is a form of it. Seven bits go into every byte,
so the bound doubles what all bytes but the last can hold. -/
theorem isVarintWithin_varint {k n : Nat} (h : n < 2 * 128 ^ k) :
    IsVarintWithin (k + 1) n (varint n) := by
  induction k generalizing n with
  | zero => exact isVarintWithin_varint_of_lt (by omega) (fun _ => by omega)
  | succ k ih =>
    by_cases hn : n < 128
    · exact isVarintWithin_varint_of_lt hn (fun hk => absurd hk (Nat.succ_ne_zero k))
    · have hbyte : (UInt8.ofNat (n % 128 + 128)).toNat = n % 128 + 128 :=
        UInt8.toNat_ofNat_of_lt' (show n % 128 + 128 < 256 by omega)
      have hhigh : n / 128 < 2 * 128 ^ k := by
        rw [Nat.pow_succ] at h
        omega
      rw [varint_of_le (Nat.not_lt.mp hn), isVarintWithin_cons (varint_ne_nil _), hbyte]
      exact ⟨by omega, n / 128, ih hhigh, by omega⟩

/-- A number of 64 bits has at most ten groups, the last of one bit. -/
theorem isVarint_varint {n : Nat} (h : n < 2 ^ 64) : IsVarint n (varint n) :=
  isVarintWithin_varint (show n < 2 * 128 ^ 9 from h)

/-- **What is written for a number is the shortest form of it.** -/
theorem IsVarintWithin.orLonger {most n : Nat} {s : Bytes} (h : IsVarintWithin most n s) :
    OrLonger (varint n) s := by
  induction h using IsVarintWithin.induction with
  | last hb _ =>
    left
    rw [varint_of_lt hb, UInt8.ofNat_toNat]
  | @more most high b t hb ht ih =>
    have hlt := b.toNat_lt
    by_cases hn : b.toNat - 128 + 128 * high < 128
    · -- The groups above are all zero, and the form has a byte for them nevertheless.
      right
      rw [varint_of_lt hn]
      exact Nat.succ_lt_succ (List.length_pos_iff.mpr ht.ne_nil)
    · have hlow : (b.toNat - 128 + 128 * high) % 128 + 128 = b.toNat := by omega
      have hhigh : (b.toNat - 128 + 128 * high) / 128 = high := by omega
      rw [varint_of_le (Nat.not_lt.mp hn), hlow, hhigh, UInt8.ofNat_toNat]
      exact (orLonger_refl [b]).append ih

/-- A larger number is not shorter. -/
theorem length_varint_le {m n : Nat} (h : m ≤ n) : (varint m).length ≤ (varint n).length := by
  fun_induction varint m generalizing n with
  | case1 => exact List.length_pos_iff.mpr (varint_ne_nil n)
  | case2 m hm ih =>
    rw [varint_of_le (show 128 ≤ n by omega)]
    exact Nat.succ_le_succ (ih (Nat.div_le_div_right h))

end EscrowFeed.Wire

namespace EscrowFeed.Envelope

open Wire

/-! ## Fields -/

/-- What is written for a block is a block behind its key and its length, as
long as the length is a number of 64 bits. -/
theorem isTagged_encodeBlock {block : Bytes} (h : block.length < 2 ^ 64) :
    IsTagged block (encodeBlock block) := by
  have hkey : IsKey ⟨1, .lengthDelimited⟩ [0x0a] := by
    refine ⟨Nat.le_refl 1, by decide, ?_⟩
    exact isVarintWithin_singleton.mpr ⟨by decide, by decide, rfl⟩
  exact ⟨[0x0a], varint block.length ++ block, hkey,
    ⟨varint block.length, isVarint_varint h, rfl⟩, rfl⟩

/-- **A block is written in the shortest way**: key and length are the shortest
forms of theirs. -/
theorem orLonger_of_isTagged {block s : Bytes} (h : IsTagged block s) :
    OrLonger (encodeBlock block) s := by
  obtain ⟨head, _, ⟨-, -, hhead⟩, ⟨length, hlength, rfl⟩, rfl⟩ := h
  have hkey : OrLonger [0x0a] head := by
    have hten : varint (8 * 1 + WireType.code .lengthDelimited) = [0x0a] :=
      varint_of_lt (by decide)
    exact hten ▸ IsVarintWithin.orLonger hhead
  exact hkey.append ((IsVarintWithin.orLonger hlength).append (orLonger_refl block))

/-- A longer block makes a longer field. -/
theorem orLonger_encodeBlock {a b : Bytes} (h : OrLonger a b) :
    OrLonger (encodeBlock a) (encodeBlock b) := by
  rcases h with rfl | h
  · exact orLonger_refl _
  · right
    have hlength := length_varint_le (Nat.le_of_lt h)
    simp only [encodeBlock, List.length_append, List.length_cons]
    omega

theorem length_lt_length_encodeBlock (block : Bytes) :
    block.length < (encodeBlock block).length := by
  simp only [encodeBlock, List.length_append, List.length_cons]
  omega

/-! ## Entries -/

/-- What the encoder puts into an entry. -/
def encodeBody (description : String) : Bytes :=
  if description = "" then [] else encodeBlock (Utf8.encode description)

theorem encodeEntry_eq (description : String) :
    encodeEntry description = encodeBlock (encodeBody description) := rfl

/-- A description is in the body that is written for it. -/
theorem length_encode_le_length_encodeBody (description : String) :
    (Utf8.encode description).length ≤ (encodeBody description).length := by
  rw [encodeBody]
  split
  · next hempty =>
    subst hempty
    exact Nat.le_refl 0
  · exact Nat.le_of_lt (length_lt_length_encodeBlock _)

/-- What is written for a description is a body of it. -/
theorem isBody_encodeBody {description : String} (h : (encodeBody description).length < 2 ^ 64) :
    IsBody description (encodeBody description) := by
  have hlength := Nat.lt_of_le_of_lt (length_encode_le_length_encodeBody description) h
  rw [encodeBody]
  split
  · next hempty => exact ⟨[], .nil, hempty⟩
  · have hmessage : IsMessage IsDescription 99 [description]
        (encodeBlock (Utf8.encode description) ++ []) :=
      .known (isTagged_encodeBlock hlength) .nil
    rw [List.append_nil] at hmessage
    exact ⟨[description], hmessage, rfl⟩

/-- The last description in an entry takes as much as the field that the encoder
writes for it, and the fields around it take nothing that counts. -/
theorem orLonger_of_getLast? {limit : Nat} {texts : List String} {body : Bytes}
    (h : IsMessage IsDescription limit texts body) {text : String}
    (hlast : texts.getLast? = some text) :
    OrLonger (encodeBlock (Utf8.encode text)) body := by
  induction h with
  | nil => cases hlast
  -- Either this description is the last, or the last one is among the rest.
  | @known first texts s t hs _ ih =>
    rw [List.getLast?_cons] at hlast
    cases hrest : texts.getLast? with
    | none =>
      rw [hrest] at hlast
      obtain rfl := Option.some.inj hlast
      rw [← List.append_nil (encodeBlock _)]
      exact (orLonger_of_isTagged hs).append (orLonger_nil t)
    | some last =>
      rw [hrest] at hlast ih
      obtain rfl := Option.some.inj hlast
      exact (orLonger_nil s).append (ih rfl)
  | @unknown texts s t _ _ ih => exact (orLonger_nil s).append (ih hlast)

/-- **A body is written in the shortest way**: with its last description alone,
and with nothing for an empty one. -/
theorem IsBody.orLonger {description : String} {body : Bytes} (h : IsBody description body) :
    OrLonger (encodeBody description) body := by
  obtain ⟨texts, hmessage, rfl⟩ := h
  rw [encodeBody]
  split
  · exact orLonger_nil body
  · next hne =>
    cases hlast : texts.getLast? with
    | none => exact absurd (by rw [hlast]; rfl) hne
    | some text => exact orLonger_of_getLast? hmessage hlast

/-- What is written for an entry is an entry. -/
theorem isEntry_encodeEntry {description : String}
    (h : (encodeEntry description).length < 2 ^ 64) :
    IsEntry description (encodeEntry description) := by
  have hbody := Nat.lt_trans (length_lt_length_encodeBlock _) h
  exact ⟨encodeBody description, isBody_encodeBody hbody, isTagged_encodeBlock hbody⟩

/-- An entry is as short as its body lets it be. -/
theorem IsEntry.orLonger {description : String} {s : Bytes} (h : IsEntry description s) :
    OrLonger (encodeEntry description) s := by
  obtain ⟨body, hbody, hs⟩ := h
  rw [encodeEntry_eq]
  exact (orLonger_encodeBlock hbody.orLonger).trans (orLonger_of_isTagged hs)

/-! ## Envelopes -/

theorem encode_cons (description : String) (rest : List String) :
    encode (description :: rest) = encodeEntry description ++ encode rest := List.flatMap_cons

/-- Envelopes are written entry by entry, so one envelope behind another is the
envelope of both. -/
theorem encode_append (front rest : List String) :
    encode (front ++ rest) = encode front ++ encode rest := List.flatMap_append

/-- What is written for descriptions is an envelope of them, if it stays below
`2 ^ 64` bytes. -/
theorem isEnvelope_encode {descriptions : List String}
    (h : (encode descriptions).length < 2 ^ 64) :
    IsEnvelope descriptions (encode descriptions) := by
  induction descriptions with
  | nil => exact .nil
  | cons description rest ih =>
    rw [encode_cons, List.length_append] at h
    rw [encode_cons]
    exact .known (isEntry_encodeEntry (by omega)) (ih (by omega))

/-- **An envelope is written in the shortest way**: unknown fields are compared
with nothing, and entries with entries. -/
theorem IsEnvelope.orLonger {descriptions : List String} {s : Bytes}
    (h : IsEnvelope descriptions s) : OrLonger (encode descriptions) s := by
  induction h with
  | nil => exact orLonger_refl []
  | known hs _ ih =>
    rw [encode_cons]
    exact hs.orLonger.append ih
  | @unknown descriptions s t _ _ ih => exact (orLonger_nil s).append ih

/-- The bytes of the descriptions are among the bytes that are written. -/
theorem sum_length_le_length_encode (descriptions : List String) :
    (descriptions.map fun description => (Utf8.encode description).length).sum
      ≤ (encode descriptions).length := by
  induction descriptions with
  | nil => exact Nat.le_refl 0
  | cons description rest ih =>
    have hbody := length_encode_le_length_encodeBody description
    have hentry := length_lt_length_encodeBlock (encodeBody description)
    rw [List.map_cons, List.sum_cons, encode_cons, encodeEntry_eq, List.length_append]
    omega

/-- Descriptions that are encoded decode, as long as every length fits into 64
bits. -/
theorem decode_encode {descriptions : List String} (h : (encode descriptions).length < 2 ^ 64) :
    decode (encode descriptions) = .ok descriptions :=
  decode_of_isEnvelope (isEnvelope_encode h)

/-- Whatever decodes to some descriptions is what is written for them, or
longer. -/
theorem orLonger_of_decode {s : Bytes} {descriptions : List String}
    (h : decode s = .ok descriptions) : OrLonger (encode descriptions) s :=
  (isEnvelope_of_decode h).orLonger

/-- **An encoded envelope decodes, and it is the shortest of all that decode
into the same descriptions and the only one of its length.** So no envelope
holds fewer bytes than its descriptions have together. -/
theorem encode_shortest {descriptions : List String} :
    ((encode descriptions).length < 2 ^ 64 → decode (encode descriptions) = .ok descriptions)
      ∧ ∀ s, decode s = .ok descriptions →
        (encode descriptions).length ≤ s.length
          ∧ ((encode descriptions).length = s.length ↔ s = encode descriptions)
          ∧ (descriptions.map fun description => (Utf8.encode description).length).sum
              ≤ s.length := by
  refine ⟨decode_encode, fun s hs => ?_⟩
  have horder := orLonger_of_decode hs
  exact ⟨horder.length_le, horder.length_eq_iff,
    Nat.le_trans (sum_length_le_length_encode descriptions) horder.length_le⟩

/-- Two descriptions of which the second is empty, and an envelope of them that
spends a byte on a length that needs none, has a text that does not count, and
ends in an unknown group. -/
theorem encode_shortest_accented :
    let descriptions := ["é", ""]
    let s : Bytes := [0x0a, 0x87, 0x00, 0x0a, 0x01, 0x78, 0x0a, 0x02, 0xc3, 0xa9, 0x0a, 0x00,
      0x13, 0x08, 0x05, 0x14]
    (encode descriptions).length < 2 ^ 64
      ∧ decode (encode descriptions) = .ok descriptions
      ∧ decode s = .ok descriptions
      ∧ (encode descriptions).length ≤ s.length
      ∧ ((encode descriptions).length = s.length ↔ s = encode descriptions)
      ∧ (descriptions.map fun description => (Utf8.encode description).length).sum
          ≤ s.length := by
  intro descriptions s
  have hsize : (encode descriptions).length < 2 ^ 64 := by decide +kernel
  have hs : decode s = .ok descriptions := by decide +kernel
  exact ⟨hsize, encode_shortest.1 hsize, hs, encode_shortest.2 s hs⟩

end EscrowFeed.Envelope
