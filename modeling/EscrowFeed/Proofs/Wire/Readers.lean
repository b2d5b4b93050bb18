/-
The readers of numbers, keys, blocks and unknown fields, against the grammar.

A reader is right when it takes from the front of its input a form of what it
returns, and when it takes every form whatever comes after it; `Reads` is both.
The second half has no proviso. Every form says by itself where it ends, a
number by the top bit of its last byte and all else by numbers, so the bytes
behind it have no say in what is read. `Reads.append` is that fact about any
reader that is right.

What may follow the key of a group is read by a loop over one field after the
other, and the fields in it by the same reader with one group fewer to go. So
soundness has an induction for each: along one group it is on the bytes that are
left, with any reader for the fields, and between groups on their number.
Completeness follows the grammar instead, where both are one.
-/
import EscrowFeed.Proofs.Wire.Grammar
import EscrowFeed.Wire.Unknown

set_option autoImplicit false

namespace EscrowFeed.Wire

/-- A reader takes exactly the forms of a relation from the front of its input. -/
structure Reads {ε α : Type} (read : Bytes → Except ε (α × Bytes)) (Form : α → Bytes → Prop) :
    Prop where
  sound : ∀ {s rest : Bytes} {a : α}, read s = .ok (a, rest) → ∃ t, Form a t ∧ s = t ++ rest
  complete : ∀ {t : Bytes} {a : α}, Form a t → ∀ rest, read (t ++ rest) = .ok (a, rest)

/-- **What has been read does not depend on what follows.** -/
theorem Reads.append {ε α : Type} {read : Bytes → Except ε (α × Bytes)} {Form : α → Bytes → Prop}
    (hread : Reads read Form) {s rest : Bytes} {a : α} (h : read s = .ok (a, rest))
    (more : Bytes) : read (s ++ more) = .ok (a, rest ++ more) := by
  obtain ⟨t, ht, rfl⟩ := hread.sound h
  rw [List.append_assoc]
  exact hread.complete ht (rest ++ more)

/-! ## Numbers -/

theorem IsVarintWithin.ne_nil {most n : Nat} {s : Bytes} (h : IsVarintWithin most n s) :
    s ≠ [] := by
  obtain ⟨more, last, rfl, -⟩ := h
  exact List.append_ne_nil_of_right_ne_nil more (List.cons_ne_nil last [])

/-- A number of one byte. -/
theorem isVarintWithin_singleton {most n : Nat} {b : UInt8} :
    IsVarintWithin (most + 1) n [b] ↔ b.toNat < 128 ∧ (most = 0 → b.toNat ≤ 1) ∧ n = b.toNat := by
  constructor
  · rintro ⟨more, last, hs, -, hlast, -, htop, rfl⟩
    cases more with
    | nil =>
      obtain rfl : b = last := (List.cons.inj hs).1
      refine ⟨hlast, fun hmost => htop (by rw [hmost, List.length_singleton]), ?_⟩
      rw [groupsValue, groupsValue, Nat.mod_eq_of_lt hlast, Nat.mul_zero, Nat.add_zero]
    | cons c more => simp at hs
  · rintro ⟨hb, htop, rfl⟩
    refine ⟨[], b, rfl, fun c hc => absurd hc List.not_mem_nil, hb, ?_, fun hlength => htop ?_, ?_⟩
    · rw [List.length_singleton]
      exact Nat.succ_pos most
    · rw [List.length_singleton] at hlength
      omega
    · rw [groupsValue, groupsValue, Nat.mod_eq_of_lt hb, Nat.mul_zero, Nat.add_zero]

/-- A number of more bytes: its first group, and a number of one byte fewer for
the groups above. -/
theorem isVarintWithin_cons {most n : Nat} {b : UInt8} {s : Bytes} (hs : s ≠ []) :
    IsVarintWithin (most + 1) n (b :: s) ↔
      128 ≤ b.toNat ∧ ∃ high, IsVarintWithin most high s ∧ n = b.toNat - 128 + 128 * high := by
  have hlt := b.toNat_lt
  constructor
  · rintro ⟨more, last, hcons, hmore, hlast, hlength, htop, rfl⟩
    -- The first of several bytes is one that is marked as not the last.
    cases more with
    | nil => exact absurd (List.cons.inj hcons).2 hs
    | cons c more =>
      rw [List.cons_append] at hcons
      obtain ⟨rfl, rfl⟩ := List.cons.inj hcons
      have hb := hmore b List.mem_cons_self
      rw [List.length_cons] at hlength htop
      refine ⟨hb, groupsValue (more ++ [last]), ⟨more, last, rfl,
        fun c hc => hmore c (List.mem_cons_of_mem b hc), hlast, by omega,
        fun hmost => htop (by rw [hmost]), rfl⟩, ?_⟩
      rw [groupsValue]
      omega
  · rintro ⟨hb, _, ⟨more, last, rfl, hmore, hlast, hlength, htop, rfl⟩, rfl⟩
    refine ⟨b :: more, last, rfl, ?_, hlast, ?_, fun hmost => htop ?_, ?_⟩
    · intro c hc
      rcases List.mem_cons.mp hc with rfl | hc
      · exact hb
      · exact hmore c hc
    · rw [List.length_cons]
      omega
    · rw [List.length_cons] at hmost
      omega
    · rw [groupsValue]
      omega

/-- Induction along the bytes of a number, last one first. -/
@[elab_as_elim]
theorem IsVarintWithin.induction
    {motive : ∀ most n s, IsVarintWithin most n s → Prop}
    (last : ∀ {most : Nat} {b : UInt8} (hb : b.toNat < 128) (htop : most = 0 → b.toNat ≤ 1),
      motive (most + 1) b.toNat [b] (isVarintWithin_singleton.mpr ⟨hb, htop, rfl⟩))
    (more : ∀ {most high : Nat} {b : UInt8} {t : Bytes} (hb : 128 ≤ b.toNat)
      (ht : IsVarintWithin most high t), motive most high t ht →
      motive (most + 1) (b.toNat - 128 + 128 * high) (b :: t)
        ((isVarintWithin_cons ht.ne_nil).mpr ⟨hb, high, ht, rfl⟩))
    {most n : Nat} {s : Bytes} (h : IsVarintWithin most n s) : motive most n s h := by
  induction s generalizing most n with
  | nil => exact absurd rfl h.ne_nil
  | cons b t ih =>
    have hmost : (b :: t).length ≤ most := by
      obtain ⟨_, _, _, _, _, hlength, _⟩ := h
      exact hlength
    obtain ⟨most, rfl⟩ := Nat.exists_eq_add_one.mpr (Nat.lt_of_lt_of_le (Nat.succ_pos _) hmost)
    -- A byte is the last exactly if nothing follows it.
    by_cases ht : t = []
    · subst ht
      obtain ⟨hb, htop, rfl⟩ := isVarintWithin_singleton.mp h
      exact last hb htop
    · obtain ⟨hb, high, hhigh, rfl⟩ := (isVarintWithin_cons ht).mp h
      exact more hb hhigh (ih hhigh)

/-- What is taken for a number is a form of it within the bytes it may have. -/
theorem readVarintWithin?_sound {most n : Nat} {s rest : Bytes}
    (h : readVarintWithin? most s = some (n, rest)) :
    ∃ t, IsVarintWithin most n t ∧ s = t ++ rest := by
  induction most generalizing n s with
  | zero => simp [readVarintWithin?] at h
  | succ most ih =>
    cases s with
    | nil => simp [readVarintWithin?] at h
    | cons b s =>
      rw [readVarintWithin?] at h
      split at h
      · next hb =>
        split at h
        · cases h
        · next htop =>
          obtain ⟨rfl, rfl⟩ := Prod.mk.inj (Option.some.inj h)
          -- The last byte allowed may only hold what is left of 64 bits.
          exact ⟨[b], isVarintWithin_singleton.mpr ⟨hb, fun hmost => by omega, rfl⟩, rfl⟩
      · next hb =>
        obtain ⟨⟨high, after⟩, hread, h⟩ := Option.map_eq_some_iff.mp h
        obtain ⟨rfl, rfl⟩ := Prod.mk.inj h
        obtain ⟨t, ht, rfl⟩ := ih hread
        exact ⟨b :: t, (isVarintWithin_cons ht.ne_nil).mpr ⟨by omega, high, ht, rfl⟩, rfl⟩

/-- Every form of a number is read, overlong ones too. -/
theorem readVarintWithin?_complete {most n : Nat} {t : Bytes} (h : IsVarintWithin most n t)
    (rest : Bytes) : readVarintWithin? most (t ++ rest) = some (n, rest) := by
  induction h using IsVarintWithin.induction with
  | last hb htop =>
    rw [List.cons_append, readVarintWithin?, if_pos hb, List.nil_append, if_neg]
    rintro ⟨hmost, hlarge⟩
    exact absurd (htop hmost) (Nat.not_le.mpr hlarge)
  | more hb _ ih =>
    rw [List.cons_append, readVarintWithin?, if_neg (Nat.not_lt.mpr hb), ih, Option.map_some]

/-- Numbers of 64 bits are read from ten bytes at most. -/
theorem readVarint_reads : Reads readVarint IsVarint where
  sound := by
    intro s rest n h
    rw [readVarint] at h
    split at h
    · cases h
    · next hread =>
      rw [Except.ok.inj h] at hread
      exact readVarintWithin?_sound hread
  complete := by
    intro t n h rest
    rw [readVarint, readVarintWithin?_complete h]

/-! ## Keys and blocks -/

theorem WireType.ofCode?_eq_some_iff {code : Nat} {type : WireType} :
    WireType.ofCode? code = some type ↔ code = type.code := by
  constructor
  · intro h
    unfold ofCode? at h
    split at h <;> cases h <;> rfl
  · rintro rfl
    cases type <;> rfl

theorem WireType.code_lt (type : WireType) : type.code < 8 := by
  cases type <;> decide

/-- A key is a number of 32 bits: a tag that is not zero, and a wire type. -/
theorem readKey_reads : Reads readKey IsKey where
  sound := by
    intro s rest key h
    rw [readKey] at h
    split at h
    · cases h
    · next number after hread =>
      split at h
      · cases h
      · next hsize =>
        split at h
        · cases h
        · next type htype =>
          split at h
          · cases h
          · next htag =>
            obtain ⟨rfl, rfl⟩ := Prod.mk.inj (Except.ok.inj h)
            obtain ⟨t, ht, hs⟩ := readVarint_reads.sound hread
            -- The tag and the code of the key are the quotient and the rest of its number.
            have hnumber : 8 * (number / 8) + type.code = number := by
              rw [← WireType.ofCode?_eq_some_iff.mp htype]
              exact Nat.div_add_mod number 8
            refine ⟨t, ⟨Nat.pos_of_ne_zero htag, ?_, ?_⟩, hs⟩
            · rw [hnumber]
              exact Nat.not_le.mp hsize
            · rw [hnumber]
              exact ht
  complete := by
    rintro t ⟨tag, type⟩ ⟨htag, hsize, ht⟩ rest
    have hcode := type.code_lt
    have htype : WireType.ofCode? ((8 * tag + type.code) % 8) = some type :=
      WireType.ofCode?_eq_some_iff.mpr (by omega)
    have hdiv : (8 * tag + type.code) / 8 = tag := by omega
    have hfits : ¬ UInt32.size ≤ 8 * tag + type.code := Nat.not_le.mpr hsize
    have hpos : tag ≠ 0 := Nat.pos_iff_ne_zero.mp htag
    rw [readKey, readVarint_reads.complete ht]
    simp only [htype, hdiv, hfits, hpos, if_false]

theorem readBytes_reads (count : Nat) :
    Reads (readBytes count) (fun block t => t = block ∧ block.length = count) where
  sound := by
    intro s rest block h
    rw [readBytes] at h
    split at h
    · cases h
    · next hlength =>
      obtain ⟨rfl, rfl⟩ := Prod.mk.inj (Except.ok.inj h)
      exact ⟨s.take count, ⟨rfl, List.length_take_of_le (Nat.not_lt.mp hlength)⟩,
        (List.take_append_drop count s).symm⟩
  complete := by
    rintro _ block ⟨rfl, rfl⟩ rest
    rw [readBytes, if_neg (by simp), List.take_left, List.drop_left]

theorem readBlock_reads : Reads readBlock IsBlock where
  sound := by
    intro s rest block h
    rw [readBlock] at h
    split at h
    · cases h
    · next length after hread =>
      obtain ⟨t, ht, rfl⟩ := readVarint_reads.sound hread
      obtain ⟨content, ⟨rfl, rfl⟩, rfl⟩ := (readBytes_reads length).sound h
      exact ⟨t ++ content, ⟨t, ht, rfl⟩, (List.append_assoc t content rest).symm⟩
  complete := by
    rintro _ block ⟨length, hlength, rfl⟩ rest
    rw [readBlock, List.append_assoc, readVarint_reads.complete hlength]
    exact (readBytes_reads block.length).complete ⟨rfl, rfl⟩ rest

/-! ## Unknown fields -/

/-- The fields of a group, for any reader of the content of a field in it. The
induction is on the loop over the fields. -/
theorem skipGroup_sound {limit groups tag : Nat} {skip : Key → Bytes → Except Cause Bytes}
    (hlimit : groups < limit)
    (hskip : ∀ {key : Key} {s rest : Bytes}, skip key s = .ok rest →
      ∃ t, IsContent limit (groups + 1) key t ∧ s = t ++ rest)
    {s rest : Bytes} (h : skipGroup skip tag s = .ok rest) :
    ∃ t, IsContent limit groups ⟨tag, .startGroup⟩ t ∧ s = t ++ rest := by
  fun_induction skipGroup skip tag s with
  | case1 => cases h
  -- The group ends with the key that it began with.
  | case2 s key after hkey hend htag =>
    obtain rfl := Except.ok.inj h
    obtain ⟨t, ht, rfl⟩ := readKey_reads.sound hkey
    have hkey : key = ⟨tag, .endGroup⟩ := by
      rw [← htag, ← hend]
    exact ⟨t, .ending hlimit (hkey ▸ ht), rfl⟩
  | case3 => cases h
  | case4 => cases h
  | case5 s key after hkey hend after' hcontent hlt ih =>
    obtain ⟨head, hhead, rfl⟩ := readKey_reads.sound hkey
    obtain ⟨content, hfield, rfl⟩ := hskip hcontent
    obtain ⟨t, ht, rfl⟩ := ih h
    refine ⟨head ++ content ++ t, .member hlimit hhead hfield ht, ?_⟩
    simp only [List.append_assoc]
  | case6 => cases h

/-- What is passed over is the content of a field. The induction is on the depth
that is left, which is what the field's groups have left of the limit. -/
theorem skipField_sound {limit groups depth : Nat} (hdepth : groups + depth = limit) {key : Key}
    {s rest : Bytes} (h : skipField depth key s = .ok rest) :
    ∃ t, IsContent limit groups key t ∧ s = t ++ rest := by
  induction depth generalizing groups key s rest with
  | zero => cases h
  | succ depth ih =>
    have hlimit : groups < limit := by omega
    obtain ⟨tag, type⟩ := key
    rw [skipField] at h
    cases type with
    | varint =>
      obtain ⟨⟨n, _⟩, hread, rfl⟩ := Success.map_eq_ok.mp h
      obtain ⟨t, ht, hs⟩ := readVarint_reads.sound hread
      exact ⟨t, .varint hlimit ht, hs⟩
    | sixtyFourBit =>
      obtain ⟨⟨block, _⟩, hread, rfl⟩ := Success.map_eq_ok.mp h
      obtain ⟨content, ⟨rfl, ht⟩, hs⟩ := (readBytes_reads 8).sound hread
      exact ⟨content, .sixtyFourBit hlimit ht, hs⟩
    | thirtyTwoBit =>
      obtain ⟨⟨block, _⟩, hread, rfl⟩ := Success.map_eq_ok.mp h
      obtain ⟨content, ⟨rfl, ht⟩, hs⟩ := (readBytes_reads 4).sound hread
      exact ⟨content, .thirtyTwoBit hlimit ht, hs⟩
    | lengthDelimited =>
      obtain ⟨_, hread, rfl⟩ := Success.map_eq_ok.mp h
      obtain ⟨t, ht, hs⟩ := readBlock_reads.sound hread
      exact ⟨t, .block hlimit ht, hs⟩
    -- A group is skipped field by field, with one level less for each.
    | startGroup => exact skipGroup_sound hlimit (ih (by omega)) h
    | endGroup => cases h

/-- A field that stands in groups has a level left for itself. -/
theorem IsContent.lt {limit groups : Nat} {key : Key} {t : Bytes}
    (h : IsContent limit groups key t) : groups < limit := by
  cases h <;> assumption

/-- No content follows the key that ends a group. -/
theorem IsContent.type_ne_endGroup {limit groups : Nat} {key : Key} {t : Bytes}
    (h : IsContent limit groups key t) : key.type ≠ .endGroup := by
  cases h <;> exact WireType.noConfusion

/-- All content of a field is passed over, whatever follows it, with as much
depth as the field's groups have left of the limit. -/
theorem skipField_complete {limit groups depth : Nat} {key : Key} {t : Bytes}
    (h : IsContent limit groups key t) (hdepth : groups + (depth + 1) = limit) (rest : Bytes) :
    skipField (depth + 1) key (t ++ rest) = .ok rest := by
  induction h generalizing depth rest with
  | varint _ hs => simp only [skipField, readVarint_reads.complete hs, Except.map]
  | sixtyFourBit _ hs => simp only [skipField, (readBytes_reads 8).complete ⟨rfl, hs⟩, Except.map]
  | thirtyTwoBit _ hs => simp only [skipField, (readBytes_reads 4).complete ⟨rfl, hs⟩, Except.map]
  | block _ hs => simp only [skipField, readBlock_reads.complete hs, Except.map]
  | ending _ hs =>
    rw [skipField, skipGroup, readKey_reads.complete hs]
    simp only [if_true]
  | @member groups tag key head content last _ hhead hcontent hlast ihcontent ihlast =>
    have hskip := ihlast hdepth rest
    -- A field in a group asks for one group more, so there is depth for it.
    have hlimit := hcontent.lt
    obtain ⟨depth, rfl⟩ := Nat.exists_eq_add_one_of_ne_zero (show depth ≠ 0 by omega)
    have hfield := ihcontent (show groups + 1 + (depth + 1) = limit by omega) (last ++ rest)
    have hkey := readKey_reads.complete hhead (content ++ (last ++ rest))
    -- The key makes what is left shorter, so the loop goes on.
    have hlength := Nat.lt_of_le_of_lt (skipField_length hfield) (readKey_length hkey)
    rw [List.append_assoc, List.append_assoc, skipField, skipGroup, hkey]
    simp only [hcontent.type_ne_endGroup, if_false, hfield, hlength, if_true]
    rwa [skipField] at hskip

end EscrowFeed.Wire
