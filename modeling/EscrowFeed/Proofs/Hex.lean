/-
Hex digits and what they spell.

`Digit` says which characters are hex digits and what each is worth, by its
place in the two rows of digits; `digitValue?` computes the same from the
character's code. Beside it stands what a store relies on: bytes that are
written in hex read back.

Pairs of digits spell bytes, and bytes are spelled in as many ways as there are
ways to choose between the rows. Only one of them is written, the lowercase one,
and every other is told from it by its lowercase. So a question about what
digits spell is one about a list of characters and another.
-/
import EscrowFeed.Bytes

set_option autoImplicit false

namespace EscrowFeed.Hex

/-- A hex digit of either case, and its value. -/
def Digit (c : Char) (value : Nat) : Prop :=
  "0123456789abcdef".toList[value]? = some c ∨ "0123456789ABCDEF".toList[value]? = some c

theorem Digit.lt {c : Char} {value : Nat} (h : Digit c value) : value < 16 := by
  rcases h with h | h
  · exact (List.getElem?_eq_some_iff.mp h).1
  · exact (List.getElem?_eq_some_iff.mp h).1

/-- A character is the code point that it is counted from `base`. -/
theorem eq_ofNat_sub_add {c : Char} {base : Nat} (h : base ≤ c.toNat) :
    c = Char.ofNat (c.toNat - base + base) := by
  rw [Nat.sub_add_cancel h, Char.ofNat_toNat]

theorem digit_of_lt_ten {c : Char} (hlow : 48 ≤ c.toNat) (hhigh : c.toNat ≤ 57) :
    Digit c (c.toNat - 48) := by
  have hrow : ∀ n < 10, "0123456789abcdef".toList[n]? = some (Char.ofNat (n + 48)) := by decide
  left
  rw [hrow (c.toNat - 48) (by omega), ← eq_ofNat_sub_add hlow]

theorem digit_of_lower {c : Char} (hlow : 97 ≤ c.toNat) (hhigh : c.toNat ≤ 102) :
    Digit c (c.toNat - 87) := by
  have hrow : ∀ n < 16, 10 ≤ n → "0123456789abcdef".toList[n]? = some (Char.ofNat (n + 87)) := by
    decide
  left
  rw [hrow (c.toNat - 87) (by omega) (by omega), ← eq_ofNat_sub_add (by omega)]

theorem digit_of_upper {c : Char} (hlow : 65 ≤ c.toNat) (hhigh : c.toNat ≤ 70) :
    Digit c (c.toNat - 55) := by
  have hrow : ∀ n < 16, 10 ≤ n → "0123456789ABCDEF".toList[n]? = some (Char.ofNat (n + 55)) := by
    decide
  right
  rw [hrow (c.toNat - 55) (by omega) (by omega), ← eq_ofNat_sub_add (by omega)]

/-- The digits of a row are worth their places in it. -/
theorem digitValue?_of_getElem? {row : List Char} {c : Char} {value : Nat}
    (hrow : ∀ n < row.length, row[n]?.bind digitValue? = some n)
    (h : row[value]? = some c) : digitValue? c = some value := by
  obtain ⟨hlt, -⟩ := List.getElem?_eq_some_iff.mp h
  have hvalue := hrow value hlt
  rwa [h, Option.bind_some] at hvalue

/-- **The value of a hex digit is its place in its row.** -/
theorem digitValue?_eq_some_iff {c : Char} {value : Nat} :
    digitValue? c = some value ↔ Digit c value := by
  constructor
  · intro h
    rw [digitValue?] at h
    by_cases hten : '0' ≤ c ∧ c ≤ '9'
    · rw [if_pos hten] at h
      rw [← Option.some.inj h]
      exact digit_of_lt_ten hten.1 hten.2
    · rw [if_neg hten] at h
      by_cases hlower : 'a' ≤ c ∧ c ≤ 'f'
      · rw [if_pos hlower] at h
        rw [← Option.some.inj h]
        exact digit_of_lower hlower.1 hlower.2
      · rw [if_neg hlower] at h
        by_cases hupper : 'A' ≤ c ∧ c ≤ 'F'
        · rw [if_pos hupper] at h
          rw [← Option.some.inj h]
          exact digit_of_upper hupper.1 hupper.2
        · rw [if_neg hupper] at h
          cases h
  · -- The rows are short enough to ask every digit of them.
    rintro (h | h)
    · exact digitValue?_of_getElem? (by decide) h
    · exact digitValue?_of_getElem? (by decide) h

/-- The digit that is written for a value has that value. -/
theorem digitValue?_digitChar {value : Nat} (h : value < 16) :
    digitValue? (Nat.digitChar value) = some value := by
  have hall : ∀ n < 16, digitValue? (Nat.digitChar n) = some n := by decide
  exact hall value h

/-- **Bytes that are written in hex read back.** -/
theorem decode?_encode (bytes : Bytes) : decode? (encode bytes) = some bytes := by
  induction bytes with
  | nil => rfl
  | cons b rest ih =>
    have hb := b.toNat_lt
    have hbyte : UInt8.ofNat (16 * (b.toNat / 16) + b.toNat % 16) = b := by
      rw [Nat.div_add_mod, UInt8.ofNat_toNat]
    rw [encode, decode?, digitValue?_digitChar (by omega), digitValue?_digitChar (by omega), ih]
    simp only [Option.bind_eq_bind, Option.bind_some, Option.pure_def, hbyte]

/-! ## Pairs of digits -/

/-- Pairs of hex digits and the bytes that they spell, the high half first. -/
inductive Spells : List Char → Bytes → Prop where
  | nil : Spells [] []
  | cons {h l : Char} {high low : Nat} {b : UInt8} {rest : List Char} {bytes : Bytes} :
      Digit h high → Digit l low → b.toNat = 16 * high + low → Spells rest bytes →
      Spells (h :: l :: rest) (b :: bytes)

/-- Two digits are in range of a byte. -/
theorem Digit.toNat_ofNat {h l : Char} {high low : Nat} (hh : Digit h high) (hl : Digit l low) :
    (UInt8.ofNat (16 * high + low)).toNat = 16 * high + low := by
  have hhigh := hh.lt
  have hlow := hl.lt
  rw [UInt8.toNat_ofNat']
  omega

/-- **Reading finds the bytes that pairs of digits spell.** -/
theorem decode?_eq_some_iff {digits : List Char} {bytes : Bytes} :
    decode? digits = some bytes ↔ Spells digits bytes := by
  constructor
  · intro h
    -- Two digits at a time, as the reader takes them.
    induction digits using decode?.induct generalizing bytes with
    | case1 =>
      rw [decode?, Option.some.injEq] at h
      subst h
      exact .nil
    | case2 c =>
      rw [decode?] at h
      cases h
    | case3 h' l rest ih =>
      simp only [decode?, Option.bind_eq_bind, Option.bind_eq_some_iff, Option.pure_def,
        Option.some.injEq] at h
      obtain ⟨high, hhigh, low, hlow, tail, htail, rfl⟩ := h
      have hh := digitValue?_eq_some_iff.mp hhigh
      have hl := digitValue?_eq_some_iff.mp hlow
      exact .cons hh hl (hh.toNat_ofNat hl) (ih htail)
  · intro h
    induction h with
    | nil => rfl
    | @cons h' l high low b rest bytes hh hl hb _ ih =>
      have hbyte : UInt8.ofNat (16 * high + low) = b := by rw [← hb, UInt8.ofNat_toNat]
      simp only [decode?, digitValue?_eq_some_iff.mpr hh, digitValue?_eq_some_iff.mpr hl, ih,
        Option.bind_eq_bind, Option.bind_some, Option.pure_def, hbyte]

/-- An even number of hex digits, and only these, spell something. -/
theorem exists_spells_iff {digits : List Char} :
    (∃ bytes, Spells digits bytes) ↔
      2 ∣ digits.length ∧ ∀ c ∈ digits, ∃ value, Digit c value := by
  constructor
  · rintro ⟨bytes, h⟩
    induction h with
    | nil => exact ⟨Nat.dvd_zero 2, fun c hc => absurd hc List.not_mem_nil⟩
    | @cons h' l high low b rest bytes hh hl _ _ ih =>
      refine ⟨?_, ?_⟩
      · simp only [List.length_cons]
        omega
      · simp only [List.forall_mem_cons]
        exact ⟨⟨high, hh⟩, ⟨low, hl⟩, ih.2⟩
  · intro h
    induction digits using decode?.induct with
    | case1 => exact ⟨[], .nil⟩
    | case2 c =>
      simp only [List.length_singleton] at h
      omega
    | case3 h' l rest ih =>
      simp only [List.length_cons, List.forall_mem_cons] at h
      obtain ⟨heven, ⟨high, hh⟩, ⟨low, hl⟩, hrest⟩ := h
      obtain ⟨bytes, hbytes⟩ := ih ⟨by omega, hrest⟩
      exact ⟨_, .cons hh hl (hh.toNat_ofNat hl) hbytes⟩

/-! ## Letter case -/

/-- A letter of the upper row stands for the one 32 places on, and every other
character for itself. -/
theorem toNat_toLower (c : Char) :
    c.toLower.toNat = if 65 ≤ c.toNat ∧ c.toNat ≤ 90 then c.toNat + 32 else c.toNat := by
  unfold Char.toLower
  by_cases h : 'A'.val ≤ c.val ∧ c.val ≤ 'Z'.val
  · have hupper : 65 ≤ c.toNat ∧ c.toNat ≤ 90 := h
    rw [dif_pos h, if_pos hupper]
    change (c.val + 32).toNat = c.toNat + 32
    rw [UInt32.toNat_add]
    change (c.toNat + 32) % 2 ^ 32 = c.toNat + 32
    omega
  · have hother : ¬(65 ≤ c.toNat ∧ c.toNat ≤ 90) := h
    rw [dif_neg h, if_neg hother]

/-- The digits of a value are those whose lowercase is written for it. -/
theorem toLower_eq_digitChar_iff {c : Char} {value : Nat} (h : value < 16) :
    c.toLower = Nat.digitChar value ↔ Digit c value := by
  constructor
  · intro heq
    -- By code points: the two runs of letters are 32 apart, and the digits are left as they are.
    have hcode : ∀ n < 16, (Nat.digitChar n).toNat = if n < 10 then n + 48 else n + 87 := by decide
    have hc := toNat_toLower c
    rw [heq, hcode value h] at hc
    by_cases hten : value < 10
    · rw [if_pos hten] at hc
      have hvalue : c.toNat = value + 48 := by split at hc <;> omega
      obtain rfl : c.toNat - 48 = value := by omega
      exact digit_of_lt_ten (by omega) (by omega)
    · rw [if_neg hten] at hc
      by_cases hupper : 65 ≤ c.toNat ∧ c.toNat ≤ 90
      · rw [if_pos hupper] at hc
        obtain rfl : value = c.toNat - 55 := by omega
        exact digit_of_upper (by omega) (by omega)
      · rw [if_neg hupper] at hc
        obtain rfl : value = c.toNat - 87 := by omega
        exact digit_of_lower (by omega) (by omega)
  · have hrow : ∀ n < 16, "0123456789abcdef".toList[n]?.map Char.toLower = some (Nat.digitChar n)
        ∧ "0123456789ABCDEF".toList[n]?.map Char.toLower = some (Nat.digitChar n) := by decide
    obtain ⟨hlower, hupper⟩ := hrow value h
    rintro (hc | hc)
    · rwa [hc, Option.map_some, Option.some.injEq] at hlower
    · rwa [hc, Option.map_some, Option.some.injEq] at hupper

/-- **Digits spell bytes exactly when their lowercase is what the bytes are
written as.** -/
theorem spells_iff_map_toLower {digits : List Char} {bytes : Bytes} :
    Spells digits bytes ↔ digits.map Char.toLower = encode bytes := by
  constructor
  · intro h
    induction h with
    | nil => rfl
    | @cons h' l high low b rest bytes hh hl hb _ ih =>
      have hhigh := hh.lt
      have hlow := hl.lt
      rw [List.map_cons, List.map_cons, ih, (toLower_eq_digitChar_iff hhigh).mpr hh,
        (toLower_eq_digitChar_iff hlow).mpr hl, encode, hb,
        show (16 * high + low) / 16 = high by omega, show (16 * high + low) % 16 = low by omega]
  · intro h
    induction bytes generalizing digits with
    | nil =>
      rw [encode, List.map_eq_nil_iff] at h
      subst h
      exact .nil
    | cons b bytes ih =>
      -- Both halves of a byte are below sixteen, so each has its digit.
      have hb := b.toNat_lt
      rw [encode] at h
      obtain ⟨c, tail, rfl, hc, htail⟩ := List.map_eq_cons_iff.mp h
      obtain ⟨l, rest, rfl, hl, hrest⟩ := List.map_eq_cons_iff.mp htail
      exact .cons ((toLower_eq_digitChar_iff (by omega)).mp hc)
        ((toLower_eq_digitChar_iff (by omega)).mp hl) (by omega) (ih hrest)
/-! ## Written bytes -/

theorem toList_text (bytes : Bytes) : (text bytes).toList = encode bytes := String.toList_ofList

end EscrowFeed.Hex
