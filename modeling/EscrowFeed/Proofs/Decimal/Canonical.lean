/-
One text for each integer.

An integer is spelled by many texts, since zeros may stand in front of its
digits and a minus in front of a zero. The text that is written has neither, and
it is the only spelling without them. So numbers can be compared in four ways
that all come to the same: by the sign and the magnitude that they store, by the
integers they stand for, by the texts they are written as, and by the cells that
these make. A store keeps the written texts, so amounts are equal in it exactly
when they are equal.

The first of the four is how values are compared in a program, and it rests on
the normal form: a zero that kept its sign would be another value than zero,
with another text and another cell. Every way to build a number drops it.

That there is one written form comes down to digits: a numeral that begins with
no zero is what its number is written as. The induction is from the end of the
numeral, where both the numeral and the written form have their last digit.
-/
import EscrowFeed.Upsert
import EscrowFeed.Proofs.Decimal.Reading

set_option autoImplicit false

namespace EscrowFeed.WideInt

/-- No zero in front of another digit, and no minus in front of a zero. -/
def NoSpareZero (text : String) : Prop :=
  (∀ rest, text.toList = '0' :: rest → rest = []) ∧ ∀ rest, text.toList ≠ '-' :: '0' :: rest

/-! ## Digits as they are written -/

/-- A digit is the one that its value is written with. -/
theorem Digit.eq_digitChar {c : Char} {value : Nat} (h : Digit c value) :
    value < 10 ∧ c = Nat.digitChar value := by
  unfold Digit at h
  have hlt : value < 10 := (List.getElem?_eq_some_iff.mp h).1
  have hrow : ∀ n < 10, "0123456789".toList[n]? = some (Nat.digitChar n) := by decide
  rw [hrow value hlt, Option.some.injEq] at h
  exact ⟨hlt, h.symm⟩

/-- Only zero is written with a zero in front. -/
theorem toDigits_eq_zero_cons {n : Nat} {rest : List Char} (h : Nat.toDigits 10 n = '0' :: rest) :
    n = 0 := by
  induction n using Nat.strongRecOn generalizing rest with
  | ind n ih =>
    by_cases hlt : n < 10
    · have hone : ∀ m < 10, Nat.digitChar m = '0' → m = 0 := by decide
      rw [Nat.toDigits_of_lt_base hlt] at h
      exact hone n hlt (List.cons.inj h).1
    · -- The digits in front of the last are those of the tenth, which is not zero.
      rw [Nat.toDigits_of_base_le (by omega) (by omega)] at h
      rcases List.append_eq_cons_iff.mp h with ⟨hnil, -⟩ | ⟨_, htenth, -⟩
      · exact absurd hnil Nat.toDigits_ne_nil
      · have hzero := ih (n / 10) (by omega) htenth
        omega

/-- A number that is written without a zero in front is not zero. -/
theorem pos_of_toDigits_ne_zero_cons {n : Nat} (h : ∀ rest, Nat.toDigits 10 n ≠ '0' :: rest) :
    0 < n := by
  by_contra hn
  obtain rfl : n = 0 := by omega
  exact h [] rfl

/-- **A numeral that begins with no zero is its number as it is written.** -/
theorem Numeral.eq_toDigits {ds : List Char} {n : Nat} (h : Numeral ds n)
    (hzero : ∀ rest, ds = '0' :: rest → rest = []) : ds = Nat.toDigits 10 n := by
  induction h with
  | one hc =>
    obtain ⟨hlt, rfl⟩ := hc.eq_digitChar
    rw [Nat.toDigits_of_lt_base hlt]
  | @more ds c n value hds hc ih =>
    obtain ⟨hlt, rfl⟩ := hc.eq_digitChar
    -- The digits in front of the last begin with no zero at all, so they do not count to zero.
    have hne : ∀ rest, ds ≠ '0' :: rest := by
      rintro rest rfl
      have hrest := hzero (rest ++ [Nat.digitChar value]) rfl
      simp only [List.append_eq_nil_iff, List.cons_ne_nil, and_false] at hrest
    have heq := ih fun rest hrest => absurd hrest (hne rest)
    have hpos := pos_of_toDigits_ne_zero_cons (heq ▸ hne)
    rw [heq, ← Nat.toDigits_of_lt_base hlt, Nat.toDigits_append_toDigits (by omega) hpos hlt]

/-! ## The written form -/

/-- The written form spells the integer. -/
theorem spells_text (n : WideInt) : Spells n.text n.value := parse?_eq_some_iff.mp n.parse?_text

/-- The written form has no spare zero. Of a negative number the digits begin
with none because it is normal: its magnitude is not zero. -/
theorem noSpareZero_text (n : WideInt) : NoSpareZero n.text := by
  unfold NoSpareZero
  rw [toList_text]
  by_cases hsign : n.negative = true
  · rw [if_pos hsign]
    refine ⟨fun rest h => absurd (List.cons.inj h).1 (by decide), fun rest h => ?_⟩
    exact n.normal hsign (toDigits_eq_zero_cons (List.cons.inj h).2)
  · rw [if_neg hsign]
    refine ⟨fun rest h => ?_, fun rest => toDigits_ne_minus_cons n.magnitude _⟩
    rw [toDigits_eq_zero_cons h] at h
    exact (List.cons.inj h).2.symm

/-- The digits of a text that spells without a spare zero are those of the
magnitude as they are written. -/
theorem Spells.toList_eq {text : String} {value : Int} (h : Spells text value)
    (hspare : NoSpareZero text) :
    text.toList =
      if value < 0 then '-' :: Nat.toDigits 10 value.natAbs else Nat.toDigits 10 value.natAbs := by
  cases h with
  | @plain n hds =>
    rw [if_neg (by omega), Int.natAbs_natCast]
    exact hds.eq_toDigits hspare.1
  | @minus ds n htext hds =>
    have hne : ∀ rest, ds ≠ '0' :: rest := fun rest heq => hspare.2 rest (heq ▸ htext)
    have heq := hds.eq_toDigits fun rest hrest => absurd hrest (hne rest)
    have hpos := pos_of_toDigits_ne_zero_cons (heq ▸ hne)
    rw [if_pos (by omega), Int.natAbs_neg, Int.natAbs_natCast, htext, heq]

/-- **The written form is the only one without a spare zero.** -/
theorem eq_text_iff {text : String} {n : WideInt} :
    text = n.text ↔ Spells text n.value ∧ NoSpareZero text := by
  constructor
  · rintro rfl
    exact ⟨n.spells_text, n.noSpareZero_text⟩
  · rintro ⟨hspells, hspare⟩
    rw [← String.toList_inj, hspells.toList_eq hspare,
      n.spells_text.toList_eq n.noSpareZero_text]

/-! ## Four ways to compare -/

theorem text_inj {a b : WideInt} : a.text = b.text ↔ a = b := by
  refine ⟨fun h => ?_, congrArg text⟩
  apply Option.some.inj
  rw [← parse?_text a, h, parse?_text b]

theorem value_inj {a b : WideInt} : a.value = b.value ↔ a = b := ⟨eq_of_value_eq, congrArg value⟩

theorem integer_inj {a b : WideInt} : Cell.integer a = Cell.integer b ↔ a = b := by
  rw [Cell.integer, Cell.integer, Cell.numeric.injEq, text_inj]

/-! ## Where numbers come from -/

section Build

variable {negative : Bool} {magnitude : Nat}

/-- The sign and the magnitude that a number is built from are its own, but zero
has no sign. -/
theorem exists_ofSignMagnitude?_eq_some (h : magnitude < bound) :
    ∃ n, ofSignMagnitude? negative magnitude = some n ∧ n.magnitude = magnitude
      ∧ (n.negative = true ↔ negative = true ∧ magnitude ≠ 0)
      ∧ n.value = if negative then -(magnitude : Int) else magnitude := by
  refine ⟨_, dif_pos h, magnitude_ofSignMagnitude h, ?_, value_ofSignMagnitude h⟩
  rw [negative_ofSignMagnitude, Bool.and_eq_true, bne_iff_ne]

/-- **Two signs and magnitudes build one number** only as the same, or as the two
zeros. -/
theorem ofSignMagnitude_inj {sign : Bool} {size : Nat} (h : magnitude < bound)
    (hsize : size < bound) :
    ofSignMagnitude negative magnitude h = ofSignMagnitude sign size hsize ↔
      magnitude = size ∧ (negative = sign ∨ magnitude = 0) := by
  rw [ext_sign_magnitude, negative_ofSignMagnitude, negative_ofSignMagnitude,
    magnitude_ofSignMagnitude, magnitude_ofSignMagnitude, and_comm]
  refine and_congr_right ?_
  rintro rfl
  by_cases hzero : magnitude = 0
  · simp [hzero]
  · simp [bne_iff_ne.mpr hzero, hzero]

theorem value_ofMagnitude (h : magnitude < bound) : (ofMagnitude magnitude h).value = magnitude :=
  value_ofSignMagnitude h

theorem value_ofUInt64 (n : UInt64) : (ofUInt64 n).value = n.toNat := value_ofMagnitude _

end Build

/-- What a number stores, what it stands for and what it is written as tell each
other: zero has no sign, the sign and the magnitude are those of the integer and
build the number again, and the written form is the one spelling of the integer
without a spare zero, and is read as the number. -/
structure Canonical (n : WideInt) : Prop where
  zero : n.magnitude = 0 → n.negative = false
  negative_iff : n.negative = true ↔ n.value < 0
  magnitude : n.magnitude = n.value.natAbs
  rebuilt : ofSignMagnitude? n.negative n.magnitude = some n
  parsed : parse? n.text = some n
  text_iff : ∀ s, s = n.text ↔ Spells s n.value ∧ NoSpareZero s

theorem canonical (n : WideInt) : n.Canonical where
  zero := negative_eq_false_of_magnitude_eq_zero
  negative_iff := WideInt.negative_iff
  magnitude := n.natAbs_value.symm
  rebuilt := ofSignMagnitude?_negative_magnitude n
  parsed := n.parse?_text
  text_iff _ := eq_text_iff

/-- Two numbers are one, or differ, in whatever way they are compared. -/
structure Compared (a b : WideInt) : Prop where
  stored : a = b ↔ a.negative = b.negative ∧ a.magnitude = b.magnitude
  value : a = b ↔ a.value = b.value
  text : a = b ↔ a.text = b.text
  cell : a = b ↔ Cell.integer a = Cell.integer b

theorem compared (a b : WideInt) : a.Compared b where
  stored := ext_sign_magnitude
  value := value_inj.symm
  text := text_inj.symm
  cell := integer_inj.symm

/-- **Decimal text is canonical.** A number that is built from a sign and a
magnitude keeps both, but that zero is never negative, so two such pairs build
one number exactly when they are the same or both zero; magnitudes alone and the
numbers of 64 bits are built without a sign. Every number is canonical, and two
numbers are equal in what they store exactly when their integers are, or their
texts, or their cells. So two texts that are read give one value exactly when
they spell one integer, and reading what is written and writing it again changes
nothing. -/
theorem text_canonical :
    (∀ negative magnitude, magnitude < 2 ^ 256 →
        ∃ n, ofSignMagnitude? negative magnitude = some n ∧ n.magnitude = magnitude
          ∧ (n.negative = true ↔ negative = true ∧ magnitude ≠ 0)
          ∧ n.value = if negative then -(magnitude : Int) else magnitude)
      ∧ (∀ negative sign magnitude size (h : magnitude < bound) (hsize : size < bound),
          ofSignMagnitude negative magnitude h = ofSignMagnitude sign size hsize ↔
            magnitude = size ∧ (negative = sign ∨ magnitude = 0))
      ∧ (∀ magnitude (h : magnitude < bound), (ofMagnitude magnitude h).value = magnitude)
      ∧ (∀ n : UInt64, (ofUInt64 n).value = n.toNat)
      ∧ (∀ n : WideInt, n.Canonical)
      ∧ (∀ a b : WideInt, a.Compared b)
      ∧ ∀ s t a b, parse? s = some a → parse? t = some b →
          (a = b ↔ ∃ value, Spells s value ∧ Spells t value)
            ∧ (parse? a.text).map text = some a.text := by
  refine ⟨fun negative magnitude h => exists_ofSignMagnitude?_eq_some ?_,
    fun _ _ _ _ => ofSignMagnitude_inj, fun _ => value_ofMagnitude, value_ofUInt64, canonical,
    compared, ?_⟩
  · rwa [bound, Nat.pow_eq]
  · -- A text is read as the number it spells, and a spelling is that of one integer.
    intro s t a b ha hb
    rw [parse?_eq_some_iff] at ha hb
    refine ⟨⟨?_, ?_⟩, ?_⟩
    · rintro rfl
      exact ⟨a.value, ha, hb⟩
    · rintro ⟨value, hs, ht⟩
      exact eq_of_value_eq ((ha.unique hs).trans (hb.unique ht).symm)
    · rw [parse?_text, Option.map_some]

/-- Two spellings of one amount, of which the second is the one that is written,
and the two zeros, which are one. -/
theorem text_canonical_leading_zeros :
    let amount : WideInt := ofSignMagnitude true 7 (by decide)
    parse? "-007" = some amount ∧ parse? "-7" = some amount
      ∧ (∃ value, Spells "-007" value ∧ Spells "-7" value) ∧ "-7" = amount.text
      ∧ (parse? amount.text).map text = some "-7"
      ∧ ofSignMagnitude true 0 (by decide) = ofSignMagnitude false 0 (by decide)
      ∧ (∃ n, ofSignMagnitude? true 0 = some n ∧ n.negative = false) := by
  intro amount
  have hzeros : parse? "-007" = some amount := by decide +kernel
  have hplain : parse? "-7" = some amount := by decide +kernel
  have htext : "-7" = amount.text := by decide +kernel
  obtain ⟨hbuilt, hinj, -, -, hcanonical, -, hcompare⟩ := text_canonical
  obtain ⟨hspells, hagain⟩ := hcompare _ _ _ _ hzeros hplain
  obtain ⟨zero, hzero, hmagnitude, -, -⟩ := hbuilt true 0 (by decide)
  exact ⟨hzeros, hplain, hspells.mp rfl, htext, htext ▸ hagain,
    (hinj _ _ _ _ _ _).mpr ⟨rfl, .inr rfl⟩, zero, hzero, (hcanonical zero).zero hmagnitude⟩

end EscrowFeed.WideInt
