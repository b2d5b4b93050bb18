/-
Numbers as integers, and their decimal form.

A number is a sign and a magnitude, and what it stands for is computed from
them. Because the pair is normal nothing is lost on the way: the sign can be read
off the integer and so can the magnitude, and numbers that stand for one integer
are one number. Without the normal form the two zeros would be two numbers.

The two halves of the decimal form are looked at apart. The digits of the
magnitude are some digits and nothing else, and they count back to it; and the
sign and the magnitude that are read are put together to the number they were
taken from.
-/
import EscrowFeed.WideInt

set_option autoImplicit false

namespace EscrowFeed.WideInt

/-! ## Digits -/

/-- The digits of a number count back to it. -/
theorem digits?_toDigits (n : Nat) : digits? (Nat.toDigits 10 n) = some n := by
  have hdigits : (Nat.toDigits 10 n).all Char.isDigit = true :=
    List.all_eq_true.mpr fun c hc => Nat.isDigit_of_mem_toDigits (by decide) (by decide) hc
  rw [digits?, if_pos ⟨Nat.toDigits_ne_nil, hdigits⟩, Nat.ofDigitChars_ten_toDigits]

/-- A number is not written with a minus in front. -/
theorem toDigits_ne_minus_cons (n : Nat) (s : List Char) : Nat.toDigits 10 n ≠ '-' :: s := by
  intro h
  have hmem : '-' ∈ Nat.toDigits 10 n := h ▸ List.mem_cons_self
  exact absurd (Nat.isDigit_of_mem_toDigits (by decide) (by decide) hmem) (by decide)

/-! ## Sign and magnitude -/

/-- Numbers are compared by what they store. -/
theorem ext_sign_magnitude {a b : WideInt} :
    a = b ↔ a.negative = b.negative ∧ a.magnitude = b.magnitude := by
  cases a
  cases b
  exact Iff.of_eq (mk.injEq ..)

/-- The normal form, at zero. -/
theorem negative_eq_false_of_magnitude_eq_zero {n : WideInt} (h : n.magnitude = 0) :
    n.negative = false :=
  Bool.eq_false_iff.mpr fun hsign => n.normal hsign h

/-- The sign of a number is that of its integer. It would not be without the
normal form: minus zero is no negative integer. -/
theorem negative_iff {n : WideInt} : n.negative = true ↔ n.value < 0 := by
  rw [value]
  by_cases hsign : n.negative = true
  · have hne := n.normal hsign
    rw [if_pos hsign, iff_true_left hsign]
    omega
  · rw [if_neg hsign, iff_false_left hsign]
    omega

theorem natAbs_value (n : WideInt) : n.value.natAbs = n.magnitude := by
  rw [value]
  split <;> omega

/-- What a number stands for is in range. -/
theorem natAbs_lt (n : WideInt) : n.value.natAbs < bound := n.natAbs_value ▸ n.magnitude_lt

/-- **A number is what it stands for**: equal integers have equal signs and equal
magnitudes. -/
theorem eq_of_value_eq {a b : WideInt} (h : a.value = b.value) : a = b := by
  refine ext_sign_magnitude.mpr ⟨?_, ?_⟩
  · rw [Bool.eq_iff_iff, negative_iff, negative_iff, h]
  · rw [← natAbs_value, ← natAbs_value, h]

/-! ## Building numbers -/

section Build

variable {negative : Bool} {magnitude : Nat}

@[simp] theorem magnitude_ofSignMagnitude (h : magnitude < bound) :
    (ofSignMagnitude negative magnitude h).magnitude = magnitude := rfl

@[simp] theorem negative_ofSignMagnitude (h : magnitude < bound) :
    (ofSignMagnitude negative magnitude h).negative = (negative && magnitude != 0) := rfl

/-- Dropping the sign of zero does not change the integer. -/
theorem value_ofSignMagnitude (h : magnitude < bound) :
    (ofSignMagnitude negative magnitude h).value =
      if negative then -(magnitude : Int) else magnitude := by
  rw [value, negative_ofSignMagnitude, magnitude_ofSignMagnitude]
  by_cases hzero : magnitude = 0
  · subst hzero
    simp
  · rw [bne_iff_ne.mpr hzero, Bool.and_true]

/-- **A sign and a magnitude build the number of their integer**, as long as the
magnitude is in range. -/
theorem ofSignMagnitude?_eq_some_iff {n : WideInt} :
    ofSignMagnitude? negative magnitude = some n ↔
      magnitude < bound ∧ n.value = if negative then -(magnitude : Int) else magnitude := by
  unfold ofSignMagnitude?
  by_cases h : magnitude < bound
  · rw [dif_pos h, Option.some.injEq, ← value_ofSignMagnitude h]
    constructor
    · rintro rfl
      exact ⟨h, rfl⟩
    · rintro ⟨-, hvalue⟩
      exact (eq_of_value_eq hvalue).symm
  · rw [dif_neg h]
    simp only [reduceCtorEq, h, false_and]

/-- A number is built from its own sign and magnitude. -/
theorem ofSignMagnitude?_negative_magnitude (n : WideInt) :
    ofSignMagnitude? n.negative n.magnitude = some n :=
  ofSignMagnitude?_eq_some_iff.mpr ⟨n.magnitude_lt, rfl⟩

/-- Every integer in range is that of a number. -/
theorem exists_value_eq {value : Int} (h : value.natAbs < bound) :
    ∃ n : WideInt, n.value = value := by
  refine ⟨ofSignMagnitude (decide (value < 0)) value.natAbs h, ?_⟩
  rw [value_ofSignMagnitude]
  simp only [decide_eq_true_eq]
  omega

end Build

/-! ## Text -/

/-- A minus for a negative number, and the digits of the magnitude. -/
theorem toList_text (n : WideInt) :
    n.text.toList =
      if n.negative then '-' :: Nat.toDigits 10 n.magnitude else Nat.toDigits 10 n.magnitude := by
  rw [text]
  split
  · rw [String.toList_append, Nat.toList_repr]
    rfl
  · rw [Nat.toList_repr]

theorem text_ne_empty (n : WideInt) : n.text ≠ "" := by
  intro h
  have hlist := n.toList_text
  rw [h, String.toList_empty] at hlist
  split at hlist
  · cases hlist
  · exact Nat.toDigits_ne_nil hlist.symm

/-- **The decimal form of a number reads as the number.** -/
theorem parse?_text (n : WideInt) : parse? n.text = some n := by
  have hn := ofSignMagnitude?_negative_magnitude n
  rw [parse?, toList_text]
  cases hsign : n.negative with
  | true =>
    rw [hsign] at hn
    simp only [if_true]
    rw [digits?_toDigits, Option.bind_some, hn]
  | false =>
    rw [hsign] at hn
    simp only [Bool.false_eq_true, if_false]
    -- The reader looks for a minus first, and the digits do not begin with one.
    split
    · next ds h => exact absurd h (toDigits_ne_minus_cons n.magnitude ds)
    · rw [digits?_toDigits, Option.bind_some, hn]

end EscrowFeed.WideInt
