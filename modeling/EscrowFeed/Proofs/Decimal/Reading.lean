/-
Which texts are decimal integers, and of which integer.

`Spells` says it without a reader: a numeral is one digit or more, each digit
worth its place in the row of ten and ten times what the digits before it are
worth together, and an integer is spelled by a numeral of its magnitude, behind
one minus if it is not positive. Nothing bounds the length of a numeral, so the
bound on magnitudes is no matter of how many digits there are: zeros in front
add digits and nothing to the number.

The reader counts a numeral as it is written, from the left, and that is also
how `Numeral` is built: the step of either is one more digit at the end. So the
two are compared by an induction from the end of the text.
-/
import EscrowFeed.Proofs.Hex
import EscrowFeed.Proofs.WideInt
import Mathlib.Algebra.Ring.Nat
import Mathlib.Data.List.Induction

set_option autoImplicit false

namespace EscrowFeed.WideInt

/-! ## Numerals -/

/-- A decimal digit, and its value. -/
def Digit (c : Char) (value : Nat) : Prop := "0123456789".toList[value]? = some c

/-- One digit or more, and the number that they count. -/
inductive Numeral : List Char → Nat → Prop where
  | one {c : Char} {value : Nat} : Digit c value → Numeral [c] value
  | more {ds : List Char} {c : Char} {n value : Nat} :
      Numeral ds n → Digit c value → Numeral (ds ++ [c]) (10 * n + value)

/-- The texts of an integer: a numeral of it, or of its opposite behind a
minus. -/
inductive Spells (text : String) : Int → Prop where
  | plain {n : Nat} : Numeral text.toList n → Spells text n
  | minus {ds : List Char} {n : Nat} : text.toList = '-' :: ds → Numeral ds n → Spells text (-n)

/-- The digits of the grammar are those of the reader, with their values. -/
theorem digit_iff {c : Char} {value : Nat} :
    Digit c value ↔ c.isDigit = true ∧ value = c.toNat - 48 := by
  unfold Digit
  constructor
  · intro h
    have hlt : value < 10 := (List.getElem?_eq_some_iff.mp h).1
    -- Ten rows, each checked by itself; a digit and its value are looked up in them.
    have hrow : ∀ n < 10, "0123456789".toList[n]?.map (fun d => (d.isDigit, d.toNat - 48)) =
        some (true, n) := by decide
    have hvalue := hrow value hlt
    rw [h, Option.map_some, Option.some.injEq, Prod.mk.injEq] at hvalue
    exact ⟨hvalue.1, hvalue.2.symm⟩
  · rintro ⟨hdigit, rfl⟩
    have hrow : ∀ n < 10, "0123456789".toList[n]? = some (Char.ofNat (n + 48)) := by decide
    simp only [Char.isDigit, Bool.and_eq_true, decide_eq_true_eq] at hdigit
    have hlow : 48 ≤ c.toNat := hdigit.1
    have hhigh : c.toNat ≤ 57 := hdigit.2
    rw [hrow (c.toNat - 48) (by omega), ← Hex.eq_ofNat_sub_add hlow]

/-- What is counted is a run of digits that is not empty. -/
theorem digits?_eq_some_iff {ds : List Char} {n : Nat} :
    digits? ds = some n ↔
      (ds ≠ [] ∧ ∀ c ∈ ds, c.isDigit = true) ∧ Nat.ofDigitChars 10 ds 0 = n := by
  simp only [digits?, Option.ite_none_right_eq_some, List.all_eq_true, Option.some.injEq]

/-- One more digit at the end, behind digits or behind nothing: the number is
counted in the same way. -/
theorem digits?_append_singleton_eq_some_iff {ds : List Char} {c : Char} {n : Nat} :
    digits? (ds ++ [c]) = some n ↔
      (∀ d ∈ ds, d.isDigit = true) ∧ ∃ value, Digit c value
        ∧ 10 * Nat.ofDigitChars 10 ds 0 + value = n := by
  have hcount : Nat.ofDigitChars 10 (ds ++ [c]) 0 =
      10 * Nat.ofDigitChars 10 ds 0 + (c.toNat - 48) := by
    rw [Nat.ofDigitChars_append, Nat.ofDigitChars_cons]
    rfl
  simp only [digits?_eq_some_iff, digit_iff, hcount, List.forall_mem_append,
    List.forall_mem_singleton, ne_eq, List.append_eq_nil_iff, List.cons_ne_nil, and_false,
    not_false_eq_true, true_and]
  constructor
  · rintro ⟨⟨hds, hc⟩, hn⟩
    exact ⟨hds, _, ⟨hc, rfl⟩, hn⟩
  · rintro ⟨hds, _, ⟨hc, rfl⟩, hn⟩
    exact ⟨⟨hds, hc⟩, hn⟩

/-- **What is counted is the number of a numeral.** -/
theorem digits?_eq_some_iff_numeral {ds : List Char} {n : Nat} :
    digits? ds = some n ↔ Numeral ds n := by
  constructor
  · intro h
    -- Numerals grow at their end, so the induction takes the last digit off.
    induction ds using List.reverseRecOn generalizing n with
    | nil => exact absurd rfl (digits?_eq_some_iff.mp h).1.1
    | append_singleton ds c ih =>
      obtain ⟨hds, value, hc, rfl⟩ := digits?_append_singleton_eq_some_iff.mp h
      by_cases hne : ds = []
      · subst hne
        simpa [Nat.ofDigitChars] using Numeral.one hc
      · exact (ih (digits?_eq_some_iff.mpr ⟨⟨hne, hds⟩, rfl⟩)).more hc
  · intro h
    induction h with
    | @one c value hc =>
      rw [← List.nil_append [c], digits?_append_singleton_eq_some_iff]
      exact ⟨fun _ h => absurd h List.not_mem_nil, value, hc, Nat.zero_add value⟩
    | @more ds c n value _ hc ih =>
      obtain ⟨⟨-, hds⟩, rfl⟩ := digits?_eq_some_iff.mp ih
      exact digits?_append_singleton_eq_some_iff.mpr ⟨hds, value, hc, rfl⟩

theorem Numeral.unique {ds : List Char} {m n : Nat} (hm : Numeral ds m) (hn : Numeral ds n) :
    m = n := by
  rw [← digits?_eq_some_iff_numeral] at hm hn
  exact Option.some.inj (hm.symm.trans hn)

/-- Any digits are the numeral of something. -/
theorem exists_numeral_iff {ds : List Char} :
    (∃ n, Numeral ds n) ↔ ds ≠ [] ∧ ∀ c ∈ ds, c ∈ "0123456789".toList := by
  have hdigit : ∀ c : Char, c.isDigit = true ↔ c ∈ "0123456789".toList := by
    intro c
    rw [List.mem_iff_getElem?]
    constructor
    · intro h
      exact ⟨c.toNat - 48, digit_iff.mpr ⟨h, rfl⟩⟩
    · rintro ⟨value, h⟩
      exact (digit_iff.mp h).1
  simp only [← digits?_eq_some_iff_numeral, digits?_eq_some_iff, hdigit, exists_and_left,
    exists_eq', and_true]

/-- A numeral does not begin with a minus. -/
theorem Numeral.ne_minus_cons {ds rest : List Char} {n : Nat} (h : Numeral ds n) :
    ds ≠ '-' :: rest := by
  rintro rfl
  obtain ⟨⟨-, hall⟩, -⟩ := digits?_eq_some_iff.mp (digits?_eq_some_iff_numeral.mpr h)
  exact absurd (hall '-' List.mem_cons_self) (by decide)

/-- A zero in front of a numeral does not count. -/
theorem Numeral.zero_cons {ds : List Char} {n : Nat} (h : Numeral ds n) :
    Numeral ('0' :: ds) n := by
  have hzero : Digit '0' 0 := rfl
  induction h with
  | one hc => simpa using (Numeral.one hzero).more hc
  | more _ hc ih => exact ih.more hc

/-- Any number of zeros in front of it does not count either. -/
theorem Numeral.replicate_zero_append {ds : List Char} {n : Nat} (h : Numeral ds n) (k : Nat) :
    Numeral (List.replicate k '0' ++ ds) n := by
  induction k with
  | zero => exact h
  | succ k ih =>
    rw [List.replicate_succ, List.cons_append]
    exact ih.zero_cons

/-! ## Integers -/

/-- A magnitude that is read fits as soon as the integer does. -/
theorem digits?_bind_eq_some_iff {negative : Bool} {ds : List Char} {n : WideInt} :
    (digits? ds).bind (ofSignMagnitude? negative) = some n ↔
      ∃ magnitude, Numeral ds magnitude
        ∧ n.value = if negative then -(magnitude : Int) else magnitude := by
  simp only [Option.bind_eq_some_iff, digits?_eq_some_iff_numeral, ofSignMagnitude?_eq_some_iff]
  refine exists_congr fun magnitude => and_congr_right fun _ => ?_
  refine and_iff_right_of_imp fun hvalue => ?_
  have hn := n.natAbs_lt
  rw [hvalue] at hn
  cases negative <;> simpa using hn

/-- **Reading finds the integer that a text spells**, if it is in range. -/
theorem parse?_eq_some_iff {text : String} {n : WideInt} :
    parse? text = some n ↔ Spells text n.value := by
  unfold parse?
  split
  · next ds htext =>
    rw [digits?_bind_eq_some_iff]
    constructor
    · rintro ⟨magnitude, hds, hvalue⟩
      rw [hvalue]
      exact .minus htext hds
    · intro h
      -- The value is no variable, and the form of the text decides which rule spelled it.
      generalize n.value = value at h
      cases h with
      | plain hds => exact absurd htext hds.ne_minus_cons
      | minus heq hds =>
        rw [htext, List.cons.injEq] at heq
        exact ⟨_, heq.2 ▸ hds, rfl⟩
  · next hminus =>
    rw [digits?_bind_eq_some_iff]
    constructor
    · rintro ⟨magnitude, hds, hvalue⟩
      rw [hvalue]
      exact .plain hds
    · intro h
      generalize n.value = value at h
      cases h with
      | plain hds => exact ⟨_, hds, rfl⟩
      | minus heq _ => exact absurd heq (hminus _)

theorem Spells.unique {text : String} {a b : Int} (ha : Spells text a) (hb : Spells text b) :
    a = b := by
  cases ha with
  | plain hm =>
    cases hb with
    | plain hn => rw [hm.unique hn]
    | minus hn _ => exact absurd hn hm.ne_minus_cons
  | minus hm hds =>
    cases hb with
    | plain hn => exact absurd hm hn.ne_minus_cons
    | minus hn hes =>
      obtain rfl : _ = _ := (List.cons.inj (hm.symm.trans hn)).2
      rw [hds.unique hes]

/-- The texts that spell integers, by their characters. -/
theorem exists_spells_iff {text : String} :
    (∃ value, Spells text value) ↔
      ∃ ds, (text.toList = ds ∨ text.toList = '-' :: ds)
        ∧ ds ≠ [] ∧ ∀ c ∈ ds, c ∈ "0123456789".toList := by
  simp only [← exists_numeral_iff]
  constructor
  · rintro ⟨_, h⟩
    cases h with
    | plain h => exact ⟨_, .inl rfl, _, h⟩
    | minus heq h => exact ⟨_, .inr heq, _, h⟩
  · rintro ⟨ds, heq | heq, n, h⟩
    · exact ⟨_, .plain (heq ▸ h)⟩
    · exact ⟨_, .minus heq h⟩

/-- Texts that spell the same are read as the same. -/
theorem parse?_congr {s t : String} {value : Int} (hs : Spells s value) (ht : Spells t value) :
    parse? s = parse? t := by
  apply Option.ext
  intro n
  rw [parse?_eq_some_iff, parse?_eq_some_iff]
  constructor
  · intro h
    rwa [h.unique hs]
  · intro h
    rwa [h.unique ht]

/-- **Zeros in front of the digits change nothing**, behind a minus or without
one. -/
theorem parse?_replicate_zero {text : String} {sign ds : List Char} {n : Nat}
    (htext : text.toList = sign ++ ds) (hsign : sign = [] ∨ sign = ['-']) (hds : Numeral ds n)
    (zeros : Nat) :
    parse? (String.ofList (sign ++ List.replicate zeros '0' ++ ds)) = parse? text := by
  have hzeros := hds.replicate_zero_append zeros
  rcases hsign with rfl | rfl
  · refine parse?_congr (.plain (n := n) ?_) (.plain ?_)
    · rwa [String.toList_ofList]
    · rwa [htext]
  · exact parse?_congr (.minus String.toList_ofList hzeros) (.minus htext hds)

/-- **The language of decimal integers.** A text is read as an integer exactly
when it spells that integer, so a text is read exactly when it spells something
of a magnitude below `2 ^ 256`, and a text that spells nothing, or something
beyond, is not read. The texts that spell are one digit or more behind at most
one minus, and a text spells one integer only. Zeros in front of the digits
change nothing, however many they are. -/
theorem parse?_language (text : String) :
    (∀ n, parse? text = some n ↔ Spells text n.value)
      ∧ ((∃ n, parse? text = some n) ↔
          ∃ value, Spells text value ∧ value.natAbs ≤ 2 ^ 256 - 1)
      ∧ (parse? text = none ↔ ∀ value, Spells text value → 2 ^ 256 ≤ value.natAbs)
      ∧ (∀ a b, Spells text a → Spells text b → a = b)
      ∧ ((∃ value, Spells text value) ↔
          ∃ ds, (text.toList = ds ∨ text.toList = '-' :: ds)
            ∧ ds ≠ [] ∧ ∀ c ∈ ds, c ∈ "0123456789".toList)
      ∧ ∀ sign ds n zeros, text.toList = sign ++ ds → sign = [] ∨ sign = ['-'] → Numeral ds n →
          parse? (String.ofList (sign ++ List.replicate zeros '0' ++ ds)) = parse? text := by
  have hbound : bound = 2 ^ 256 := Nat.pow_eq
  -- What is in range has a number, so being read and being spelled in range are the same.
  have hexists :
      (∃ n, parse? text = some n) ↔ ∃ value, Spells text value ∧ value.natAbs < bound := by
    simp only [parse?_eq_some_iff]
    constructor
    · rintro ⟨n, hn⟩
      exact ⟨n.value, hn, n.natAbs_lt⟩
    · rintro ⟨value, hvalue, hlt⟩
      obtain ⟨n, rfl⟩ := exists_value_eq hlt
      exact ⟨n, hvalue⟩
  refine ⟨fun n => parse?_eq_some_iff, ?_, ?_, fun a b => Spells.unique, exists_spells_iff,
    fun sign ds n zeros htext hsign hds => parse?_replicate_zero htext hsign hds zeros⟩
  · rw [hexists, hbound]
    refine exists_congr fun value => and_congr_right fun _ => ?_
    omega
  · rw [Option.eq_none_iff_forall_ne_some, ← not_exists, hexists, hbound]
    simp only [not_exists, not_and, Nat.not_lt]

/-- The largest magnitude is in range and the next is not. -/
example :
    (parse? "-115792089237316195423570985008687907853269984665640564039457584007913129639935").map
        WideInt.value = some (-(2 ^ 256 - 1))
      ∧ parse? "115792089237316195423570985008687907853269984665640564039457584007913129639936" =
          none := by
  decide +kernel

end EscrowFeed.WideInt
