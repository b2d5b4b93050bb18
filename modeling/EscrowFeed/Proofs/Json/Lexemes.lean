/-
The readers of blanks, numbers and quoted strings, against the language.

A reader is right when two things hold of it, and `Reads` is both. It takes
nothing from the front of a text but a spelling of what it returns; and it takes
every spelling, as long as what comes after does not carry the spelling on. The
second half needs that proviso for numbers only: `1` is a number and a reader
that is given `12` must not stop there. `NoNumeral` is what then has to hold of
the rest, and since a number is followed by a blank, a comma or a bracket
wherever it stands, no caller ever has trouble to show it.
-/
import EscrowFeed.Json.Lexeme
import EscrowFeed.Proofs.Json.Grammar

set_option autoImplicit false

namespace EscrowFeed.Json

/-- A reader takes exactly the spellings of a relation from the front of a text,
provided that the rest of the text is such that nothing more belongs to them. -/
structure Reads {α : Type} (read : List Char → Option (α × List Char))
    (Spelling : α → List Char → Prop) (Ends : List Char → Prop) : Prop where
  sound : ∀ {s rest : List Char} {a : α}, read s = some (a, rest) →
    ∃ t, Spelling a t ∧ s = t ++ rest
  complete : ∀ {t rest : List Char} {a : α}, Spelling a t → Ends rest →
    read (t ++ rest) = some (a, rest)

/-! ## Blanks -/

/-- The blanks of the reader are the blanks of the grammar. -/
theorem isBlank_iff {c : Char} :
    isBlank c = true ↔ c = ' ' ∨ c = '\t' ∨ c = '\n' ∨ c = '\r' := by
  simp only [isBlank, Bool.or_eq_true, beq_iff_eq, or_assoc]

theorem blank_nil : Blank [] := fun _ hc => absurd hc List.not_mem_nil

theorem Blank.append {s t : List Char} (hs : Blank s) (ht : Blank t) : Blank (s ++ t) := by
  intro c hc
  rcases List.mem_append.mp hc with h | h
  · exact hs c h
  · exact ht c h

/-- What is skipped is blank. -/
theorem exists_blank_append_skipBlank (s : List Char) :
    ∃ before, Blank before ∧ s = before ++ skipBlank s := by
  refine ⟨s.takeWhile isBlank, ?_, (List.takeWhile_append_dropWhile).symm⟩
  intro c hc
  exact isBlank_iff.mp (List.all_eq_true.mp List.all_takeWhile c hc)

/-- All that is blank is skipped. -/
theorem skipBlank_append {before : List Char} (h : Blank before) (s : List Char) :
    skipBlank (before ++ s) = skipBlank s := by
  rw [skipBlank, skipBlank, List.dropWhile_append_of_pos]
  intro c hc
  exact isBlank_iff.mpr (h c hc)

/-- Skipping stops at the first character that is no blank. -/
theorem skipBlank_cons {c : Char} (h : isBlank c = false) (s : List Char) :
    skipBlank (c :: s) = c :: s := by
  rw [skipBlank, List.dropWhile_cons, h]
  rfl

/-- Nothing is left only of a text that is blank from end to end. -/
theorem skipBlank_eq_nil_iff {s : List Char} : skipBlank s = [] ↔ Blank s := by
  constructor
  · intro h
    obtain ⟨before, hbefore, hs⟩ := exists_blank_append_skipBlank s
    rw [h, List.append_nil] at hs
    rw [hs]
    exact hbefore
  · intro h
    have happ := skipBlank_append h []
    rwa [List.append_nil] at happ

/-! ## Numbers

The readers of the parts of a number return the characters they took, so the
relation that they read is a condition on a text together with the equation that
the returned characters are that text. -/

/-- A text that is its own spelling. -/
def Literally (Condition : List Char → Prop) (a s : List Char) : Prop := a = s ∧ Condition s

/-- The text does not begin with a digit. -/
def NoDigit (s : List Char) : Prop := ∀ c, s.head? = some c → c.isDigit = false

/-- The text does not begin with a character that may carry a number on. -/
def NoNumeral (s : List Char) : Prop :=
  NoDigit s ∧ s.head? ≠ some '.' ∧ s.head? ≠ some 'e' ∧ s.head? ≠ some 'E'

/-- No number goes on behind the end of a text. -/
theorem noNumeral_nil : NoNumeral [] := by
  refine ⟨?_, ?_, ?_, ?_⟩
  · intro c hc
    cases hc
  all_goals
    intro hc
    cases hc

/-- Taking digits takes all of a run of them, as long as no digit follows the
run. -/
theorem takeWhile_isDigit_append {digits rest : List Char} (h : ∀ c ∈ digits, c.isDigit = true)
    (hrest : NoDigit rest) : (digits ++ rest).takeWhile Char.isDigit = digits := by
  rw [List.takeWhile_append_of_pos h]
  cases rest with
  | nil => exact List.append_nil digits
  | cons c rest =>
    rw [List.takeWhile_cons, hrest c rfl]
    exact List.append_nil digits

/-- What stands behind a run of digits is left as it is. -/
theorem dropWhile_isDigit_append {digits rest : List Char} (h : ∀ c ∈ digits, c.isDigit = true)
    (hrest : NoDigit rest) : (digits ++ rest).dropWhile Char.isDigit = rest := by
  rw [List.dropWhile_append_of_pos h]
  cases rest with
  | nil => rfl
  | cons c rest =>
    rw [List.dropWhile_cons, hrest c rfl]
    rfl

/-- Digits are read up to the first character that is none. -/
theorem readDigits?_reads : Reads readDigits? (Literally Digits) NoDigit where
  sound := by
    intro s rest a h
    rw [readDigits?] at h
    split at h
    · cases h
    · next hne =>
      obtain ⟨rfl, rfl⟩ := Prod.mk.inj (Option.some.inj h)
      exact ⟨_, ⟨rfl, hne, fun c hc => List.all_eq_true.mp List.all_takeWhile c hc⟩,
        (List.takeWhile_append_dropWhile).symm⟩
  complete := by
    rintro t rest a ⟨rfl, hne, hall⟩ hrest
    rw [readDigits?, takeWhile_isDigit_append hall hrest, dropWhile_isDigit_append hall hrest]
    exact if_neg hne

/-- Whole numbers are read digit by digit, and refused when a zero leads other
digits. -/
theorem readWhole?_reads : Reads readWhole? (Literally Whole) NoDigit where
  sound := by
    intro s rest a h
    simp only [readWhole?, Option.bind_eq_bind, Option.bind_eq_some_iff, Prod.exists] at h
    obtain ⟨digits, after, hdigits, h⟩ := h
    split at h
    · cases h
    · next hzero =>
      obtain ⟨rfl, rfl⟩ := Prod.mk.inj (Option.some.inj h)
      obtain ⟨t, ⟨rfl, hd⟩, rfl⟩ := readDigits?_reads.sound hdigits
      refine ⟨digits, ⟨rfl, hd, fun hhead => ?_⟩, rfl⟩
      -- The reader refuses digits that begin with zero and are more than one.
      have hlength : digits.length = 1 := Decidable.not_not.mp fun hne => hzero ⟨hhead, hne⟩
      obtain ⟨c, rfl⟩ := List.length_eq_one_iff.mp hlength
      rw [List.head?_cons] at hhead
      rw [Option.some.inj hhead]
  complete := by
    rintro t rest a ⟨rfl, hd, hzero⟩ hrest
    rw [readWhole?, readDigits?_reads.complete ⟨rfl, hd⟩ hrest]
    apply if_neg
    rintro ⟨hhead, hlength⟩
    rw [hzero hhead] at hlength
    exact hlength rfl

/-- The sign of a number and the sign of an exponent are read in one way: a
first character that is a sign is taken, any other is left. -/
theorem readMinus_sound (s : List Char) :
    Minus (readMinus s).1 ∧ s = (readMinus s).1 ++ (readMinus s).2 := by
  unfold readMinus
  split
  · exact ⟨.inr rfl, rfl⟩
  · exact ⟨.inl rfl, rfl⟩

/-- A minus is taken, and so is none, unless the rest begins with one. -/
theorem readMinus_append {minus rest : List Char} (h : Minus minus)
    (hrest : rest.head? ≠ some '-') : readMinus (minus ++ rest) = (minus, rest) := by
  rcases h with rfl | rfl
  · -- Nothing is taken off a text that has no minus to take.
    rw [List.nil_append, readMinus.eq_def]
    split
    · exact absurd rfl hrest
    · rfl
  · rfl

/-- What is taken for a sign is a sign, of either kind or none. -/
theorem readExponentSign_sound (s : List Char) :
    ExponentSign (readExponentSign s).1 ∧ s = (readExponentSign s).1 ++ (readExponentSign s).2 := by
  unfold readExponentSign
  split
  · exact ⟨.inr (.inl rfl), rfl⟩
  · exact ⟨.inr (.inr rfl), rfl⟩
  · exact ⟨.inl rfl, rfl⟩

/-- A sign is taken whole when the rest does not begin with another. -/
theorem readExponentSign_append {sign rest : List Char} (h : ExponentSign sign)
    (hplus : rest.head? ≠ some '+') (hminus : rest.head? ≠ some '-') :
    readExponentSign (sign ++ rest) = (sign, rest) := by
  rcases h with rfl | rfl | rfl
  · rw [List.nil_append, readExponentSign.eq_def]
    split
    · exact absurd rfl hplus
    · exact absurd rfl hminus
    · rfl
  · rfl
  · rfl

/-- Digits begin with a digit, hence with none of the marks of a number. -/
theorem Digits.head?_ne {digits : List Char} (h : Digits digits) {c : Char}
    (hc : c.isDigit = false) (rest : List Char) : (digits ++ rest).head? ≠ some c := by
  obtain ⟨hne, hall⟩ := h
  cases digits with
  | nil => exact absurd rfl hne
  | cons d digits =>
    rw [List.cons_append, List.head?_cons]
    intro heq
    have hd := hall d List.mem_cons_self
    rw [Option.some.inj heq, hc] at hd
    cases hd

/-- A fraction, or none, is read up to the first character that is no digit;
none is read only where no point follows. -/
theorem readFraction?_reads :
    Reads readFraction? (Literally Fraction) fun s => NoDigit s ∧ s.head? ≠ some '.' where
  sound := by
    intro s rest a h
    unfold readFraction? at h
    split at h
    · simp only [Option.bind_eq_bind, Option.bind_eq_some_iff, Prod.exists, Option.pure_def] at h
      obtain ⟨digits, after, hdigits, h⟩ := h
      obtain ⟨rfl, rfl⟩ := Prod.mk.inj (Option.some.inj h)
      obtain ⟨t, ⟨rfl, hd⟩, rfl⟩ := readDigits?_reads.sound hdigits
      exact ⟨'.' :: digits, ⟨rfl, .inr ⟨digits, hd, rfl⟩⟩, rfl⟩
    · obtain ⟨rfl, rfl⟩ := Prod.mk.inj (Option.some.inj h)
      exact ⟨[], ⟨rfl, .inl rfl⟩, rfl⟩
  complete := by
    rintro t rest a ⟨rfl, rfl | ⟨digits, hd, rfl⟩⟩ ⟨hdigit, hpoint⟩
    · rw [List.nil_append, readFraction?.eq_def]
      split
      · exact absurd rfl hpoint
      · rfl
    · rw [List.cons_append, readFraction?, readDigits?_reads.complete ⟨rfl, hd⟩ hdigit]
      rfl

/-- An exponent, or none, is read in the same way; none is read only where no
`e` follows. -/
theorem readExponent?_reads :
    Reads readExponent? (Literally Exponent) fun s =>
      NoDigit s ∧ s.head? ≠ some 'e' ∧ s.head? ≠ some 'E' where
  sound := by
    intro s rest a h
    cases s with
    | nil =>
      obtain ⟨rfl, rfl⟩ := Prod.mk.inj (Option.some.inj h)
      exact ⟨[], ⟨rfl, .inl rfl⟩, rfl⟩
    | cons c s =>
      rw [readExponent?] at h
      split at h
      · next hmark =>
        simp only [Option.bind_eq_bind, Option.bind_eq_some_iff, Prod.exists, Option.pure_def] at h
        obtain ⟨digits, after, hdigits, h⟩ := h
        obtain ⟨rfl, rfl⟩ := Prod.mk.inj (Option.some.inj h)
        obtain ⟨t, ⟨rfl, hd⟩, hs⟩ := readDigits?_reads.sound hdigits
        obtain ⟨hsign, heq⟩ := readExponentSign_sound s
        refine ⟨c :: (readExponentSign s).1 ++ digits,
          ⟨rfl, .inr ⟨c, _, digits, hmark, hsign, hd, rfl⟩⟩, ?_⟩
        rw [List.cons_append, List.cons_append, List.append_assoc, ← hs, ← heq]
      · obtain ⟨rfl, rfl⟩ := Prod.mk.inj (Option.some.inj h)
        exact ⟨[], ⟨rfl, .inl rfl⟩, rfl⟩
  complete := by
    rintro t rest a ⟨rfl, rfl | ⟨mark, sign, digits, hmark, hsign, hd, rfl⟩⟩ ⟨hdigit, he, hE⟩
    · cases rest with
      | nil => rfl
      | cons c rest =>
        rw [List.nil_append, readExponent?]
        apply if_neg
        rintro (rfl | rfl)
        · exact he rfl
        · exact hE rfl
    · -- Digits come behind the sign, so it cannot be taken for longer than it is.
      have hread := readExponentSign_append hsign (hd.head?_ne (by decide) rest)
        (hd.head?_ne (by decide) rest)
      rw [List.cons_append, List.cons_append, List.append_assoc, readExponent?, if_pos hmark, hread]
      simp only [readDigits?_reads.complete (a := digits) ⟨rfl, hd⟩ hdigit, Option.bind_eq_bind,
        Option.bind_some, Option.pure_def, List.cons_append]

/-- No part of a number begins with a digit that could belong to the part before
it. -/
theorem Fraction.noDigit_append {fraction rest : List Char} (h : Fraction fraction)
    (hrest : NoDigit rest) : NoDigit (fraction ++ rest) := by
  rcases h with rfl | ⟨digits, -, rfl⟩
  · exact hrest
  · intro c hc
    cases hc
    rfl

/-- Behind a fraction no digit carries it on: an exponent begins with a letter,
and without one the rest decides. -/
theorem Exponent.noDigit_append {exponent rest : List Char} (h : Exponent exponent)
    (hrest : NoDigit rest) : NoDigit (exponent ++ rest) := by
  rcases h with rfl | ⟨mark, sign, digits, rfl | rfl, -, -, rfl⟩
  · exact hrest
  all_goals
    intro c hc
    cases hc
    rfl

/-- Nor does a point, for the same reason. -/
theorem Exponent.head?_append_ne_point {exponent rest : List Char} (h : Exponent exponent)
    (hrest : rest.head? ≠ some '.') : (exponent ++ rest).head? ≠ some '.' := by
  rcases h with rfl | ⟨mark, sign, digits, rfl | rfl, -, -, rfl⟩
  · exact hrest
  all_goals
    intro hc
    cases hc

/-- **A number is read to its end.** -/
theorem readNumber?_reads : Reads readNumber? (Literally Numeral) NoNumeral where
  sound := by
    intro s rest a h
    simp only [readNumber?, Option.bind_eq_bind, Option.bind_eq_some_iff, Prod.exists,
      Option.pure_def] at h
    obtain ⟨whole, s₁, hwhole, fraction, s₂, hfraction, exponent, s₃, hexponent, h⟩ := h
    obtain ⟨rfl, rfl⟩ := Prod.mk.inj (Option.some.inj h)
    obtain ⟨hminus, hs⟩ := readMinus_sound s
    obtain ⟨w, ⟨rfl, hw⟩, hs₁⟩ := readWhole?_reads.sound hwhole
    obtain ⟨f, ⟨rfl, hf⟩, rfl⟩ := readFraction?_reads.sound hfraction
    obtain ⟨e, ⟨rfl, he⟩, rfl⟩ := readExponent?_reads.sound hexponent
    refine ⟨_, ⟨rfl, _, _, _, _, hminus, hw, hf, he, rfl⟩, ?_⟩
    rw [List.append_assoc, List.append_assoc, List.append_assoc, ← hs₁, ← hs]
  complete := by
    rintro t rest a ⟨rfl, minus, whole, fraction, exponent, hminus, hw, hf, he, rfl⟩
      ⟨hdigit, hpoint, hmark⟩
    have hshape : minus ++ whole ++ fraction ++ exponent ++ rest
        = minus ++ (whole ++ (fraction ++ (exponent ++ rest))) := by
      simp only [List.append_assoc]
    -- From the end to the front: each part must see that the next one, or what
    -- comes after it where the next is empty, does not carry it on.
    have hexponent := readExponent?_reads.complete (a := exponent) ⟨rfl, he⟩ ⟨hdigit, hmark⟩
    have hfraction := readFraction?_reads.complete (a := fraction) ⟨rfl, hf⟩
      ⟨he.noDigit_append hdigit, he.head?_append_ne_point hpoint⟩
    have hwhole := readWhole?_reads.complete (a := whole) ⟨rfl, hw⟩
      (hf.noDigit_append (he.noDigit_append hdigit))
    rw [hshape, readNumber?, readMinus_append hminus (hw.1.head?_ne (by decide) _)]
    simp only [Option.bind_eq_bind, Option.bind_some, hwhole, hfraction, hexponent, Option.pure_def]

/-- A text is one number exactly when it is a numeral. -/
theorem isNumber_iff {text : String} : isNumber text = true ↔ Numeral text.toList := by
  constructor
  · intro h
    rw [isNumber] at h
    split at h
    · next hread =>
      obtain ⟨t, ⟨rfl, ht⟩, hs⟩ := readNumber?_reads.sound hread
      rw [hs, List.append_nil]
      exact ht
    · cases h
  · intro h
    have hread := readNumber?_reads.complete (a := text.toList) ⟨rfl, h⟩ noNumeral_nil
    rw [List.append_nil] at hread
    rw [isNumber, hread]

/-- A number is written without a fraction and without an exponent exactly when
it is an integer. -/
theorem isWhole_iff {text : String} : isWhole text = true ↔ Integer text.toList := by
  have hparts : isWhole text = true ↔ Digits (readMinus text.toList).2 := by
    simp only [isWhole, Bool.and_eq_true, Bool.not_eq_true', List.isEmpty_eq_false_iff,
      List.all_eq_true, Digits, ne_eq]
  rw [hparts]
  constructor
  · intro h
    obtain ⟨hminus, hs⟩ := readMinus_sound text.toList
    exact ⟨_, _, hminus, h, hs⟩
  · rintro ⟨minus, digits, hminus, hd, hs⟩
    have hhead := hd.head?_ne (c := '-') (by decide) []
    rw [List.append_nil] at hhead
    rw [hs, readMinus_append hminus hhead]
    exact hd

/-! ## Strings

No character and no escape is carried on by what comes after it, so the readers
of this section may stop anywhere. -/

/-- Any rest will do. -/
def Anything (_ : List Char) : Prop := True

/-- Four hex digits count to less than `2 ^ 16`. -/
theorem CodeUnit.lt {value : Nat} {s : List Char} (h : CodeUnit value s) : value < 65536 := by
  obtain ⟨a, b, c, d, x, y, z, w, rfl, hx, hy, hz, hw, rfl⟩ := h
  have hx := hx.lt
  have hy := hy.lt
  have hz := hz.lt
  have hw := hw.lt
  omega

/-- Code units are read as four hex digits of either case, whatever follows
them. -/
theorem readUnit?_reads : Reads readUnit? CodeUnit Anything where
  sound := by
    intro s rest unit h
    unfold readUnit? at h
    split at h
    · next a b c d after =>
      simp only [Option.bind_eq_bind, Option.bind_eq_some_iff, Option.pure_def] at h
      obtain ⟨x, hx, y, hy, z, hz, w, hw, h⟩ := h
      obtain ⟨rfl, rfl⟩ := Prod.mk.inj (Option.some.inj h)
      exact ⟨[a, b, c, d], ⟨a, b, c, d, x, y, z, w, rfl, Hex.digitValue?_eq_some_iff.mp hx,
        Hex.digitValue?_eq_some_iff.mp hy, Hex.digitValue?_eq_some_iff.mp hz,
        Hex.digitValue?_eq_some_iff.mp hw, rfl⟩, rfl⟩
    · cases h
  complete := by
    rintro t rest unit ⟨a, b, c, d, x, y, z, w, rfl, hx, hy, hz, hw, rfl⟩ -
    rw [List.cons_append, List.cons_append, List.cons_append, List.cons_append, readUnit?,
      Hex.digitValue?_eq_some_iff.mpr hx, Hex.digitValue?_eq_some_iff.mpr hy,
      Hex.digitValue?_eq_some_iff.mpr hz, Hex.digitValue?_eq_some_iff.mpr hw]
    rfl

/-- The range of the units that end a pair. -/
theorem isTrailing_iff {unit : Nat} :
    isTrailing unit = true ↔ 0xDC00 ≤ unit ∧ unit ≤ 0xDFFF := by
  simp only [isTrailing, Bool.and_eq_true, decide_eq_true_eq]

theorem isTrailing_eq_false {unit : Nat} (h : unit < 0xDC00 ∨ 0xDFFF < unit) :
    isTrailing unit = false := by
  rw [Bool.eq_false_iff, ne_eq, isTrailing_iff]
  omega

/-- The range of the units that begin a pair. -/
theorem isLeading_iff {unit : Nat} : isLeading unit = true ↔ 0xD800 ≤ unit ∧ unit ≤ 0xDBFF := by
  simp only [isLeading, Bool.and_eq_true, decide_eq_true_eq]

theorem isLeading_eq_false {unit : Nat} (h : unit < 0xD800 ∨ 0xDBFF < unit) :
    isLeading unit = false := by
  rw [Bool.eq_false_iff, ne_eq, isLeading_iff]
  omega

/-- The second half of a pair. -/
def TrailingUnit (unit : Nat) (s : List Char) : Prop :=
  ∃ digits, CodeUnit unit digits ∧ 0xDC00 ≤ unit ∧ unit ≤ 0xDFFF ∧ s = '\\' :: 'u' :: digits

/-- The second half of a pair is read behind its own backslash and letter. -/
theorem readTrailing?_reads : Reads readTrailing? TrailingUnit Anything where
  sound := by
    intro s rest unit h
    unfold readTrailing? at h
    split at h
    · simp only [Option.bind_eq_bind, Option.bind_eq_some_iff, Prod.exists] at h
      obtain ⟨u, after, hu, h⟩ := h
      split at h
      · next htrailing =>
        obtain ⟨rfl, rfl⟩ := Prod.mk.inj (Option.some.inj h)
        obtain ⟨digits, hdigits, rfl⟩ := readUnit?_reads.sound hu
        obtain ⟨hlow, hhigh⟩ := isTrailing_iff.mp htrailing
        exact ⟨_, ⟨digits, hdigits, hlow, hhigh, rfl⟩, rfl⟩
      · cases h
    · cases h
  complete := by
    rintro t rest unit ⟨digits, hdigits, hlow, hhigh, rfl⟩ -
    rw [List.cons_append, List.cons_append, readTrailing?,
      readUnit?_reads.complete hdigits trivial]
    exact if_pos (isTrailing_iff.mpr ⟨hlow, hhigh⟩)

/-- A code point that is a character is the number of that character. -/
theorem toNat_ofNat {n : Nat} (h : n.isValidChar) : (Char.ofNat n).toNat = n := by
  rw [Char.ofNat, dif_pos h]
  rfl

/-- What stands behind the letter `u` of an escape: a unit that is no half of a
pair, or a pair. -/
def UnicodeEscape (c : Char) (s : List Char) : Prop :=
  CodeUnit c.toNat s
    ∨ ∃ leading digits trailing t, CodeUnit leading digits ∧ 0xD800 ≤ leading ∧ leading ≤ 0xDBFF
        ∧ TrailingUnit trailing t
        ∧ c.toNat = 0x10000 + 0x400 * (leading - 0xD800) + (trailing - 0xDC00)
        ∧ s = digits ++ t

/-- An escape by number is one unit that stands alone or two that make a pair; a
half of a pair that stands alone is refused. -/
theorem readUnicode?_reads : Reads readUnicode? UnicodeEscape Anything where
  sound := by
    intro s rest c h
    simp only [readUnicode?, Option.bind_eq_bind, Option.bind_eq_some_iff, Prod.exists] at h
    obtain ⟨unit, after, hunit, h⟩ := h
    obtain ⟨digits, hdigits, rfl⟩ := readUnit?_reads.sound hunit
    have hlt := hdigits.lt
    split at h
    · cases h
    · next htrailing =>
      split at h
      · next hleading =>
        simp only [Option.bind_eq_some_iff, Prod.exists, Option.pure_def] at h
        obtain ⟨trailing, after', hread, h⟩ := h
        obtain ⟨rfl, rfl⟩ := Prod.mk.inj (Option.some.inj h)
        obtain ⟨t, ht, rfl⟩ := readTrailing?_reads.sound hread
        obtain ⟨hlow, hhigh⟩ := isLeading_iff.mp hleading
        obtain ⟨_, -, htlow, hthigh, -⟩ := id ht
        -- A leading and a trailing unit make a code point past the units.
        have hvalid : (0x10000 + 1024 * (unit - 0xD800) + (trailing - 0xDC00)).isValidChar :=
          .inr ⟨by omega, by omega⟩
        exact ⟨digits ++ t, .inr ⟨unit, digits, trailing, t, hdigits, hlow, hhigh, ht,
          toNat_ofNat hvalid, rfl⟩, (List.append_assoc ..).symm⟩
      · next hleading =>
        obtain ⟨rfl, rfl⟩ := Prod.mk.inj (Option.some.inj h)
        rw [isTrailing_iff] at htrailing
        rw [isLeading_iff] at hleading
        -- The two ranges together are all that a character's code may not be.
        have hvalid : unit.isValidChar := by
          rcases Nat.lt_or_ge unit 0xD800 with hlow | hhigh
          · exact .inl hlow
          · exact .inr ⟨by omega, by omega⟩
        refine ⟨digits, .inl ?_, rfl⟩
        rw [toNat_ofNat hvalid]
        exact hdigits
  complete := by
    rintro t rest c (hunit | ⟨leading, digits, trailing, t, hunit, hlow, hhigh, ht, hc, rfl⟩) -
    · -- The code of a character is no half of a pair.
      have hvalid : c.toNat < 0xD800 ∨ 0xDFFF < c.toNat ∧ c.toNat < 0x110000 := c.valid
      have htrailing : isTrailing c.toNat = false := isTrailing_eq_false (by omega)
      have hleading : isLeading c.toNat = false := isLeading_eq_false (by omega)
      rw [readUnicode?, readUnit?_reads.complete hunit trivial]
      simp only [Option.bind_eq_bind, Option.bind_some, htrailing, hleading, Bool.false_eq_true,
        if_false, Option.pure_def, Char.ofNat_toNat]
    · have htrailing : isTrailing leading = false := isTrailing_eq_false (by omega)
      have hpair : pairChar leading trailing = c := by
        rw [pairChar, ← hc, Char.ofNat_toNat]
      rw [List.append_assoc, readUnicode?, readUnit?_reads.complete hunit trivial]
      simp only [Option.bind_eq_bind, Option.bind_some, htrailing, Bool.false_eq_true, if_false,
        isLeading_iff.mpr ⟨hlow, hhigh⟩, if_true, readTrailing?_reads.complete ht trivial,
        Option.pure_def, hpair]

/-- The letters of the reader are those of the table. -/
theorem namedEscape?_eq_some_iff {letter c : Char} :
    namedEscape? letter = some c ↔ (letter, c) ∈ namedEscapes := by
  simp only [namedEscapes, List.mem_cons, Prod.mk.injEq, List.not_mem_nil, or_false]
  constructor
  · intro h
    unfold namedEscape? at h
    split at h <;> simp_all [eq_comm]
  · rintro (⟨rfl, rfl⟩ | ⟨rfl, rfl⟩ | ⟨rfl, rfl⟩ | ⟨rfl, rfl⟩ | ⟨rfl, rfl⟩ | ⟨rfl, rfl⟩ |
      ⟨rfl, rfl⟩ | ⟨rfl, rfl⟩) <;> rfl

/-- No letter of the table is the one that announces a number. -/
theorem ne_u_of_mem_namedEscapes {letter c : Char} (h : (letter, c) ∈ namedEscapes) :
    letter ≠ 'u' := by
  rintro rfl
  simp [namedEscapes] at h

/-- `readChar?` leaves it to its caller to look for the closing quote. -/
theorem readChar?_sound {s rest : List Char} {c : Char} (hquote : s.head? ≠ some '"')
    (h : readChar? s = some (c, rest)) : ∃ t, CharSpelling c t ∧ s = t ++ rest := by
  cases s with
  | nil => cases h
  | cons d s =>
    rw [readChar?] at h
    split at h
    · next hbackslash =>
      subst hbackslash
      cases s with
      | nil => cases h
      | cons letter s =>
        rw [readEscape?] at h
        split at h
        · next hu =>
          subst hu
          -- The reader of the digits knows units and pairs, the language has them apart.
          obtain ⟨t, ht, rfl⟩ := readUnicode?_reads.sound h
          refine ⟨'\\' :: 'u' :: t, ?_, rfl⟩
          rcases ht with hunit | ⟨leading, digits, trailing, _, hunit, hlow, hhigh,
            ⟨_, htrailing, htlow, hthigh, rfl⟩, hc, rfl⟩
          · exact .unit hunit
          · exact .pair hunit htrailing hlow hhigh htlow hthigh hc
        · rw [Option.map_eq_some_iff] at h
          obtain ⟨_, hnamed, h⟩ := h
          obtain ⟨rfl, rfl⟩ := Prod.mk.inj h
          exact ⟨['\\', letter], .named (namedEscape?_eq_some_iff.mp hnamed), rfl⟩
    · next hbackslash =>
      split at h
      · cases h
      · next hcontrol =>
        obtain ⟨rfl, rfl⟩ := Prod.mk.inj (Option.some.inj h)
        have hne : d ≠ '"' := fun hd => hquote (congrArg some hd)
        exact ⟨[d], .plain hne hbackslash (Nat.le_of_not_lt hcontrol), rfl⟩

/-- Every spelling of a character is read as that character. -/
theorem readChar?_complete {t rest : List Char} {c : Char} (h : CharSpelling c t) :
    readChar? (t ++ rest) = some (c, rest) := by
  cases h with
  | plain hquote hbackslash hcontrol =>
    rw [List.cons_append, readChar?, if_neg hbackslash, if_neg (Nat.not_lt.mpr hcontrol)]
    rfl
  -- The letter that announces a number is no letter of the table.
  | named hnamed =>
    rw [List.cons_append, List.cons_append, readChar?, if_pos rfl, readEscape?,
      if_neg (ne_u_of_mem_namedEscapes hnamed), namedEscape?_eq_some_iff.mpr hnamed]
    rfl
  | unit hunit =>
    rw [List.cons_append, List.cons_append, readChar?, if_pos rfl, readEscape?, if_pos rfl]
    exact readUnicode?_reads.complete (.inl hunit) trivial
  | pair hunit htrailing hlow hhigh htlow hthigh hc =>
    rw [List.cons_append, List.cons_append, List.cons_append, List.cons_append, readChar?,
      if_pos rfl, readEscape?, if_pos rfl]
    exact readUnicode?_reads.complete
      (.inr ⟨_, _, _, _, hunit, hlow, hhigh, ⟨_, htrailing, htlow, hthigh, rfl⟩, hc, rfl⟩) trivial

/-- The spelling of a character is not taken for the closing quote. -/
theorem CharSpelling.head?_ne {c : Char} {t : List Char} (h : CharSpelling c t) (rest : List Char) :
    (t ++ rest).head? ≠ some '"' := by
  cases h with
  | plain hquote => exact fun hc => hquote (Option.some.inj hc)
  | named => exact fun hc => nomatch hc
  | unit => exact fun hc => nomatch hc
  | pair => exact fun hc => nomatch hc

/-- The characters of a text and the quote that closes it. -/
def ClosedText (text s : List Char) : Prop := ∃ inner, TextSpelling text inner ∧ s = inner ++ ['"']

/-- One step of the reader of strings, on a character that is not the closing
quote. -/
theorem readText?_of_readChar? {s rest : List Char} {c : Char} (hquote : s.head? ≠ some '"')
    (h : readChar? s = some (c, rest)) :
    readText? s = (readText? rest).map fun read => (c :: read.1, read.2) := by
  -- The reader matches under the name of its own equation, so neither case can
  -- be rewritten with `h`; each is compared with it instead.
  rw [readText?, if_neg hquote]
  split
  · next hnone =>
    rw [h] at hnone
    cases hnone
  · next hsome =>
    rw [h] at hsome
    obtain ⟨rfl, rfl⟩ := Prod.mk.inj (Option.some.inj hsome)
    cases readText? rest <;> rfl

/-- **A string is read to its closing quote**, and no further. Soundness follows
the recursion of the reader, completeness the characters of the text. -/
theorem readText?_reads : Reads readText? ClosedText Anything where
  sound := by
    intro s rest text h
    induction s using readText?.induct generalizing text with
    | case1 s hquote =>
      rw [readText?, if_pos hquote] at h
      obtain ⟨rfl, rfl⟩ := Prod.mk.inj (Option.some.inj h)
      obtain ⟨after, rfl⟩ := List.head?_eq_some_iff.mp hquote
      exact ⟨['"'], ⟨[], .nil, rfl⟩, rfl⟩
    | case2 s hquote hchar =>
      rw [readText?, if_neg hquote] at h
      split at h
      · cases h
      · next hsome =>
        rw [hchar] at hsome
        cases hsome
    | case3 s hquote c after hchar ih =>
      rw [readText?_of_readChar? hquote hchar, Option.map_eq_some_iff] at h
      obtain ⟨⟨text, _⟩, hread, h⟩ := h
      obtain ⟨rfl, rfl⟩ := Prod.mk.inj h
      -- The spelling of the first character goes in front of that of the others.
      obtain ⟨t, ht, rfl⟩ := readChar?_sound hquote hchar
      obtain ⟨_, ⟨inner, hinner, rfl⟩, rfl⟩ := ih hread
      refine ⟨t ++ inner ++ ['"'], ⟨t ++ inner, .cons ht hinner, rfl⟩, ?_⟩
      simp only [List.append_assoc]
  complete := by
    rintro t rest text ⟨inner, hinner, rfl⟩ -
    induction hinner with
    | nil =>
      rw [readText?]
      rfl
    | cons hc htext ih =>
      rw [List.append_assoc, List.append_assoc,
        readText?_of_readChar? (hc.head?_ne _) (readChar?_complete hc), ← List.append_assoc, ih]
      rfl

end EscrowFeed.Json
