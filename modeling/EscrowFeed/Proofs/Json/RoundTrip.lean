/-
What is written reads back.

Not every value has a written form that reads as the value. A number may hold a
text that is no number, members may be out of order, an object may open with the
key that stands for a number, and a value may nest too deep; all of these can be
built, and none of them comes out of a reader. `Readable` excludes exactly
these. For the rest the written form is one of the spellings in the grammar, and
that the reader finds the value of every spelling is known already, so nothing
here looks at a reader.
-/
import EscrowFeed.Json.Printer
import EscrowFeed.Proofs.Json.Language
import Mathlib.Data.List.Forall2

set_option autoImplicit false

namespace EscrowFeed.Json

/-- The value opens at most so many levels, its numbers are numbers and its
objects are objects. -/
def Readable : Nat → Json → Prop
  | _, .null | _, .bool _ | _, .string _ => True
  | _, .number text => Numeral text.toList
  | 0, .array _ | 0, .object _ => False
  | levels + 1, .array items => ∀ item ∈ items, Readable levels item
  | levels + 1, .object members =>
    Members.Sorted members ∧ (∀ m, members.head? = some m → m.1 ≠ numberKey)
      ∧ ∀ m ∈ members, Readable levels m.2

/-! ## Characters -/

/-- A value below 256 is written in four digits, of which the first two are
zeros. -/
theorem codeUnit_of_lt {n : Nat} (h : n < 256) :
    CodeUnit n ['0', '0', Nat.digitChar (n / 16), Nat.digitChar (n % 16)] := by
  have hzero : Hex.Digit '0' 0 := .inl rfl
  have hhigh := Hex.digitValue?_eq_some_iff.mp
    (Hex.digitValue?_digitChar (show n / 16 < 16 by omega))
  have hlow := Hex.digitValue?_eq_some_iff.mp
    (Hex.digitValue?_digitChar (show n % 16 < 16 by omega))
  exact ⟨'0', '0', _, _, 0, 0, n / 16, n % 16, rfl, hzero, hzero, hhigh, hlow, by omega⟩

/-- Each way in which a character is written is one of its spellings. -/
theorem charSpelling_escapeChar (c : Char) : CharSpelling c (escapeChar c) := by
  have hnamed : ∀ letter, (letter, c) ∈ namedEscapes → CharSpelling c ['\\', letter] :=
    fun letter h => .named h
  -- The branches of the printer in their order: letters, then digits, then the plain rest.
  rw [escapeChar]
  split
  · next h => exact hnamed '"' (by rw [h]; decide)
  · next hquote =>
    split
    · next h => exact hnamed '\\' (by rw [h]; decide)
    · next hbackslash =>
      split
      · next h => exact hnamed 'b' (by rw [h]; decide)
      · split
        · next h => exact hnamed 't' (by rw [h]; decide)
        · split
          · next h => exact hnamed 'n' (by rw [h]; decide)
          · split
            · next h => exact hnamed 'f' (by rw [h]; decide)
            · split
              · next h => exact hnamed 'r' (by rw [h]; decide)
              · split
                · next h => exact .unit (codeUnit_of_lt (by omega))
                · next h => exact .plain hquote hbackslash (Nat.le_of_not_lt h)

/-- Characters that are escaped one by one spell the text. -/
theorem textSpelling_flatMap_escapeChar (text : List Char) :
    TextSpelling text (text.flatMap escapeChar) := by
  induction text with
  | nil => exact .nil
  | cons c rest ih =>
    rw [List.flatMap_cons]
    exact .cons (charSpelling_escapeChar c) ih

/-- What is printed for a text is the text between quotes. -/
theorem quoted_printText (text : String) : Quoted text (printText text) :=
  ⟨_, textSpelling_flatMap_escapeChar text.toList, rfl⟩

/-! ## Series -/

section

variable {α : Type} {Item : α → List Char → Prop}

/-- Spellings that are joined with commas are a series, without any blanks. -/
theorem series_intercalate {a : α} {items : List α} {text : List Char} {texts : List (List Char)}
    (h : List.Forall₂ Item (a :: items) (text :: texts)) :
    Series Item (a :: items) ([','].intercalate (text :: texts)) := by
  -- A series is never empty, so the induction starts from one item.
  induction items generalizing a text texts with
  | nil =>
    obtain ⟨ha, hnil⟩ := List.forall₂_cons.mp h
    cases hnil
    have hone := Series.one blank_nil ha blank_nil
    rw [List.nil_append, List.append_nil] at hone
    rw [List.intercalate_singleton]
    exact hone
  | cons b rest ih =>
    obtain ⟨ha, hrest⟩ := List.forall₂_cons.mp h
    cases hrest with
    | cons hb hrest =>
      have hmore := Series.more blank_nil ha blank_nil (ih (.cons hb hrest))
      rw [List.nil_append, List.append_nil] at hmore
      rw [List.intercalate_cons_cons, List.append_assoc]
      exact hmore

/-- Spellings joined with commas between brackets spell the list. -/
theorem bracketed_intercalate {opening closing : Char} {items : List α}
    {texts : List (List Char)} (h : List.Forall₂ Item items texts) :
    Bracketed Item opening closing items (opening :: [','].intercalate texts ++ [closing]) := by
  refine ⟨_, ?_, rfl⟩
  cases h with
  | nil => exact .inl ⟨rfl, blank_nil⟩
  | cons ha hrest => exact .inr (series_intercalate (.cons ha hrest))

theorem forall₂_map {print : α → List Char} {items : List α} (h : ∀ b ∈ items, Item b (print b)) :
    List.Forall₂ Item items (items.map print) :=
  List.forall₂_map_right_iff.mpr (List.forall₂_same.mpr h)

end

/-! ## Values -/

theorem printItems_eq_map (items : List Json) : printItems items = items.map print := by
  induction items with
  | nil => rw [printItems, List.map_nil]
  | cons item rest ih => rw [printItems, ih, List.map_cons]

/-- A member as it is written. -/
def printMember (member : String × Json) : List Char :=
  printText member.1 ++ ':' :: print member.2

theorem printMembers_eq_map (members : List (String × Json)) :
    printMembers members = members.map printMember := by
  induction members with
  | nil => rw [printMembers, List.map_nil]
  | cons member rest ih => rw [printMembers, ih, List.map_cons, printMember]

/-- A key between quotes, a colon and a value spell a member. -/
theorem member_printText {Value : Json → List Char → Prop} {value : Json} {s : List Char}
    (key : String) (h : Value value s) : Member Value (key, value) (printText key ++ ':' :: s) := by
  refine ⟨_, [], [], _, quoted_printText key, blank_nil, blank_nil, h, ?_⟩
  rw [List.append_nil, List.append_assoc]
  rfl

/-- The written form of an object spells its members, in whatever order they
are and whatever they make. -/
theorem bracketed_members {Value : Json → List Char → Prop} {members : List (String × Json)}
    (h : ∀ m ∈ members, Value m.2 (print m.2)) :
    Bracketed (Member Value) '\x7b' '\x7d' members
      ('\x7b' :: [','].intercalate (members.map printMember) ++ ['\x7d']) :=
  bracketed_intercalate (forall₂_map fun m hm => member_printText m.1 (h m hm))

/-- What opens no level is a scalar, and is printed as one. -/
theorem Readable.scalar {value : Json} (h : value.Readable 0) : Scalar value (print value) := by
  cases value with
  | null =>
    rw [print]
    exact .null
  | bool b =>
    cases b with
    | true =>
      rw [print]
      exact .isTrue
    | false =>
      rw [print]
      exact .isFalse
  | number text =>
    rw [Readable] at h
    rw [print]
    have hnumber := Scalar.number h
    rwa [String.ofList_toList] at hnumber
  | string text =>
    rw [print]
    exact .string (quoted_printText text)
  | array items => exact absurd h (by rw [Readable]; exact id)
  | object members => exact absurd h (by rw [Readable]; exact id)

/-- **The written form of a value is a spelling of it.** -/
theorem Readable.spells {levels : Nat} {value : Json} (h : value.Readable levels) :
    Spells levels value (print value) := by
  -- On the levels and not on the value: the items of a value are readable one level down.
  induction levels generalizing value with
  | zero => exact h.scalar
  | succ levels ih =>
    cases value with
    | array items =>
      rw [Readable] at h
      rw [print, printItems_eq_map]
      refine .inr (.inl ⟨items, rfl, bracketed_intercalate (forall₂_map fun item hitem => ?_)⟩)
      exact ih (h item hitem)
    | object members =>
      rw [Readable] at h
      obtain ⟨hsorted, hkey, hmembers⟩ := h
      rw [print, printMembers_eq_map]
      refine .inr (.inr ⟨members, .object hkey hsorted.lastOfEach, ?_⟩)
      exact bracketed_members fun m hm => ih (hmembers m hm)
    | null | bool b | number text | string text => exact .inl (Readable.scalar h)

/-- **What is written reads back.** -/
theorem Readable.read?_text {value : Json} (h : value.Readable 127) :
    read? value.text = some value := by
  refine read?_eq_some_iff.mpr ⟨[], print value, [], blank_nil, h.spells, blank_nil, ?_⟩
  rw [text, String.toList_ofList, List.nil_append, List.append_nil]

end EscrowFeed.Json
