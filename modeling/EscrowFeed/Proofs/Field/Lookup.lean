/-
What a typed lookup finds, and the lookup of bytes in particular.

A lookup has three ends, and each of them is a statement about the node under
the key: the node is a text that is not empty and converts, it is such a text
and does not, or it is no such text. This holds for every type of field.

Bytes are the type with the most spellings of one value. Their text is hex
digits of either case, with `0x` in front or without, and only one text of them
is ever written. `hexDigits` takes the mark off, once and with the small letter
only; what is left spells bytes or does not, and by its lowercase it is told
which. An empty text is not read at all, although no digits spell no bytes: a
mark with nothing behind it is how no bytes are written.
-/
import EscrowFeed.Field.Basic
import EscrowFeed.Upsert
import EscrowFeed.Proofs.Hex

set_option autoImplicit false

namespace EscrowFeed

/-! ## The three ends of a lookup -/

namespace Field

variable {node : Field} {type : FieldType}

theorem nonempty?_eq_some_iff {content : String} :
    node.nonempty? = some content ↔ node = .text content ∧ content ≠ "" := by
  unfold nonempty?
  split
  · next found =>
    simp only [Option.ite_none_left_eq_some, Option.some.injEq, text.injEq]
    constructor
    · rintro ⟨hne, rfl⟩
      exact ⟨rfl, hne⟩
    · rintro ⟨rfl, hne⟩
      exact ⟨hne, rfl⟩
  · simp only [reduceCtorEq, false_and]
  · simp only [reduceCtorEq, false_and]

theorem nonempty?_eq_none_iff :
    node.nonempty? = none ↔ ∀ content, node = .text content → content = "" := by
  simp only [Option.eq_none_iff_forall_ne_some, ne_eq, nonempty?_eq_some_iff, not_and,
    Decidable.not_not]

/-- There is a value when a text is under the key and converts to it. -/
theorem read_eq_ok_iff {value : type.Value} :
    node.read type = .ok value ↔
      ∃ content, node = .text content ∧ content ≠ "" ∧ type.convert? content = some value := by
  simp only [← and_assoc, ← nonempty?_eq_some_iff]
  unfold read
  split
  · next h => simp only [h, reduceCtorEq, false_and, exists_false]
  · next content h =>
    simp only [h, Option.some.injEq, exists_eq_left']
    split
    · next hconvert => simp only [hconvert, reduceCtorEq]
    · next found hconvert => simp only [hconvert, Except.ok.injEq, Option.some.injEq]

/-- A text that does not convert is malformed. -/
theorem read_eq_malformed_iff :
    node.read type = .error .malformed ↔
      ∃ content, node = .text content ∧ content ≠ "" ∧ type.convert? content = none := by
  simp only [← and_assoc, ← nonempty?_eq_some_iff]
  unfold read
  split
  · next h => simp only [h, Except.error.injEq, reduceCtorEq, false_and, exists_false]
  · next content h =>
    simp only [h, Option.some.injEq, exists_eq_left']
    split
    · next hconvert => simp only [hconvert]
    · next found hconvert => simp only [hconvert, reduceCtorEq]

/-- Everything else is as good as nothing. -/
theorem read_eq_absent_iff :
    node.read type = .error .absent ↔ ∀ content, node = .text content → content = "" := by
  rw [← nonempty?_eq_none_iff]
  unfold read
  split
  · next h => simp only [h]
  · next content h =>
    simp only [h, reduceCtorEq, iff_false]
    split
    · simp only [Except.error.injEq, reduceCtorEq, not_false_eq_true]
    · simp only [reduceCtorEq, not_false_eq_true]

end Field

/-! ## Bytes -/

namespace FieldType

/-- The text without the `0x` in front of it, if there is one. -/
def hexDigits (content : String) : List Char :=
  if "0x".toList <+: content.toList then content.toList.drop 2 else content.toList

/-- The mark in front of hex digits is dropped, once, and the rest is decoded. -/
theorem bytes?_eq_decode? (content : String) :
    bytes? content = Hex.decode? (hexDigits content) := by
  unfold bytes? hexDigits
  split
  · next digits h =>
    have hmark : "0x".toList <+: '0' :: 'x' :: digits := List.prefix_append ['0', 'x'] digits
    rw [h, if_pos hmark]
    rfl
  · next hmark =>
    rw [if_neg]
    rintro ⟨digits, h⟩
    exact hmark digits h.symm

/-- The mark is all that is taken off a written text. -/
theorem hexDigits_mark (bytes : Bytes) : hexDigits ("0x" ++ Hex.text bytes) = Hex.encode bytes := by
  have hlist : ("0x" ++ Hex.text bytes).toList = "0x".toList ++ Hex.encode bytes := by
    rw [String.toList_append, Hex.toList_text]
  rw [hexDigits, hlist, if_pos (List.prefix_append _ _)]
  rfl

/-- **A text converts to the bytes that its digits spell.** -/
theorem bytes?_eq_some_iff {content : String} {bytes : Bytes} :
    bytes? content = some bytes ↔ Hex.Spells (hexDigits content) bytes := by
  rw [bytes?_eq_decode?, Hex.decode?_eq_some_iff]

end FieldType

open FieldType

namespace Field

variable {node : Field} {bytes : Bytes}

/-- A node reads as bytes when it is a text of their digits. -/
theorem read_bytes_eq_ok_iff :
    node.read .bytes = .ok bytes ↔
      ∃ content, node = .text content ∧ content ≠ "" ∧ Hex.Spells (hexDigits content) bytes := by
  rw [read_eq_ok_iff]
  simp only [convert?, bytes?_eq_some_iff]

/-- A node is malformed as bytes when it is a text with an odd number of
characters behind the mark, or with one that is no digit. -/
theorem read_bytes_eq_malformed_iff :
    node.read .bytes = .error .malformed ↔
      ∃ content, node = .text content ∧ content ≠ ""
        ∧ ¬(2 ∣ (hexDigits content).length
          ∧ ∀ c ∈ hexDigits content, ∃ value, Hex.Digit c value) := by
  rw [read_eq_malformed_iff]
  simp only [convert?, ← Hex.exists_spells_iff, ← bytes?_eq_some_iff,
    Option.eq_none_iff_forall_ne_some, not_exists, ne_eq]

/-- A text is read as bytes by its lowercase. -/
theorem read_text_bytes_iff {content : String} :
    (text content).read .bytes = .ok bytes ↔
      content ≠ "" ∧ (hexDigits content).map Char.toLower = Hex.encode bytes := by
  rw [read_bytes_eq_ok_iff]
  simp only [text.injEq, exists_eq_left', Hex.spells_iff_map_toLower]

/-- **Bytes read back from the text that they are written as.** The mark keeps
that text from being empty, whatever the bytes are. -/
theorem read_text_mark (bytes : Bytes) :
    (text ("0x" ++ Hex.text bytes)).read .bytes = .ok bytes := by
  rw [read_text_bytes_iff, hexDigits_mark, ← Hex.spells_iff_map_toLower,
    ← Hex.decode?_eq_some_iff]
  refine ⟨fun hempty => ?_, Hex.decode?_encode bytes⟩
  have hlist := congrArg String.toList hempty
  rw [String.toList_append] at hlist
  cases hlist

end Field

/-- **What the lookup of bytes finds.** It finds bytes when the text under the
key, which must not be empty, is hex digits that spell them, behind at most one
`0x`; texts do so whose digits are even in number and hex digits all, and any
other text that is not empty is malformed; and where there is no text, or an
empty one, nothing is found. Bytes of any length are written as a text that
reads back as them, which is the lowercase of every other text that does, behind
the mark. So texts are read as the same bytes when they differ in the mark and
in letter case at most. -/
theorem Description.lookup_bytes_exact (d : Description) (key : String) :
    (∀ bytes, d.lookup .bytes key = .ok bytes ↔
        ∃ content, d.field key = .text content ∧ content ≠ ""
          ∧ Hex.Spells (hexDigits content) bytes)
      ∧ (d.lookup .bytes key = .error .malformed ↔
        ∃ content, d.field key = .text content ∧ content ≠ ""
          ∧ ¬(2 ∣ (hexDigits content).length ∧ ∀ c ∈ hexDigits content, ∃ value, Hex.Digit c value))
      ∧ (d.lookup .bytes key = .error .absent ↔
        ∀ content, d.field key = .text content → content = "")
      ∧ (∀ content, (∃ bytes, Hex.Spells (hexDigits content) bytes) ↔
          2 ∣ (hexDigits content).length ∧ ∀ c ∈ hexDigits content, ∃ value, Hex.Digit c value)
      ∧ (∀ bytes, ∃ written, (Cell.bytes bytes).toJson = .string written
          ∧ (Field.text written).read .bytes = .ok bytes
          ∧ ∀ content, (Field.text content).read .bytes = .ok bytes →
              written = "0x" ++ String.ofList ((hexDigits content).map Char.toLower))
      ∧ ∀ s t bytes, (Field.text s).read .bytes = .ok bytes →
          ((Field.text t).read .bytes = .ok bytes ↔
            t ≠ "" ∧ (hexDigits t).map Char.toLower = (hexDigits s).map Char.toLower) := by
  refine ⟨fun bytes => Field.read_bytes_eq_ok_iff, Field.read_bytes_eq_malformed_iff,
    Field.read_eq_absent_iff, fun content => Hex.exists_spells_iff,
    fun bytes => ⟨"0x" ++ Hex.text bytes, rfl, Field.read_text_mark bytes, fun content h => ?_⟩,
    fun s t bytes h => ?_⟩
  · -- Whatever spells the bytes is the written form but for the mark and the case.
    rw [(Field.read_text_bytes_iff.mp h).2, Hex.text]
  · rw [Field.read_text_bytes_iff, (Field.read_text_bytes_iff.mp h).2]

/-- The mark is taken off with the small letter only, and one hash is read from
two texts. -/
theorem Description.lookup_bytes_exact_mark_and_case :
    let d : Description := ⟨[("a", .text "0xAbCD"), ("b", .text "0X12"), ("c", .text "")]⟩
    d.lookup .bytes "a" = .ok [0xab, 0xcd] ∧ d.lookup .bytes "b" = .error .malformed
      ∧ d.lookup .bytes "c" = .error .absent
      ∧ (Field.text "0xAbCD").read .bytes = .ok [0xab, 0xcd]
      ∧ (Field.text "aBcd").read .bytes = .ok [0xab, 0xcd] := by
  intro d
  have hdigits : Hex.Spells (hexDigits "0xAbCD") [0xab, 0xcd] :=
    Hex.spells_iff_map_toLower.mpr (by decide)
  have hcapital : ¬∃ value, Hex.Digit 'X' value := by
    rintro ⟨value, hvalue⟩
    rw [← Hex.digitValue?_eq_some_iff, show Hex.digitValue? 'X' = none by decide] at hvalue
    cases hvalue
  obtain ⟨hok, -, -, -, -, hsame⟩ := lookup_bytes_exact d "a"
  obtain ⟨-, hmalformed, -⟩ := lookup_bytes_exact d "b"
  obtain ⟨-, -, habsent, -⟩ := lookup_bytes_exact d "c"
  have ha : d.lookup .bytes "a" = .ok [0xab, 0xcd] :=
    (hok _).mpr ⟨"0xAbCD", rfl, by decide, hdigits⟩
  refine ⟨ha, hmalformed.mpr ⟨"0X12", rfl, by decide, fun h => ?_⟩,
    habsent.mpr fun content h => ?_, ha, (hsame _ _ _ ha).mpr ⟨by decide, by decide⟩⟩
  · exact hcapital (h.2 'X' (by decide))
  · exact (Field.text.inj h).symm

end EscrowFeed
