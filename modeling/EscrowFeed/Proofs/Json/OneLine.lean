/-
Written JSON is one line.

The grammar has no spelling of a text with a line feed in it, so what is written
for a text has none, whatever the text is. Between the parts of an object
nothing but marks is written. What is said here of an object is said for any
values under its keys, and it is for whoever knows them to know that they are
one line each.
-/
import EscrowFeed.Proofs.Json.RoundTrip

set_option autoImplicit false

namespace EscrowFeed.Json

/-! ## Spellings of a text -/

theorem CodeUnit.newline_not_mem {value : Nat} {s : List Char} (h : CodeUnit value s) :
    '\n' ∉ s := by
  have hdigit : ∀ {c : Char} {n : Nat}, Hex.Digit c n → '\n' ≠ c := by
    rintro c n hc rfl
    rcases hc with hc | hc
    · exact absurd (List.mem_of_getElem? hc) (by decide)
    · exact absurd (List.mem_of_getElem? hc) (by decide)
  obtain ⟨a, b, c, d, x, y, z, w, rfl, ha, hb, hc, hd, -⟩ := h
  simp only [List.mem_cons, List.not_mem_nil, or_false, not_or]
  exact ⟨hdigit ha, hdigit hb, hdigit hc, hdigit hd⟩

/-- A character is spelled without a line feed, and a line feed by an escape. -/
theorem CharSpelling.newline_not_mem {c : Char} {s : List Char} (h : CharSpelling c s) :
    '\n' ∉ s := by
  cases h with
  | plain _ _ hplain =>
    -- A line feed is below the first character that may stand for itself.
    intro hmem
    rw [← List.mem_singleton.mp hmem] at hplain
    exact absurd hplain (by decide)
  | named hnamed =>
    intro hmem
    have hletter : ∀ escape ∈ namedEscapes, '\n' ∉ ['\\', escape.1] := by decide
    exact hletter _ hnamed hmem
  | unit hunit => simp [hunit.newline_not_mem]
  | pair hleading htrailing => simp [hleading.newline_not_mem, htrailing.newline_not_mem]

theorem TextSpelling.newline_not_mem {text s : List Char} (h : TextSpelling text s) :
    '\n' ∉ s := by
  induction h with
  | nil => exact List.not_mem_nil
  | cons hc _ ih =>
    rw [List.mem_append, not_or]
    exact ⟨hc.newline_not_mem, ih⟩

/-- **A text between quotes is on one line**, in every way to write it. -/
theorem Quoted.newline_not_mem {text : String} {s : List Char} (h : Quoted text s) : '\n' ∉ s := by
  obtain ⟨inner, hinner, rfl⟩ := h
  simp [hinner.newline_not_mem]

/-! ## Written values -/

/-- What is in neither the parts nor the separator is not in the parts joined. -/
theorem not_mem_intercalate {α : Type} {a : α} {separator : List α} {parts : List (List α)}
    (hseparator : a ∉ separator) (hparts : ∀ part ∈ parts, a ∉ part) :
    a ∉ separator.intercalate parts := by
  induction parts with
  | nil =>
    rw [List.intercalate_nil]
    exact List.not_mem_nil
  | cons part rest ih =>
    obtain ⟨hpart, hrest⟩ := List.forall_mem_cons.mp hparts
    -- The last part has no separator behind it.
    cases rest with
    | nil =>
      rw [List.intercalate_singleton]
      exact hpart
    | cons next rest =>
      rw [List.intercalate_cons_cons, List.mem_append, List.mem_append, not_or, not_or]
      exact ⟨⟨hpart, hseparator⟩, ih hrest⟩

/-- **A string is printed on one line.** -/
theorem newline_not_mem_print_string (text : String) : '\n' ∉ print (.string text) := by
  rw [print]
  exact (quoted_printText text).newline_not_mem

/-- An object is written on one line if the values under its keys are. -/
theorem newline_not_mem_print_object {members : List (String × Json)}
    (h : ∀ m ∈ members, '\n' ∉ print m.2) : '\n' ∉ print (.object members) := by
  have hmembers : '\n' ∉ [','].intercalate (members.map printMember) := by
    apply not_mem_intercalate (by decide)
    intro part hpart
    obtain ⟨m, hm, rfl⟩ := List.mem_map.mp hpart
    rw [printMember, List.mem_append, List.mem_cons, not_or, not_or]
    exact ⟨(quoted_printText m.1).newline_not_mem, by decide, h m hm⟩
  rw [print, printMembers_eq_map, List.mem_append, List.mem_cons, not_or, not_or]
  exact ⟨⟨by decide, hmembers⟩, by decide⟩

end EscrowFeed.Json
