/-
An object that opens with an object.

What the entries of the inner object make is decided when its closing brace is
reached, so it stands in for the inner object whatever it is: the object itself,
or a number if that is what the entries spell out. If they make nothing, then
the reader has failed inside the first member, and with it the whole text. No
spelling can be named for that, so this last case follows the reader down and
back up.
-/
import EscrowFeed.Proofs.Json.RoundTrip

set_option autoImplicit false

namespace EscrowFeed.Json

/-! ## Failing on the way -/

/-- A member fails with its value. -/
theorem readMember?_eq_none {value : List Char → Option (Json × List Char)} {key : String}
    {s t : List Char} (hkey : Quoted key s) (hvalue : value t = none) :
    readMember? value (s ++ ':' :: t) = none := by
  obtain ⟨inner, hinner, rfl⟩ := hkey
  have hread : readText? (inner ++ ['"'] ++ ':' :: t) = some (key.toList, ':' :: t) :=
    readText?_reads.complete ⟨inner, hinner, rfl⟩ trivial
  rw [List.cons_append, List.cons_append, readMember?, skipBlank_cons rfl]
  simp only [hread, Option.bind_eq_bind, Option.bind_some, skipBlank_cons (c := ':') rfl, hvalue,
    Option.bind_none]

/-- A list fails with its first item. -/
theorem readList?_eq_none {α : Type} {item : List Char → Option (α × List Char)} {close c : Char}
    {s : List Char} (hblank : isBlank c = false) (hclose : c ≠ close)
    (hitem : item (c :: s) = none) : readList? item close (c :: s) = none := by
  rw [readList?, skipBlank_cons hblank]
  dsimp only
  rw [if_neg hclose, readSeries?, hitem]

/-! ## The first member -/

theorem exists_intercalate_cons (sep text : List Char) (texts : List (List Char)) :
    ∃ rest, sep.intercalate (text :: texts) = text ++ rest := by
  cases texts with
  | nil => exact ⟨[], by rw [List.intercalate_singleton, List.append_nil]⟩
  | cons next texts => exact ⟨_, by rw [List.intercalate_cons_cons, List.append_assoc]⟩

/-- **The entries of a first object decide what stands in its place**, and
whether there is anything to read at all. -/
theorem read?_text_nested {key : String} {members rest : List (String × Json)}
    (hkey : key ≠ numberKey) (hsorted : Members.Sorted ((key, .object members) :: rest))
    (hmembers : ∀ m ∈ members, m.2.Readable 125) (hrest : ∀ m ∈ rest, m.2.Readable 126) :
    read? (text (.object ((key, .object members) :: rest))) =
      (ofMembers? members).map fun value => .object ((key, value) :: rest) := by
  have hinner :
      Bracketed (Member (Spells 125)) '\x7b' '\x7d' members (print (.object members)) := by
    rw [print, printMembers_eq_map]
    exact bracketed_members fun m hm => (hmembers m hm).spells
  cases hvalue : ofMembers? members with
  | some value =>
    have hspells : Spells 126 value (print (.object members)) :=
      .inr (.inr ⟨members, ofMembers?_eq_some_iff.mp hvalue, hinner⟩)
    have houter : Members.Sorted ((key, value) :: rest) := by
      rw [Members.Sorted, List.pairwise_cons] at hsorted ⊢
      exact hsorted
    -- The text spells the value under the key as much as it spells the object.
    have hfirst := member_printText key hspells
    have hothers := forall₂_map fun m hm => member_printText m.1 (hrest m hm).spells
    have hwhole : Spells 127 (.object ((key, value) :: rest))
        (print (.object ((key, .object members) :: rest))) := by
      refine .inr (.inr ⟨(key, value) :: rest, .object ?_ houter.lastOfEach, ?_⟩)
      · rintro entry ⟨⟩
        exact hkey
      · rw [print, printMembers_eq_map]
        exact bracketed_intercalate (.cons hfirst hothers)
    refine read?_eq_some_iff.mpr ⟨[], _, [], blank_nil, hwhole, blank_nil, ?_⟩
    rw [text, String.toList_ofList, List.nil_append, List.append_nil]
  | none =>
    obtain ⟨others, hothers⟩ := exists_intercalate_cons [',']
      (printMember (key, .object members)) (rest.map printMember)
    have hfails : readValue? 126 (print (.object members) ++ (others ++ ['\x7d'])) = none := by
      rw [readValue?_bracketed (readValue?_reads 125) hinner, hvalue]
      rfl
    have hmember := readMember?_eq_none (quoted_printText key) hfails
    have hlist : readList? (readMember? (readValue? 126)) '\x7d'
        (printText key ++ ':' :: (print (.object members) ++ (others ++ ['\x7d']))) = none :=
      readList?_eq_none rfl (by decide) hmember
    have hshape : (text (.object ((key, .object members) :: rest))).toList =
        '\x7b' :: (printText key ++ ':' :: (print (.object members) ++ (others ++ ['\x7d']))) := by
      rw [text, String.toList_ofList, print, printMembers_eq_map, List.map_cons, hothers,
        printMember]
      simp only [List.cons_append, List.append_assoc]
    rw [read?, hshape, levels, readValue?, skipBlank_cons rfl]
    simp only [hlist, Option.bind_eq_bind, Option.bind_none, Option.map_none]

end EscrowFeed.Json
