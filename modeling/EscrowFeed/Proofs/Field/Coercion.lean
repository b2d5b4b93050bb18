/-
Which descriptions have a field tree, and which tree that is.

Two relations meet here. `Json.IsText` says which texts spell which value, and
`Coerces` says which of a value a field tree keeps: texts, whole numbers as the
text they are written with, and objects of these. A description is read exactly
when it spells an object, and its fields are what is kept of that object.
-/
import EscrowFeed.Field.Basic
import EscrowFeed.Proofs.Json.Language

set_option autoImplicit false

namespace EscrowFeed

/-! ## What a field tree keeps of a value -/

mutual

/-- The tree of a value. All that is neither a text, nor a whole number, nor an
object is as if it were not there. -/
inductive Field.Coerces : Json → Field → Prop where
  | string (content : String) : Coerces (.string content) (.text content)
  | whole {literal : String} : Json.Integer literal.toList →
      Coerces (.number literal) (.text literal)
  | fractional {literal : String} : ¬Json.Integer literal.toList →
      Coerces (.number literal) .absent
  | null : Coerces .null .absent
  | bool (value : Bool) : Coerces (.bool value) .absent
  | array (items : List Json) : Coerces (.array items) .absent
  | object {members : List (String × Json)} {fields : List (String × Field)} :
      CoercesEach members fields → Coerces (.object members) (.object fields)

/-- The trees of members, key by key. -/
inductive Field.CoercesEach : List (String × Json) → List (String × Field) → Prop where
  | nil : CoercesEach [] []
  | cons {key : String} {value : Json} {field : Field} {members : List (String × Json)}
      {fields : List (String × Field)} :
      Coerces value field → CoercesEach members fields →
      CoercesEach ((key, value) :: members) ((key, field) :: fields)

end

namespace Field

mutual

/-- A value coerces to one field tree, the one that is computed. -/
theorem Coerces.eq_ofJson {value : Json} {field : Field} (h : Coerces value field) :
    field = ofJson value := by
  match h with
  | .string content => rw [ofJson]
  | .whole hwhole => rw [ofJson, if_pos (Json.isWhole_iff.mpr hwhole)]
  | .fractional hwhole => rw [ofJson, if_neg (fun h => hwhole (Json.isWhole_iff.mp h))]
  | .null => rw [ofJson]
  | .bool value => rw [ofJson]
  | .array items => rw [ofJson]
  | .object hmembers => rw [ofJson, hmembers.eq_ofMembers]

theorem CoercesEach.eq_ofMembers {members : List (String × Json)} {fields : List (String × Field)}
    (h : CoercesEach members fields) : fields = ofMembers members := by
  match h with
  | .nil => rw [ofMembers]
  | .cons hvalue hrest => rw [ofMembers, hvalue.eq_ofJson, hrest.eq_ofMembers]

end

mutual

/-- Every value coerces to the tree that is computed for it. -/
theorem coerces_ofJson (value : Json) : Coerces value (ofJson value) := by
  match value with
  | .string content => exact .string content
  | .number literal =>
    rw [ofJson]
    split
    · next hwhole => exact .whole (Json.isWhole_iff.mp hwhole)
    · next hwhole => exact .fractional fun h => hwhole (Json.isWhole_iff.mpr h)
  | .object members => exact .object (coercesEach_ofMembers members)
  | .null => exact .null
  | .bool value => exact .bool value
  | .array items => exact .array items

theorem coercesEach_ofMembers (members : List (String × Json)) :
    CoercesEach members (ofMembers members) := by
  match members with
  | [] => exact .nil
  | (key, value) :: rest => exact .cons (coerces_ofJson value) (coercesEach_ofMembers rest)

end

/-- **Every value has one tree**, the one that `ofJson` makes of it. -/
theorem coerces_iff {value : Json} {field : Field} :
    Coerces value field ↔ field = ofJson value := by
  constructor
  · exact Coerces.eq_ofJson
  · rintro rfl
    exact coerces_ofJson value

end Field

/-- Only an object has an object for its tree. -/
theorem Field.ofJson_eq_object_iff {value : Json} {fields : List (String × Field)} :
    ofJson value = .object fields ↔
      ∃ members, value = .object members ∧ fields = ofMembers members := by
  constructor
  · intro h
    cases value with
    | object members =>
      rw [ofJson] at h
      exact ⟨members, rfl, (object.inj h).symm⟩
    | number literal =>
      rw [ofJson] at h
      split at h <;> cases h
    | null | bool | string | array =>
      rw [ofJson] at h
      cases h
  · rintro ⟨members, rfl, rfl⟩
    rw [ofJson]

/-! ## Descriptions -/

namespace Description

theorem read?_empty : Json.read? "" = none := by
  rw [Json.read?, Json.levels, String.toList_empty, Json.readValue?]
  rfl

/-- A description is read when its text is an object's, and its members are then
the trees of the object's members. -/
theorem parse_eq_ok_iff {text : String} {d : Description} :
    parse text = .ok d ↔
      ∃ members, Json.read? text = some (.object members)
        ∧ d.members = Field.ofMembers members := by
  constructor
  · intro h
    rw [parse] at h
    split at h
    · cases h
    · split at h
      · next fields hread =>
        rw [← Except.ok.inj h]
        obtain ⟨value, hvalue, hfields⟩ := Option.map_eq_some_iff.mp hread
        obtain ⟨members, rfl, rfl⟩ := Field.ofJson_eq_object_iff.mp hfields
        exact ⟨members, hvalue, rfl⟩
      · cases h
  · rintro ⟨members, hread, hmembers⟩
    -- The empty text is refused before it is read, and would not be read either.
    have hne : text ≠ "" := by
      rintro rfl
      rw [read?_empty] at hread
      cases hread
    rw [parse, if_neg hne, hread, Option.map_some, Field.ofJson, ← hmembers]

/-- Only an empty text is an empty description. -/
theorem parse_eq_error_empty_iff {text : String} : parse text = .error .empty ↔ text = "" := by
  rw [parse]
  constructor
  · intro h
    split at h
    · assumption
    · split at h <;> cases h
  · intro h
    exact if_pos h

/-- There is no third reason, so a text that is not empty and not read is
refused as no object. -/
theorem parse_eq_error_notAnObject_iff {text : String} :
    parse text = .error .notAnObject ↔ text ≠ "" ∧ ∀ d, parse text ≠ .ok d := by
  constructor
  · intro h
    refine ⟨fun hempty => ?_, fun d hd => ?_⟩
    · rw [parse_eq_error_empty_iff.mpr hempty] at h
      cases h
    · rw [h] at hd
      cases hd
  · rintro ⟨hne, hok⟩
    cases h : parse text with
    | ok d => exact absurd h (hok d)
    | error e =>
      cases e with
      | empty => exact absurd (parse_eq_error_empty_iff.mp h) hne
      | notAnObject => rfl

/-- **A description is a text of an object**, and its fields are what the
members coerce to. -/
theorem parse_eq_ok_iff_isText {text : String} {d : Description} :
    parse text = .ok d ↔
      ∃ members, Json.IsText (.object members) text ∧ Field.Coerces (.object members) d.root := by
  rw [parse_eq_ok_iff]
  refine exists_congr fun members => and_congr Json.read?_eq_some_iff ?_
  rw [Field.coerces_iff, root, Field.ofJson, Field.object.injEq]

/-- **The language of descriptions.** The empty text is refused as empty. A text
is read when it spells an object of at most 127 levels, whatever the blanks, the
escapes and the order of its entries, and what is read is the tree of that
object. All other texts are refused as no object: those that spell nothing, and
those that spell a value which is none, a number written out as an object among
them. -/
theorem parse_language (text : String) :
    (parse text = .error .empty ↔ text = "")
      ∧ (∀ d, parse text = .ok d ↔
          ∃ members, Json.IsText (.object members) text
            ∧ Field.Coerces (.object members) d.root)
      ∧ (parse text = .error .notAnObject ↔
          text ≠ "" ∧ ∀ members, ¬Json.IsText (.object members) text) := by
  refine ⟨parse_eq_error_empty_iff, fun d => parse_eq_ok_iff_isText, ?_⟩
  rw [parse_eq_error_notAnObject_iff]
  -- Every object has a tree, so a text that is not read spells no object.
  refine and_congr_right fun _ => ⟨fun h members htext => ?_, fun h d hd => ?_⟩
  · refine h ⟨Field.ofMembers members⟩ (parse_eq_ok_iff.mpr ⟨members, ?_, rfl⟩)
    exact Json.read?_eq_some_iff.mpr htext
  · obtain ⟨members, htext, -⟩ := parse_eq_ok_iff_isText.mp hd
    exact h members htext

end Description

end EscrowFeed
