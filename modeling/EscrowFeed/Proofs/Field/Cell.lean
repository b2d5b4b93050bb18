/-
What a stored cell reads as.

A cell is written as a text, and a text in a description is a field of the same
text, so a cell that is written and then found again under its column's key is
read by the lookup of its type. Integers and bytes read as what they were.
-/
import EscrowFeed.Proofs.Field.Lookup
import EscrowFeed.Proofs.WideInt

set_option autoImplicit false

namespace EscrowFeed

namespace Field

/-! ## Reading a text -/

/-- A text that is not empty is read when it converts. -/
theorem read_text_of_convert? {type : FieldType} {content : String} {value : type.Value}
    (hne : content ≠ "") (h : type.convert? content = some value) :
    (text content).read type = .ok value :=
  read_eq_ok_iff.mpr ⟨content, rfl, hne, h⟩

theorem read_text {content : String} (hne : content ≠ "") :
    (text content).read .text = .ok content :=
  read_text_of_convert? hne rfl

end Field

/-! ## Cells -/

namespace Cell

/-- A number is read back from the cell that it makes. -/
theorem read_integer (n : WideInt) : (Field.ofJson (integer n).toJson).read .integer = .ok n := by
  rw [integer, toJson, Field.ofJson]
  exact Field.read_text_of_convert? n.text_ne_empty n.parse?_text

/-- Bytes are read back from their marked digits, no bytes among them. -/
theorem read_bytes (content : Bytes) :
    (Field.ofJson (bytes content).toJson).read .bytes = .ok content := by
  rw [toJson, Field.ofJson]
  exact Field.read_text_mark content

end Cell

/-! ## Members of a description -/

theorem Field.find?_ofMembers (key : String) (members : List (String × Json)) :
    Members.find? key (ofMembers members) = (Members.find? key members).map ofJson := by
  induction members with
  | nil =>
    rw [ofMembers]
    rfl
  | cons member rest ih =>
    rw [ofMembers, Members.find?, Members.find?, ih]
    split <;> rfl

/-- The field of a description is the tree of the member's value. -/
theorem Description.field_of_find? {d : Description} {key : String} {value : Json}
    {members : List (String × Json)} (hd : d.members = Field.ofMembers members)
    (h : Members.find? key members = some value) : d.field key = .ofJson value := by
  rw [field, root, Field.child, hd, Field.find?_ofMembers, h]
  rfl

end EscrowFeed
