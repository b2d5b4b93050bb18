/-
JSON values.

Two choices fix what equality of values means. A number is its text, because
the feed carries integers of any size and a number that has been through a
machine type is no longer the number that was sent. An object is its members in
key order with one member a key, so the order in which they were written and
the members that a later one of the same key replaced leave no trace.

`Members` is that second choice on its own, over any type of value: the field
trees of a description and the fields of a stored row are kept the same way.
-/
set_option autoImplicit false

namespace EscrowFeed

namespace Members

variable {α : Type}

/-- Puts a value under a key, at the key's place in code point order and in
place of what was under it. -/
def insert (key : String) (value : α) : List (String × α) → List (String × α)
  | [] => [(key, value)]
  | (k, v) :: rest =>
    if key = k then (key, value) :: rest
    else if key < k then (key, value) :: (k, v) :: rest
    else (k, v) :: insert key value rest

/-- The members that a list of entries leaves: of one key the last. -/
def ofList (entries : List (String × α)) : List (String × α) :=
  entries.foldl (fun members entry => insert entry.1 entry.2 members) []

/-- What is under a key. -/
def find? (key : String) : List (String × α) → Option α
  | [] => none
  | (k, v) :: rest => if key = k then some v else find? key rest

/-- Looking a key up after an insertion. No order of the members is needed:
an insertion never moves a member past another of its own key. -/
theorem find?_insert (key k : String) (value : α) (members : List (String × α)) :
    find? k (insert key value members) = if k = key then some value else find? k members := by
  induction members with
  | nil => rfl
  | cons m rest ih =>
    obtain ⟨k', v⟩ := m
    rw [insert]
    split
    · next hk =>
      subst hk
      by_cases h : k = key <;> simp [find?, h]
    · next hk =>
      split
      · rfl
      · by_cases h : k = key
        · subst h
          simp [find?, ih, hk]
        · simp [find?, ih, h]

end Members

/-- A JSON value. -/
inductive Json where
  | null
  | bool (value : Bool)
  /-- A number, as it is written. -/
  | number (text : String)
  | string (text : String)
  | array (items : List Json)
  /-- An object, as its members in key order. -/
  | object (members : List (String × Json))

namespace Json

/-- The member that stands for a number: an object that opens with this key is
a number written out, and nothing else may stand in it. -/
def numberKey : String := "$serde_json::private::Number"

end Json

end EscrowFeed
