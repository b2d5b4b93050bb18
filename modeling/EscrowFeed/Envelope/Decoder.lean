/-
Decoding an envelope into the descriptions of its entries.

An envelope is a sequence of fields. Those of tag 1 are its entries; an entry is
a length and a sequence of fields again, of which those of tag 1 are texts. The
last text is the entry's description, and an entry without one has an empty
description. Fields of other tags are passed over at both levels.

A length is checked against the bytes of the whole envelope, not against the
message that the field stands in. So a field may begin inside an entry and end
behind it, and that is found only once the field has been read: the entry's
fields go on until nothing of the entry is left, and it is an error if then more
than the entry has been taken. The length of what has to be left is the `limit`
that `readEntryFields` carries.
-/
import EscrowFeed.Envelope.Error
import EscrowFeed.Success
import EscrowFeed.Wire.Unknown

set_option autoImplicit false

namespace EscrowFeed.Envelope

open Success Wire

/-- The tag of an entry in an envelope, and of a description in an entry. -/
def knownTag : Nat := 1

/-- How deep a field of an envelope may be passed over. -/
def envelopeDepth : Nat := 100

/-- How deep a field of an entry may be passed over. -/
def entryDepth : Nat := envelopeDepth - 1

/-- A fault at a location, for a reader that knows only causes. -/
def locate {α : Type} (location : Location) : Except Cause α → Except DecodeError α
  | .error cause => .error ⟨location, cause⟩
  | .ok a => .ok a

/-- A known field has to be laid out in one block. -/
def requireBlock (key : Key) : Except Cause Unit :=
  if key.type = .lengthDelimited then .ok () else .error (.unexpectedWireType key.type)

/-- The text of a description. -/
def readDescription (key : Key) (s : Bytes) : Except Cause (String × Bytes) := do
  requireBlock key
  let (block, rest) ← readBlock s
  match Utf8.decode? block with
  | none => throw .notUtf8
  | some description => return (description, rest)

/-- One field of an entry, given the description so far. -/
def readEntryField (description : String) (s : Bytes) : Except DecodeError (String × Bytes) := do
  let (key, rest) ← locate .entry (readKey s)
  if key.tag = knownTag then
    locate .description (readDescription key rest)
  else
    let rest ← locate .entry (skipField entryDepth key rest)
    return (description, rest)

theorem locate_eq_ok {α : Type} {location : Location} {result : Except Cause α} {a : α} :
    locate location result = .ok a ↔ result = .ok a := by
  cases result <;> simp [locate]

/-- A description takes no more than is there. -/
theorem readDescription_length {key : Key} {s rest : Bytes} {description : String}
    (h : readDescription key s = .ok (description, rest)) : rest.length ≤ s.length := by
  simp only [readDescription, bind_eq_ok] at h
  obtain ⟨_, _, ⟨block, after⟩, hread, h⟩ := h
  split at h
  · simp [throw_eq_ok] at h
  · simp only [pure_eq_ok, Prod.mk.injEq] at h
    obtain ⟨_, rfl⟩ := h
    exact readBlock_length hread

/-- A field of an entry takes a byte at least, which is why the entry ends. -/
theorem readEntryField_length {before description : String} {s rest : Bytes}
    (h : readEntryField before s = .ok (description, rest)) : rest.length < s.length := by
  simp only [readEntryField, bind_eq_ok, locate_eq_ok] at h
  obtain ⟨⟨key, t⟩, hkey, h⟩ := h
  have ht := readKey_length hkey
  split at h
  · exact Nat.lt_of_le_of_lt (readDescription_length (locate_eq_ok.mp h)) ht
  · simp only [bind_eq_ok, locate_eq_ok, pure_eq_ok, Prod.mk.injEq] at h
    obtain ⟨_, hskip, _, rfl⟩ := h
    exact Nat.lt_of_le_of_lt (skipField_length hskip) ht

/-- The fields of an entry until no more than `limit` bytes are left. -/
def readEntryFields (limit : Nat) (description : String) (s : Bytes) :
    Except DecodeError (String × Bytes) :=
  if s.length = limit then .ok (description, s)
  else if s.length < limit then .error ⟨.entry, .lengthExceeded⟩
  else
    match _h : readEntryField description s with
    | .error error => .error error
    | .ok (description, rest) => readEntryFields limit description rest
termination_by s.length
decreasing_by exact readEntryField_length _h

/-- An entry, as its description. -/
def readEntry (key : Key) (s : Bytes) : Except DecodeError (String × Bytes) := do
  locate .entry (requireBlock key)
  let (length, rest) ← locate .entry (readVarint s)
  if rest.length < length then throw ⟨.entry, .underflow⟩
  readEntryFields (rest.length - length) "" rest

/-- One field of an envelope: an entry, or nothing that counts. -/
def readField (s : Bytes) : Except DecodeError (Option String × Bytes) := do
  let (key, rest) ← locate .envelope (readKey s)
  if key.tag = knownTag then
    let (description, rest) ← readEntry key rest
    return (some description, rest)
  else
    let rest ← locate .envelope (skipField envelopeDepth key rest)
    return (none, rest)

/-- An entry that is read ends where its length says. -/
theorem readEntryFields_length {limit : Nat} {before description : String} {s rest : Bytes}
    (h : readEntryFields limit before s = .ok (description, rest)) : rest.length = limit := by
  fun_induction readEntryFields limit before s with
  | case1 =>
    simp only [Except.ok.injEq, Prod.mk.injEq] at h
    obtain ⟨_, rfl⟩ := h
    assumption
  | case2 => simp at h
  | case3 => simp at h
  | case4 _ _ _ _ _ _ _ ih => exact ih h

/-- An entry takes a byte at least. -/
theorem readEntry_length {key : Key} {s rest : Bytes} {description : String}
    (h : readEntry key s = .ok (description, rest)) : rest.length < s.length := by
  simp only [readEntry, bind_eq_ok, locate_eq_ok] at h
  obtain ⟨_, _, ⟨length, t⟩, hlen, h⟩ := h
  have ht := readVarint_length hlen
  split at h
  · simp [bind_eq_ok, throw_eq_ok] at h
  · have hrest : rest.length = t.length - length := readEntryFields_length h
    omega

/-- A field of an envelope takes a byte at least, and so the envelope ends. -/
theorem readField_length {s rest : Bytes} {entry : Option String}
    (h : readField s = .ok (entry, rest)) : rest.length < s.length := by
  simp only [readField, bind_eq_ok, locate_eq_ok] at h
  obtain ⟨⟨key, t⟩, hkey, h⟩ := h
  have ht := readKey_length hkey
  split at h
  · simp only [bind_eq_ok, pure_eq_ok, Prod.mk.injEq] at h
    obtain ⟨_, hentry, _, rfl⟩ := h
    exact Nat.lt_trans (readEntry_length hentry) ht
  · simp only [bind_eq_ok, locate_eq_ok, pure_eq_ok, Prod.mk.injEq] at h
    obtain ⟨_, hskip, _, rfl⟩ := h
    exact Nat.lt_of_le_of_lt (skipField_length hskip) ht

/-- The descriptions of an envelope's entries, in order. -/
def decode (s : Bytes) : Except DecodeError (List String) :=
  if s = [] then .ok []
  else
    match _h : readField s with
    | .error error => .error error
    | .ok (entry, rest) => do
      let descriptions ← decode rest
      return entry.toList ++ descriptions
termination_by s.length
decreasing_by exact readField_length _h

end EscrowFeed.Envelope
