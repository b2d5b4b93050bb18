/-
Reading a settings file.

The text is JSON, but it is not read as a JSON value first: it is read from left
to right against what settings look like, and the first thing that is wrong
decides the error. So a key that settings do not have is reported as soon as it
is read, whatever follows it, and a value of the wrong type before the text
behind it is looked at.

Settings are an object or a list of one or two elements. The object has no more
members than it can have: each step of `readMembers` fills a member that was
open, and this is also why it ends.
-/
import EscrowFeed.Json.Lexeme
import EscrowFeed.Json.Reader
import EscrowFeed.Settings.Basic
import EscrowFeed.Success
import EscrowFeed.WideInt

set_option autoImplicit false

namespace EscrowFeed.Settings

open Success
open Json (skipBlank)

/-! ## Values -/

/-- A number, as what was found. Zero with a minus is no integer: it has a sign
that a whole number of 64 bits does not keep. -/
def Found.ofNumber (literal : String) : Found :=
  match WideInt.parse? literal with
  | none => .number
  | some n =>
    if n.text = literal ∧ Int64.minValue.toInt ≤ n.value ∧ n.value < UInt64.size then
      .integer literal
    else .number

/-- The error for a value that has to be something else. What is found is said
of the beginning of the value, as much of it as tells its type. -/
def mismatch (expected : Expected) (s : List Char) : SettingsError :=
  let found : Option Found :=
    match s with
    | [] => none
    | c :: rest =>
      if c = '[' then some .sequence
      else if c = '\x7b' then some .map
      else if c = '"' then
        (Json.readText? rest).map fun (content, _) => .string (String.ofList content)
      else if c = 'n' then (Json.readWord? "null" s).map fun _ => .null
      else if c = 't' then (Json.readWord? "true" s).map fun _ => .bool true
      else if c = 'f' then (Json.readWord? "false" s).map fun _ => .bool false
      else (Json.readNumber? s).map fun (literal, _) => .ofNumber (String.ofList literal)
  match found with
  | none => .malformed
  | some found => .rejected (.mismatch found expected)

/-- A path, behind any blanks. -/
def readPath (s : List Char) : Except SettingsError (String × List Char) :=
  match skipBlank s with
  | '"' :: rest =>
    match Json.readText? rest with
    | none => .error .malformed
    | some (content, after) => .ok (String.ofList content, after)
  | s => .error (mismatch .path s)

/-- A path or null, behind any blanks. -/
def readOptionalPath (s : List Char) : Except SettingsError (Option String × List Char) :=
  match skipBlank s with
  | 'n' :: rest =>
    match Json.readWord? "null" ('n' :: rest) with
    | none => .error .malformed
    | some after => .ok (none, after)
  | s =>
    match readPath s with
    | .error error => .error error
    | .ok (path, after) => .ok (some path, after)

/-! ## Lists -/

/-- The elements of a list, up to its end. -/
def readElements (s : List Char) : Except SettingsError (Settings × List Char) := do
  if (skipBlank s).head? = some ']' then throw (.rejected .emptyList)
  let (envelopePath, s) ← readPath s
  match skipBlank s with
  | ']' :: after => return ({ envelopePath }, after)
  | ',' :: s =>
    let (outputPath, s) ← readOptionalPath s
    match skipBlank s with
    | ']' :: after => return ({ envelopePath, outputPath }, after)
    | _ => throw .malformed
  | _ => throw .malformed

/-! ## Objects -/

/-- The members read so far. -/
structure Draft where
  envelopePath : Option String := none
  outputPath : Option (Option String) := none

namespace Draft

/-- How many members are still open. -/
def openMembers (draft : Draft) : Nat :=
  (if draft.envelopePath.isNone then 1 else 0) + (if draft.outputPath.isNone then 1 else 0)

/-- The settings of a complete object. -/
def complete (draft : Draft) : Except SettingsError Settings :=
  match draft.envelopePath with
  | none => .error (.rejected (.missing .envelopePath))
  | some envelopePath => .ok { envelopePath, outputPath := draft.outputPath.join }

end Draft

/-- The colon behind a key. -/
def readColon (s : List Char) : Except SettingsError (List Char) :=
  match skipBlank s with
  | ':' :: after => .ok after
  | _ => .error .malformed

/-- The value of a member that is open. -/
def readMemberValue (draft : Draft) (member : Member) (s : List Char) :
    Except SettingsError (Draft × List Char) :=
  match member with
  | .envelopePath =>
    if draft.envelopePath.isSome then .error (.rejected (.duplicate member))
    else do
      let (path, after) ← readPath (← readColon s)
      return ({ draft with envelopePath := some path }, after)
  | .outputPath =>
    if draft.outputPath.isSome then .error (.rejected (.duplicate member))
    else do
      let (path, after) ← readOptionalPath (← readColon s)
      return ({ draft with outputPath := some path }, after)

/-- One member. -/
def readMember (draft : Draft) (s : List Char) : Except SettingsError (Draft × List Char) :=
  match skipBlank s with
  | '"' :: rest =>
    match Json.readText? rest with
    | none => .error .malformed
    | some (content, rest) =>
      match Member.ofKey? (String.ofList content) with
      | none => .error (.rejected (.unknown (String.ofList content)))
      | some member => readMemberValue draft member rest
  | _ => .error .malformed

/-- The value of a member fills a member that was open. -/
theorem readMemberValue_openMembers {draft after : Draft} {member : Member} {s rest : List Char}
    (h : readMemberValue draft member s = .ok (after, rest)) :
    after.openMembers < draft.openMembers := by
  cases member
  all_goals
    simp only [readMemberValue] at h
    split at h
    · simp at h
    · next hopen =>
      simp only [bind_eq_ok, pure_eq_ok, Prod.mk.injEq] at h
      obtain ⟨_, _, _, _, rfl, _⟩ := h
      rw [Option.not_isSome_iff_eq_none] at hopen
      simp [Draft.openMembers, hopen]

/-- Every entry that is read leaves fewer members open. -/
theorem readMember_openMembers {draft after : Draft} {s rest : List Char}
    (h : readMember draft s = .ok (after, rest)) : after.openMembers < draft.openMembers := by
  unfold readMember at h
  split at h
  · split at h
    · simp at h
    · split at h
      · simp at h
      · exact readMemberValue_openMembers h
  · simp at h

/-- The members of an object of which one at least follows, up to its end. -/
def readMembers (draft : Draft) (s : List Char) : Except SettingsError (Settings × List Char) :=
  match _h : readMember draft s with
  | .error error => .error error
  | .ok (draft, rest) =>
    match skipBlank rest with
    | [] => .error .malformed
    | c :: rest =>
      if c = '\x7d' then
        match draft.complete with
        | .error error => .error error
        | .ok settings => .ok (settings, rest)
      else if c = ',' then readMembers draft rest
      else .error .malformed
termination_by draft.openMembers
decreasing_by exact readMember_openMembers _h

/-- The members of an object, up to its end. -/
def readObject (s : List Char) : Except SettingsError (Settings × List Char) :=
  if (skipBlank s).head? = some '\x7d' then
    .error (.rejected (.missing .envelopePath))
  else
    readMembers {} s

/-! ## Files -/

/-- The settings of a text. -/
def read (text : String) : Except SettingsError Settings := do
  let (settings, rest) ←
    match skipBlank text.toList with
    | [] => .error .malformed
    | c :: rest =>
      if c = '[' then readElements rest
      else if c = '\x7b' then readObject rest
      else .error (mismatch .settings (c :: rest))
  if skipBlank rest = [] then return settings else throw .malformed

end EscrowFeed.Settings
