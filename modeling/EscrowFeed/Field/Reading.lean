/-
Reading field after field, and remembering every fault.

To say everything that is wrong with an entry, all of its fields have to be
looked at, whichever of them fail. So a reader does not stop at a field that it
cannot read: it has no value for that one, notes the key under its fault, and is
ready for the next field.

A `Reading` makes its reads through one reader, each with the reader as the read
before it left it, and decides only then: it has a value if all of its reads
found one, and otherwise the faults are with the reader. Two readings combine by
running both, the second also where the first has no value. What a reading does
to its reader is to add faults; the description that is read stays the same, and
`Reading` says so in its type.
-/
import EscrowFeed.Field.Basic

set_option autoImplicit false

namespace EscrowFeed

/-- The keys that could not be read, in the order of reading. -/
@[ext] structure Faults where
  missing : List String := []
  malformed : List String := []
deriving DecidableEq

/-- No key failed. -/
def Faults.isEmpty (faults : Faults) : Bool := faults.missing.isEmpty && faults.malformed.isEmpty

/-- Reads typed fields of a description, and remembers every fault. -/
structure FieldReader where
  description : Description
  faults : Faults := {}

namespace FieldReader

/-- The value of a result, or its fault remembered under the key. -/
def record {α : Type} (reader : FieldReader) (key : String) :
    Except Fault α → Option α × FieldReader
  | .ok value => (some value, reader)
  | .error .absent =>
    (none, { reader with faults.missing := reader.faults.missing ++ [key] })
  | .error .malformed =>
    (none, { reader with faults.malformed := reader.faults.malformed ++ [key] })

/-- Reads one field. -/
def read (reader : FieldReader) (type : FieldType) (key : String) :
    Option type.Value × FieldReader :=
  reader.record key (reader.description.lookup type key)

theorem description_record {α : Type} (reader : FieldReader) (key : String)
    (result : Except Fault α) : (reader.record key result).2.description = reader.description := by
  unfold record
  split <;> rfl

end FieldReader

/-- A value that is read field by field through a reader, if the fields allow. -/
structure Reading (α : Type) where
  run : FieldReader → Option α × FieldReader
  /-- All of it is read from one description. -/
  description_run : ∀ reader, (run reader).2.description = reader.description

namespace Reading

instance : Applicative Reading where
  pure a := ⟨fun reader => (some a, reader), fun _ => rfl⟩
  seq f x := {
    run := fun reader =>
      let (g, reader) := f.run reader
      let (a, reader) := (x ()).run reader
      (g.bind fun g => a.map g, reader)
    description_run := fun reader =>
      ((x ()).description_run (f.run reader).2).trans (f.description_run reader) }

/-- Reads one field. -/
def field (type : FieldType) (key : String) : Reading type.Value where
  run reader := reader.read type key
  description_run reader := reader.description_record key _

/-- The value in a description, or the faults that stand against it. -/
def extract {α : Type} (reading : Reading α) (d : Description) : Except Faults α :=
  match reading.run { description := d } with
  | (some a, _) => .ok a
  | (none, reader) => .error reader.faults

end Reading

end EscrowFeed
