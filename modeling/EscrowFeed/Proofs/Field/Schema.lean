/-
A reader's runs, and readings as runs.

One read finds what the lookup of the field finds, and leaves the reader with
one fault more or none. A run of reads does so for all of its fields, by
induction: what it finds are the lookups, and the reader behind it has the
faults of the fields behind its own, in the order of reading.

A reading is a function on readers, and nothing in its type says which fields it
reads. `Follows` says it: the reading leaves the reader as the run over a schema
does, whatever faults the reader had, and has a value when that run found one
for every field. Readings that are put together follow their schemas put
together, so the schema of a reading is read off its definition, and what is
asked about a reading becomes a question about a list.
-/
import EscrowFeed.Field.Reading

set_option autoImplicit false

namespace EscrowFeed

/-- The fields of a reading in the order of reading, each with its type. -/
abbrev Schema := List (FieldType × String)

/-- What reading a field found: a value of the type it was read as, or none. -/
abbrev Finding := (type : FieldType) × Option type.Value

/-! ## Faults -/

namespace Faults

instance : Append Faults where
  append a b := ⟨a.missing ++ b.missing, a.malformed ++ b.malformed⟩

@[simp] theorem missing_append (a b : Faults) : (a ++ b).missing = a.missing ++ b.missing := rfl

@[simp] theorem malformed_append (a b : Faults) :
    (a ++ b).malformed = a.malformed ++ b.malformed := rfl

/-- Faults are joined list by list, so it does not matter which are joined
first. -/
theorem append_assoc (a b c : Faults) : a ++ b ++ c = a ++ (b ++ c) :=
  Faults.ext (List.append_assoc ..) (List.append_assoc ..)

theorem append_empty (a : Faults) : a ++ {} = a :=
  Faults.ext (List.append_nil _) (List.append_nil _)

/-- One key under its fault. -/
def single (key : String) : Fault → Faults
  | .absent => { missing := [key] }
  | .malformed => { malformed := [key] }

end Faults

namespace Description

/-- What the lookup of a field finds. -/
def finding (d : Description) (field : FieldType × String) : Finding :=
  ⟨field.1, (d.lookup field.1 field.2).toOption⟩

/-- What is wrong with a field. -/
def fault? (d : Description) (field : FieldType × String) : Option Fault :=
  match d.lookup field.1 field.2 with
  | .ok _ => none
  | .error fault => some fault

/-- The field has no value of its type. -/
def Lacks (d : Description) (field : FieldType × String) : Prop :=
  ∃ fault, d.lookup field.1 field.2 = .error fault

/-- All fields of a schema have values of their types. -/
def Meets (d : Description) (schema : Schema) : Prop := ∀ field ∈ schema, ¬d.Lacks field

/-- The faults of the fields of a schema: the keys with nothing under them, and
the keys with something under them that does not convert. -/
def faults (d : Description) (schema : Schema) : Faults where
  missing := (schema.filter fun field => d.fault? field = some .absent).map Prod.snd
  malformed := (schema.filter fun field => d.fault? field = some .malformed).map Prod.snd

/-- A field that is not lacking has a value. -/
theorem not_lacks_iff {d : Description} {field : FieldType × String} :
    ¬d.Lacks field ↔ ∃ value, d.lookup field.1 field.2 = .ok value := by
  rw [Lacks]
  cases d.lookup field.1 field.2 with
  | ok value => exact ⟨fun _ => ⟨value, rfl⟩, fun _ ⟨_, h⟩ => nomatch h⟩
  | error fault => exact ⟨fun h => absurd ⟨fault, rfl⟩ h, fun ⟨_, h⟩ => nomatch h⟩

/-- A schema is not met as soon as one of its fields is lacking. -/
theorem not_meets_iff {d : Description} {schema : Schema} :
    ¬d.Meets schema ↔ ∃ field ∈ schema, d.Lacks field := by
  simp only [Meets, Classical.not_forall, Classical.not_not, exists_prop]

/-- The lookup of a field finds nothing exactly when the field is lacking. -/
theorem isSome_finding_iff {d : Description} {field : FieldType × String} :
    (d.finding field).2.isSome = true ↔ ¬d.Lacks field := by
  rw [not_lacks_iff, finding]
  cases d.lookup field.1 field.2 <;> simp [Except.toOption]

/-- All lookups find something exactly when the description meets the schema. -/
theorem forall_isSome_finding_iff {d : Description} {schema : Schema} :
    (∀ finding ∈ schema.map d.finding, finding.2.isSome = true) ↔ d.Meets schema := by
  simp only [Meets, List.forall_mem_map, isSome_finding_iff]

/-- The faults of a field stand before those of the fields behind it. -/
theorem faults_cons (d : Description) (field : FieldType × String) (schema : Schema) :
    d.faults (field :: schema) = d.faults [field] ++ d.faults schema := by
  rw [← List.singleton_append]
  simp only [faults, List.filter_append, List.map_append]
  rfl

/-- A field with a value has no fault. -/
theorem faults_singleton_of_ok {d : Description} {type : FieldType} {key : String}
    {value : type.Value} (h : d.lookup type key = .ok value) : d.faults [(type, key)] = {} := by
  simp [faults, fault?, h]

/-- A field without one has the fault of its lookup, under its key. -/
theorem faults_singleton_of_error {d : Description} {type : FieldType} {key : String}
    {fault : Fault} (h : d.lookup type key = .error fault) :
    d.faults [(type, key)] = .single key fault := by
  cases fault <;> simp [faults, fault?, h, Faults.single]

end Description

/-! ## Runs of a reader -/

namespace FieldReader

variable (reader : FieldReader)

/-- Reads fields one after the other, and keeps what each of the reads found. -/
def readAll (reader : FieldReader) : Schema → List Finding × FieldReader
  | [] => ([], reader)
  | (type, key) :: fields =>
    let (value, reader) := reader.read type key
    let (findings, reader) := reader.readAll fields
    (⟨type, value⟩ :: findings, reader)

/-- The reader with the faults of fields behind its own. -/
def after (reader : FieldReader) (fields : Schema) : FieldReader :=
  { reader with faults := reader.faults ++ reader.description.faults fields }

@[simp] theorem description_after (fields : Schema) :
    (reader.after fields).description = reader.description := rfl

theorem after_nil : reader.after [] = reader := by
  rw [after]
  exact congrArg _ reader.faults.append_empty

/-- The faults of a field come before those of the fields behind it. -/
theorem after_cons (field : FieldType × String) (fields : Schema) :
    reader.after (field :: fields) = (reader.after [field]).after fields := by
  simp only [after, Description.faults_cons _ field fields, Faults.append_assoc]

/-- A fault is remembered behind those that were met before. -/
theorem record_error {α : Type} (key : String) (fault : Fault) :
    reader.record key (.error fault : Except Fault α) =
      (none, { reader with faults := reader.faults ++ .single key fault }) := by
  cases fault with
  | absent =>
    have h : reader.faults ++ .single key .absent =
        ⟨reader.faults.missing ++ [key], reader.faults.malformed⟩ :=
      Faults.ext rfl (List.append_nil _)
    rw [h, record]
  | malformed =>
    have h : reader.faults ++ .single key .malformed =
        ⟨reader.faults.missing, reader.faults.malformed ++ [key]⟩ :=
      Faults.ext (List.append_nil _) rfl
    rw [h, record]

/-- **One read** has what the lookup has, whatever faults there were before it,
and a fault of the lookup is remembered behind those. -/
theorem read_eq (type : FieldType) (key : String) :
    reader.read type key =
      ((reader.description.lookup type key).toOption, reader.after [(type, key)]) := by
  rw [read, after]
  cases h : reader.description.lookup type key with
  | ok value =>
    rw [Description.faults_singleton_of_ok h, Faults.append_empty]
    rfl
  | error fault =>
    rw [Description.faults_singleton_of_error h, record_error]
    rfl

/-- **A run of reads** finds what the lookups find, and remembers their faults in
the order of reading. -/
theorem readAll_eq (fields : Schema) :
    reader.readAll fields = (fields.map reader.description.finding, reader.after fields) := by
  induction fields generalizing reader with
  | nil => rw [readAll, after_nil, List.map_nil]
  | cons field fields ih =>
    obtain ⟨type, key⟩ := field
    -- The reader behind the first read has its faults, and the description it had before.
    simp only [readAll, read_eq, ih, description_after, ← after_cons, List.map_cons]
    rfl

/-- A run goes on where the run before it left the reader. -/
theorem readAll_append (fields others : Schema) :
    reader.readAll (fields ++ others) =
      ((reader.readAll fields).1 ++ ((reader.readAll fields).2.readAll others).1,
        ((reader.readAll fields).2.readAll others).2) := by
  induction fields generalizing reader with
  | nil => rfl
  | cons field fields ih => simp only [List.cons_append, readAll, ih]

end FieldReader

namespace Reading

variable {α β : Type} {d : Description}

/-! ## Running a reading -/

/-- Two readings put together are run one after the other, the second with the
reader that the first left, and only then it is seen whether both have a value. -/
theorem run_seq (f : Reading (α → β)) (x : Reading α) (reader : FieldReader) :
    (f <*> x).run reader =
      ((f.run reader).1.bind fun g => (x.run (f.run reader).2).1.map g,
        (x.run (f.run reader).2).2) := rfl

theorem run_map (g : α → β) (x : Reading α) (reader : FieldReader) :
    (g <$> x).run reader = ((x.run reader).1.map g, (x.run reader).2) := rfl

theorem run_field (type : FieldType) (key : String) (reader : FieldReader) :
    (field type key).run reader = reader.read type key := rfl

/-- The reading has a value in the description. -/
def Yields (reading : Reading α) (d : Description) (a : α) : Prop :=
  (reading.run { description := d }).1 = some a

/-- Extracting succeeds with the value that the reading yields, and with no
other. -/
theorem extract_eq_ok_iff {reading : Reading α} {a : α} :
    reading.extract d = .ok a ↔ reading.Yields d a := by
  rw [extract, Yields]
  split <;> simp_all

/-- What a field and a function put together yield is the function at the value
of the field. -/
theorem yields_map_field (type : FieldType) (key : String) {g : type.Value → β} {b : β} :
    (g <$> field type key).Yields d b ↔ ∃ value, d.lookup type key = .ok value ∧ g value = b := by
  rw [Yields, run_map, run_field, FieldReader.read_eq, Option.map_eq_some_iff]
  cases d.lookup type key <;> simp [Except.toOption]

/-- A field that is read last is read from the same description, whatever was
met before it. -/
theorem yields_seq_field (type : FieldType) (key : String) {f : Reading (type.Value → β)} {b : β} :
    (f <*> field type key).Yields d b ↔
      ∃ value, d.lookup type key = .ok value ∧ ∃ g, f.Yields d g ∧ g value = b := by
  unfold Yields
  rw [run_seq, run_field, FieldReader.read_eq, f.description_run]
  simp only [Option.bind_eq_some_iff, Option.map_eq_some_iff]
  cases d.lookup type key <;> simp [Except.toOption]

/-- A field with a value gives a function its argument. -/
theorem Yields.map_field {type : FieldType} {key : String} {value : type.Value}
    (h : d.lookup type key = .ok value) (g : type.Value → β) :
    (g <$> field type key).Yields d (g value) :=
  (yields_map_field type key).mpr ⟨value, h, rfl⟩

/-- A field with a value gives a function that is read before it its argument. -/
theorem Yields.seq_field {type : FieldType} {key : String} {value : type.Value}
    {f : Reading (type.Value → β)} {g : type.Value → β} (hf : f.Yields d g)
    (h : d.lookup type key = .ok value) : (f <*> field type key).Yields d (g value) :=
  (yields_seq_field type key).mpr ⟨value, h, g, hf, rfl⟩

/-! ## Schemas -/

/-- The reading makes the reads of the schema, in its order and all of them: it
leaves any reader as the run over the schema does, and has a value when the run
found one for every field. -/
structure Follows (reading : Reading α) (schema : Schema) : Prop where
  reader : ∀ reader, (reading.run reader).2 = (reader.readAll schema).2
  isSome : ∀ reader, (reading.run reader).1.isSome = true ↔
    ∀ finding ∈ (reader.readAll schema).1, finding.2.isSome = true

theorem follows_field (type : FieldType) (key : String) :
    (field type key).Follows [(type, key)] where
  reader _ := rfl
  isSome _ := by
    simp only [run_field, FieldReader.readAll, List.forall_mem_singleton]

/-- A function on the value changes nothing about the fields that are read. -/
theorem Follows.map {reading : Reading α} {schema : Schema} (h : reading.Follows schema)
    (g : α → β) : (g <$> reading).Follows schema where
  reader := h.reader
  isSome reader := by
    rw [run_map, Option.isSome_map]
    exact h.isSome reader

/-- **Readings put together follow their schemas put together.** -/
theorem Follows.seq {f : Reading (α → β)} {x : Reading α} {s t : Schema} (hf : f.Follows s)
    (hx : x.Follows t) : (f <*> x).Follows (s ++ t) where
  reader reader := by
    rw [run_seq, FieldReader.readAll_append, ← hf.reader, hx.reader]
  isSome reader := by
    -- Both readings are run whichever of them fails, so neither condition hides the other.
    rw [FieldReader.readAll_append, List.forall_mem_append, ← hf.isSome, ← hf.reader, ← hx.isSome,
      run_seq]
    cases (f.run reader).1 <;> cases (x.run (f.run reader).2).1 <;> simp

/-- A reading has a value exactly where its schema is met. -/
theorem Follows.meets_iff {reading : Reading α} {schema : Schema} (h : reading.Follows schema) :
    d.Meets schema ↔ ∃ a, reading.extract d = .ok a := by
  have hsome := h.isSome { description := d }
  rw [FieldReader.readAll_eq, Description.forall_isSome_finding_iff] at hsome
  rw [← hsome, Option.isSome_iff_exists]
  exact exists_congr fun a => extract_eq_ok_iff.symm

/-- **A reading fails exactly when one of its fields does**, and it then reports
the faults of all of them. -/
theorem Follows.extract_eq_error_iff {reading : Reading α} {schema : Schema}
    (h : reading.Follows schema) {faults : Faults} :
    reading.extract d = .error faults ↔
      (∃ field ∈ schema, d.Lacks field) ∧ faults = d.faults schema := by
  have hfaults : (reading.run { description := d }).2.faults = d.faults schema := by
    rw [h.reader, FieldReader.readAll_eq]
    rfl
  rw [← Description.not_meets_iff, h.meets_iff, ← hfaults, extract]
  split
  · next a _ heq => simp [heq]
  · next reader heq => simp [heq, eq_comm]

end Reading

end EscrowFeed
