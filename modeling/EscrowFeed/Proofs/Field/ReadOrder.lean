/-
Reading field after field, in any order.

A reader goes through its reads one by one, and its faults grow as it goes.
`Remembers` is what a run of reads should come to, from a reader in whatever
state: at every place what the lookup of the field there finds, and behind the
faults that the reader had the keys whose lookups fail, under their faults, in
the order of reading and as often as they were read. That a run comes to this is
the induction over its reads in `readAll_eq`.

Findings and faults are then images of the list of fields, and reading the
fields in another order permutes both. The readings of the feed are runs of this
kind (`Follows`), and they decide by whether a fault was met, so that no order of
the same reads would decide otherwise.
-/
import EscrowFeed.Proofs.Feed.Faults

set_option autoImplicit false

namespace EscrowFeed

variable {d : Description} {fields others : Schema}

/-! ## Faults of a run -/

namespace Faults

theorem isEmpty_append_iff {a b : Faults} :
    (a ++ b).isEmpty = true ↔ a.isEmpty = true ∧ b.isEmpty = true := by
  simp only [isEmpty, missing_append, malformed_append, Bool.and_eq_true, List.isEmpty_iff,
    List.append_eq_nil_iff]
  exact and_and_and_comm

end Faults

namespace Description

/-- Fields have no faults exactly when all of them have values. -/
theorem isEmpty_faults_iff : (d.faults fields).isEmpty = true ↔ d.Meets fields := by
  have h : (d.faults fields).isEmpty = false ↔ ∃ field ∈ fields, d.Lacks field :=
    Faults.isEmpty_eq_false_iff (fun _ => mem_keysWith) fun _ => mem_keysWith
  rw [← not_meets_iff, ← Bool.not_eq_true] at h
  exact not_iff_not.mp h

theorem meets_perm (h : others.Perm fields) : d.Meets others ↔ d.Meets fields :=
  forall_congr' fun _ => imp_congr_left h.mem_iff

theorem keysWith_perm (fault : Fault) (h : others.Perm fields) :
    (d.keysWith fault others).Perm (d.keysWith fault fields) :=
  (h.filter _).map Prod.snd

end Description

namespace FieldReader

/-- What a run of reads comes to: at every place the finding of the field that
is read there, and behind the faults of the reader the keys whose lookups have
each fault. There are none exactly when there were none before and every read
found a value. -/
structure Remembers (reader : FieldReader) (fields : Schema) (run : List Finding × FieldReader) :
    Prop where
  findings : ∀ place : Nat, run.1[place]? = fields[place]?.map fun field =>
    (⟨field.1, (reader.description.lookup field.1 field.2).toOption⟩ : Finding)
  description : run.2.description = reader.description
  missing : run.2.faults.missing =
    reader.faults.missing ++ reader.description.keysWith .absent fields
  malformed : run.2.faults.malformed =
    reader.faults.malformed ++ reader.description.keysWith .malformed fields
  isEmpty_iff : run.2.faults.isEmpty = true ↔
    reader.faults.isEmpty = true ∧ ∀ finding ∈ run.1, finding.2.isSome = true

/-- Two runs come to the same up to their order: the fields with the same
findings, the same keys under each fault, and no fault in both or a fault in
both. -/
structure Reorders (fields others : Schema) (run other : List Finding × FieldReader) : Prop where
  findings : (others.zip other.1).Perm (fields.zip run.1)
  missing : other.2.faults.missing.Perm run.2.faults.missing
  malformed : other.2.faults.malformed.Perm run.2.faults.malformed
  isEmpty : other.2.faults.isEmpty = run.2.faults.isEmpty

variable (reader : FieldReader)

/-- A run meets no fault when there was none before and the fields have values. -/
theorem isEmpty_readAll_iff :
    (reader.readAll fields).2.faults.isEmpty = true ↔
      reader.faults.isEmpty = true ∧ reader.description.Meets fields := by
  rw [readAll_eq, after, Faults.isEmpty_append_iff, Description.isEmpty_faults_iff]

/-- **Every fault is remembered**, and every read has what its lookup has. -/
theorem remembers_readAll (fields : Schema) : reader.Remembers fields (reader.readAll fields) where
  findings place := by
    rw [readAll_eq]
    exact List.getElem?_map
  description := by
    rw [readAll_eq, description_after]
  missing := by
    rw [readAll_eq]
    rfl
  malformed := by
    rw [readAll_eq]
    rfl
  isEmpty_iff := by
    rw [isEmpty_readAll_iff, readAll_eq, Description.forall_isSome_finding_iff]

/-- **No read depends on those before it**: what a run finds it finds behind any
other. -/
theorem findings_readAll_append (before fields : Schema) :
    (reader.readAll (before ++ fields)).1 =
      (reader.readAll before).1 ++ (reader.readAll fields).1 := by
  rw [readAll_eq, readAll_eq, readAll_eq, List.map_append]

/-- **Reads can be made in any order.** -/
theorem reorders_readAll (h : others.Perm fields) :
    Reorders fields others (reader.readAll fields) (reader.readAll others) where
  findings := by
    rw [readAll_eq, readAll_eq, ← List.map_prod_left_eq_zip, ← List.map_prod_left_eq_zip]
    exact h.map _
  missing := by
    rw [(reader.remembers_readAll others).missing, (reader.remembers_readAll fields).missing]
    exact (Description.keysWith_perm .absent h).append_left _
  malformed := by
    rw [(reader.remembers_readAll others).malformed, (reader.remembers_readAll fields).malformed]
    exact (Description.keysWith_perm .malformed h).append_left _
  isEmpty := by
    rw [Bool.eq_iff_iff, isEmpty_readAll_iff, isEmpty_readAll_iff, Description.meets_perm h]

end FieldReader

/-! ## Readings -/

namespace Reading

variable {α : Type}

/-- The reads of a schema decide a reading. It makes them in their order, fails
when a fault is met and then with all that the reader remembers, and whether it
has a value could be told from the same reads in any order. -/
structure DecidedBy (reading : Reading α) (schema : Schema) : Prop where
  follows : reading.Follows schema
  error_iff : ∀ d faults, reading.extract d = .error faults ↔
    ∃ reader, (FieldReader.readAll { description := d } schema).2 = reader
      ∧ reader.faults.isEmpty = false ∧ reader.faults = faults
  ok_iff : ∀ d fields, fields.Perm schema →
    ((∃ a, reading.extract d = .ok a) ↔
      (FieldReader.readAll { description := d } fields).2.faults.isEmpty = true)

/-- **A reading that follows a schema is decided by its reads.** -/
theorem Follows.decidedBy {reading : Reading α} {schema : Schema} (h : reading.Follows schema) :
    reading.DecidedBy schema where
  follows := h
  error_iff d faults := by
    have hempty : (FieldReader.readAll { description := d } schema).2.faults.isEmpty = false ↔
        ∃ field ∈ schema, d.Lacks field := by
      rw [← Bool.not_eq_true, FieldReader.isEmpty_readAll_iff, ← Description.not_meets_iff]
      exact not_congr (and_iff_right rfl)
    -- A fresh reader remembers nothing, so its faults are those of the fields.
    have hfaults :
        (FieldReader.readAll { description := d } schema).2.faults = d.faults schema := by
      rw [FieldReader.readAll_eq]
      rfl
    rw [h.extract_eq_error_iff, exists_eq_left', hempty, hfaults, eq_comm]
  ok_iff d fields hperm := by
    rw [← h.meets_iff, FieldReader.isEmpty_readAll_iff, Description.meets_perm hperm]
    exact (and_iff_right rfl).symm

end Reading

/-- **Reads are independent, and every fault is remembered.** From a reader with
any faults, reading the fields of a list, of any types and with any repeats, goes
through for all of them: each read has what the lookup of its field has, behind
any reads before it, and a fault of the lookup is remembered in its place.
Reading the same fields in another order reorders the findings and the faults
with them. The header and the event of every kind are read in such a run, and
what is decided about them is decided by the faults of the run, whatever the
order. -/
theorem reads_independent (reader : FieldReader) (fields : Schema) :
    reader.Remembers fields (reader.readAll fields)
      ∧ (∀ before : Schema, (reader.readAll (before ++ fields)).1 =
          (reader.readAll before).1 ++ (reader.readAll fields).1)
      ∧ (∀ others : Schema, others.Perm fields →
          FieldReader.Reorders fields others (reader.readAll fields) (reader.readAll others))
      ∧ Header.reading.DecidedBy Header.schema
      ∧ ∀ kind, (Event.reading kind).DecidedBy kind.schema :=
  ⟨reader.remembers_readAll fields, fun before => reader.findings_readAll_append before fields,
    fun _ => reader.reorders_readAll, Header.reading_follows.decidedBy,
    fun kind => (Event.reading_follows kind).decidedBy⟩

/-- A field that is read three times, as two types, is missed three times, and
so it is in another order, behind the fault that the reader had. -/
theorem reads_independent_repeats :
    let reader : FieldReader :=
      ⟨⟨[("amount", .text "0x1"), ("owner", .text "0xff")]⟩, ⟨["block_number"], []⟩⟩
    let fields : Schema := [(.text, "sender"), (.integer, "amount"), (.bytes, "owner"),
      (.integer, "sender"), (.text, "amount"), (.text, "sender")]
    let others : Schema := [(.integer, "sender"), (.text, "amount"), (.text, "sender"),
      (.bytes, "owner"), (.text, "sender"), (.integer, "amount")]
    (reader.readAll fields).1[2]? = some ⟨.bytes, some [255]⟩
      ∧ (reader.readAll fields).2.faults =
        ⟨["block_number", "sender", "sender", "sender"], ["amount"]⟩
      ∧ FieldReader.Reorders fields others (reader.readAll fields) (reader.readAll others) := by
  intro reader fields others
  obtain ⟨hremembers, -, hreorders, -, -⟩ := reads_independent reader fields
  refine ⟨?_, ?_, hreorders others (by decide)⟩
  · rw [hremembers.findings]
    rfl
  · ext1
    · rw [hremembers.missing]
      decide +kernel
    · rw [hremembers.malformed]
      decide +kernel

end EscrowFeed
