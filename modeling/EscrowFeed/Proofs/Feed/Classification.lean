/-
The stages by which an entry is decided.

`Decides` is the classification as a relation with one rule for every stage.
A rule says what its own stage fails at and what the stages before it have
found, and it says nothing about what the stages after it would have found. No
two rules apply to one entry, and to every entry one of them does.
-/
import EscrowFeed.Feed.Entry
import EscrowFeed.Proofs.Event.Schema
import EscrowFeed.Proofs.Field.Coercion

set_option autoImplicit false

namespace EscrowFeed

/-! ## Names of kinds -/

namespace Kind

theorem mem_all (kind : Kind) : kind ∈ all := by cases kind <;> decide

/-- A name is that of a kind exactly when it is the kind's own. -/
theorem ofName?_eq_some_iff {name : String} {kind : Kind} :
    ofName? name = some kind ↔ kind.name = name := by
  constructor
  · intro h
    rw [ofName?] at h
    have hname := List.find?_some h
    exact of_decide_eq_true hname
  · rintro rfl
    cases kind <;> rfl

theorem ofName?_eq_none_iff {name : String} :
    ofName? name = none ↔ ∀ kind : Kind, kind.name ≠ name := by
  rw [ofName?, List.find?_eq_none]
  constructor
  · intro h kind hname
    exact h kind kind.mem_all (decide_eq_true hname)
  · intro h kind _ hname
    exact h kind (of_decide_eq_true hname)

end Kind

/-! ## What a record states -/

/-- The header of the entry that a record comes from. -/
def Record.header (record : Record) : Header where
  eventType := record.kind.name
  blockTimestamp := record.blockTimestamp
  blockNumber := record.blockNumber
  transactionHash := record.transactionHash

/-- The description carries the fields of the record's entry, with the values of
the record. -/
structure Record.StatedIn (record : Record) (d : Description) : Prop where
  header : record.header.StatedIn d
  event : record.event.StatedIn d

/-- A record is its identity, its header and its event. -/
theorem Record.eq_ofEntry {record : Record} {index : Nat}
    (hid : record.id = Identity.key (Identity.text record.transactionHash index)) :
    record = .ofEntry index record.header record.event := by
  cases record
  rw [ofEntry, mk.injEq]
  exact ⟨hid, rfl, rfl, rfl, rfl⟩

/-- A header is stated as soon as no field of it is missing or malformed. -/
theorem Header.meets_schema_iff {d : Description} :
    d.Meets Header.schema ↔ ∃ header : Header, header.StatedIn d := by
  rw [Header.reading_follows.meets_iff]
  exact exists_congr fun header => Header.extract_eq_ok_iff

/-! ## The stages -/

/-- What is decided of a description at a place, stage by stage. -/
inductive Decides (index : Nat) (description : String) : Except Skip Outcome → Prop where
  /-- There is a description, or it is empty. -/
  | unreadable {error : DescriptionError} :
    Description.parse description = .error error →
    Decides index description (.error ⟨index, description, .unreadable error⟩)
  /-- It carries the fields of every entry, whatever its kind is. -/
  | faultyHeader {d : Description} :
    Description.parse description = .ok d →
    ¬d.Meets Header.schema →
    Decides index description
      (.error ⟨index, description, .faultyHeader (d.faults Header.schema)⟩)
  /-- Its type is the name of a kind, whatever its other fields are. -/
  | unrecognized {d : Description} {header : Header} :
    Description.parse description = .ok d →
    header.StatedIn d →
    (∀ kind : Kind, kind.name ≠ header.eventType) →
    Decides index description (.ok (.unrecognized header.eventType))
  /-- It carries the fields of that kind. -/
  | faultyEvent {d : Description} {header : Header} {kind : Kind} :
    Description.parse description = .ok d →
    header.StatedIn d →
    kind.name = header.eventType →
    ¬d.Meets kind.schema →
    Decides index description
      (.error ⟨index, description, .faultyEvent kind (d.faults kind.schema)⟩)
  /-- Nothing stands against it. -/
  | materialized {d : Description} {header : Header} {event : Event} :
    Description.parse description = .ok d →
    header.StatedIn d →
    event.kind.name = header.eventType →
    event.StatedIn d →
    Decides index description (.ok (.materialized (.ofEntry index header event)))

variable {index : Nat} {description : String}

/-- **What is decided of an entry is decided stage by stage.** -/
theorem decides_classify (index : Nat) (description : String) :
    Decides index description (classify index description) := by
  -- One split for every stage, in the order of the stages.
  rw [classify]
  split
  · next error hparse => exact .unreadable hparse
  · next d hparse =>
    split
    · next faults hheader =>
      obtain ⟨hlacks, rfl⟩ := Header.reading_follows.extract_eq_error_iff.mp hheader
      have hmeets := Description.not_meets_iff.mpr hlacks
      exact .faultyHeader hparse hmeets
    · next header hheader =>
      replace hheader := Header.extract_eq_ok_iff.mp hheader
      split
      · next hkind => exact .unrecognized hparse hheader (Kind.ofName?_eq_none_iff.mp hkind)
      · next kind hkind =>
        replace hkind := Kind.ofName?_eq_some_iff.mp hkind
        split
        · next faults hevent =>
          obtain ⟨hlacks, rfl⟩ := (Event.reading_follows kind).extract_eq_error_iff.mp hevent
          have hmeets := Description.not_meets_iff.mpr hlacks
          exact .faultyEvent hparse hheader hkind hmeets
        · next event hevent =>
          obtain ⟨rfl, hstated⟩ := Event.extract_eq_ok_iff.mp hevent
          exact .materialized hparse hheader hkind hstated

/-- Every rule says enough to follow the stages to its own. -/
theorem classify_eq_of_decides {result : Except Skip Outcome}
    (h : Decides index description result) : classify index description = result := by
  cases h with
  | unreadable hparse =>
    rw [classify, hparse]
  | faultyHeader hparse hmeets =>
    have hlacks := Description.not_meets_iff.mp hmeets
    have hextract := Header.reading_follows.extract_eq_error_iff.mpr ⟨hlacks, rfl⟩
    simp only [classify, hparse, hextract]
  | unrecognized hparse hheader hkind =>
    have hextract := Header.extract_eq_ok_iff.mpr hheader
    have hname := Kind.ofName?_eq_none_iff.mpr hkind
    simp only [classify, hparse, hextract, hname]
  | @faultyEvent d header kind hparse hheader hkind hmeets =>
    have hextract := Header.extract_eq_ok_iff.mpr hheader
    have hname := Kind.ofName?_eq_some_iff.mpr hkind
    have hlacks := Description.not_meets_iff.mp hmeets
    have hevent := (Event.reading_follows kind).extract_eq_error_iff.mpr ⟨hlacks, rfl⟩
    simp only [classify, hparse, hextract, hname, hevent]
  | materialized hparse hheader hkind hstated =>
    have hextract := Header.extract_eq_ok_iff.mpr hheader
    have hname := Kind.ofName?_eq_some_iff.mpr hkind
    have hevent := Event.extract_eq_ok_iff.mpr ⟨rfl, hstated⟩
    simp only [classify, hparse, hextract, hname, hevent]

/-- **Classification is its rules**: they are sound, and they leave no entry
undecided. -/
theorem classify_eq_iff {result : Except Skip Outcome} :
    classify index description = result ↔ Decides index description result := by
  constructor
  · rintro rfl
    exact decides_classify index description
  · exact classify_eq_of_decides

/-! ## Each result on its own -/

/-- An entry is unreadable exactly when it has no description. -/
theorem classify_eq_unreadable_iff {error : DescriptionError} :
    classify index description = .error ⟨index, description, .unreadable error⟩ ↔
      Description.parse description = .error error := by
  rw [classify_eq_iff]
  constructor
  · rintro (hparse | _ | _ | _ | _)
    exact hparse
  · exact .unreadable

/-- The header of an entry is at fault exactly when a field of every entry is
lacking. -/
theorem classify_eq_faultyHeader_iff {faults : Faults} :
    classify index description = .error ⟨index, description, .faultyHeader faults⟩ ↔
      ∃ d, Description.parse description = .ok d ∧ (∃ field ∈ Header.schema, d.Lacks field)
        ∧ faults = d.faults Header.schema := by
  rw [classify_eq_iff]
  constructor
  · rintro (_ | ⟨hparse, hmeets⟩ | _ | _ | _)
    exact ⟨_, hparse, Description.not_meets_iff.mp hmeets, rfl⟩
  · rintro ⟨d, hparse, hlacks, rfl⟩
    have hmeets := Description.not_meets_iff.mpr hlacks
    exact .faultyHeader hparse hmeets

/-- An entry is passed over exactly when it has a header that names no kind. -/
theorem classify_eq_unrecognized_iff {eventType : String} :
    classify index description = .ok (.unrecognized eventType) ↔
      ∃ d, Description.parse description = .ok d ∧ d.Meets Header.schema
        ∧ d.lookup .text "eventType" = .ok eventType ∧ ∀ kind : Kind, kind.name ≠ eventType := by
  rw [classify_eq_iff]
  constructor
  · rintro (_ | _ | ⟨hparse, hheader, hkind⟩ | _ | _)
    have hmeets := Header.meets_schema_iff.mpr ⟨_, hheader⟩
    exact ⟨_, hparse, hmeets, hheader.1, hkind⟩
  · rintro ⟨d, hparse, hmeets, htype, hkind⟩
    obtain ⟨header, hheader⟩ := Header.meets_schema_iff.mp hmeets
    obtain rfl : header.eventType = eventType := Except.ok.inj (hheader.1.symm.trans htype)
    exact .unrecognized hparse hheader hkind

/-- The event of an entry is at fault exactly when the header names a kind of
which a field is lacking. -/
theorem classify_eq_faultyEvent_iff {kind : Kind} {faults : Faults} :
    classify index description = .error ⟨index, description, .faultyEvent kind faults⟩ ↔
      ∃ d, Description.parse description = .ok d ∧ d.Meets Header.schema
        ∧ d.lookup .text "eventType" = .ok kind.name ∧ (∃ field ∈ kind.schema, d.Lacks field)
        ∧ faults = d.faults kind.schema := by
  rw [classify_eq_iff]
  constructor
  · rintro (_ | _ | _ | ⟨hparse, hheader, hkind, hmeets⟩ | _)
    refine ⟨_, hparse, Header.meets_schema_iff.mpr ⟨_, hheader⟩, ?_,
      Description.not_meets_iff.mp hmeets, rfl⟩
    rw [hkind]
    exact hheader.1
  · rintro ⟨d, hparse, hmeets, htype, hlacks, rfl⟩
    -- The header that is stated has the type that was looked up.
    obtain ⟨header, hheader⟩ := Header.meets_schema_iff.mp hmeets
    have hkind : kind.name = header.eventType := Except.ok.inj (htype.symm.trans hheader.1)
    have hkindMeets := Description.not_meets_iff.mpr hlacks
    exact .faultyEvent hparse hheader hkind hkindMeets

/-- An entry becomes a record exactly when it states all that the record has. -/
theorem classify_eq_materialized_iff {record : Record} :
    classify index description = .ok (.materialized record) ↔
      ∃ d, Description.parse description = .ok d ∧ record.StatedIn d
        ∧ record.id = Identity.key (Identity.text record.transactionHash index) := by
  rw [classify_eq_iff]
  constructor
  · rintro (_ | _ | _ | _ | ⟨hparse, hheader, hkind, hstated⟩)
    -- The record's own header differs from the entry's in how its type is got only.
    refine ⟨_, hparse, ⟨?_, hstated⟩, rfl⟩
    rw [Record.header, Record.kind, Record.ofEntry, hkind]
    exact hheader
  · rintro ⟨d, hparse, hstated, hid⟩
    rw [record.eq_ofEntry hid]
    exact .materialized hparse hstated.header rfl hstated.event

/-- A skip names the entry it is of. -/
theorem classify_eq_error_entry {skip : Skip} (h : classify index description = .error skip) :
    skip.index = index ∧ skip.description = description := by
  cases classify_eq_iff.mp h <;> exact ⟨rfl, rfl⟩

/-- **An entry is decided in stages.** It is skipped for having no description
exactly when the description is empty; else as no object exactly when it is not
read; else for its header exactly when a field of every entry has no value,
whatever its type says; else passed over exactly when its type is no kind's
name, whatever its other fields are; else skipped for its kind exactly when a
field of that kind has no value; and else it becomes the record of the values
under its keys, with the identity of its hash and its place. -/
theorem classify_stages (index : Nat) (description : String) :
    (classify index description = .error ⟨index, description, .unreadable .empty⟩ ↔
        description = "")
      ∧ (classify index description = .error ⟨index, description, .unreadable .notAnObject⟩ ↔
        description ≠ "" ∧ ∃ error, Description.parse description = .error error)
      ∧ (∀ faults,
        classify index description = .error ⟨index, description, .faultyHeader faults⟩ ↔
          ∃ d, Description.parse description = .ok d ∧ (∃ field ∈ Header.schema, d.Lacks field)
            ∧ faults = d.faults Header.schema)
      ∧ (∀ eventType, classify index description = .ok (.unrecognized eventType) ↔
          ∃ d, Description.parse description = .ok d ∧ d.Meets Header.schema
            ∧ d.lookup .text "eventType" = .ok eventType ∧ ∀ kind : Kind, kind.name ≠ eventType)
      ∧ (∀ kind faults,
        classify index description = .error ⟨index, description, .faultyEvent kind faults⟩ ↔
          ∃ d, Description.parse description = .ok d ∧ d.Meets Header.schema
            ∧ d.lookup .text "eventType" = .ok kind.name
            ∧ (∃ field ∈ kind.schema, d.Lacks field) ∧ faults = d.faults kind.schema)
      ∧ (∀ record, classify index description = .ok (.materialized record) ↔
          ∃ d, Description.parse description = .ok d ∧ record.StatedIn d
            ∧ record.id = Identity.key (Identity.text record.transactionHash index))
      ∧ ∀ skip, classify index description = .error skip →
          skip.index = index ∧ skip.description = description := by
  refine ⟨?_, ?_, fun faults => classify_eq_faultyHeader_iff,
    fun eventType => classify_eq_unrecognized_iff, fun kind faults => classify_eq_faultyEvent_iff,
    fun record => classify_eq_materialized_iff, fun skip => classify_eq_error_entry⟩
  · rw [classify_eq_unreadable_iff, Description.parse_eq_error_empty_iff]
  · -- A text is refused exactly when it has no tree; the reason is the empty text's or this one.
    rw [classify_eq_unreadable_iff, Description.parse_eq_error_notAnObject_iff]
    refine and_congr_right fun _ => ⟨fun h => ?_, fun ⟨error, herror⟩ d hd => ?_⟩
    · cases hparse : Description.parse description with
      | ok d => exact absurd hparse (h d)
      | error error => exact ⟨error, rfl⟩
    · rw [herror] at hd
      cases hd

end EscrowFeed
