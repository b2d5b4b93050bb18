/-
The faults of an entry, all of them and no others.

A reading that fails says which fields it failed at. `Faults.Exact` is what that
should be, and it does not look at how the faults are collected: under each of
the two faults stand the keys of the schema whose lookup has it, in the order of
the schema, no key stands twice, and some key stands somewhere. A schema that
names no key twice leaves room for one such pair of lists only, so a reading
that reports it can report nothing else.

Everything is shown for any reading that follows such a schema. The header and
the six kinds are then cases of it, and so is the skip of an entry, which takes
its faults from the reading at which the entry failed.
-/
import EscrowFeed.Proofs.Feed.Classification
import Mathlib.Data.List.Nodup

set_option autoImplicit false

namespace EscrowFeed

/-! ## Keys by their fault -/

namespace Description

/-- The keys of a schema that have a fault. -/
def keysWith (d : Description) (fault : Fault) (schema : Schema) : List String :=
  (schema.filter fun field => d.fault? field = some fault).map Prod.snd

variable {d : Description} {schema : Schema}

theorem faults_eq (d : Description) (schema : Schema) :
    d.faults schema = ⟨d.keysWith .absent schema, d.keysWith .malformed schema⟩ := rfl

/-- A field has the fault that its lookup fails with. -/
theorem fault?_eq_some_iff {field : FieldType × String} {fault : Fault} :
    d.fault? field = some fault ↔ d.lookup field.1 field.2 = .error fault := by
  unfold fault?
  split
  · next value h => simp only [h, reduceCtorEq]
  · next found h => simp only [h, Option.some.injEq, Except.error.injEq]

theorem mem_keysWith {fault : Fault} {key : String} :
    key ∈ d.keysWith fault schema ↔
      ∃ type, (type, key) ∈ schema ∧ d.lookup type key = .error fault := by
  simp only [keysWith, List.mem_map, List.mem_filter, decide_eq_true_eq, fault?_eq_some_iff,
    Prod.exists, exists_eq_right]

/-- Keys with a fault are in the order of the schema. -/
theorem keysWith_sublist (d : Description) (fault : Fault) (schema : Schema) :
    (d.keysWith fault schema).Sublist (schema.map Prod.snd) :=
  List.filter_sublist.map Prod.snd

end Description

/-! ## Exact faults -/

/-- The faults are those of the fields of a schema, in the order of the schema. -/
structure Faults.Exact (faults : Faults) (d : Description) (schema : Schema) : Prop where
  mem_missing : ∀ key, key ∈ faults.missing ↔
    ∃ type, (type, key) ∈ schema ∧ d.lookup type key = .error .absent
  mem_malformed : ∀ key, key ∈ faults.malformed ↔
    ∃ type, (type, key) ∈ schema ∧ d.lookup type key = .error .malformed
  missing_sublist : faults.missing.Sublist (schema.map Prod.snd)
  malformed_sublist : faults.malformed.Sublist (schema.map Prod.snd)
  /-- No key stands twice, in one of the lists or once in each. -/
  nodup : (faults.missing ++ faults.malformed).Nodup
  isEmpty_eq_false : faults.isEmpty = false

variable {d : Description} {schema : Schema}

namespace Faults

/-- There is one way for faults to be exact. -/
theorem Exact.unique {a b : Faults} (hkeys : (schema.map Prod.snd).Nodup) (ha : a.Exact d schema)
    (hb : b.Exact d schema) : a = b := by
  -- Two sublists of a list without repeats are equal when they have the same members.
  have hext : ∀ {s t : List String}, s.Sublist (schema.map Prod.snd) →
      t.Sublist (schema.map Prod.snd) → (∀ key, key ∈ s ↔ key ∈ t) → s = t := by
    intro s t hs ht hmem
    rw [← hkeys.perm_iff_eq_of_sublist hs ht,
      List.perm_ext_iff_of_nodup (hkeys.sublist hs) (hkeys.sublist ht)]
    exact hmem
  ext1
  · exact hext ha.missing_sublist hb.missing_sublist fun key =>
      (ha.mem_missing key).trans (hb.mem_missing key).symm
  · exact hext ha.malformed_sublist hb.malformed_sublist fun key =>
      (ha.mem_malformed key).trans (hb.mem_malformed key).symm

/-- Faults that stand for the fields of a schema are not empty when one of the
fields fails. -/
theorem isEmpty_eq_false_iff {faults : Faults}
    (hmissing : ∀ key, key ∈ faults.missing ↔
      ∃ type, (type, key) ∈ schema ∧ d.lookup type key = .error .absent)
    (hmalformed : ∀ key, key ∈ faults.malformed ↔
      ∃ type, (type, key) ∈ schema ∧ d.lookup type key = .error .malformed) :
    faults.isEmpty = false ↔ ∃ field ∈ schema, d.Lacks field := by
  simp only [isEmpty, Bool.and_eq_false_iff, List.isEmpty_eq_false_iff_exists_mem, hmissing,
    hmalformed, Description.Lacks]
  constructor
  · rintro (⟨key, type, hmem, h⟩ | ⟨key, type, hmem, h⟩)
    · exact ⟨_, hmem, .absent, h⟩
    · exact ⟨_, hmem, .malformed, h⟩
  · rintro ⟨⟨type, key⟩, hmem, fault, h⟩
    cases fault with
    | absent => exact .inl ⟨key, type, hmem, h⟩
    | malformed => exact .inr ⟨key, type, hmem, h⟩

end Faults

/-- A lookup has one fault, so no key has both. -/
theorem Description.nodup_keysWith_append (hkeys : (schema.map Prod.snd).Nodup) :
    (d.keysWith .absent schema ++ d.keysWith .malformed schema).Nodup := by
  have hmissing := hkeys.sublist (d.keysWith_sublist .absent schema)
  have hmalformed := hkeys.sublist (d.keysWith_sublist .malformed schema)
  refine List.nodup_append.mpr ⟨hmissing, hmalformed, ?_⟩
  rintro key habsent _ hkey rfl
  obtain ⟨s, hs, hsabsent⟩ := mem_keysWith.mp habsent
  obtain ⟨t, ht, htmalformed⟩ := mem_keysWith.mp hkey
  obtain rfl : s = t := congrArg Prod.fst (List.inj_on_of_nodup_map hkeys hs ht rfl)
  rw [hsabsent, Except.error.injEq] at htmalformed
  exact absurd htmalformed (by decide)

/-- The faults of the fields of a schema are exact, as soon as there are any. -/
theorem Description.exact_faults (hkeys : (schema.map Prod.snd).Nodup)
    (hlacks : ∃ field ∈ schema, d.Lacks field) : (d.faults schema).Exact d schema := by
  rw [faults_eq]
  exact {
    mem_missing := fun _ => mem_keysWith
    mem_malformed := fun _ => mem_keysWith
    missing_sublist := d.keysWith_sublist .absent schema
    malformed_sublist := d.keysWith_sublist .malformed schema
    nodup := nodup_keysWith_append hkeys
    isEmpty_eq_false :=
      (Faults.isEmpty_eq_false_iff (fun _ => mem_keysWith) fun _ => mem_keysWith).mpr hlacks }

/-! ## Readings -/

namespace Reading

variable {α : Type}

/-- A reading of the fields of a schema has a value when all of them do, and
otherwise exactly their faults. -/
structure ReportsExactly (reading : Reading α) (schema : Schema) (d : Description) : Prop where
  error_iff : ∀ faults, reading.extract d = .error faults ↔ faults.Exact d schema
  fails_iff : (∃ faults, reading.extract d = .error faults) ↔
    ∃ field ∈ schema, ∃ fault, d.lookup field.1 field.2 = .error fault
  succeeds_iff : (∃ a, reading.extract d = .ok a) ↔
    ∀ field ∈ schema, ∃ value, d.lookup field.1 field.2 = .ok value

/-- **A reading that follows a schema without repeated keys reports exactly.** -/
theorem Follows.reportsExactly {reading : Reading α} (h : reading.Follows schema)
    (hkeys : (schema.map Prod.snd).Nodup) (d : Description) : reading.ReportsExactly schema d where
  error_iff faults := by
    rw [h.extract_eq_error_iff]
    constructor
    · rintro ⟨hlacks, rfl⟩
      exact d.exact_faults hkeys hlacks
    · intro hexact
      have hlacks := (Faults.isEmpty_eq_false_iff hexact.mem_missing hexact.mem_malformed).mp
        hexact.isEmpty_eq_false
      exact ⟨hlacks, hexact.unique hkeys (d.exact_faults hkeys hlacks)⟩
  fails_iff := by
    simp only [h.extract_eq_error_iff]
    constructor
    · rintro ⟨faults, hlacks, -⟩
      exact hlacks
    · intro hlacks
      exact ⟨d.faults schema, hlacks, rfl⟩
  succeeds_iff := by
    rw [← h.meets_iff]
    exact forall₂_congr fun field _ => Description.not_lacks_iff

end Reading

/-! ## Entries -/

theorem Header.nodup_keys : (Header.schema.map Prod.snd).Nodup := by decide

theorem Kind.nodup_keys (kind : Kind) : (kind.schema.map Prod.snd).Nodup := by
  cases kind <;> decide

variable {index : Nat} {description : String}

/-- The faults of a header are the faults of the skip. -/
theorem classify_eq_faultyHeader_iff_extract (hparse : Description.parse description = .ok d)
    {faults : Faults} :
    classify index description = .error ⟨index, description, .faultyHeader faults⟩ ↔
      Header.reading.extract d = .error faults := by
  rw [classify_eq_faultyHeader_iff, Header.reading_follows.extract_eq_error_iff]
  simp only [hparse, Except.ok.injEq, exists_eq_left']

/-- The faults of an event are the faults of the skip, as soon as there is a
header and it names the event's kind. -/
theorem classify_eq_faultyEvent_iff_extract (hparse : Description.parse description = .ok d)
    {kind : Kind} {faults : Faults} :
    classify index description = .error ⟨index, description, .faultyEvent kind faults⟩ ↔
      (∃ header, Header.reading.extract d = .ok header ∧ kind.name = header.eventType)
        ∧ (Event.reading kind).extract d = .error faults := by
  -- A header that is read is one that the entry states, and it states one type only.
  have hheader : d.Meets Header.schema ∧ d.lookup .text "eventType" = .ok kind.name ↔
      ∃ header, Header.reading.extract d = .ok header ∧ kind.name = header.eventType := by
    simp only [Header.meets_schema_iff, Header.extract_eq_ok_iff]
    constructor
    · rintro ⟨⟨header, hstated⟩, htype⟩
      exact ⟨header, hstated, Except.ok.inj (htype.symm.trans hstated.1)⟩
    · rintro ⟨header, hstated, hkind⟩
      rw [hkind]
      exact ⟨⟨header, hstated⟩, hstated.1⟩
  rw [classify_eq_faultyEvent_iff, (Event.reading_follows kind).extract_eq_error_iff, ← hheader]
  simp only [hparse, Except.ok.injEq, exists_eq_left', and_assoc]

/-- **Faults are exact and complete.** The header of an entry and the event of
every kind are read in one way: there is a value exactly when no field of the
schema fails, and else there are the faults of all that do, each key once, under
the fault of its lookup and in the order of the schema. The faults of the
header are those of the skip that the entry gets for its header, and the faults
of the event those of the skip that it gets for its kind, once it has a header
that names the kind. -/
theorem faults_exact (d : Description) :
    Header.reading.ReportsExactly Header.schema d
      ∧ (∀ kind, (Event.reading kind).ReportsExactly kind.schema d)
      ∧ ∀ index description, Description.parse description = .ok d →
          (∀ faults,
            classify index description = .error ⟨index, description, .faultyHeader faults⟩ ↔
              Header.reading.extract d = .error faults)
          ∧ ∀ kind faults,
            classify index description = .error ⟨index, description, .faultyEvent kind faults⟩ ↔
              (∃ header, Header.reading.extract d = .ok header ∧ kind.name = header.eventType)
                ∧ (Event.reading kind).extract d = .error faults :=
  ⟨Header.reading_follows.reportsExactly Header.nodup_keys d,
    fun kind => (Event.reading_follows kind).reportsExactly kind.nodup_keys d,
    fun _ _ hparse => ⟨fun _ => classify_eq_faultyHeader_iff_extract hparse,
      fun _ _ => classify_eq_faultyEvent_iff_extract hparse⟩⟩

/-- Fields of every entry that are at fault hide those of the kind, and among
themselves none hides another. -/
theorem faults_exact_funded :
    let description := "\x7b\"eventType\":\"EscrowFunded\",\"block_number\":\"0x1\","
      ++ "\"amount\":\"x\"\x7d"
    let faults : Faults := ⟨["block_timestamp", "transaction_hash"], ["block_number"]⟩
    ∃ d, Description.parse description = .ok d
      ∧ classify 7 description = .error ⟨7, description, .faultyHeader faults⟩
      ∧ Header.reading.extract d = .error faults
      ∧ faults.Exact d Header.schema := by
  intro description faults
  have hclassify : classify 7 description = .error ⟨7, description, .faultyHeader faults⟩ := by
    decide +kernel
  obtain ⟨d, hparse, -⟩ := classify_eq_faultyHeader_iff.mp hclassify
  obtain ⟨hheader, -, hskips⟩ := faults_exact d
  have hextract := ((hskips 7 description hparse).1 faults).mp hclassify
  exact ⟨d, hparse, hclassify, hextract, (hheader.error_iff faults).mp hextract⟩

end EscrowFeed
