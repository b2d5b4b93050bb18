/-
A record's line holds the record.

The fields of a line are the columns of the record, and a kind's columns are the
fields that the kind is read from, under the same keys. So the fields of a line
are nearly a description of the record's entry; the one thing that they lack is
the type, and the type is what the line's table says. With it put back among
them they are classified as the entry was.
-/
import EscrowFeed.Success
import EscrowFeed.Proofs.Feed.Classification
import EscrowFeed.Proofs.Field.Cell
import EscrowFeed.Proofs.Store.Lines

set_option autoImplicit false

namespace EscrowFeed

/-! ## Columns -/

/-- No two kinds share a table. -/
theorem Kind.table_injective {a b : Kind} (h : a.table = b.table) : a = b := by
  cases a <;> cases b <;> first | rfl | exact absurd h (by decide)

/-- The columns of the rows of a kind besides the identity. -/
def Kind.columns (kind : Kind) : List String :=
  kind.schema.map Prod.snd ++ ["block_number", "block_timestamp", "transaction_hash"]

theorem Kind.nodup_columns (kind : Kind) : kind.columns.Nodup := by
  cases kind <;> decide

/-- No column has a name that is taken: the key's, the type's, or the one that
stands for a number. -/
theorem Kind.column_ne {kind : Kind} {column : String} (h : column ∈ kind.columns) :
    column ≠ "id" ∧ column ≠ "eventType" ∧ column ≠ Json.numberKey := by
  have hall : ∀ name ∈ kind.columns, name ≠ "id" ∧ name ≠ "eventType" ∧ name ≠ Json.numberKey := by
    cases kind <;> decide
  exact hall column h

namespace Record

/-- **A kind is stored under the keys that it is read from.** -/
theorem map_fst_dataColumns (record : Record) :
    record.dataColumns.map Prod.fst = record.kind.columns := by
  obtain ⟨id, blockNumber, blockTimestamp, transactionHash, event⟩ := record
  cases event <;> rfl

theorem mem_columns {record : Record} {column : String × Cell} (h : column ∈ record.dataColumns) :
    column.1 ∈ record.kind.columns := by
  rw [← record.map_fst_dataColumns]
  exact List.mem_map_of_mem h

/-! ## The row of a record -/

/-- The key of a record's row is its identity, and nothing else. -/
theorem rowKey_toUpsert (record : Record) : record.toUpsert.rowKey = [record.id] := rfl

theorem lineId_toUpsert (record : Record) : record.toUpsert.lineId = record.id := by
  rw [Upsert.lineId, rowKey_toUpsert, String.intercalate_singleton]

/-- The fields of a record's row are all its columns but the identity. -/
theorem fields_toUpsert (record : Record) :
    record.toUpsert.fields =
      Members.ofList (record.dataColumns.map fun column => (column.1, column.2.toJson)) := by
  have hfilter : (record.dataColumns.filter fun column => column.1 ∉ ["id"]) =
      record.dataColumns := by
    apply List.filter_eq_self.mpr
    intro column hcolumn
    have hne := (Kind.column_ne (mem_columns hcolumn)).1
    exact decide_eq_true fun hid => hne (List.mem_singleton.mp hid)
  -- The identity is the first column and the only one of the key.
  rw [Upsert.fields, toUpsert]
  dsimp only
  rw [List.zip_cons_cons, List.filter_cons_of_neg (by simp), List.zip_map', List.map_id', hfilter]

/-- Every column's value stands under its name. -/
theorem find?_fields {record : Record} {column : String × Cell} (h : column ∈ record.dataColumns) :
    Members.find? column.1 record.toUpsert.fields = some column.2.toJson := by
  rw [fields_toUpsert]
  refine Members.find?_ofList_of_mem ?_ (List.mem_map_of_mem h)
  rw [List.map_map]
  have hnodup := record.kind.nodup_columns
  rwa [← map_fst_dataColumns] at hnodup

/-- No column is named like the key that makes an object a number. -/
theorem numberKey_not_mem_columns (record : Record) :
    Json.numberKey ∉ record.toUpsert.columns := by
  rw [toUpsert]
  dsimp only
  rw [map_fst_dataColumns, List.mem_cons, not_or]
  exact ⟨by decide, fun h => (Kind.column_ne h).2.2 rfl⟩

/-- The line of a record reads as its fields, its identity and its table. -/
theorem read?_line (record : Record) :
    Json.read? record.toUpsert.line =
      some (.object [("fields", .object record.toUpsert.fields), ("id", .string record.id),
        ("table", .string record.kind.table)]) := by
  rw [Upsert.read?_line record.numberKey_not_mem_columns, Upsert.toJson, lineId_toUpsert]
  rfl

/-! ## Reading the columns back -/

/-- A description that holds a record's columns under their names, and the name
of its kind as its type, states the record. -/
theorem statedIn_of_field {record : Record} {d : Description}
    (htype : d.field "eventType" = .text record.kind.name)
    (hcolumns : ∀ column ∈ record.dataColumns, d.field column.1 = .ofJson column.2.toJson) :
    record.StatedIn d := by
  have hinteger : ∀ key n, (key, Cell.integer n) ∈ record.dataColumns →
      d.lookup .integer key = .ok n := by
    intro key n hmem
    rw [Description.lookup, hcolumns _ hmem]
    exact Cell.read_integer n
  have hbytes : ∀ key content, (key, Cell.bytes content) ∈ record.dataColumns →
      d.lookup .bytes key = .ok content := by
    intro key content hmem
    rw [Description.lookup, hcolumns _ hmem]
    exact Cell.read_bytes content
  have hname : d.lookup .text "eventType" = .ok record.kind.name := by
    rw [Description.lookup, htype]
    apply Field.read_text
    cases record.kind <;> decide
  -- What the record states is now a list of columns, kind by kind.
  obtain ⟨id, blockNumber, blockTimestamp, transactionHash, event⟩ := record
  constructor
  · refine ⟨hname, hinteger _ _ ?_, hinteger _ _ ?_, hbytes _ _ ?_⟩ <;> simp [dataColumns, header]
  · cases event with
    | depositorApproved | arbiterApproved =>
      refine ⟨hbytes _ _ ?_, hinteger _ _ ?_, hinteger _ _ ?_⟩ <;>
        simp [dataColumns, Event.columns]
    | escrowInitialized =>
      refine ⟨hinteger _ _ ?_, hbytes _ _ ?_, hbytes _ _ ?_, hinteger _ _ ?_, hinteger _ _ ?_⟩ <;>
        simp [dataColumns, Event.columns]
    | escrowRefunded =>
      refine ⟨hinteger _ _ ?_, hbytes _ _ ?_, hinteger _ _ ?_, hinteger _ _ ?_⟩ <;>
        simp [dataColumns, Event.columns]
    | escrowFunded =>
      refine ⟨hbytes _ _ ?_, hinteger _ _ ?_, hbytes _ _ ?_⟩ <;> simp [dataColumns, Event.columns]
    | fundsReleased =>
      refine ⟨hinteger _ _ ?_, hbytes _ _ ?_, hinteger _ _ ?_⟩ <;>
        simp [dataColumns, Event.columns]

end Record

/-- The description that the fields of a row make with the name of a kind for
their type. -/
def restated (kind : Kind) (fields : List (String × Json)) : String :=
  Json.text (.object (Members.insert "eventType" (.string kind.name) fields))

/-- **The fields of a record's row, with the type put back, state the record.** -/
theorem Record.parse_restated (record : Record) :
    ∃ d, Description.parse (restated record.kind record.toUpsert.fields) = .ok d
      ∧ record.StatedIn d := by
  have hreadable : (Json.object (Members.insert "eventType" (.string record.kind.name)
      record.toUpsert.fields)).Readable 127 := by
    apply Json.readable_object_of_strings
    · exact Members.sorted_insert _ _ (Members.sorted_ofList _)
    · intro m hm
      rcases Members.mem_insert hm with rfl | hm
      · exact ⟨(by decide : "eventType" ≠ Json.numberKey), _, rfl⟩
      · obtain ⟨hcolumn, hcontent⟩ := Upsert.mem_fields hm
        exact ⟨fun heq => record.numberKey_not_mem_columns (heq ▸ hcolumn), hcontent⟩
  refine ⟨⟨Field.ofMembers _⟩, Description.parse_eq_ok_iff.mpr ⟨_, hreadable.read?_text, rfl⟩, ?_⟩
  -- The type is found because it was put there last, a column because it is not the type.
  apply Record.statedIn_of_field
  · have hfind := (Members.find?_insert "eventType" "eventType" (.string record.kind.name)
      record.toUpsert.fields).trans (if_pos rfl)
    rw [Description.field_of_find? rfl hfind, Field.ofJson]
  · intro column hcolumn
    have hne := (Kind.column_ne (Record.mem_columns hcolumn)).2.1
    apply Description.field_of_find? rfl
    rw [Members.find?_insert, if_neg hne, Record.find?_fields hcolumn]

/-- An entry that becomes a record and the fields of the record's line become the
same record. -/
theorem classify_restated {index : Nat} {description : String} {record : Record}
    (h : classify index description = .ok (.materialized record)) :
    classify index (restated record.kind record.toUpsert.fields) = .ok (.materialized record) := by
  obtain ⟨-, -, -, hid⟩ := classify_eq_materialized_iff.mp h
  obtain ⟨d, hparse, hstated⟩ := record.parse_restated
  exact classify_eq_materialized_iff.mpr ⟨d, hparse, hstated, hid⟩

/-- The line and the place of the entry leave no choice of a record. -/
theorem record_eq_of_line_eq {index : Nat} {a b : String} {r s : Record}
    (hr : classify index a = .ok (.materialized r)) (hs : classify index b = .ok (.materialized s))
    (hline : r.toUpsert.line = s.toUpsert.line) : r = s := by
  have hread := r.read?_line
  rw [hline, s.read?_line] at hread
  simp only [Option.some.injEq, Json.object.injEq, List.cons.injEq, Prod.mk.injEq,
    Json.string.injEq, true_and, and_true] at hread
  obtain ⟨hfields, -, htable⟩ := hread
  -- The same table is the same kind, so both lines restate as one description.
  have hkind : s.kind = r.kind := Kind.table_injective htable
  have hclassify := classify_restated hs
  rw [hfields, hkind, classify_restated hr, Except.ok.injEq, Outcome.materialized.injEq]
    at hclassify
  exact hclassify

/-- **Nothing is lost on the way into a line.** The record of an entry is saved
as a line wherever nothing is refused. The line reads as an object with the
record's identity, the table of its kind and some fields, and those fields with
the kind's name put among them as the type are a description that becomes the
very same record at the same place. No two kinds share a table, so place and
line determine the record. -/
theorem materialized_line {index : Nat} {description : String} {record : Record}
    (h : classify index description = .ok (.materialized record)) :
    (∀ store : LineStore, store.outlet.limit = none →
        LineStore.save record.toUpsert store =
          (.ok (),
            { outlet :=
                { store.outlet with
                  content := store.outlet.content ++ Utf8.encode record.toUpsert.line
                    ++ Utf8.encode "\n" }
              written := store.written + 1 }))
      ∧ (∃ fields,
          Json.read? record.toUpsert.line =
            some (.object [("fields", .object fields), ("id", .string record.id),
              ("table", .string record.kind.table)])
          ∧ classify index
              (Json.text (.object (Members.insert "eventType" (.string record.kind.name) fields))) =
            .ok (.materialized record))
      ∧ (∀ a b : Kind, a.table = b.table → a = b)
      ∧ ∀ other otherRecord, classify index other = .ok (.materialized otherRecord) →
          otherRecord.toUpsert.line = record.toUpsert.line → otherRecord = record := by
  refine ⟨fun store hlimit => ?_, ⟨_, record.read?_line, classify_restated h⟩,
    fun a b => Kind.table_injective, fun other otherRecord hother => record_eq_of_line_eq hother h⟩
  refine LineStore.save_of_limit_eq_none ?_ hlimit
  rw [Record.rowKey_toUpsert]
  exact List.cons_ne_nil _ _

set_option maxRecDepth 20000 in
/-- A release of nothing from an escrow with a negative number, in a transaction
without a hash. -/
theorem materialized_line_fundsReleased :
    let description := "\x7b\"eventType\":\"FundsReleased\",\"block_timestamp\":\"007\","
      ++ "\"block_number\":12,\"transaction_hash\":\"0x\",\"escrow_id\":-3,"
      ++ "\"beneficiary\":\"0xAb\",\"amount\":\"0\"\x7d"
    let record : Record :=
      { id := "2d34", blockNumber := .ofUInt64 12, blockTimestamp := .ofUInt64 7,
        transactionHash := [],
        event := .fundsReleased (.ofSignMagnitude true 3 (by decide)) [0xab] (.ofUInt64 0) }
    classify 4 description = .ok (.materialized record)
      ∧ ∃ fields,
          Json.read? record.toUpsert.line =
            some (.object [("fields", .object fields), ("id", .string "2d34"),
              ("table", .string "funds_released")])
          ∧ classify 4
              (Json.text (.object (Members.insert "eventType" (.string "FundsReleased") fields))) =
            .ok (.materialized record) := by
  intro description record
  have h : classify 4 description = .ok (.materialized record) := by
    decide +kernel
  exact ⟨h, (materialized_line h).2.1⟩

end EscrowFeed
