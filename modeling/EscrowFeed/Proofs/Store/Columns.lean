/-
What an upsert says of its columns.

An upsert is a list of names and a list of values, and each of its readings goes
through them in its own way: a single value is looked up by the first place of
its name, the key does so once for every key column, and the fields pair the two
lists from the front, drop what belongs to the key and collect the rest by name.
`Gives` is what all three are about: the name and the value stand at one place.
While no name stands twice, an upsert gives a column one value at most, and then
every reading is told by what is given and no value gets lost between them. The
lists may still be of different lengths; a name without a value is given none,
and a value without a name is given to none.

The row of a record is such an upsert, whatever the kind of its event.
-/
import EscrowFeed.Proofs.Feed.Recovery
import Mathlib.Data.List.Nodup

set_option autoImplicit false

namespace EscrowFeed

namespace Upsert

/-- The upsert has the value at the place of the column's name. -/
def Gives (op : Upsert) (column : String) (value : Cell) : Prop :=
  ∃ place : Nat, op.columns[place]? = some column ∧ op.values[place]? = some value

/-- The values of some columns, in the order of the columns: those that are
given none are passed over. -/
inductive KeyOf (op : Upsert) : List String → List Cell → Prop where
  | nil : KeyOf op [] []
  | given {column : String} {value : Cell} {columns : List String} {key : List Cell} :
      op.Gives column value → KeyOf op columns key → KeyOf op (column :: columns) (value :: key)
  | passed {column : String} {columns : List String} {key : List Cell} :
      (∀ value, ¬op.Gives column value) → KeyOf op columns key →
      KeyOf op (column :: columns) key

variable {op : Upsert} {column : String} {value : Cell}

/-- Columns and values are told by their places, or as pairs. -/
theorem gives_iff_mem_zip : op.Gives column value ↔ (column, value) ∈ op.columns.zip op.values := by
  simp only [Gives, List.mem_iff_getElem?, List.getElem?_zip_eq_some]

/-! ## One column -/

/-- Among distinct names a name is found at its place. -/
theorem idxOf?_eq_some_iff_of_nodup {names : List String} (hnodup : names.Nodup) {name : String}
    {place : Nat} : names.idxOf? name = some place ↔ names[place]? = some name := by
  rw [List.idxOf?_eq_some_iff, List.getElem?_eq_some_iff]
  constructor
  · rintro ⟨hplace, hname, -⟩
    exact ⟨hplace, hname⟩
  · rintro ⟨hplace, rfl⟩
    refine ⟨hplace, rfl, fun other hother hsame => ?_⟩
    exact absurd ((hnodup.getElem_inj_iff).mp hsame) (Nat.ne_of_lt hother)

/-- **Looking up a column finds the value at its place**, when no column is
named twice. -/
theorem value?_eq_some_iff (hnodup : op.columns.Nodup) :
    op.value? column = some value ↔ op.Gives column value := by
  simp only [value?, Option.bind_eq_bind, Option.bind_eq_some_iff, Gives,
    idxOf?_eq_some_iff_of_nodup hnodup]

/-- It finds nothing when there is no value at that place. -/
theorem value?_eq_none_iff (hnodup : op.columns.Nodup) :
    op.value? column = none ↔ ∀ value, ¬op.Gives column value := by
  simp only [Option.eq_none_iff_forall_ne_some, ne_eq, value?_eq_some_iff hnodup]

/-! ## The fields -/

/-- The entries that the fields are collected from. -/
def entries (op : Upsert) : List (String × Json) :=
  ((op.columns.zip op.values).filter fun column => column.1 ∉ op.conflict).map
    fun column => (column.1, column.2.toJson)

/-- The entries of a line are the columns outside the key with their values. -/
theorem mem_entries {json : Json} :
    (column, json) ∈ op.entries ↔
      column ∉ op.conflict ∧ ∃ value, op.Gives column value ∧ value.toJson = json := by
  simp only [entries, List.mem_map, List.mem_filter, decide_eq_true_eq, Prod.exists,
    Prod.mk.injEq, gives_iff_mem_zip]
  constructor
  · rintro ⟨_, value, ⟨hmem, hkey⟩, rfl, hjson⟩
    exact ⟨hkey, value, hmem, hjson⟩
  · rintro ⟨hkey, value, hmem, hjson⟩
    exact ⟨column, value, ⟨hmem, hkey⟩, rfl, hjson⟩

/-- Pairing and dropping keep the order of the names and name none twice. -/
theorem nodup_map_fst_entries (hnodup : op.columns.Nodup) : (op.entries.map Prod.fst).Nodup := by
  have hnames : op.entries.map Prod.fst =
      ((op.columns.zip op.values).filter fun column => column.1 ∉ op.conflict).map Prod.fst := by
    rw [entries, List.map_map]
    rfl
  -- The shorter list cuts the other off, so what is paired is the beginning of each.
  have hzip : ((op.columns.zip op.values).map Prod.fst).Sublist op.columns := by
    rw [List.zip_eq_zip_take_min, List.map_fst_zip (by simp only [List.length_take]; omega)]
    exact List.take_sublist _ _
  rw [hnames]
  exact hnodup.sublist ((List.filter_sublist.map Prod.fst).trans hzip)

/-- **A column is a field when it is given a value outside the key**, and the
field is that value. -/
theorem find?_fields_eq_some_iff (hnodup : op.columns.Nodup) {json : Json} :
    Members.find? column op.fields = some json ↔
      column ∉ op.conflict ∧ ∃ value, op.Gives column value ∧ value.toJson = json := by
  rw [← mem_entries]
  constructor
  · intro h
    exact Members.mem_of_mem_ofList (Members.mem_of_find?_eq_some h)
  · exact Members.find?_ofList_of_mem (nodup_map_fst_entries hnodup)

/-- A field of the line is the column's value, and a column of the key is none. -/
theorem find?_fields_eq (hnodup : op.columns.Nodup) (column : String) :
    Members.find? column op.fields =
      if column ∈ op.conflict then none else (op.value? column).map Cell.toJson := by
  apply Option.ext
  intro json
  rw [find?_fields_eq_some_iff hnodup]
  split
  · next hkey => simp only [hkey, not_true_eq_false, false_and, reduceCtorEq]
  · next hkey => simp only [hkey, not_false_eq_true, true_and, Option.map_eq_some_iff,
      value?_eq_some_iff hnodup]

/-! ## The key -/

/-- The key is the values of its columns. -/
theorem keyOf_iff (hnodup : op.columns.Nodup) {columns : List String} {key : List Cell} :
    op.KeyOf columns key ↔ key = columns.filterMap op.value? := by
  constructor
  · intro h
    induction h with
    | nil => rfl
    | given hgives _ ih =>
      rw [List.filterMap_cons_some ((value?_eq_some_iff hnodup).mpr hgives), ih]
    | passed hnone _ ih =>
      rw [List.filterMap_cons_none ((value?_eq_none_iff hnodup).mpr hnone), ih]
  · rintro rfl
    -- Column by column: one with a value adds it, one without is passed over.
    induction columns with
    | nil => exact .nil
    | cons column columns ih =>
      cases hvalue : op.value? column with
      | none =>
        rw [List.filterMap_cons_none hvalue]
        exact .passed ((value?_eq_none_iff hnodup).mp hvalue) ih
      | some value =>
        rw [List.filterMap_cons_some hvalue]
        exact .given ((value?_eq_some_iff hnodup).mp hvalue) ih

end Upsert

/-! ## The row of a record -/

namespace Record

theorem columns_toUpsert (record : Record) :
    record.toUpsert.columns = "id" :: record.kind.columns := by
  rw [toUpsert]
  dsimp only
  rw [map_fst_dataColumns]

theorem id_not_mem_columns (kind : Kind) : "id" ∉ kind.columns :=
  fun h => (Kind.column_ne h).1 rfl

/-- A row names no column twice, since no kind has one for the identity. -/
theorem nodup_columns_toUpsert (record : Record) : record.toUpsert.columns.Nodup := by
  rw [columns_toUpsert]
  exact List.nodup_cons.mpr ⟨id_not_mem_columns record.kind, record.kind.nodup_columns⟩

theorem update_toUpsert (record : Record) :
    record.toUpsert.update = record.toUpsert.columns.filter (· ≠ "id") := by
  have hupdate : record.toUpsert.update = record.kind.columns := record.map_fst_dataColumns
  rw [columns_toUpsert, hupdate, List.filter_cons_of_neg (by simp), eq_comm, List.filter_eq_self]
  intro column hcolumn
  exact decide_eq_true (Kind.column_ne hcolumn).1

/-- A record gives its columns what it holds. -/
theorem gives_toUpsert_iff (record : Record) {column : String} {value : Cell} :
    record.toUpsert.Gives column value ↔
      (column, value) ∈ ("id", Cell.text record.id) :: record.dataColumns := by
  have hzip : record.toUpsert.columns.zip record.toUpsert.values =
      ("id", Cell.text record.id) :: record.dataColumns := by
    rw [toUpsert]
    dsimp only
    rw [List.zip_cons_cons, List.zip_map', List.map_id']
  rw [Upsert.gives_iff_mem_zip, hzip]

end Record

/-- **No column is lost, doubled or given another value.** Where no name of a
column stands twice, a column has the value that stands at the place of its
name, if one does; the fields are in key order with one field a key, and a
column is among them when it has a value and is no key column, under that value;
and the key is the values of the key columns that have one, in their order. The
row of a record is an upsert of this kind, with a value for every column: the
identity first, then the columns of the kind and those of every record. The
identity alone is its key, and all others are overwritten. -/
theorem columns_kept :
    (∀ op : Upsert, op.columns.Nodup →
      (∀ column value, op.value? column = some value ↔ op.Gives column value)
        ∧ Members.Sorted op.fields
        ∧ (∀ column, Members.find? column op.fields =
            if column ∈ op.conflict then none else (op.value? column).map Cell.toJson)
        ∧ ∀ key, op.KeyOf op.conflict key ↔ key = op.conflictKey)
    ∧ ∀ record : Record,
        record.toUpsert.columns =
            "id" :: (record.kind.schema.map Prod.snd
              ++ ["block_number", "block_timestamp", "transaction_hash"])
          ∧ record.toUpsert.columns.Nodup
          ∧ record.toUpsert.values.length = record.toUpsert.columns.length
          ∧ (∀ column value, record.toUpsert.Gives column value ↔
              (column, value) ∈ ("id", Cell.text record.id) :: record.event.columns
                ++ [("block_number", .integer record.blockNumber),
                  ("block_timestamp", .integer record.blockTimestamp),
                  ("transaction_hash", .bytes record.transactionHash)])
          ∧ record.toUpsert.conflict = ["id"]
          ∧ record.toUpsert.conflictKey = [.text record.id]
          ∧ record.toUpsert.update = record.toUpsert.columns.filter (· ≠ "id") := by
  refine ⟨fun op hnodup => ?_, fun record => ?_⟩
  · exact ⟨fun _ _ => Upsert.value?_eq_some_iff hnodup, Members.sorted_ofList _,
      Upsert.find?_fields_eq hnodup, fun _ => Upsert.keyOf_iff hnodup⟩
  · have hlength : record.toUpsert.values.length = record.toUpsert.columns.length := by
      rw [Record.toUpsert]
      simp only [List.length_cons, List.length_map]
    exact ⟨record.columns_toUpsert, record.nodup_columns_toUpsert, hlength,
      fun _ _ => record.gives_toUpsert_iff, rfl, rfl, record.update_toUpsert⟩

/-- Three names and two values, and a key that asks for a column twice and for
two that have none. -/
theorem columns_kept_uneven :
    let op : Upsert := ⟨"t", ["a", "b", "c"], [.text "x", .bytes [0xab]],
      ["a", "c", "a", "d"], []⟩
    op.columns.Nodup
      ∧ op.value? "b" = some (.bytes [0xab])
      ∧ Members.find? "b" op.fields = some (Cell.bytes [0xab]).toJson
      ∧ Members.find? "a" op.fields = none ∧ Members.find? "c" op.fields = none
      ∧ op.KeyOf op.conflict [.text "x", .text "x"] := by
  intro op
  have hnodup : op.columns.Nodup := by decide
  obtain ⟨hvalue, -, hfields, hkey⟩ := columns_kept.1 op hnodup
  have hb : op.value? "b" = some (.bytes [0xab]) := (hvalue _ _).mpr ⟨1, rfl, rfl⟩
  refine ⟨hnodup, hb, ?_, hfields "a", ?_, (hkey _).mpr rfl⟩
  · rw [hfields, if_neg (by decide), hb]
    rfl
  · exact hfields "c"

end EscrowFeed
