/-
What a loader makes of written lines.

Lines are written for programs that apply them in order, each as an upsert on
its table and its identity. Such a program is written out here from the bytes
on: it decodes them, cuts them at the line feeds, reads every line as JSON, and
keeps of every table and identity the fields of the last line. It shares no code
with the store in memory, which knows nothing of lines, texts or JSON and finds
its rows by a key of any number of columns.

That the two come to the same rows is a simulation. `Mirrors` relates what is
loaded to a table, one more line and one more save keep it, and it says enough
to compare the two in the end. It needs that keys are of one column: joined with
dashes, two keys of several columns may be one text.
-/
import EscrowFeed.Proofs.Store.Lines
import EscrowFeed.Proofs.Store.Table
import Mathlib.Data.List.AList

set_option autoImplicit false

namespace EscrowFeed

/-! ## The loader -/

/-- A row as a line tells it. -/
structure LineRow where
  table : String
  id : String
  fields : List (String × Json)

/-- The row of a line's value. -/
def LineRow.ofJson? : Json → Option LineRow
  | .object members =>
    match Members.find? "table" members, Members.find? "id" members,
      Members.find? "fields" members with
    | some (.string table), some (.string id), some (.object fields) => some ⟨table, id, fields⟩
    | _, _, _ => none
  | _ => none

/-- Reads a line. -/
def LineRow.read? (line : List Char) : Option LineRow :=
  (Json.read? (String.ofList line)).bind ofJson?

/-- The lines of a text. Each of them ends with a line feed, the last one too. -/
def splitLines? (text : List Char) : Option (List (List Char)) :=
  let pieces := text.splitOn '\n'
  if pieces.getLast? = some [] then some pieces.dropLast else none

/-- Fields by table and identity. -/
abbrev LoadedRows := AList fun _ : String × String => List (String × Json)

/-- Puts the fields of a row in place of what its table and identity had. -/
def LoadedRows.upsert (loaded : LoadedRows) (row : LineRow) : LoadedRows :=
  loaded.insert (row.table, row.id) row.fields

/-- Loads written lines, from the first to the last. -/
def load? (content : Bytes) : Option LoadedRows := do
  let text ← Utf8.decode? content
  let lines ← splitLines? text.toList
  let rows ← lines.mapM LineRow.read?
  return rows.foldl LoadedRows.upsert ∅

/-! ## Reading what was written -/

/-- What the line of an upsert tells. -/
def Upsert.lineRow (op : Upsert) : LineRow := ⟨op.table, op.lineId, op.fields⟩

/-- A loader reads the row of a line as it was written. -/
theorem LineRow.read?_line {op : Upsert} (h : Json.numberKey ∉ op.columns) :
    read? op.line.toList = some op.lineRow := by
  rw [read?, String.ofList_toList, Upsert.read?_line h, Upsert.toJson]
  rfl

/-- **Lines are cut where they were joined**, since no line has a line feed of
its own. -/
theorem splitLines?_linesText (ops : List Upsert) :
    splitLines? (linesText ops).toList = some (ops.map fun op => op.line.toList) := by
  have hpieces : (linesText ops).toList.splitOn '\n' =
      (ops.map fun op => op.line.toList) ++ [[]] := by
    induction ops with
    | nil => exact List.splitOn_nil '\n'
    | cons op rest ih =>
      -- A line holds no line feed, so the first one ends it.
      have hcons : (linesText (op :: rest)).toList =
          op.line.toList ++ '\n' :: (linesText rest).toList := by
        rw [linesText, List.map_cons, String.join_cons, String.toList_append, String.toList_append,
          List.append_assoc]
        rfl
      rw [hcons, List.splitOn_append_cons_self_of_not_mem op.newline_not_mem_line, ih]
      rfl
  rw [splitLines?, hpieces, List.getLast?_concat, List.dropLast_concat, if_pos rfl]

theorem mapM_read?_lines {ops : List Upsert} (h : ∀ op ∈ ops, Json.numberKey ∉ op.columns) :
    (ops.map fun op => op.line.toList).mapM LineRow.read? = some (ops.map Upsert.lineRow) := by
  induction ops with
  | nil => rfl
  | cons op rest ih =>
    obtain ⟨hop, hrest⟩ := List.forall_mem_cons.mp h
    rw [List.map_cons, List.mapM_cons, LineRow.read?_line hop, ih hrest]
    rfl

/-- **Loading what was written** applies the rows of the upserts in order. -/
theorem load?_linesText {ops : List Upsert} (h : ∀ op ∈ ops, Json.numberKey ∉ op.columns) :
    load? (Utf8.encode (linesText ops)) =
      some ((ops.map Upsert.lineRow).foldl LoadedRows.upsert ∅) := by
  rw [load?, Utf8.decode?_encode, Option.bind_eq_bind, Option.bind_some, splitLines?_linesText,
    Option.bind_eq_bind, Option.bind_some, mapM_read?_lines h]
  rfl

/-! ## Loaded rows and a table -/

namespace LoadedRows

/-- What is loaded has the fields of the table's rows, and the table has no rows
besides. -/
structure Mirrors (loaded : LoadedRows) (store : TableStore) : Prop where
  lookup_eq : ∀ table id, loaded.lookup (table, id) = (store.get? table id).map Upsert.fields
  exists_id : ∀ {place : RowPlace} {op : Upsert}, store.row? place = some op →
    ∃ id, place.key = [id]

theorem mirrors_empty : Mirrors ∅ {} where
  lookup_eq table id := AList.lookup_empty (table, id)
  exists_id h := nomatch h

/-- One more line is one more save. -/
theorem Mirrors.put {loaded : LoadedRows} {store : TableStore} (h : Mirrors loaded store)
    {op : Upsert} {id : String} (hkey : op.rowKey = [id]) :
    Mirrors (loaded.upsert ⟨op.table, id, op.fields⟩) (store.put op.place op) := by
  have hplace : op.place = ⟨op.table, [id]⟩ := by
    rw [Upsert.place, hkey]
  constructor
  · intro table other
    rw [LoadedRows.upsert, TableStore.get?, TableStore.row?_put, hplace]
    -- Either the place of the upsert, or one that neither side touches.
    by_cases hsame : (table, other) = (op.table, id)
    · obtain ⟨rfl, rfl⟩ := Prod.mk.inj hsame
      rw [AList.lookup_insert, if_pos rfl, Option.map_some]
    · have hne : (⟨op.table, [id]⟩ : RowPlace) ≠ ⟨table, [other]⟩ := by
        intro heq
        obtain ⟨htable, hid⟩ := RowPlace.mk.inj heq
        exact hsame (Prod.ext htable.symm (List.singleton_injective hid.symm))
      rw [AList.lookup_insert_ne hsame, if_neg hne, h.lookup_eq, TableStore.get?]
  · intro place row hrow
    rw [TableStore.row?_put, hplace] at hrow
    by_cases hsame : (⟨op.table, [id]⟩ : RowPlace) = place
    · exact ⟨id, congrArg RowPlace.key hsame.symm⟩
    · rw [if_neg hsame] at hrow
      exact h.exists_id hrow

/-- **Lines and saves stay together over a whole run.** -/
theorem Mirrors.foldl {loaded : LoadedRows} {store : TableStore} (h : Mirrors loaded store)
    {ops : List Upsert} (hkeys : ∀ op ∈ ops, op.rowKey = [op.lineId]) :
    Mirrors ((ops.map Upsert.lineRow).foldl LoadedRows.upsert loaded) (store.putAll ops) := by
  induction ops generalizing loaded store with
  | nil => exact h
  | cons op rest ih =>
    obtain ⟨hop, hrest⟩ := List.forall_mem_cons.mp hkeys
    exact ih (h.put hop) hrest

/-- The same tables and identities are there, each once. -/
theorem Mirrors.places_perm {loaded : LoadedRows} {store : TableStore} (h : Mirrors loaded store) :
    (loaded.keys.map fun key => (⟨key.1, [key.2]⟩ : RowPlace)).Perm (store.rows.map Prod.fst) := by
  have hinjective : Function.Injective fun key : String × String =>
      (⟨key.1, [key.2]⟩ : RowPlace) := by
    intro a b hab
    obtain ⟨htable, hid⟩ := RowPlace.mk.inj hab
    exact Prod.ext htable (List.singleton_injective hid)
  -- Neither list repeats a place, so it is enough that they hold the same ones.
  apply (List.perm_ext_iff_of_nodup (loaded.keys_nodup.map hinjective) store.nodup_places).mpr
  intro place
  rw [TableStore.mem_places_iff, List.mem_map]
  constructor
  · rintro ⟨⟨table, id⟩, hmem, rfl⟩
    have hsome := AList.lookup_isSome.mpr (AList.mem_keys.mp hmem)
    rw [h.lookup_eq, Option.isSome_map] at hsome
    exact Option.isSome_iff_exists.mp hsome
  · rintro ⟨op, hop⟩
    obtain ⟨id, hid⟩ := h.exists_id hop
    obtain ⟨table, key⟩ := place
    subst hid
    have hlookup := h.lookup_eq table id
    rw [TableStore.get?, hop, Option.map_some] at hlookup
    have hsome := Option.isSome_iff_exists.mpr ⟨_, hlookup⟩
    exact ⟨(table, id), AList.mem_keys.mpr (AList.lookup_isSome.mp hsome), rfl⟩

end LoadedRows

end EscrowFeed
