/-
A store in memory: the last upsert of every row.

A row is found by its table and its key, the key being the texts of the key
columns. Rows are kept in a list in no promised order, without two of one place;
which row is where is all that can be asked, so two stores that hold the same
rows are told apart by nothing.
-/
import EscrowFeed.Store.Basic

set_option autoImplicit false

namespace EscrowFeed

/-- Where a row is: its table and its key. -/
structure RowPlace where
  table : String
  key : List String
deriving DecidableEq

/-- Where an upsert puts its row. -/
def Upsert.place (op : Upsert) : RowPlace := ⟨op.table, op.rowKey⟩

/-- Puts a row at a place, over the one that is there. -/
def putRow (place : RowPlace) (op : Upsert) :
    List (RowPlace × Upsert) → List (RowPlace × Upsert)
  | [] => [(place, op)]
  | (p, o) :: rest => if place = p then (place, op) :: rest else (p, o) :: putRow place op rest

/-- Putting a row adds its place and takes none away. -/
theorem mem_map_fst_putRow {place p : RowPlace} {op : Upsert} {rows : List (RowPlace × Upsert)} :
    p ∈ (putRow place op rows).map Prod.fst ↔ p = place ∨ p ∈ rows.map Prod.fst := by
  induction rows with
  | nil => simp [putRow]
  | cons row rest ih =>
    rw [putRow]
    split
    · next h => simp [h]
    · simp only [List.map_cons, List.mem_cons, ih]
      exact or_left_comm

/-- Putting a row keeps the places of a table different. -/
theorem nodup_putRow {place : RowPlace} {op : Upsert} {rows : List (RowPlace × Upsert)}
    (h : (rows.map Prod.fst).Nodup) : ((putRow place op rows).map Prod.fst).Nodup := by
  induction rows with
  | nil => simp [putRow]
  | cons row rest ih =>
    simp only [List.map_cons, List.nodup_cons] at h
    rw [putRow]
    split
    · next hplace => simpa [hplace] using h
    · next hplace =>
      simp only [List.map_cons, List.nodup_cons, mem_map_fst_putRow, not_or]
      exact ⟨⟨fun e => hplace e.symm, h.1⟩, ih h.2⟩

/-- Rows by their place. -/
structure TableStore where
  rows : List (RowPlace × Upsert) := []
  nodup_places : (rows.map Prod.fst).Nodup := by simp
deriving DecidableEq

namespace TableStore

/-- The store with a row put at a place. -/
def put (place : RowPlace) (op : Upsert) (store : TableStore) : TableStore :=
  ⟨putRow place op store.rows, nodup_putRow store.nodup_places⟩

/-- Saves an upsert. It needs a key. -/
def save (op : Upsert) (store : TableStore) : Except StoreError Unit × TableStore :=
  if op.rowKey = [] then (.error (.missingKey op.table), store)
  else (.ok (), store.put op.place op)

instance : RowStore TableStore where
  save := save
  flush store := (.ok (), store)

/-- The row at a place. -/
def row? (store : TableStore) (place : RowPlace) : Option Upsert :=
  (store.rows.find? fun row => row.1 = place).map Prod.snd

/-- The row of a table whose key is one text. -/
def get? (store : TableStore) (table id : String) : Option Upsert := store.row? ⟨table, [id]⟩

/-- How many rows a table has. -/
def count (store : TableStore) (table : String) : Nat :=
  (store.rows.filter fun row => row.1.table = table).length

/-- How many rows there are. -/
def size (store : TableStore) : Nat := store.rows.length

/-- There are no rows. -/
def isEmpty (store : TableStore) : Bool := store.size = 0

end TableStore

end EscrowFeed
