/-
Records: one event with its identity and its place in the chain, and the row it
is stored as.

A record's row is keyed by the record's identity alone, so storing a record
again overwrites it with itself.
-/
import EscrowFeed.Event.Basic

set_option autoImplicit false

namespace EscrowFeed

/-- An event as it is stored. -/
structure Record where
  /-- The key of the record's identity. -/
  id : String
  blockNumber : WideInt
  blockTimestamp : WideInt
  transactionHash : Bytes
  event : Event
deriving DecidableEq

namespace Record

/-- The kind of the record's event. -/
def kind (record : Record) : Kind := record.event.kind

/-- The columns besides the identity: those of the event, then those that every
record has. -/
def dataColumns (record : Record) : List (String × Cell) :=
  record.event.columns ++
    [("block_number", .integer record.blockNumber),
      ("block_timestamp", .integer record.blockTimestamp),
      ("transaction_hash", .bytes record.transactionHash)]

/-- The record's row, which overwrites every column but the identity. -/
def toUpsert (record : Record) : Upsert where
  table := record.kind.table
  columns := "id" :: record.dataColumns.map Prod.fst
  values := .text record.id :: record.dataColumns.map Prod.snd
  conflict := ["id"]
  update := record.dataColumns.map Prod.fst

end Record

end EscrowFeed
