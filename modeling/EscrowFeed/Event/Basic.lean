/-
Events of an escrow contract, and how each is read from a description.

Every kind of event has its own fields, and an `Event` is one constructor for
each kind with exactly those. The two directions, from a description to an event
and from an event to columns, are written next to each other: a field is read
under the key that its column is named with, and in the order of the columns.

The fields that every entry carries whatever its kind are its `Header`. They are
read first, because the name of the kind is one of them.
-/
import EscrowFeed.Event.Kind
import EscrowFeed.Field.Reading
import EscrowFeed.Upsert

set_option autoImplicit false

namespace EscrowFeed

/-! ## Fields of every entry -/

/-- What every entry says about itself. -/
structure Header where
  eventType : String
  blockTimestamp : WideInt
  blockNumber : WideInt
  transactionHash : Bytes
deriving DecidableEq

/-- Reads the fields of every entry. -/
def Header.reading : Reading Header :=
  Header.mk <$> .field .text "eventType" <*> .field .integer "block_timestamp"
    <*> .field .integer "block_number" <*> .field .bytes "transaction_hash"

/-! ## Events -/

/-- An event, by its kind and the fields of that kind. -/
inductive Event where
  /-- The depositor approved the release of an escrow. -/
  | depositorApproved (depositor : Bytes) (escrowId timeOfApproval : WideInt)
  /-- The arbiter approved the release of an escrow. -/
  | arbiterApproved (arbiter : Bytes) (escrowId timeOfApproval : WideInt)
  | escrowInitialized (escrowId : WideInt) (beneficiary provider : Bytes)
      (amount timestamp : WideInt)
  | escrowRefunded (escrowId : WideInt) (depositor : Bytes) (amount timestamp : WideInt)
  /-- Funds were paid into an escrow contract; the event names no escrow. -/
  | escrowFunded (depositor : Bytes) (amount : WideInt) (escrowAddress : Bytes)
  | fundsReleased (escrowId : WideInt) (beneficiary : Bytes) (amount : WideInt)
deriving DecidableEq

namespace Event

/-- The kind of an event. -/
def kind : Event → Kind
  | .depositorApproved .. => .depositorApproved
  | .arbiterApproved .. => .arbiterApproved
  | .escrowInitialized .. => .escrowInitialized
  | .escrowRefunded .. => .escrowRefunded
  | .escrowFunded .. => .escrowFunded
  | .fundsReleased .. => .fundsReleased

/-- Reads an event of a kind. -/
def reading : Kind → Reading Event
  | .depositorApproved =>
    .depositorApproved <$> .field .bytes "depositor" <*> .field .integer "escrow_id"
      <*> .field .integer "time_of_approval"
  | .arbiterApproved =>
    .arbiterApproved <$> .field .bytes "arbiter" <*> .field .integer "escrow_id"
      <*> .field .integer "time_of_approval"
  | .escrowInitialized =>
    .escrowInitialized <$> .field .integer "escrow_id" <*> .field .bytes "beneficiary"
      <*> .field .bytes "provider" <*> .field .integer "amount" <*> .field .integer "timestamp"
  | .escrowRefunded =>
    .escrowRefunded <$> .field .integer "escrow_id" <*> .field .bytes "depositor"
      <*> .field .integer "amount" <*> .field .integer "timestamp"
  | .escrowFunded =>
    .escrowFunded <$> .field .bytes "depositor" <*> .field .integer "amount"
      <*> .field .bytes "escrow_address"
  | .fundsReleased =>
    .fundsReleased <$> .field .integer "escrow_id" <*> .field .bytes "beneficiary"
      <*> .field .integer "amount"

/-- The columns of an event and their values. -/
def columns : Event → List (String × Cell)
  | .depositorApproved depositor escrowId timeOfApproval =>
    [("depositor", .bytes depositor), ("escrow_id", .integer escrowId),
      ("time_of_approval", .integer timeOfApproval)]
  | .arbiterApproved arbiter escrowId timeOfApproval =>
    [("arbiter", .bytes arbiter), ("escrow_id", .integer escrowId),
      ("time_of_approval", .integer timeOfApproval)]
  | .escrowInitialized escrowId beneficiary provider amount timestamp =>
    [("escrow_id", .integer escrowId), ("beneficiary", .bytes beneficiary),
      ("provider", .bytes provider), ("amount", .integer amount), ("timestamp", .integer timestamp)]
  | .escrowRefunded escrowId depositor amount timestamp =>
    [("escrow_id", .integer escrowId), ("depositor", .bytes depositor),
      ("amount", .integer amount), ("timestamp", .integer timestamp)]
  | .escrowFunded depositor amount escrowAddress =>
    [("depositor", .bytes depositor), ("amount", .integer amount),
      ("escrow_address", .bytes escrowAddress)]
  | .fundsReleased escrowId beneficiary amount =>
    [("escrow_id", .integer escrowId), ("beneficiary", .bytes beneficiary),
      ("amount", .integer amount)]

end Event

end EscrowFeed
