/-
The kinds of event that the feed knows, each with the name that an entry gives
it and the table that its records go to.

The set is closed. A name outside it is no error: such an entry belongs to a
contract or a version that the feed does not follow, and is passed over.
-/
set_option autoImplicit false

namespace EscrowFeed

/-- A kind of event. -/
inductive Kind where
  | depositorApproved
  | arbiterApproved
  | escrowInitialized
  | escrowRefunded
  | escrowFunded
  | fundsReleased
deriving DecidableEq

namespace Kind

/-- All kinds, in the order in which counts are listed. -/
def all : List Kind :=
  [.depositorApproved, .arbiterApproved, .escrowInitialized, .escrowRefunded, .escrowFunded,
    .fundsReleased]

/-- The place of a kind among all kinds. -/
def position : Kind → Nat
  | .depositorApproved => 0
  | .arbiterApproved => 1
  | .escrowInitialized => 2
  | .escrowRefunded => 3
  | .escrowFunded => 4
  | .fundsReleased => 5

/-- The name in an entry's `eventType`. -/
def name : Kind → String
  | .depositorApproved => "DepositorApproved"
  | .arbiterApproved => "ArbiterApproved"
  | .escrowInitialized => "EscrowInitialized"
  | .escrowRefunded => "EscrowRefunded"
  | .escrowFunded => "EscrowFunded"
  | .fundsReleased => "FundsReleased"

/-- The table of the kind's records. -/
def table : Kind → String
  | .depositorApproved => "depositor_approved"
  | .arbiterApproved => "arbiter_approved"
  | .escrowInitialized => "escrow_initialized"
  | .escrowRefunded => "escrow_refunded"
  | .escrowFunded => "escrow_funded"
  | .fundsReleased => "funds_released"

/-- The kind of a name. -/
def ofName? (name : String) : Option Kind := all.find? fun kind => kind.name = name

end Kind

end EscrowFeed
