/-
What becomes of one entry of an envelope.

An entry is decided in stages, and the first stage that fails is the one that is
reported: there is a description, it is an object, it carries the fields of every
entry, and if its kind is one that the feed follows it carries that kind's
fields. An entry of another kind is not at fault and is passed over in silence,
but only once the fields of every entry are known to be there.
-/
import EscrowFeed.Event.Identity
import EscrowFeed.Event.Record

set_option autoImplicit false

namespace EscrowFeed

/-- Why an entry is skipped. -/
inductive SkipReason where
  /-- The description has no field tree. -/
  | unreadable (error : DescriptionError)
  /-- Fields that every entry carries are at fault. -/
  | faultyHeader (faults : Faults)
  /-- Fields of the entry's own kind are at fault. -/
  | faultyEvent (kind : Kind) (faults : Faults)
deriving DecidableEq

/-- An entry that is skipped. -/
structure Skip where
  /-- The entry's place in its envelope. -/
  index : Nat
  description : String
  reason : SkipReason
deriving DecidableEq

namespace Skip

/-- The diagnostic line. -/
def message (skip : Skip) : String :=
  match skip.reason with
  | .unreadable .empty => "Empty JSON string at index " ++ skip.index.repr
  | .unreadable .notAnObject =>
    "JSON is not an object for event at index " ++ skip.index.repr ++ ": " ++ skip.description
  | .faultyHeader _ =>
    "Missing required fields in event at index " ++ skip.index.repr ++ ": " ++ skip.description
  | .faultyEvent kind _ =>
    "Missing " ++ kind.name ++ " fields at index " ++ skip.index.repr ++ ": " ++ skip.description

/-- The kind whose fields are at fault. -/
def kind? (skip : Skip) : Option Kind :=
  match skip.reason with
  | .faultyEvent kind _ => some kind
  | .unreadable _ | .faultyHeader _ => none

/-- The fields at fault. -/
def faults? (skip : Skip) : Option Faults :=
  match skip.reason with
  | .faultyHeader faults | .faultyEvent _ faults => some faults
  | .unreadable _ => none

end Skip

/-- What becomes of an entry that is not skipped. -/
inductive Outcome where
  | materialized (record : Record)
  /-- The entry's type is the name of no kind. -/
  | unrecognized (eventType : String)
deriving DecidableEq

/-- The record of an event at a place of an envelope. -/
def Record.ofEntry (index : Nat) (header : Header) (event : Event) : Record where
  id := Identity.key (Identity.text header.transactionHash index)
  blockNumber := header.blockNumber
  blockTimestamp := header.blockTimestamp
  transactionHash := header.transactionHash
  event := event

/-- Decides what becomes of an entry. -/
def classify (index : Nat) (description : String) : Except Skip Outcome :=
  match Description.parse description with
  | .error error => .error ⟨index, description, .unreadable error⟩
  | .ok fields =>
    match Header.reading.extract fields with
    | .error faults => .error ⟨index, description, .faultyHeader faults⟩
    | .ok header =>
      match Kind.ofName? header.eventType with
      | none => .ok (.unrecognized header.eventType)
      | some kind =>
        match (Event.reading kind).extract fields with
        | .error faults => .error ⟨index, description, .faultyEvent kind faults⟩
        | .ok event => .ok (.materialized (.ofEntry index header event))

end EscrowFeed
