/-
The fields that an entry must carry, kind by kind, and what an entry states when
it carries them.

The schemas are lists and the statements are relations, each written out for
every kind; the readings of `Event/Basic` are related to both. So which key a
field is read under, and at which type, is said here once more and apart from
the readings, and a reading that swapped two keys would not agree with it.
-/
import EscrowFeed.Event.Basic
import EscrowFeed.Proofs.Field.Schema

set_option autoImplicit false

namespace EscrowFeed

open Reading

/-! ## Fields of every entry -/

/-- The fields of every entry. -/
def Header.schema : Schema :=
  [(.text, "eventType"), (.integer, "block_timestamp"), (.integer, "block_number"),
    (.bytes, "transaction_hash")]

/-- The description carries the fields of every entry, with these values. -/
def Header.StatedIn (header : Header) (d : Description) : Prop :=
  d.lookup .text "eventType" = .ok header.eventType
    ∧ d.lookup .integer "block_timestamp" = .ok header.blockTimestamp
    ∧ d.lookup .integer "block_number" = .ok header.blockNumber
    ∧ d.lookup .bytes "transaction_hash" = .ok header.transactionHash

/-- The header is read field by field, in the order of its schema. -/
theorem Header.reading_follows : Header.reading.Follows Header.schema :=
  ((((follows_field .text "eventType").map _).seq (follows_field .integer "block_timestamp")).seq
    (follows_field .integer "block_number")).seq (follows_field .bytes "transaction_hash")

/-- **A header is read exactly when it is stated**, and then with the values
that are stated. -/
theorem Header.extract_eq_ok_iff {d : Description} {header : Header} :
    Header.reading.extract d = .ok header ↔ header.StatedIn d := by
  rw [Reading.extract_eq_ok_iff]
  constructor
  · -- The field that is read last is outermost, so the fields come off from the end.
    intro h
    obtain ⟨_, hhash, _, h₁, rfl⟩ := (yields_seq_field .bytes "transaction_hash").mp h
    obtain ⟨_, hnumber, _, h₂, rfl⟩ := (yields_seq_field .integer "block_number").mp h₁
    obtain ⟨_, htimestamp, _, h₃, rfl⟩ := (yields_seq_field .integer "block_timestamp").mp h₂
    obtain ⟨_, heventType, rfl⟩ := (yields_map_field .text "eventType").mp h₃
    exact ⟨heventType, htimestamp, hnumber, hhash⟩
  · rintro ⟨heventType, htimestamp, hnumber, hhash⟩
    exact (((Yields.map_field heventType _).seq_field htimestamp).seq_field hnumber).seq_field hhash

/-! ## Fields of each kind -/

/-- The fields of a kind. -/
def Kind.schema : Kind → Schema
  | .depositorApproved =>
    [(.bytes, "depositor"), (.integer, "escrow_id"), (.integer, "time_of_approval")]
  | .arbiterApproved =>
    [(.bytes, "arbiter"), (.integer, "escrow_id"), (.integer, "time_of_approval")]
  | .escrowInitialized =>
    [(.integer, "escrow_id"), (.bytes, "beneficiary"), (.bytes, "provider"), (.integer, "amount"),
      (.integer, "timestamp")]
  | .escrowRefunded =>
    [(.integer, "escrow_id"), (.bytes, "depositor"), (.integer, "amount"), (.integer, "timestamp")]
  | .escrowFunded => [(.bytes, "depositor"), (.integer, "amount"), (.bytes, "escrow_address")]
  | .fundsReleased => [(.integer, "escrow_id"), (.bytes, "beneficiary"), (.integer, "amount")]

/-- The description carries the fields of the event's kind, with the values of
the event. -/
def Event.StatedIn (event : Event) (d : Description) : Prop :=
  match event with
  | .depositorApproved depositor escrowId timeOfApproval =>
    d.lookup .bytes "depositor" = .ok depositor ∧ d.lookup .integer "escrow_id" = .ok escrowId
      ∧ d.lookup .integer "time_of_approval" = .ok timeOfApproval
  | .arbiterApproved arbiter escrowId timeOfApproval =>
    d.lookup .bytes "arbiter" = .ok arbiter ∧ d.lookup .integer "escrow_id" = .ok escrowId
      ∧ d.lookup .integer "time_of_approval" = .ok timeOfApproval
  | .escrowInitialized escrowId beneficiary provider amount timestamp =>
    d.lookup .integer "escrow_id" = .ok escrowId ∧ d.lookup .bytes "beneficiary" = .ok beneficiary
      ∧ d.lookup .bytes "provider" = .ok provider ∧ d.lookup .integer "amount" = .ok amount
      ∧ d.lookup .integer "timestamp" = .ok timestamp
  | .escrowRefunded escrowId depositor amount timestamp =>
    d.lookup .integer "escrow_id" = .ok escrowId ∧ d.lookup .bytes "depositor" = .ok depositor
      ∧ d.lookup .integer "amount" = .ok amount ∧ d.lookup .integer "timestamp" = .ok timestamp
  | .escrowFunded depositor amount escrowAddress =>
    d.lookup .bytes "depositor" = .ok depositor ∧ d.lookup .integer "amount" = .ok amount
      ∧ d.lookup .bytes "escrow_address" = .ok escrowAddress
  | .fundsReleased escrowId beneficiary amount =>
    d.lookup .integer "escrow_id" = .ok escrowId ∧ d.lookup .bytes "beneficiary" = .ok beneficiary
      ∧ d.lookup .integer "amount" = .ok amount

/-- Every kind's reading puts three fields or more together, in one way. -/
theorem Event.reading_follows (kind : Kind) : (Event.reading kind).Follows kind.schema := by
  -- Each reading has the shape of its constructor, so each is taken apart by itself.
  cases kind with
  | depositorApproved =>
    exact (((follows_field .bytes "depositor").map _).seq (follows_field .integer "escrow_id")).seq
      (follows_field .integer "time_of_approval")
  | arbiterApproved =>
    exact (((follows_field .bytes "arbiter").map _).seq (follows_field .integer "escrow_id")).seq
      (follows_field .integer "time_of_approval")
  | escrowInitialized =>
    exact (((((follows_field .integer "escrow_id").map _).seq
      (follows_field .bytes "beneficiary")).seq (follows_field .bytes "provider")).seq
      (follows_field .integer "amount")).seq (follows_field .integer "timestamp")
  | escrowRefunded =>
    exact ((((follows_field .integer "escrow_id").map _).seq
      (follows_field .bytes "depositor")).seq (follows_field .integer "amount")).seq
      (follows_field .integer "timestamp")
  | escrowFunded =>
    exact (((follows_field .bytes "depositor").map _).seq (follows_field .integer "amount")).seq
      (follows_field .bytes "escrow_address")
  | fundsReleased =>
    exact (((follows_field .integer "escrow_id").map _).seq
      (follows_field .bytes "beneficiary")).seq (follows_field .integer "amount")

/-- A reading of a kind has an event of that kind for its value, the one that
the description states. -/
theorem Event.extract_eq_ok_iff {kind : Kind} {d : Description} {event : Event} :
    (Event.reading kind).extract d = .ok event ↔ event.kind = kind ∧ event.StatedIn d := by
  rw [Reading.extract_eq_ok_iff]
  constructor
  · -- Each kind by itself: the kinds have nothing in common but how they are put together.
    intro h
    cases kind with
    | depositorApproved =>
      obtain ⟨_, htime, _, h₁, rfl⟩ := (yields_seq_field .integer "time_of_approval").mp h
      obtain ⟨_, hescrow, _, h₂, rfl⟩ := (yields_seq_field .integer "escrow_id").mp h₁
      obtain ⟨_, hdepositor, rfl⟩ := (yields_map_field .bytes "depositor").mp h₂
      exact ⟨rfl, hdepositor, hescrow, htime⟩
    | arbiterApproved =>
      obtain ⟨_, htime, _, h₁, rfl⟩ := (yields_seq_field .integer "time_of_approval").mp h
      obtain ⟨_, hescrow, _, h₂, rfl⟩ := (yields_seq_field .integer "escrow_id").mp h₁
      obtain ⟨_, harbiter, rfl⟩ := (yields_map_field .bytes "arbiter").mp h₂
      exact ⟨rfl, harbiter, hescrow, htime⟩
    | escrowInitialized =>
      obtain ⟨_, htime, _, h₁, rfl⟩ := (yields_seq_field .integer "timestamp").mp h
      obtain ⟨_, hamount, _, h₂, rfl⟩ := (yields_seq_field .integer "amount").mp h₁
      obtain ⟨_, hprovider, _, h₃, rfl⟩ := (yields_seq_field .bytes "provider").mp h₂
      obtain ⟨_, hbeneficiary, _, h₄, rfl⟩ := (yields_seq_field .bytes "beneficiary").mp h₃
      obtain ⟨_, hescrow, rfl⟩ := (yields_map_field .integer "escrow_id").mp h₄
      exact ⟨rfl, hescrow, hbeneficiary, hprovider, hamount, htime⟩
    | escrowRefunded =>
      obtain ⟨_, htime, _, h₁, rfl⟩ := (yields_seq_field .integer "timestamp").mp h
      obtain ⟨_, hamount, _, h₂, rfl⟩ := (yields_seq_field .integer "amount").mp h₁
      obtain ⟨_, hdepositor, _, h₃, rfl⟩ := (yields_seq_field .bytes "depositor").mp h₂
      obtain ⟨_, hescrow, rfl⟩ := (yields_map_field .integer "escrow_id").mp h₃
      exact ⟨rfl, hescrow, hdepositor, hamount, htime⟩
    | escrowFunded =>
      obtain ⟨_, haddress, _, h₁, rfl⟩ := (yields_seq_field .bytes "escrow_address").mp h
      obtain ⟨_, hamount, _, h₂, rfl⟩ := (yields_seq_field .integer "amount").mp h₁
      obtain ⟨_, hdepositor, rfl⟩ := (yields_map_field .bytes "depositor").mp h₂
      exact ⟨rfl, hdepositor, hamount, haddress⟩
    | fundsReleased =>
      obtain ⟨_, hamount, _, h₁, rfl⟩ := (yields_seq_field .integer "amount").mp h
      obtain ⟨_, hbeneficiary, _, h₂, rfl⟩ := (yields_seq_field .bytes "beneficiary").mp h₁
      obtain ⟨_, hescrow, rfl⟩ := (yields_map_field .integer "escrow_id").mp h₂
      exact ⟨rfl, hescrow, hbeneficiary, hamount⟩
  · rintro ⟨rfl, h⟩
    cases event with
    | depositorApproved depositor escrowId timeOfApproval =>
      obtain ⟨hdepositor, hescrow, htime⟩ := h
      exact ((Yields.map_field hdepositor _).seq_field hescrow).seq_field htime
    | arbiterApproved arbiter escrowId timeOfApproval =>
      obtain ⟨harbiter, hescrow, htime⟩ := h
      exact ((Yields.map_field harbiter _).seq_field hescrow).seq_field htime
    | escrowInitialized escrowId beneficiary provider amount timestamp =>
      obtain ⟨hescrow, hbeneficiary, hprovider, hamount, htime⟩ := h
      exact ((((Yields.map_field hescrow _).seq_field hbeneficiary).seq_field hprovider).seq_field
        hamount).seq_field htime
    | escrowRefunded escrowId depositor amount timestamp =>
      obtain ⟨hescrow, hdepositor, hamount, htime⟩ := h
      exact (((Yields.map_field hescrow _).seq_field hdepositor).seq_field hamount).seq_field htime
    | escrowFunded depositor amount escrowAddress =>
      obtain ⟨hdepositor, hamount, haddress⟩ := h
      exact ((Yields.map_field hdepositor _).seq_field hamount).seq_field haddress
    | fundsReleased escrowId beneficiary amount =>
      obtain ⟨hescrow, hbeneficiary, hamount⟩ := h
      exact ((Yields.map_field hescrow _).seq_field hbeneficiary).seq_field hamount

end EscrowFeed
