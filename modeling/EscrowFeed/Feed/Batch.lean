/-
Mapping the entries of an envelope, all of them and in order.

A batch never stops. What a faulty entry leaves behind is its skip in the sink
and one in the count, and the entries after it are mapped as if it were not
there, except that they keep their own places: a record's identity holds its
entry's place in the envelope, not its place among the records.
-/
import EscrowFeed.Envelope.Decoder
import EscrowFeed.Feed.Journal

set_option autoImplicit false

namespace EscrowFeed

/-- What the entries of an envelope came to. -/
structure Batch (κ : Type) where
  records : List Record
  summary : Summary
  sink : κ
  journal : List Notice
deriving DecidableEq

namespace Batch

variable {κ : Type} [SkipSink κ]

/-- Maps entries of which the first has the place `index`. -/
def ofEntries (sink : κ) (index : Nat) : List String → Batch κ
  | [] => ⟨[], {}, sink, []⟩
  | description :: rest =>
    match classify index description with
    | .ok (.materialized record) =>
      let batch := ofEntries sink (index + 1) rest
      { batch with
        records := record :: batch.records
        summary := batch.summary.addMaterialized record.kind
        journal := .materialized index record :: batch.journal }
    | .ok (.unrecognized eventType) =>
      let batch := ofEntries sink (index + 1) rest
      { batch with
        summary := batch.summary.addUnrecognized
        journal := .unrecognized index eventType :: batch.journal }
    | .error skip =>
      let (sink, notices) := SkipSink.receive skip sink
      let batch := ofEntries sink (index + 1) rest
      { batch with
        summary := batch.summary.addSkipped
        journal := notices ++ batch.journal }

/-- Decodes an envelope and maps its entries. -/
def ofEnvelope (sink : κ) (bytes : Bytes) : Except Envelope.DecodeError (Batch κ) :=
  (Envelope.decode bytes).map (ofEntries sink 0)

end Batch

end EscrowFeed
