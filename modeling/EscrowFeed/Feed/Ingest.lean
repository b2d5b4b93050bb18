/-
Taking in an envelope: decode it, map its entries, and store the records.

The three stages do not overlap. An envelope that does not decode reaches
neither the sink nor the store; all entries are mapped, and all skips reported,
before the first record is saved; and the store is flushed only once every
record is in it.
-/
import EscrowFeed.Feed.Batch
import EscrowFeed.Store.Basic

set_option autoImplicit false

namespace EscrowFeed

/-- Why an envelope could not be taken in. -/
inductive FeedError where
  | envelope (error : Envelope.DecodeError)
  | store (error : StoreError)
deriving DecidableEq

/-- The text of the error. -/
def FeedError.message : FeedError → String
  | .envelope error => "Envelope error: " ++ error.message
  | .store error => "Database error: " ++ error.message

/-- What taking in an envelope left. -/
structure Ingest (κ σ : Type) where
  result : Except FeedError Summary
  sink : κ
  store : σ
  journal : List Notice

/-- What is said of a batch once it is stored. -/
def Summary.closing (summary : Summary) : List Notice :=
  .complete summary :: summary.perKind.map fun (kind, count) => .kindCount kind count

/-- Takes in an envelope. -/
def ingest {κ σ : Type} [SkipSink κ] [RowStore σ] (bytes : Bytes) (sink : κ) (store : σ) :
    Ingest κ σ :=
  match Envelope.decode bytes with
  | .error error => ⟨.error (.envelope error), sink, store, []⟩
  | .ok descriptions =>
    let batch := Batch.ofEntries sink 0 descriptions
    let opening := .decoded descriptions.length :: batch.journal
    match RowStore.commit (batch.records.map Record.toUpsert) store with
    | (.error error, store) => ⟨.error (.store error), batch.sink, store, opening⟩
    | (.ok (), store) =>
      ⟨.ok batch.summary, batch.sink, store, opening ++ batch.summary.closing⟩

end EscrowFeed
