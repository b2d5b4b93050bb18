/-
The phases of taking in an envelope, and what a failure in each of them leaves.

Whatever a store does, an envelope that does not decode reaches nothing, and one
that decodes has all its skips reported before the first record is saved. So the
sink does not depend on the store, and the store is asked for the records in
their order and for nothing behind the first refusal. That is said of any store,
through the calls it hears, and no store can be told from one that is listened
to.

A failed attempt may leave some of the first records behind. For a table this
does not matter, as long as a later attempt goes through: it saves the same
records again, and of every row the last upsert stands.
-/
import EscrowFeed.Proofs.Feed.Ingest
import EscrowFeed.Proofs.Store.Calls

set_option autoImplicit false

namespace EscrowFeed

open Envelope

section

variable {κ σ : Type} [SkipSink κ] [RowStore σ]

/-- An envelope that does not decode leaves sink and store alone. -/
theorem ingest_of_decode_error {bytes : Bytes} {error : DecodeError}
    (h : decode bytes = .error error) (sink : κ) (store : σ) :
    ingest bytes sink store = ⟨.error (.envelope error), sink, store, []⟩ := by
  rw [ingest, h]

/-- Of an envelope that decodes, the sink has the batch's skips, and the store
decides about the rest. -/
theorem ingest_of_decode_ok {bytes : Bytes} {descriptions : List String}
    (h : decode bytes = .ok descriptions) (sink : κ) (store : σ) :
    let batch := Batch.ofEntries sink 0 descriptions
    let commit := RowStore.commit (batch.records.map Record.toUpsert) store
    (ingest bytes sink store).result =
        (commit.1.map fun _ => batch.summary).mapError FeedError.store
      ∧ (ingest bytes sink store).sink = batch.sink
      ∧ (ingest bytes sink store).store = commit.2 := by
  rw [ingest, h]
  dsimp only
  rcases RowStore.commit _ store with ⟨_ | _, after⟩
  · exact ⟨rfl, rfl, rfl⟩
  · exact ⟨rfl, rfl, rfl⟩

/-- **Listening to a store changes nothing** of what an envelope comes to. -/
theorem ingest_observed (bytes : Bytes) (sink : κ) (observed : Observed σ) :
    let run := ingest bytes sink observed
    ingest bytes sink observed.store = ⟨run.result, run.sink, run.store.store, run.journal⟩ := by
  intro run
  unfold run
  rw [ingest, ingest]
  cases decode bytes with
  | error error => rfl
  | ok descriptions =>
    dsimp only
    rw [Observed.commit_store]
    rcases RowStore.commit _ observed with ⟨_ | _, after⟩
    · rfl
    · rfl

/-! ## Attempts -/

/-- Attempts at saving some records to a table, each as far as it comes. -/
def attemptAll (records : List Record) (attempts : List Nat) (table : TableStore) : TableStore :=
  attempts.foldl
    (fun table n => (RowStore.saveAll ((records.take n).map Record.toUpsert) table).2) table

/-- Attempts that were cut short put the first rows, each time from the first
one on. -/
theorem attemptAll_eq (records : List Record) (attempts : List Nat) (table : TableStore) :
    attemptAll records attempts table =
      attempts.foldl (fun table n => table.putAll ((records.map Record.toUpsert).take n))
        table := by
  have hattempt : ∀ (n : Nat) (table : TableStore),
      (RowStore.saveAll ((records.take n).map Record.toUpsert) table).2 =
        table.putAll ((records.map Record.toUpsert).take n) := by
    intro n table
    rw [List.map_take, TableStore.saveAll_eq]
    intro op hop
    obtain ⟨record, -, rfl⟩ := List.mem_map.mp (List.mem_of_mem_take hop)
    exact record.rowKey_ne_nil
  simp only [attemptAll, hattempt]

/-- **An envelope fails in phases, and can be taken in again.** What a store
hears of an envelope is told by listening to it, which changes nothing. If the
envelope does not decode, then that is the result, the sink is as it was and the
store hears nothing. If it decodes, then the sink is told of all its skips,
whatever the store answers; the store hears of the batch's records in their order
up to the first that it refuses, and of one flush behind them if it refuses none;
and the result is the store's error if it gave one, and else the batch's summary.
After any number of attempts of which each saved some of the first records to a
table, taking in the envelope succeeds and leaves the rows that it would have
left without them. -/
theorem ingest_phases (bytes : Bytes) (sink : κ) (store : σ) :
    let run := ingest bytes sink (⟨store, []⟩ : Observed σ)
    ingest bytes sink store = ⟨run.result, run.sink, run.store.store, run.journal⟩
      ∧ (∀ error, decode bytes = .error error →
          run.result = .error (.envelope error) ∧ run.sink = sink ∧ run.store = ⟨store, []⟩)
      ∧ ∀ descriptions, decode bytes = .ok descriptions →
          let skips := (descriptions.mapIdx classify).filterMap Decision.skip?
          ∃ batch outcome, Batch.ofEnvelope sink bytes = .ok batch
            ∧ run.sink = SkipSink.receiveAll skips sink
            ∧ (∀ collected : CollectedSkips,
                (ingest bytes collected store).sink.skips = collected.skips ++ skips)
            ∧ CommitCalls (batch.records.map Record.toUpsert) run.store.calls outcome
            ∧ run.result = (outcome.map fun _ => batch.summary).mapError FeedError.store
            ∧ ∀ (table : TableStore) (attempts : List Nat),
                let again := ingest bytes sink (attemptAll batch.records attempts table)
                again.result = .ok batch.summary
                  ∧ again.store.SameRows (ingest bytes sink table).store := by
  intro run
  refine ⟨ingest_observed bytes sink ⟨store, []⟩, ?_, ?_⟩
  · intro error h
    have hrun := ingest_of_decode_error h sink (⟨store, []⟩ : Observed σ)
    unfold run
    rw [hrun]
    exact ⟨rfl, rfl, rfl⟩
  · intro descriptions h skips
    obtain ⟨hresult, hsink, hstore⟩ := ingest_of_decode_ok h sink (⟨store, []⟩ : Observed σ)
    have hskips : skips = (decisions 0 descriptions).filterMap Decision.skip? := by
      rw [decisions_zero]
    refine ⟨_, _, Batch.ofEnvelope_of_decode h sink, ?_, ?_, ?_, hresult, ?_⟩
    · rw [hskips, ← Batch.sink_ofEntries]
      exact hsink
    · intro collected
      rw [(ingest_of_decode_ok h collected store).2.1, Batch.skips_ofEntries, hskips]
    · unfold run
      rw [hstore]
      exact Observed.commit_calls _ store
    · -- An attempt that was cut short put a front of the same rows, which putting all of them
      -- covers.
      intro table attempts again
      have hagain := TableStore.ingest_eq bytes sink
        (attemptAll (Batch.ofEntries sink 0 descriptions).records attempts table)
      refine ⟨?_, ?_⟩
      · rw [hagain.2, reportOf_of_decode h, Batch.summary_ofEntries_eq SkipWarnings.mk sink]
      · rw [hagain.1, (TableStore.ingest_eq bytes sink table).1, attemptAll_eq,
          upserts_ofEntries, upsertsIn_of_decode h]
        exact TableStore.putAll_after_attempts table _ attempts

end

set_option maxRecDepth 20000 in
/-- A byte that begins no envelope; and an entry without a description with a
payment behind it, for which an outlet of ten bytes has no room, and which a
table takes after an attempt that came to nothing and one that got it in. -/
theorem ingest_phases_funded :
    let funded := "\x7b\"eventType\":\"EscrowFunded\",\"block_timestamp\":1,\"block_number\":2,"
      ++ "\"transaction_hash\":\"0x\",\"depositor\":\"0x01\",\"amount\":5,"
      ++ "\"escrow_address\":\"0x02\"\x7d"
    let bytes := encode ["", funded]
    let full : LineStore := { outlet := { limit := some 10 } }
    decode [0xff] = .error ⟨.envelope, .invalidVarint⟩
      ∧ (ingest [0xff] SkipWarnings.mk (⟨full, []⟩ : Observed LineStore)).result =
          .error (.envelope ⟨.envelope, .invalidVarint⟩)
      ∧ decode bytes = .ok ["", funded]
      ∧ ∃ batch, Batch.ofEnvelope SkipWarnings.mk bytes = .ok batch
        ∧ (ingest bytes SkipWarnings.mk (⟨full, []⟩ : Observed LineStore)).result =
            .error (.store (.rowText "disk full"))
        ∧ CommitCalls (batch.records.map Record.toUpsert)
            (ingest bytes SkipWarnings.mk (⟨full, []⟩ : Observed LineStore)).store.calls
            (.error (.rowText "disk full"))
        ∧ (ingest bytes SkipWarnings.mk (attemptAll batch.records [0, 1] {})).store.SameRows
            (ingest bytes SkipWarnings.mk ({} : TableStore)).store := by
  intro funded bytes full
  have hbad : decode [0xff] = .error ⟨.envelope, .invalidVarint⟩ := by decide +kernel
  have hgood : decode bytes = .ok ["", funded] := decode_encode (by decide +kernel)
  have hresult : (ingest bytes SkipWarnings.mk (⟨full, []⟩ : Observed LineStore)).result =
      .error (.store (.rowText "disk full")) :=
    (ingest_of_decode_ok hgood SkipWarnings.mk (⟨full, []⟩ : Observed LineStore)).1.trans
      (by decide +kernel)
  obtain ⟨-, hfails, -⟩ := ingest_phases [0xff] SkipWarnings.mk full
  obtain ⟨-, -, hdecodes⟩ := ingest_phases bytes SkipWarnings.mk full
  obtain ⟨batch, outcome, hbatch, -, -, hcalls, houtcome, hagain⟩ := hdecodes _ hgood
  -- The result tells what the commit came to.
  have hrefused : outcome = .error (.rowText "disk full") := by
    rw [hresult] at houtcome
    cases outcome with
    | error error =>
      exact congrArg Except.error (FeedError.store.inj (Except.error.inj houtcome)).symm
    | ok done => cases houtcome
  rw [hrefused] at hcalls
  exact ⟨hbad, (hfails _ hbad).1, hgood, batch, hbatch, hresult, hcalls, (hagain {} [0, 1]).2⟩

end EscrowFeed
