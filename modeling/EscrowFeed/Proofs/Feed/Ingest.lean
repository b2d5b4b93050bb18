/-
Taking in an envelope, as one step of a store.

An envelope that does not decode leaves everything as it is. Of one that does,
the store takes the upserts of the records one after the other, and which ones
they are depends on the envelope alone, not on the sink and not on what the
store has. With that said once for every store that refuses nothing, what is
left of the feed is a matter of lists of upserts.

For a table there are two such matters here. An envelope may be taken in again,
also with more behind it, and an envelope's records may be saved in any order.
The one holds because what stands behind an entry does not change its record,
the other because no two records of an envelope share a row.
-/
import EscrowFeed.Feed.Ingest
import EscrowFeed.Proofs.Envelope.Concatenation
import EscrowFeed.Proofs.Feed.Records
import EscrowFeed.Proofs.Store.Table

set_option autoImplicit false

namespace EscrowFeed

open Envelope

/-! ## Any store that refuses nothing -/

/-- The upserts of an envelope; none if it does not decode. -/
def upsertsIn (bytes : Bytes) : List Upsert :=
  match decode bytes with
  | .error _ => []
  | .ok descriptions => upsertsOf descriptions

/-- What is said of an envelope if the store refuses nothing. -/
def reportOf (bytes : Bytes) : Except FeedError Summary :=
  match decode bytes with
  | .error error => .error (.envelope error)
  | .ok descriptions => .ok (Batch.ofEntries SkipWarnings.mk 0 descriptions).summary

theorem upsertsIn_of_decode {bytes : Bytes} {descriptions : List String}
    (h : decode bytes = .ok descriptions) : upsertsIn bytes = upsertsOf descriptions := by
  rw [upsertsIn, h]

theorem reportOf_of_decode {bytes : Bytes} {descriptions : List String}
    (h : decode bytes = .ok descriptions) :
    reportOf bytes = .ok (Batch.ofEntries SkipWarnings.mk 0 descriptions).summary := by
  rw [reportOf, h]

/-- Nothing but records is stored. -/
theorem exists_record_of_mem_upsertsIn {bytes : Bytes} {op : Upsert} (h : op ∈ upsertsIn bytes) :
    ∃ record : Record, record.toUpsert = op := by
  rw [upsertsIn] at h
  split at h
  · exact absurd h List.not_mem_nil
  · obtain ⟨record, -, hop⟩ := List.mem_map.mp h
    exact ⟨record, hop⟩

/-- Every row that an envelope asks for has a key. -/
theorem rowKey_ne_nil_of_mem_upsertsIn {bytes : Bytes} {op : Upsert} (h : op ∈ upsertsIn bytes) :
    op.rowKey ≠ [] := by
  obtain ⟨record, rfl⟩ := exists_record_of_mem_upsertsIn h
  exact record.rowKey_ne_nil

section

variable {κ σ : Type} [SkipSink κ] [RowStore σ]

/-- A batch asks for the rows of its descriptions, whatever its sink. -/
theorem upserts_ofEntries (sink : κ) (descriptions : List String) :
    (Batch.ofEntries sink 0 descriptions).records.map Record.toUpsert = upsertsOf descriptions := by
  rw [Batch.records_ofEntries, upsertsOf, recordsOf]

/-- The batch of an envelope is that of its entries. -/
theorem Batch.ofEnvelope_of_decode {bytes : Bytes} {descriptions : List String}
    (h : decode bytes = .ok descriptions) (sink : κ) :
    ofEnvelope sink bytes = .ok (ofEntries sink 0 descriptions) := by
  rw [ofEnvelope, h]
  rfl

/-- **A good store takes all upserts of an envelope**, and if the flush that
follows succeeds too, then what is said of the envelope is what it holds. An
envelope that does not decode has none, and is not even flushed. -/
theorem ingest_of_good {good : σ → Prop} {next : σ → Upsert → σ}
    (htakes : RowStore.TakesAll good next)
    (hkept : ∀ store : σ, good store → (RowStore.flush store).2 = store)
    (bytes : Bytes) (sink : κ) (store : σ) (hstore : good store) :
    let after := (upsertsIn bytes).foldl next store
    (ingest bytes sink store).store = after
      ∧ ((RowStore.flush after).1 = .ok () →
          (ingest bytes sink store).result = reportOf bytes) := by
  intro after
  have hkeys : ∀ op ∈ upsertsIn bytes, op.rowKey ≠ [] := fun op => rowKey_ne_nil_of_mem_upsertsIn
  have hcommit : RowStore.commit (upsertsIn bytes) store = RowStore.flush after :=
    htakes.commit_eq hstore hkeys
  have hflushed : (RowStore.flush after).2 = after := hkept after (htakes.good_foldl hstore hkeys)
  cases h : decode bytes with
  | error error =>
    have hafter : after = store := by
      unfold after
      rw [upsertsIn, h]
      rfl
    rw [ingest, reportOf, hafter, h]
    exact ⟨rfl, fun _ => rfl⟩
  | ok descriptions =>
    rw [upsertsIn_of_decode h, ← upserts_ofEntries sink] at hcommit
    rw [ingest, reportOf, h]
    dsimp only
    rw [hcommit, Batch.summary_ofEntries_eq SkipWarnings.mk sink]
    -- The outcome of the flush is the outcome of the envelope.
    cases hflush : RowStore.flush after with
    | mk outcome flushed =>
      rw [hflush] at hflushed
      cases outcome with
      | error error => exact ⟨hflushed, fun hok => by cases hok⟩
      | ok done => exact ⟨hflushed, fun _ => rfl⟩

end

/-! ## Tables and lines -/

section

variable {κ κ' κ'' : Type} [SkipSink κ] [SkipSink κ'] [SkipSink κ'']

/-- **A table takes an envelope in** as its upserts, one after the other. -/
theorem TableStore.ingest_eq (bytes : Bytes) (sink : κ) (store : TableStore) :
    (ingest bytes sink store).store = store.putAll (upsertsIn bytes)
      ∧ (ingest bytes sink store).result = reportOf bytes := by
  have hingest := ingest_of_good takesAll (fun _ _ => rfl) bytes sink store trivial
  exact ⟨hingest.1, hingest.2 rfl⟩

/-- **A store of lines takes an envelope in** as their lines, if there is room
for them. -/
theorem LineStore.ingest_eq (bytes : Bytes) (sink : κ) (store : LineStore)
    (hlimit : store.outlet.limit = none) :
    (ingest bytes sink store).store = store.addLines (upsertsIn bytes)
      ∧ (store.outlet.flushFails = false → (ingest bytes sink store).result = reportOf bytes) := by
  have hingest := ingest_of_good (takesAll store.outlet.flushFails) (fun _ _ => rfl) bytes sink
    store ⟨hlimit, rfl⟩
  rw [foldl_addLines] at hingest
  refine ⟨hingest.1, fun hflush => hingest.2 ?_⟩
  -- What has been written is of no matter to a flush.
  have hafter : (store.addLines (upsertsIn bytes)).outlet.flushFails = false := hflush
  rw [flush_of_flushFails_eq_false hafter]

/-! ## Envelopes that come again -/

/-- **An envelope may be taken in again.** If it comes back with another one
behind it, then the table is as if only the longer one had come, and what is
said of the longer one is the same too. If it comes back as it was, then the
table stays as it is, and the counts are the same as before. -/
theorem ingest_append {a b : Bytes} {front rest : List String} (ha : decode a = .ok front)
    (hb : decode b = .ok rest) (store : TableStore) (sink : κ) (later : κ') (other : κ'') :
    let first := ingest a sink store
    let again := ingest a later first.store
    let second := ingest (a ++ b) later first.store
    let alone := ingest (a ++ b) other store
    (∃ summary, first.result = .ok summary)
      ∧ (∃ summary, alone.result = .ok summary)
      ∧ second.store.SameRows alone.store
      ∧ second.result = alone.result
      ∧ again.store.SameRows first.store
      ∧ again.result = first.result := by
  intro first again second alone
  have hfirst := TableStore.ingest_eq a sink store
  have hagain := TableStore.ingest_eq a later first.store
  have hsecond := TableStore.ingest_eq (a ++ b) later first.store
  have halone := TableStore.ingest_eq (a ++ b) other store
  have hwhole : decode (a ++ b) = .ok (front ++ rest) := by
    rw [decode_append ha, hb]
    rfl
  refine ⟨⟨_, hfirst.2.trans (reportOf_of_decode ha)⟩,
    ⟨_, halone.2.trans (reportOf_of_decode hwhole)⟩, ?_, hsecond.2.trans halone.2.symm, ?_,
    hagain.2.trans hfirst.2.symm⟩
  · -- The entries of the first one come first, so its upserts are the first of the longer one's.
    obtain ⟨more, hmore⟩ := upsertsOf_append front rest
    rw [hsecond.1, halone.1, hfirst.1, upsertsIn_of_decode hwhole, upsertsIn_of_decode ha, hmore]
    exact TableStore.putAll_putAll_append store (upsertsOf front) more
  · have htwice := TableStore.putAll_putAll_append store (upsertsIn a) []
    rw [List.append_nil] at htwice
    rw [hagain.1, hfirst.1]
    exact htwice

set_option maxRecDepth 20000 in
/-- A payment, and behind it an entry without a description and the same payment
again. -/
theorem ingest_append_funded :
    let funded := "\x7b\"eventType\":\"EscrowFunded\",\"block_timestamp\":1,\"block_number\":2,"
      ++ "\"transaction_hash\":\"0x\",\"depositor\":\"0x01\",\"amount\":5,"
      ++ "\"escrow_address\":\"0x02\"\x7d"
    let a := encode [funded]
    let b := encode ["", funded]
    decode a = .ok [funded] ∧ decode b = .ok ["", funded]
      ∧ (ingest a SkipWarnings.mk ({} : TableStore)).store.size = 1
      ∧ (ingest (a ++ b) SkipWarnings.mk
            (ingest a SkipWarnings.mk ({} : TableStore)).store).store.SameRows
          (ingest (a ++ b) SkipWarnings.mk ({} : TableStore)).store := by
  intro funded a b
  have ha : decode a = .ok [funded] := decode_encode (by decide +kernel)
  have hb : decode b = .ok ["", funded] := decode_encode (by decide +kernel)
  have hsize : (ingest a SkipWarnings.mk ({} : TableStore)).store.size = 1 := by decide +kernel
  have hagain := ingest_append ha hb {} SkipWarnings.mk SkipWarnings.mk SkipWarnings.mk
  exact ⟨ha, hb, hsize, hagain.2.2.1⟩

/-! ## Records in any order -/

/-- **The order of the saves is of no matter.** An envelope's records can be
saved to any table in any order, and what they leave there is the same. -/
theorem saveAll_perm {bytes : Bytes} {descriptions : List String}
    (h : decode bytes = .ok descriptions) (sink : κ) :
    ∃ batch, Batch.ofEnvelope sink bytes = .ok batch
      ∧ ∀ records : List Record, records.Perm batch.records → ∀ store : TableStore,
          ∃ ordered permuted : TableStore,
            RowStore.saveAll (batch.records.map Record.toUpsert) store = (.ok (), ordered)
              ∧ RowStore.saveAll (records.map Record.toUpsert) store = (.ok (), permuted)
              ∧ permuted.SameRows ordered := by
  refine ⟨_, Batch.ofEnvelope_of_decode h sink, fun records hperm store => ?_⟩
  have hops : (records.map Record.toUpsert).Perm (upsertsOf descriptions) := by
    rw [← upserts_ofEntries sink]
    exact hperm.map Record.toUpsert
  have hkeys : ∀ records : List Record, ∀ op ∈ records.map Record.toUpsert, op.rowKey ≠ [] := by
    intro records op hop
    obtain ⟨record, -, rfl⟩ := List.mem_map.mp hop
    exact record.rowKey_ne_nil
  refine ⟨_, _, TableStore.saveAll_eq (hkeys _) store, TableStore.saveAll_eq (hkeys _) store, ?_⟩
  rw [upserts_ofEntries]
  -- Different places, so no row stands in another one's way.
  exact TableStore.putAll_perm hops (nodup_places descriptions) store

end

set_option maxRecDepth 20000 in
/-- One payment told twice in one transaction: two records of one table, saved in
either order. -/
theorem saveAll_perm_funded :
    let funded := "\x7b\"eventType\":\"EscrowFunded\",\"block_timestamp\":1,\"block_number\":2,"
      ++ "\"transaction_hash\":\"0xab\",\"depositor\":\"0x01\",\"amount\":5,"
      ++ "\"escrow_address\":\"0x02\"\x7d"
    let bytes := encode [funded, funded]
    decode bytes = .ok [funded, funded]
      ∧ ∃ batch, Batch.ofEnvelope SkipWarnings.mk bytes = .ok batch
        ∧ batch.records.length = 2
        ∧ ∃ ordered permuted : TableStore,
            RowStore.saveAll (batch.records.map Record.toUpsert) ({} : TableStore) =
                (.ok (), ordered)
              ∧ RowStore.saveAll (batch.records.reverse.map Record.toUpsert) ({} : TableStore) =
                  (.ok (), permuted)
              ∧ permuted.SameRows ordered := by
  intro funded bytes
  have h : decode bytes = .ok [funded, funded] := decode_encode (by decide +kernel)
  obtain ⟨batch, hbatch, hperm⟩ := saveAll_perm h SkipWarnings.mk
  have hlength : (Batch.ofEntries SkipWarnings.mk 0 [funded, funded]).records.length = 2 := by
    decide +kernel
  have hentries := (Batch.ofEnvelope_of_decode h SkipWarnings.mk).symm.trans hbatch
  rw [Except.ok.inj hentries] at hlength
  exact ⟨h, batch, hbatch, hlength, hperm _ batch.records.reverse_perm {}⟩

end EscrowFeed
