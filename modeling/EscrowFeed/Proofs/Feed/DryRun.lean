/-
What a dry run can know of the run that writes.

A dry run keeps rows by their place, a run that writes adds one line after the
other, and the counts of an envelope know of neither. Three numbers are told as
one: how many rows there are, how many lines are written, and how many records
were mapped. They are one because no record overwrites another; a single pair of
records with one key would make the dry run's table smaller than the rest.
-/
import EscrowFeed.Proofs.Feed.Ingest

set_option autoImplicit false

namespace EscrowFeed

open Envelope

/-! ## The rows of an envelope -/

section

variable (descriptions : List String)

theorem size_putAll_upsertsOf :
    (TableStore.putAll {} (upsertsOf descriptions)).size = (recordsOf descriptions).length := by
  rw [TableStore.size_putAll (nodup_places descriptions), upsertsOf, List.length_map]

/-- No two kinds share a table, so a table has the records of one kind. -/
theorem count_putAll_upsertsOf (kind : Kind) :
    (TableStore.putAll {} (upsertsOf descriptions)).count kind.table =
      (recordsOf descriptions).countP fun record => record.kind = kind := by
  rw [TableStore.count_putAll (nodup_places descriptions), upsertsOf, List.countP_map]
  apply List.countP_congr
  intro record _
  have htable : record.toUpsert.table = kind.table ↔ record.kind = kind :=
    ⟨Kind.table_injective, congrArg Kind.table⟩
  simp only [Function.comp_apply, decide_eq_true_eq, htable]

/-- Every record is found in its kind's table under its identity. -/
theorem get?_putAll_upsertsOf (store : TableStore) {record : Record}
    (h : record ∈ recordsOf descriptions) :
    (store.putAll (upsertsOf descriptions)).get? record.kind.table record.id =
      some record.toUpsert := by
  have hmem : record.toUpsert ∈ upsertsOf descriptions := List.mem_map_of_mem h
  have hplace : record.toUpsert.place = ⟨record.kind.table, [record.id]⟩ := rfl
  rw [TableStore.get?, ← hplace]
  exact TableStore.row?_putAll_of_mem (nodup_places descriptions) store hmem

end

/-! ## Dry run and run -/

variable {κ κ' κ'' : Type} [SkipSink κ] [SkipSink κ'] [SkipSink κ'']

/-- **A dry run reports what a run writes.** Of an envelope that decodes, the
rows in memory are as many as the lines that are written wherever there is room
for them, and as many as the records that are mapped; a run whose flush succeeds
too reports the same summary. In each kind's table there are as many rows as the
summary counts for the kind, and every record is found under its own identity,
with its own row. So no two records are stored as one. -/
theorem ingest_fresh {bytes : Bytes} {descriptions : List String}
    (h : decode bytes = .ok descriptions) (sink : κ) (writing : κ') (mapping : κ'') :
    let dry := ingest bytes sink ({} : TableStore)
    ∃ summary batch, dry.result = .ok summary
      ∧ Batch.ofEnvelope mapping bytes = .ok batch
      ∧ dry.store.size = summary.materialized
      ∧ (∀ outlet : Outlet, outlet.limit = none →
          let run := ingest bytes writing ({ outlet } : LineStore)
          run.store.written = summary.materialized
            ∧ (outlet.flushFails = false → run.result = .ok summary))
      ∧ batch.records.length = summary.materialized
      ∧ (∀ kind : Kind, dry.store.count kind.table = (summary.perKind.lookup kind).getD 0)
      ∧ (∀ record ∈ batch.records,
          dry.store.get? record.kind.table record.id = some record.toUpsert)
      ∧ (batch.records.map fun record => (record.kind.table, record.id)).Nodup := by
  intro dry
  have hdry := TableStore.ingest_eq bytes sink {}
  have htable : dry.store = TableStore.putAll {} (upsertsOf descriptions) := by
    rw [hdry.1, upsertsIn_of_decode h]
  -- All that follows counts one thing: the records of these descriptions.
  have hcounts := Batch.counts_ofEntries SkipWarnings.mk 0 descriptions
  have hrecords : (Batch.ofEntries mapping 0 descriptions).records = recordsOf descriptions :=
    Batch.records_ofEntries mapping 0 descriptions
  refine ⟨_, _, hdry.2.trans (reportOf_of_decode h), Batch.ofEnvelope_of_decode h mapping, ?_, ?_,
    ?_, ?_, ?_, ?_⟩
  · rw [htable, size_putAll_upsertsOf, hcounts.materialized, recordsOf]
  · intro outlet hlimit run
    have hrun := LineStore.ingest_eq bytes writing { outlet } hlimit
    refine ⟨?_, fun hflush => (hrun.2 hflush).trans (reportOf_of_decode h)⟩
    rw [hrun.1, LineStore.addLines, upsertsIn_of_decode h, upsertsOf, List.length_map,
      hcounts.materialized, recordsOf]
    exact Nat.zero_add _
  · rw [hrecords, hcounts.materialized, recordsOf]
  · intro kind
    rw [htable, count_putAll_upsertsOf, hcounts.listed.lookup_getD, hcounts.numberOf, recordsOf]
  · rw [hrecords, htable]
    exact fun record => get?_putAll_upsertsOf descriptions {}
  · rw [hrecords]
    -- The keys alone are different already, whatever the tables.
    apply List.Nodup.of_map Prod.snd
    rw [List.map_map]
    exact nodup_ids descriptions

set_option maxRecDepth 20000 in
/-- One payment told twice in one transaction, with an entry between that is
skipped: two records, two rows and two lines. -/
theorem ingest_fresh_funded :
    let funded := "\x7b\"eventType\":\"EscrowFunded\",\"block_timestamp\":1,\"block_number\":2,"
      ++ "\"transaction_hash\":\"0x\",\"depositor\":\"0x01\",\"amount\":5,"
      ++ "\"escrow_address\":\"0x02\"\x7d"
    let bytes := encode [funded, "", funded]
    decode bytes = .ok [funded, "", funded]
      ∧ (∃ summary, (ingest bytes SkipWarnings.mk ({} : TableStore)).result = .ok summary
        ∧ summary.materialized = 2)
      ∧ (ingest bytes SkipWarnings.mk ({} : TableStore)).store.size = 2
      ∧ (ingest bytes SkipWarnings.mk ({} : LineStore)).store.written = 2 := by
  intro funded bytes
  have h : decode bytes = .ok [funded, "", funded] := decode_encode (by decide +kernel)
  have hlength : (Batch.ofEntries SkipWarnings.mk 0 [funded, "", funded]).records.length = 2 := by
    decide +kernel
  obtain ⟨summary, batch, hresult, hbatch, hsize, hwritten, hrecords, -⟩ :=
    ingest_fresh h SkipWarnings.mk SkipWarnings.mk SkipWarnings.mk
  have hentries := (Batch.ofEnvelope_of_decode h SkipWarnings.mk).symm.trans hbatch
  rw [← Except.ok.inj hentries] at hrecords
  have hmaterialized : summary.materialized = 2 := hrecords.symm.trans hlength
  exact ⟨h, ⟨summary, hresult, hmaterialized⟩, hsize.trans hmaterialized,
    (hwritten {} rfl).1.trans hmaterialized⟩

end EscrowFeed
