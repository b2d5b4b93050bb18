/-
What a dry run prints.

A dry run says of an envelope what it would store, and it does so in lines: one
for each entry that is skipped, one for each kind that has records, and one with
the totals. Where these come from is not one place. The skips are what the sink
has collected, the counts are the summary's, and the number of records is that
of the rows in memory. `surveyLines` says the lines by the decisions on the
entries alone, so a number that is printed is the number of something that was
decided, and the rows in memory are as many as the records because none of them
overwrites another.
-/
import EscrowFeed.Command
import EscrowFeed.Proofs.Feed.DryRun
import EscrowFeed.Proofs.Feed.Phases

set_option autoImplicit false

namespace EscrowFeed

open Envelope

namespace Tally

/-- A tally in order has no entry twice. -/
theorem nodup_of_sorted {tally : Tally}
    (h : tally.Pairwise fun a b => a.1.position < b.1.position) : tally.Nodup := by
  refine h.imp ?_
  rintro a b hlt rfl
  exact Nat.lt_irrefl _ hlt

/-- **A tally is the list of all kinds with their numbers**, less the kinds that
have none. -/
theorem Listed.eq_filter {tally : Tally} (h : tally.Listed) :
    tally =
      (Kind.all.map fun kind => (kind, tally.numberOf kind)).filter fun entry => 0 < entry.2 := by
  have hkinds : Kind.all.Pairwise fun a b => a.position < b.position := by decide
  have hall : (Kind.all.map fun kind => (kind, tally.numberOf kind)).Pairwise
      fun a b => a.1.position < b.1.position := List.pairwise_map.mpr hkinds
  have hfilter := hall.filter fun entry => 0 < entry.2
  -- Both sides are sorted, so it is enough that they have the same entries.
  refine List.Perm.eq_of_pairwise (fun a b _ _ hab hba => absurd hab (Nat.lt_asymm hba))
    h.sorted hfilter ?_
  refine (List.perm_ext_iff_of_nodup (nodup_of_sorted h.sorted) (nodup_of_sorted hfilter)).mpr ?_
  rintro ⟨kind, n⟩
  simp only [h.mem_iff, List.mem_filter, List.mem_map, Prod.mk.injEq, decide_eq_true_eq]
  constructor
  · rintro ⟨rfl, hpos⟩
    exact ⟨⟨kind, kind.mem_all, rfl, rfl⟩, hpos⟩
  · rintro ⟨⟨_, -, rfl, rfl⟩, hpos⟩
    exact ⟨rfl, hpos⟩

end Tally

namespace Command

/-- How many records of a kind there are among those of an envelope. -/
def recordCount (descriptions : List String) (kind : Kind) : Nat :=
  (recordsOf descriptions).countP fun record => record.kind = kind

/-- The lines that say what has been decided of the entries of an envelope. -/
def surveyLines (descriptions : List String) : List String :=
  let skips := (decisions 0 descriptions).filterMap Decision.skip?
  let unrecognized := (decisions 0 descriptions).filterMap Decision.unrecognized?
  let counts := (Kind.all.map fun kind => (kind, recordCount descriptions kind)).filter
    fun entry => 0 < entry.2
  skips.map (fun skip => "skipped: " ++ skip.message)
    ++ counts.map (fun (kind, count) => kind.name ++ ": " ++ count.repr)
    ++ [descriptions.length.repr ++ " entries, " ++ (recordsOf descriptions).length.repr
      ++ " records, " ++ skips.length.repr ++ " skipped, " ++ unrecognized.length.repr
      ++ " unrecognized"]

/-- The lines of a run in memory: what its sink has collected, its counts and its
rows say what has been decided. -/
theorem dryRunLines_ofEntries {descriptions : List String} {store : TableStore}
    (hstore : store = TableStore.putAll {} (upsertsOf descriptions)) :
    dryRunLines (Batch.ofEntries ({} : CollectedSkips) 0 descriptions).sink store
        (Batch.ofEntries SkipWarnings.mk 0 descriptions).summary =
      surveyLines descriptions := by
  have hcounts := Batch.counts_ofEntries SkipWarnings.mk 0 descriptions
  have hmessages : (Batch.ofEntries ({} : CollectedSkips) 0 descriptions).sink.messages =
      ((decisions 0 descriptions).filterMap Decision.skip?).map Skip.message := by
    rw [CollectedSkips.messages, Batch.skips_ofEntries]
    rfl
  -- The tally is in the order of the kinds, so it is the list of all of them with the absent ones
  -- left out.
  have hperKind : (Batch.ofEntries SkipWarnings.mk 0 descriptions).summary.perKind =
      (Kind.all.map fun kind => (kind, recordCount descriptions kind)).filter
        fun entry => 0 < entry.2 := by
    rw [hcounts.listed.eq_filter]
    simp only [hcounts.numberOf]
    rfl
  have hsize : store.size = (recordsOf descriptions).length := by
    rw [hstore, size_putAll_upsertsOf]
  have hentries : (decisions 0 descriptions).length = descriptions.length := by
    rw [decisions_zero, List.length_mapIdx]
  rw [dryRunLines, hmessages, hperKind, hsize, hcounts.entries, hentries, hcounts.skipped,
    hcounts.unrecognized, List.map_map]
  rfl

/-- **A dry run prints what has been decided.** Of an envelope that decodes it
gives the diagnostic of every entry that is skipped, in the order of the
entries, the number of records of every kind that has any, in the order of the
kinds, and the totals; the rows in memory are as many as the records. -/
theorem dryRun_of_decode {envelope : Bytes} {descriptions : List String}
    (h : decode envelope = .ok descriptions) :
    dryRun envelope =
      { output := Utf8.encode (String.join ((surveyLines descriptions).map (· ++ "\n"))) } := by
  obtain ⟨hstore, hresult⟩ := TableStore.ingest_eq envelope ({} : CollectedSkips) {}
  rw [upsertsIn_of_decode h] at hstore
  have hsink := (ingest_of_decode_ok h ({} : CollectedSkips) ({} : TableStore)).2.1
  rw [dryRun]
  dsimp only
  rw [hresult, reportOf_of_decode h]
  dsimp only
  rw [hsink, dryRunLines_ofEntries hstore]

/-- Two entries without a record, and what is said of them. -/
example :
    surveyLines ["", "[]"] =
      ["skipped: Empty JSON string at index 0",
        "skipped: JSON is not an object for event at index 1: []",
        "2 entries, 0 records, 2 skipped, 0 unrecognized"] := by
  decide +kernel

/-- Of an envelope that does not decode a dry run prints nothing. -/
theorem output_dryRun_of_decode_error {envelope : Bytes} {error : DecodeError}
    (h : decode envelope = .error error) : (dryRun envelope).output = [] := by
  rw [dryRun, ingest_of_decode_error h]

/-- A kind is listed with the number of the rows that its table then has. -/
theorem recordCount_eq_count (descriptions : List String) (kind : Kind) :
    recordCount descriptions kind =
      (TableStore.putAll {} (upsertsOf descriptions)).count kind.table :=
  (count_putAll_upsertsOf descriptions kind).symm

end Command

end EscrowFeed
