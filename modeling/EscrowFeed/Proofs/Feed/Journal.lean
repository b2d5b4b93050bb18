/-
The journal of a run, entry by entry.

Notices come from three places: the mapping of an entry, the sink that is told
of a skip, and what is said once the envelope is stored. With a sink that warns,
the first two together give one notice of every entry, in the order of the
entries. So the warnings of a run are the skips, and a sink that collects has
the same ones. That is all the difference there is between the two, since
neither the store nor the counts know of the sink.
-/
import EscrowFeed.Proofs.Feed.Phases

set_option autoImplicit false

namespace EscrowFeed

open Envelope

/-- The notice that is given of an entry, with a sink that warns. -/
def Decision.notice (index : Nat) : Decision → Notice
  | .ok (.materialized record) => .materialized index record
  | .ok (.unrecognized eventType) => .unrecognized index eventType
  | .error skip => .skipped skip

/-- The notices of descriptions of which the first has the place `index`. -/
def notices (index : Nat) (descriptions : List String) : List Notice :=
  descriptions.mapIdx fun place description =>
    Decision.notice (index + place) (classify (index + place) description)

theorem notices_cons (index : Nat) (description : String) (rest : List String) :
    notices index (description :: rest) =
      Decision.notice index (classify index description) :: notices (index + 1) rest := by
  rw [notices, List.mapIdx_cons, Nat.add_zero, notices]
  simp only [Nat.add_assoc, Nat.add_comm 1]

theorem notices_zero (descriptions : List String) :
    notices 0 descriptions =
      descriptions.mapIdx fun index description =>
        Decision.notice index (classify index description) := by
  simp only [notices, Nat.zero_add]

/-! ## Batches -/

namespace Batch

/-- **One notice of each entry**, in the order of the entries. -/
theorem journal_ofEntries_warnings (sink : SkipWarnings) (index : Nat)
    (descriptions : List String) :
    (ofEntries sink index descriptions).journal = notices index descriptions := by
  induction descriptions generalizing sink index with
  | nil => rfl
  | cons description rest ih =>
    rw [ofEntries, notices_cons, ← ih sink (index + 1)]
    split
    all_goals
      next h =>
        rw [h]
        rfl

/-- A sink that collects leaves the warnings out of the journal, and nothing
else. -/
theorem journal_ofEntries_collected (sink : CollectedSkips) (index : Nat)
    (descriptions : List String) :
    (ofEntries sink index descriptions).journal =
      (notices index descriptions).filter fun notice => notice.level ≠ .warn := by
  induction descriptions generalizing sink index with
  | nil => rfl
  | cons description rest ih =>
    rw [ofEntries, notices_cons]
    split
    · next record h =>
      rw [h]
      exact congrArg (Notice.materialized index record :: ·) (ih sink (index + 1))
    · next eventType h =>
      rw [h]
      exact congrArg (Notice.unrecognized index eventType :: ·) (ih sink (index + 1))
    · -- A sink that collects says nothing, and a warning is what the filter drops.
      next skip h =>
      rw [h]
      exact ih _ (index + 1)

end Batch

/-- The warnings are the skips. -/
theorem filter_warn_notices (index : Nat) (descriptions : List String) :
    ((notices index descriptions).filter fun notice => notice.level = .warn) =
      ((decisions index descriptions).filterMap Decision.skip?).map Notice.skipped := by
  induction descriptions generalizing index with
  | nil => rfl
  | cons description rest ih =>
    rw [notices_cons, decisions_cons, List.filter_cons, List.filterMap_cons, ih]
    rcases classify index description with skip | record | eventType <;> rfl

/-- An entry is warned of when it is skipped, and told of for debugging
otherwise. -/
theorem map_level_notices (descriptions : List String) :
    (notices 0 descriptions).map Notice.level =
      descriptions.mapIdx fun index description =>
        match classify index description with
        | .error _ => .warn
        | .ok _ => .debug := by
  rw [notices_zero, List.mapIdx_eq_zipIdx_map, List.mapIdx_eq_zipIdx_map, List.map_map]
  apply List.map_congr_left
  rintro ⟨description, index⟩ -
  dsimp only [Function.comp_apply]
  rcases classify index description with skip | record | eventType <;> rfl

/-! ## Runs -/

/-- The closing is a line for information and one for debugging for each kind. -/
theorem Summary.map_level_closing (summary : Summary) :
    summary.closing.map Notice.level = .info :: List.replicate summary.perKind.length .debug := by
  rw [closing, List.map_cons, List.map_map]
  congr 1
  exact List.map_const'

/-- The closing holds no warning. -/
theorem Summary.filter_ne_warn_closing (summary : Summary) :
    (summary.closing.filter fun notice => notice.level ≠ .warn) = summary.closing := by
  rw [closing, List.filter_cons_of_pos (by simp [Notice.level]), List.filter_map]
  congr 2
  exact List.filter_true _

/-- No warning is given once all entries are mapped. -/
theorem Summary.filter_warn_closing (summary : Summary) :
    (summary.closing.filter fun notice => notice.level = .warn) = [] := by
  rw [closing, List.filter_cons_of_neg (by simp [Notice.level]), List.filter_map,
    List.map_eq_nil_iff]
  exact List.filter_false _

/-- A run into memory of an envelope that decodes. -/
theorem TableStore.ingest_of_decode {κ : Type} [SkipSink κ] {bytes : Bytes}
    {descriptions : List String} (h : decode bytes = .ok descriptions) (sink : κ)
    (store : TableStore) :
    let batch := Batch.ofEntries sink 0 descriptions
    ingest bytes sink store =
      ⟨.ok batch.summary, batch.sink, store.putAll (upsertsOf descriptions),
        .decoded descriptions.length :: batch.journal ++ batch.summary.closing⟩ := by
  intro batch
  have hops : batch.records.map Record.toUpsert = upsertsOf descriptions :=
    upserts_ofEntries sink descriptions
  have hkeys : ∀ op ∈ upsertsOf descriptions, op.rowKey ≠ [] := by
    rw [← upsertsIn_of_decode h]
    exact fun op => rowKey_ne_nil_of_mem_upsertsIn
  have hcommit : RowStore.commit (upsertsOf descriptions) store =
      (.ok (), store.putAll (upsertsOf descriptions)) :=
    TableStore.takesAll.commit_eq trivial hkeys
  rw [ingest, h]
  dsimp only
  rw [hops, hcommit]

/-- **A sink that warns tells what a sink that collects keeps**, and neither has
any other effect. Both leave the same table and the same result. Of an envelope
that does not decode nothing is told. Of one that does, the journal has one
notice before its entries, one of each entry, and then one of the batch and one
of each kind that has records, in the order of the kinds. Its warnings are the
skips that the other sink has got, each with its line, its place, its kind if
that much is known, and the keys at fault. -/
theorem ingest_warnings_collected (bytes : Bytes) (store : TableStore)
    (collected : CollectedSkips) :
    let warned := ingest bytes SkipWarnings.mk store
    let kept := ingest bytes collected store
    let warnings := warned.journal.filter fun notice => notice.level = .warn
    warned.result = kept.result
      ∧ warned.store = kept.store
      ∧ (∀ error, decode bytes = .error error → warned.journal = [] ∧ kept.journal = [])
      ∧ ∀ descriptions, decode bytes = .ok descriptions →
          ∃ summary skips, warned.result = .ok summary
            ∧ kept.sink.skips = collected.skips ++ skips
            ∧ warned.journal =
                [.decoded descriptions.length]
                  ++ (descriptions.mapIdx fun index description =>
                    Decision.notice index (classify index description))
                  ++ [.complete summary]
                  ++ (summary.perKind.map fun (kind, count) => .kindCount kind count)
            ∧ (summary.perKind.Pairwise fun a b => a.1.position < b.1.position)
            ∧ warned.journal.map Notice.level =
                [.info]
                  ++ (descriptions.mapIdx fun index description =>
                    match classify index description with
                    | .error _ => .warn
                    | .ok _ => .debug)
                  ++ [.info]
                  ++ List.replicate summary.perKind.length .debug
            ∧ warnings = skips.map Notice.skipped
            ∧ (warnings.map fun notice => (notice.message, notice.fields)) =
                (skips.map fun skip =>
                  (skip.message,
                    [("index", NoticeValue.number skip.index),
                      ("kind", .text (skip.kind?.elim "" Kind.name)),
                      ("missing", .text (",".intercalate (skip.faults?.getD {}).missing)),
                      ("malformed", .text (",".intercalate (skip.faults?.getD {}).malformed))]))
            ∧ kept.journal = warned.journal.filter fun notice => notice.level ≠ .warn := by
  intro warned kept warnings
  cases h : decode bytes with
  | error error =>
    have hwarned : warned = _ := ingest_of_decode_error h SkipWarnings.mk store
    have hkept : kept = _ := ingest_of_decode_error h collected store
    rw [hwarned, hkept]
    exact ⟨rfl, rfl, fun _ _ => ⟨rfl, rfl⟩, nofun⟩
  | ok descriptions =>
    have hwarned : warned = _ := TableStore.ingest_of_decode h SkipWarnings.mk store
    have hkept : kept = _ := TableStore.ingest_of_decode h collected store
    have hsummary := Batch.summary_ofEntries_eq collected SkipWarnings.mk 0 descriptions
    have hcounts := Batch.counts_ofEntries SkipWarnings.mk 0 descriptions
    -- Only the entries can give a warning.
    have hwarnings : warnings = ((decisions 0 descriptions).filterMap Decision.skip?).map
        Notice.skipped := by
      unfold warnings
      rw [hwarned, Batch.journal_ofEntries_warnings, List.filter_append,
        List.filter_cons_of_neg (by simp [Notice.level]), filter_warn_notices,
        Summary.filter_warn_closing, List.append_nil]
    have hkeptJournal :
        kept.journal = warned.journal.filter fun notice => notice.level ≠ .warn := by
      rw [hkept, hwarned, Batch.journal_ofEntries_collected, Batch.journal_ofEntries_warnings,
        hsummary, List.filter_append, List.filter_cons_of_pos (by simp [Notice.level]),
        Summary.filter_ne_warn_closing]
    refine ⟨?_, ?_, nofun, fun other hother => ?_⟩
    · rw [hwarned, hkept, hsummary]
    · rw [hwarned, hkept]
    · obtain rfl := Except.ok.inj hother
      refine ⟨(Batch.ofEntries SkipWarnings.mk 0 descriptions).summary,
        (decisions 0 descriptions).filterMap Decision.skip?, ?_, ?_, ?_, hcounts.listed.sorted, ?_,
        hwarnings, ?_, hkeptJournal⟩
      · rw [hwarned]
      · rw [hkept, Batch.skips_ofEntries]
      · rw [hwarned, Batch.journal_ofEntries_warnings, notices_zero, Summary.closing]
        simp only [List.append_assoc, List.cons_append, List.nil_append]
      · rw [hwarned, Batch.journal_ofEntries_warnings, List.map_append, List.map_cons,
          map_level_notices, Summary.map_level_closing]
        simp only [List.append_assoc, List.cons_append, List.nil_append]
        rfl
      · rw [hwarnings, List.map_map]
        rfl

set_option maxRecDepth 20000 in
/-- A payment, an entry without a description, and one of an unknown type. -/
theorem ingest_warnings_collected_three :
    let funded := "\x7b\"eventType\":\"EscrowFunded\",\"block_timestamp\":1,\"block_number\":2,"
      ++ "\"transaction_hash\":\"0x\",\"depositor\":\"0x01\",\"amount\":5,"
      ++ "\"escrow_address\":\"0x02\"\x7d"
    let unknown := "\x7b\"eventType\":\"Paused\",\"block_timestamp\":1,\"block_number\":2,"
      ++ "\"transaction_hash\":\"0x\"\x7d"
    let descriptions := [funded, "", unknown]
    decode (encode descriptions) = .ok descriptions
      ∧ ∃ warned kept, warned = ingest (encode descriptions) SkipWarnings.mk ({} : TableStore)
        ∧ kept = ingest (encode descriptions) ({} : CollectedSkips) ({} : TableStore)
        ∧ (warned.journal.map Notice.level).take 5 = [.info, .debug, .warn, .debug, .info]
        ∧ (warned.journal.filter fun notice => notice.level = .warn) =
            kept.sink.skips.map Notice.skipped := by
  intro funded unknown descriptions
  have h : decode (encode descriptions) = .ok descriptions := decode_encode (by decide +kernel)
  obtain ⟨-, -, -, hdecoded⟩ := ingest_warnings_collected (encode descriptions) {} {}
  obtain ⟨summary, skips, -, hskips, -, -, hlevels, hwarnings, -, -⟩ := hdecoded descriptions h
  have hentries : (descriptions.mapIdx fun index description =>
      match classify index description with
      | .error _ => Level.warn
      | .ok _ => Level.debug) = [.debug, .warn, .debug] := by decide +kernel
  refine ⟨h, _, _, rfl, rfl, ?_, ?_⟩
  · rw [hlevels, hentries]
    rfl
  · rw [hwarnings, hskips]
    rfl

end EscrowFeed
