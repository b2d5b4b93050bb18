/-
Envelopes one after the other, into lines and into memory.

A session takes in any number of envelopes with one sink and one store, and goes
on after an envelope that fails. What a store that never fails is left with are
the upserts of all the envelopes in a row, and what is said of the envelopes does
not depend on the store. So two sessions over the same envelopes say the same,
and their stores differ only in what they make of the same upserts.

For lines and a table that difference is made up for by loading: the lines load
into the rows of the table.
-/
import EscrowFeed.Proofs.Feed.Ingest
import EscrowFeed.Proofs.Store.Loading

set_option autoImplicit false

namespace EscrowFeed

/-! ## Sessions -/

/-- What a session leaves: a result for every envelope, and the sink and the
store at the end. -/
structure Session (κ σ : Type) where
  results : List (Except FeedError Summary)
  sink : κ
  store : σ

section

variable {κ σ : Type} [SkipSink κ] [RowStore σ]

/-- Takes in envelopes one after the other, whatever becomes of each. -/
def ingestAll : List Bytes → κ → σ → Session κ σ
  | [], sink, store => ⟨[], sink, store⟩
  | bytes :: rest, sink, store =>
    let step := ingest bytes sink store
    let session := ingestAll rest step.sink step.store
    { session with results := step.result :: session.results }

/-- **A good store ends with the upserts of all envelopes**, those of failed ones
left out, and every result is the envelope's own. -/
theorem ingestAll_of_good {good : σ → Prop} {next : σ → Upsert → σ}
    (htakes : RowStore.TakesAll good next)
    (hflush : ∀ store : σ, good store → RowStore.flush store = (.ok (), store))
    (envelopes : List Bytes) (sink : κ) (store : σ) (hstore : good store) :
    (ingestAll envelopes sink store).results = envelopes.map reportOf
      ∧ (ingestAll envelopes sink store).store =
          (envelopes.flatMap upsertsIn).foldl next store := by
  induction envelopes generalizing sink store with
  | nil => exact ⟨rfl, rfl⟩
  | cons bytes rest ih =>
    have hkept : ∀ store : σ, good store → (RowStore.flush store).2 = store := by
      intro store hgood
      rw [hflush store hgood]
    -- The store stays good from one envelope to the next, which is what the induction carries.
    have hgood : good ((upsertsIn bytes).foldl next store) :=
      htakes.good_foldl hstore fun op => rowKey_ne_nil_of_mem_upsertsIn
    obtain ⟨hafter, hresult⟩ := ingest_of_good htakes hkept bytes sink store hstore
    have hok := hresult (congrArg Prod.fst (hflush _ hgood))
    have hrest := ih (ingest bytes sink store).sink _ hgood
    rw [ingestAll]
    dsimp only
    rw [hok, hafter, hrest.1, hrest.2, List.map_cons, List.flatMap_cons, List.foldl_append]
    exact ⟨rfl, rfl⟩

end

/-! ## Lines and a table -/

section

variable {κ κ' : Type} [SkipSink κ] [SkipSink κ']

/-- A table that takes in many envelopes takes their upserts, one after the
other. -/
theorem TableStore.ingestAll_eq (envelopes : List Bytes) (sink : κ) (store : TableStore) :
    (ingestAll envelopes sink store).results = envelopes.map reportOf
      ∧ (ingestAll envelopes sink store).store = store.putAll (envelopes.flatMap upsertsIn) :=
  ingestAll_of_good takesAll (fun _ _ => rfl) envelopes sink store trivial

theorem LineStore.ingestAll_eq (envelopes : List Bytes) (sink : κ) (store : LineStore)
    (hstore : store.outlet.limit = none ∧ store.outlet.flushFails = false) :
    (ingestAll envelopes sink store).results = envelopes.map reportOf
      ∧ (ingestAll envelopes sink store).store =
          store.addLines (envelopes.flatMap upsertsIn) := by
  have hall := ingestAll_of_good (takesAll false)
    (fun _ hgood => flush_of_flushFails_eq_false hgood.2) envelopes sink store hstore
  rwa [foldl_addLines] at hall

/-- **Written lines load into the rows that memory has.** Any envelopes, whether
they decode or not, are said the same of by a session that writes lines and by
one that keeps a table, and the lines applied in order as upserts on table and
identity leave the table's rows: the same tables and identities, each once and
so as many as there are rows, and under each the fields of the row in memory. -/
theorem load_ingestAll (envelopes : List Bytes) (sink : κ) (writing : κ') :
    let kept := ingestAll envelopes sink ({} : TableStore)
    let written := ingestAll envelopes writing ({} : LineStore)
    written.results = kept.results
      ∧ ∃ loaded, load? written.store.outlet.content = some loaded
        ∧ (loaded.keys.map fun key => (⟨key.1, [key.2]⟩ : RowPlace)).Perm
            (kept.store.rows.map Prod.fst)
        ∧ loaded.keys.length = kept.store.size
        ∧ ∀ table id, loaded.lookup (table, id) =
            (kept.store.get? table id).map Upsert.fields := by
  intro kept written
  have hkept := TableStore.ingestAll_eq envelopes sink {}
  have hwritten := LineStore.ingestAll_eq envelopes writing {} ⟨rfl, rfl⟩
  -- All that is stored are records, and theirs are the two conditions of the loader.
  have hrecord : ∀ op ∈ envelopes.flatMap upsertsIn, ∃ record : Record, record.toUpsert = op := by
    intro op hop
    obtain ⟨bytes, -, hbytes⟩ := List.mem_flatMap.mp hop
    exact exists_record_of_mem_upsertsIn hbytes
  have hcolumns : ∀ op ∈ envelopes.flatMap upsertsIn, Json.numberKey ∉ op.columns := by
    intro op hop
    obtain ⟨record, rfl⟩ := hrecord op hop
    exact record.numberKey_not_mem_columns
  have hkeys : ∀ op ∈ envelopes.flatMap upsertsIn, op.rowKey = [op.lineId] := by
    intro op hop
    obtain ⟨record, rfl⟩ := hrecord op hop
    rw [record.rowKey_toUpsert, record.lineId_toUpsert]
  have hmirrors := LoadedRows.mirrors_empty.foldl hkeys
  rw [← hkept.2] at hmirrors
  have hplaces := hmirrors.places_perm
  have hlength := hplaces.length_eq
  rw [List.length_map, List.length_map] at hlength
  refine ⟨hwritten.1.trans hkept.1.symm, _, ?_, hplaces, hlength, hmirrors.lookup_eq⟩
  have hcontent : written.store.outlet.content =
      Utf8.encode (linesText (envelopes.flatMap upsertsIn)) := by
    rw [hwritten.2, LineStore.addLines]
    exact List.nil_append _
  rw [hcontent]
  exact load?_linesText hcolumns

end

end EscrowFeed
