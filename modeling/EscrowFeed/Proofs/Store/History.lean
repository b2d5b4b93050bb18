/-
A table told by its history.

The rows of a table are what its saves have made of it, so all that a table can
be asked has an answer in terms of the list of those saves: a row is the last
upsert of its place, and the counts are numbers of different keys. The answers
are given here for any run from the empty table, with saves that fail anywhere
in it and with upserts of any shape, and the list they are given by is made of
the run's own results.

A save of a table depends on nothing but the key of its upsert. That is why the
history needs no order between successes and failures: failed saves can be left
out of it.
-/
import EscrowFeed.Proofs.Store.Table
import Mathlib.Algebra.BigOperators.Group.List.Lemmas
import Mathlib.Algebra.GroupWithZero.Nat

set_option autoImplicit false

namespace EscrowFeed

open RowStore

/-- A key has no parts exactly if no key column has a value. -/
theorem Upsert.rowKey_eq_nil_iff {op : Upsert} :
    op.rowKey = [] ↔ ∀ column ∈ op.conflict, op.value? column = none := by
  rw [rowKey, List.map_eq_nil_iff, conflictKey, List.filterMap_eq_nil_iff]

namespace TableStore

/-! ## Saves that may fail -/

/-- What a table answers to an upsert, whatever rows it has. -/
def answer (op : Upsert) : Except StoreError Unit :=
  if op.rowKey = [] then .error (.missingKey op.table) else .ok ()

theorem answer_eq_ok_iff {op : Upsert} : answer op = .ok () ↔ op.rowKey ≠ [] := by
  rw [answer]
  split <;> simp [*]

/-- A refused upsert leaves the table as it is, any other is put at its place. -/
theorem save_eq (op : Upsert) (store : TableStore) :
    RowStore.save op store = (answer op, store.putAll (keyed [op])) := by
  show store.save op = _
  rw [save, answer]
  split
  · next h => rw [keyed_cons_of_eq_nil h]; rfl
  · next h => rw [keyed_cons_of_ne_nil h]; rfl

/-- Rows put in two goes are rows put in one. -/
theorem putAll_append (store : TableStore) (front rest : List Upsert) :
    store.putAll (front ++ rest) = (store.putAll front).putAll rest :=
  List.foldl_append

/-- **A run of saves is a run of puts**, of the upserts that have a key. -/
theorem saveEach_eq (ops : List Upsert) (store : TableStore) :
    saveEach ops store = (ops.map answer, store.putAll (keyed ops)) := by
  induction ops generalizing store with
  | nil => rfl
  | cons op rest ih =>
    have hkeyed : keyed (op :: rest) = keyed [op] ++ keyed rest := keyed_append [op] rest
    rw [saveEach, save_eq, ih, hkeyed, putAll_append, List.map_cons]

/-- A table accepts the upserts with a key and refuses the others, whatever it
has. -/
theorem accepted_eq_keyed (ops : List Upsert) (store : TableStore) :
    accepted ops store = keyed ops := by
  induction ops generalizing store with
  | nil => rfl
  | cons op rest ih =>
    rw [accepted_cons, save_eq, ih]
    by_cases h : op.rowKey = []
    · rw [if_neg fun hok => answer_eq_ok_iff.mp hok h, keyed_cons_of_eq_nil h]
    · rw [if_pos (answer_eq_ok_iff.mpr h), keyed_cons_of_ne_nil h]

/-! ## The rows of a run from the empty table -/

/-- In a table that started empty a row is the last one put at its place. -/
theorem row?_putAll_empty (ops : List Upsert) (place : RowPlace) :
    (putAll {} ops).row? place = lastAt place ops := by
  rw [row?_putAll]
  exact Option.or_none

theorem mem_places_putAll_iff {ops : List Upsert} {place : RowPlace} :
    place ∈ (putAll {} ops).rows.map Prod.fst ↔ place ∈ ops.map Upsert.place := by
  rw [mem_places_iff, ← Option.isSome_iff_exists, row?_putAll_empty, lastAt, List.find?_isSome,
    List.mem_map]
  simp only [List.mem_reverse, decide_eq_true_eq]

/-- There is a row for every place of the upserts, and no other. -/
theorem places_putAll_perm (ops : List Upsert) :
    ((putAll {} ops).rows.map Prod.fst).Perm (ops.map Upsert.place).dedup := by
  apply (List.perm_ext_iff_of_nodup (putAll {} ops).nodup_places (List.nodup_dedup _)).mpr
  intro place
  rw [mem_places_putAll_iff, List.mem_dedup]

/-! ## Counts -/

/-- The keys of one table among some places. -/
def keysIn (table : String) (places : List RowPlace) : List (List String) :=
  (places.filter fun place => place.table = table).map RowPlace.key

/-- The keys of a table are those of the places in it. -/
theorem mem_keysIn_iff {table : String} {places : List RowPlace} {key : List String} :
    key ∈ keysIn table places ↔ ⟨table, key⟩ ∈ places := by
  rw [keysIn, List.mem_map]
  constructor
  · rintro ⟨place, hplace, rfl⟩
    obtain ⟨hmem, htable⟩ := List.mem_filter.mp hplace
    rw [← of_decide_eq_true htable]
    exact hmem
  · intro hmem
    exact ⟨⟨table, key⟩, List.mem_filter.mpr ⟨hmem, decide_eq_true rfl⟩, rfl⟩

/-- Within one table a place is its key. -/
theorem nodup_keysIn (table : String) {places : List RowPlace} (h : places.Nodup) :
    (keysIn table places).Nodup := by
  apply List.Nodup.map_on _ (h.filter _)
  intro p hp q hq hkey
  have hp' := of_decide_eq_true (List.mem_filter.mp hp).2
  have hq' := of_decide_eq_true (List.mem_filter.mp hq).2
  rw [RowPlace.mk.injEq]
  exact ⟨hp'.trans hq'.symm, hkey⟩

theorem count_eq_length_keysIn (store : TableStore) (table : String) :
    store.count table = (keysIn table (store.rows.map Prod.fst)).length := by
  rw [count, keysIn, List.length_map, List.filter_map, List.length_map]
  rfl

theorem keysIn_map_place (table : String) (ops : List Upsert) :
    keysIn table (ops.map Upsert.place) =
      (ops.filter fun op => op.table = table).map Upsert.rowKey := by
  rw [keysIn, List.filter_map, List.map_map]
  rfl

/-- **A table has as many rows as there are different keys among its upserts.** -/
theorem count_putAll_eq_dedup (ops : List Upsert) (table : String) :
    (putAll {} ops).count table =
      ((ops.filter fun op => op.table = table).map Upsert.rowKey).dedup.length := by
  have hkeys : (keysIn table ((putAll {} ops).rows.map Prod.fst)).Perm
      (keysIn table (ops.map Upsert.place)).dedup := by
    have hnodup := nodup_keysIn table (putAll {} ops).nodup_places
    apply (List.perm_ext_iff_of_nodup hnodup (List.nodup_dedup _)).mpr
    intro key
    rw [List.mem_dedup, mem_keysIn_iff, mem_keysIn_iff, mem_places_putAll_iff]
  rw [count_eq_length_keysIn, hkeys.length_eq, keysIn_map_place]

/-- The table of every row. -/
def tables (store : TableStore) : List String := store.rows.map fun row => row.1.table

/-- Among the tables of all rows a table occurs as often as it has rows. -/
theorem count_tables (store : TableStore) (table : String) :
    store.tables.count table = store.count table := by
  rw [tables, List.count_eq_countP, List.countP_map, List.countP_eq_length_filter]
  rfl

/-- **The counts of all tables add up to the number of rows.** -/
theorem size_eq_sum (store : TableStore) :
    store.size = (store.tables.dedup.map store.count).sum := by
  calc
    store.size = store.tables.length := (List.length_map _).symm
    _ = (store.tables.dedup.map fun table => store.tables.count table).sum :=
      (List.sum_map_count_dedup_eq_length store.tables).symm
    _ = (store.tables.dedup.map store.count).sum := by simp only [count_tables]

/-- The tables with rows are those of the upserts. -/
theorem tables_putAll_perm (ops : List Upsert) :
    (putAll {} ops).tables.dedup.Perm (ops.map Upsert.table).dedup := by
  have hrows : (putAll {} ops).tables = ((putAll {} ops).rows.map Prod.fst).map RowPlace.table := by
    rw [List.map_map]
    rfl
  have hops : ops.map Upsert.table = (ops.map Upsert.place).map RowPlace.table := by
    rw [List.map_map]
    rfl
  apply (List.perm_ext_iff_of_nodup (List.nodup_dedup _) (List.nodup_dedup _)).mpr
  intro table
  rw [List.mem_dedup, List.mem_dedup, hrows, hops, List.mem_map, List.mem_map]
  simp only [mem_places_putAll_iff]

/-- **The rows of all tables are all the rows**, and the tables are those that
something was put into. -/
theorem size_putAll_eq_sum (ops : List Upsert) :
    (putAll {} ops).size = ((ops.map Upsert.table).dedup.map (putAll {} ops).count).sum := by
  rw [size_eq_sum, ((tables_putAll_perm ops).map _).sum_eq]

/-- There are as many rows as different places. -/
theorem size_putAll_eq_dedup (ops : List Upsert) :
    (putAll {} ops).size = (ops.map Upsert.place).dedup.length := by
  rw [size, ← List.length_map Prod.fst, (places_putAll_perm ops).length_eq]

theorem isEmpty_putAll_iff {ops : List Upsert} : (putAll {} ops).isEmpty = true ↔ ops = [] := by
  rw [isEmpty, decide_eq_true_iff, size_putAll_eq_dedup, List.length_eq_zero_iff,
    List.dedup_eq_nil, List.map_eq_nil_iff]

/-- A row may be overwritten, but it does not go away. -/
theorem isSome_row?_putAll {store : TableStore} {place : RowPlace}
    (h : (store.row? place).isSome = true) (ops : List Upsert) :
    ((store.putAll ops).row? place).isSome = true := by
  rw [row?_putAll, Option.isSome_or, h, Bool.or_true]

/-! ## A run, by its own results -/

/-- **The last upsert of every row stands.** Whatever upserts are saved one after
the other from the empty table, a save fails, for want of a key in the upsert's
table, exactly if no key column has a value, and then it changes nothing. With
`saved` for the upserts whose saves have succeeded so far, a row found by a
table and an identity is the last of `saved` for that table with that identity
as its whole key; a table has as many rows as `saved` has different keys for it;
all tables together have as many as `saved` has different tables and keys, which
is also the sum of the tables' counts; there is no row exactly as long as no save
has succeeded; and a row that is there stays there, whatever is saved next. -/
theorem saveEach_history (ops : List Upsert) :
    let run := saveEach ops ({} : TableStore)
    let saved := accepted ops ({} : TableStore)
    run.1 = ops.map (fun op =>
        if ∀ column ∈ op.conflict, op.value? column = none then .error (.missingKey op.table)
        else .ok ())
      ∧ (∀ (op : Upsert) (store : TableStore),
          (RowStore.save op store).1 ≠ .ok () → (RowStore.save op store).2 = store)
      ∧ (∀ table id, run.2.get? table id =
          saved.reverse.find? fun op => op.table = table ∧ op.rowKey = [id])
      ∧ (∀ table, run.2.count table =
          ((saved.filter fun op => op.table = table).map Upsert.rowKey).dedup.length)
      ∧ run.2.size = (saved.map Upsert.place).dedup.length
      ∧ run.2.size = ((saved.map Upsert.table).dedup.map run.2.count).sum
      ∧ (run.2.isEmpty = true ↔ ∀ result ∈ run.1, result ≠ .ok ())
      ∧ ∀ more place, (run.2.row? place).isSome = true →
          ((saveEach (ops ++ more) ({} : TableStore)).2.row? place).isSome = true := by
  intro run saved
  -- Everything is read off one fact: a run puts exactly the upserts with a key.
  have hrun : run = (ops.map answer, putAll {} (keyed ops)) := saveEach_eq ops {}
  have hsaved : saved = keyed ops := accepted_eq_keyed ops {}
  rw [hrun, hsaved]
  refine ⟨?_, ?_, ?_, count_putAll_eq_dedup _, size_putAll_eq_dedup _, size_putAll_eq_sum _, ?_, ?_⟩
  · simp only [← Upsert.rowKey_eq_nil_iff]
    rfl
  · intro op store hfails
    rw [save_eq] at hfails ⊢
    have hkey : op.rowKey = [] := not_not.mp fun h => hfails (answer_eq_ok_iff.mpr h)
    show store.putAll (keyed [op]) = store
    rw [keyed_cons_of_eq_nil hkey]
    rfl
  · intro table id
    rw [get?, row?_putAll_empty, lastAt]
    simp only [Upsert.place, RowPlace.mk.injEq]
  · rw [isEmpty_putAll_iff, keyed, List.filter_eq_nil_iff, List.forall_mem_map]
    simp only [ne_eq, answer_eq_ok_iff, decide_eq_true_eq]
  · intro more place h
    rw [saveEach_eq, keyed_append, putAll_append]
    exact isSome_row?_putAll h _

/-- A row of a key with two columns, a row that is overwritten, and between the
two an upsert whose key column has no value. -/
theorem saveEach_history_released :
    let pair : Upsert := ⟨"funds", ["id", "part"], [.text "a", .bytes [1]], ["id", "part"], []⟩
    let first : Upsert := ⟨"funds", ["id", "amount"], [.text "b", .numeric "1"], ["id"], []⟩
    let keyless : Upsert := ⟨"funds", ["amount", "id"], [.numeric "9"], ["id"], []⟩
    let second : Upsert := ⟨"funds", ["id", "amount"], [.text "b", .numeric "2"], ["id"], []⟩
    let run := saveEach [pair, first, keyless, second] ({} : TableStore)
    run.1 = [.ok (), .ok (), .error (.missingKey "funds"), .ok ()]
      ∧ (RowStore.save keyless ({} : TableStore)).2 = {}
      ∧ run.2.get? "funds" "b" = some second
      ∧ run.2.get? "funds" "a" = none
      ∧ run.2.count "funds" = 2
      ∧ run.2.size = 2
      ∧ (run.2.row? ⟨"funds", ["a", "01"]⟩).isSome = true := by
  intro pair first keyless second run
  have hhistory := saveEach_history [pair, first, keyless, second]
  obtain ⟨hresults, hfailed, hget, hcount, hsize, -, -, -⟩ := hhistory
  have hkept := (saveEach_history [pair]).2.2.2.2.2.2.2 [first, keyless, second]
    ⟨"funds", ["a", "01"]⟩ (by decide +kernel)
  refine ⟨hresults.trans (by decide +kernel), hfailed keyless {} (by decide +kernel),
    (hget "funds" "b").trans (by decide +kernel), (hget "funds" "a").trans (by decide +kernel),
    (hcount "funds").trans (by decide +kernel), hsize.trans (by decide +kernel), hkept⟩

end TableStore

end EscrowFeed
