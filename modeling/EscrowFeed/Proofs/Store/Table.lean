/-
The store in memory, seen through its rows.

All that a table can be asked is which row is at a place, so `row?` is the view
through which saves are described: one save changes the answer at one place, and
a run of saves answers with the last upsert of the place. From there on nothing
opens the list of rows. Two tables with the same answers hold the same rows, in
whatever order their lists have them, and so agree in all their counts.

A run of upserts of which no two go to one place is special in two ways. Its
order is of no matter, because every one of them is the last of its place; and
none of them overwrites another, so all of them can be counted.
-/
import EscrowFeed.Store.Table
import EscrowFeed.Proofs.Store.Saving
import Mathlib.Data.List.Nodup

set_option autoImplicit false

namespace EscrowFeed

/-! ## Looking up by a key -/

section

variable {α κ : Type} [DecidableEq κ] {key : α → κ}

theorem find?_key_cons (a : α) (l : List α) (k : κ) :
    ((a :: l).find? fun x => key x = k) =
      if key a = k then some a else l.find? fun x => key x = k := by
  rw [List.find?_cons]
  by_cases h : key a = k
  · rw [if_pos h, decide_eq_true h]
  · rw [if_neg h, decide_eq_false h]

theorem key_eq_of_find?_eq_some {l : List α} {k : κ} {a : α}
    (h : (l.find? fun x => key x = k) = some a) : key a = k := by
  have hkey := List.find?_some h
  simpa only [decide_eq_true_eq] using hkey

/-- Under distinct keys an element is found by its key. -/
theorem find?_eq_some_iff_of_nodup {l : List α} (hnodup : (l.map key).Nodup) {k : κ} {a : α} :
    (l.find? fun x => key x = k) = some a ↔ a ∈ l ∧ key a = k := by
  constructor
  · intro h
    exact ⟨List.mem_of_find?_eq_some h, key_eq_of_find?_eq_some h⟩
  · rintro ⟨hmem, hkey⟩
    cases hfind : l.find? fun x => key x = k with
    | none =>
      have hnone := List.find?_eq_none.mp hfind a hmem
      exact absurd (decide_eq_true hkey) hnone
    | some b =>
      have hb := key_eq_of_find?_eq_some hfind
      have hab : key b = key a := hb.trans hkey.symm
      rw [List.inj_on_of_nodup_map hnodup (List.mem_of_find?_eq_some hfind) hmem hab]

end

/-! ## The last upsert of a place -/

/-- Of some upserts the last one that goes to a place. -/
def lastAt (place : RowPlace) (ops : List Upsert) : Option Upsert :=
  ops.reverse.find? fun op => op.place = place

/-- What comes later at a place stands, and what came before only where nothing
does. -/
theorem lastAt_append (place : RowPlace) (front back : List Upsert) :
    lastAt place (front ++ back) = (lastAt place back).or (lastAt place front) := by
  rw [lastAt, List.reverse_append, List.find?_append, lastAt, lastAt]

theorem lastAt_cons (place : RowPlace) (op : Upsert) (rest : List Upsert) :
    lastAt place (op :: rest) =
      (lastAt place rest).or (if op.place = place then some op else none) := by
  have hone : lastAt place [op] = if op.place = place then some op else none := by
    rw [lastAt, List.reverse_singleton, find?_key_cons, List.find?_nil]
  rw [← hone, ← lastAt_append, List.singleton_append]

/-- Where no two upserts go to one place, every one of them is the last. -/
theorem lastAt_eq_some_iff {ops : List Upsert} (hnodup : (ops.map Upsert.place).Nodup)
    {place : RowPlace} {op : Upsert} :
    lastAt place ops = some op ↔ op ∈ ops ∧ op.place = place := by
  have hreverse : (ops.reverse.map Upsert.place).Nodup := by
    rw [List.map_reverse]
    exact List.nodup_reverse.mpr hnodup
  rw [lastAt, find?_eq_some_iff_of_nodup hreverse, List.mem_reverse]

/-- Then their order is of no matter either. -/
theorem lastAt_perm {ops others : List Upsert} (hperm : others.Perm ops)
    (hnodup : (ops.map Upsert.place).Nodup) (place : RowPlace) :
    lastAt place others = lastAt place ops := by
  have hothers : (others.map Upsert.place).Nodup := (hperm.map Upsert.place).nodup_iff.mpr hnodup
  apply Option.ext
  intro op
  rw [lastAt_eq_some_iff hnodup, lastAt_eq_some_iff hothers, hperm.mem_iff]

namespace TableStore

/-! ## The view -/

/-- A row that is put is found at its place, and all others where they were. -/
theorem find?_putRow (place p : RowPlace) (op : Upsert) (rows : List (RowPlace × Upsert)) :
    ((putRow place op rows).find? fun row => row.1 = p) =
      if place = p then some (place, op) else rows.find? fun row => row.1 = p := by
  induction rows with
  | nil => rw [putRow, find?_key_cons]
  | cons row rest ih =>
    rw [putRow]
    by_cases hrow : place = row.1
    · -- The row that is overwritten had the place of the one that overwrites it.
      rw [if_pos hrow, find?_key_cons, find?_key_cons, ← hrow]
      by_cases h : place = p
      · rw [if_pos h, if_pos h]
      · rw [if_neg h, if_neg h, if_neg h]
    · rw [if_neg hrow, find?_key_cons, find?_key_cons, ih]
      by_cases h : row.1 = p
      · have hne : place ≠ p := fun heq => hrow (heq.trans h.symm)
        rw [if_pos h, if_neg hne, if_pos h]
      · rw [if_neg h, if_neg h]

/-- **A save changes the row of its place and no other.** -/
theorem row?_put (place p : RowPlace) (op : Upsert) (store : TableStore) :
    (store.put place op).row? p = if place = p then some op else store.row? p := by
  rw [row?, put, find?_putRow, row?]
  by_cases h : place = p
  · rw [if_pos h, if_pos h, Option.map_some]
  · rw [if_neg h, if_neg h]

/-- The rows of a table are those that are found at their places. -/
theorem mem_rows_iff {store : TableStore} {place : RowPlace} {op : Upsert} :
    (place, op) ∈ store.rows ↔ store.row? place = some op := by
  have hfind : (store.rows.find? fun row => row.1 = place) = some (place, op) ↔
      (place, op) ∈ store.rows ∧ place = place := find?_eq_some_iff_of_nodup store.nodup_places
  rw [and_iff_left rfl] at hfind
  rw [← hfind, row?]
  constructor
  · intro h
    rw [h, Option.map_some]
  · intro h
    obtain ⟨row, hrow, hop⟩ := Option.map_eq_some_iff.mp h
    have hplace := key_eq_of_find?_eq_some hrow
    rw [hrow, ← hop, ← hplace]

theorem mem_places_iff {store : TableStore} {place : RowPlace} :
    place ∈ store.rows.map Prod.fst ↔ ∃ op, store.row? place = some op := by
  rw [List.mem_map]
  constructor
  · rintro ⟨⟨p, op⟩, hmem, rfl⟩
    exact ⟨op, mem_rows_iff.mp hmem⟩
  · rintro ⟨op, hop⟩
    exact ⟨(place, op), mem_rows_iff.mpr hop, rfl⟩

/-- The same rows at the same places. -/
def SameRows (a b : TableStore) : Prop := a.rows.Perm b.rows

/-- **Tables with the same answers hold the same rows.** -/
theorem sameRows_iff {a b : TableStore} : a.SameRows b ↔ ∀ place, a.row? place = b.row? place := by
  have ha : a.rows.Nodup := List.Nodup.of_map Prod.fst a.nodup_places
  have hb : b.rows.Nodup := List.Nodup.of_map Prod.fst b.nodup_places
  rw [SameRows, List.perm_ext_iff_of_nodup ha hb]
  constructor
  · intro h place
    apply Option.ext
    intro op
    rw [← mem_rows_iff, ← mem_rows_iff, h]
  · rintro h ⟨place, op⟩
    rw [mem_rows_iff, mem_rows_iff, h]

/-! ## Runs of saves -/

/-- The table after a run of saves. -/
def putAll (store : TableStore) (ops : List Upsert) : TableStore :=
  ops.foldl (fun store op => store.put op.place op) store

/-- A table takes every upsert that has a key, and then has it at its place. -/
theorem takesAll :
    RowStore.TakesAll (fun _ : TableStore => True) fun store op => store.put op.place op where
  save_eq _ hkey := if_neg hkey
  good_next _ _ := trivial

/-- A table refuses nothing that has a key. -/
theorem saveAll_eq {ops : List Upsert} (hkeys : ∀ op ∈ ops, op.rowKey ≠ []) (store : TableStore) :
    RowStore.saveAll ops store = (.ok (), store.putAll ops) :=
  takesAll.saveAll_eq trivial hkeys

/-- **The last upsert of a place stands**, and a place without one keeps its row. -/
theorem row?_putAll (ops : List Upsert) (store : TableStore) (place : RowPlace) :
    (store.putAll ops).row? place = (lastAt place ops).or (store.row? place) := by
  induction ops generalizing store with
  | nil => rfl
  | cons op rest ih =>
    rw [putAll, List.foldl_cons, ← putAll, ih, lastAt_cons, row?_put, Option.or_assoc]
    by_cases h : op.place = place
    · rw [if_pos h, if_pos h, Option.some_or]
    · rw [if_neg h, if_neg h, Option.none_or]

/-- Upserts that are saved again before others are saved leave no trace. -/
theorem putAll_putAll_append (store : TableStore) (front back : List Upsert) :
    ((store.putAll front).putAll (front ++ back)).SameRows (store.putAll (front ++ back)) := by
  apply sameRows_iff.mpr
  intro place
  -- The last of the front ones stands behind itself, so its first time is not to be seen.
  have htwice : (lastAt place front).or ((lastAt place front).or (store.row? place)) =
      (lastAt place front).or (store.row? place) := by
    rw [← Option.or_assoc, Option.or_self]
  rw [row?_putAll, row?_putAll, row?_putAll, lastAt_append, Option.or_assoc, htwice,
    Option.or_assoc]

/-- **Upserts may be begun with any number of times** before all of them are
saved: how far each attempt came is not to be seen in the end. -/
theorem putAll_after_attempts (store : TableStore) (ops : List Upsert) (attempts : List Nat) :
    ((attempts.foldl (fun store n => store.putAll (ops.take n)) store).putAll ops).SameRows
      (store.putAll ops) := by
  induction attempts generalizing store with
  | nil => exact List.Perm.refl _
  | cons n rest ih =>
    have hattempt := putAll_putAll_append store (ops.take n) (ops.drop n)
    rw [List.take_append_drop] at hattempt
    rw [List.foldl_cons]
    exact (ih (store.putAll (ops.take n))).trans hattempt

/-- What comes in another order is the same in the end, if no two upserts go to one place. -/
theorem putAll_perm {ops others : List Upsert} (hperm : others.Perm ops)
    (hnodup : (ops.map Upsert.place).Nodup) (store : TableStore) :
    (store.putAll others).SameRows (store.putAll ops) := by
  apply sameRows_iff.mpr
  intro place
  rw [row?_putAll, row?_putAll, lastAt_perm hperm hnodup]

/-- Where no two upserts go to one place, each of them is found at its own. -/
theorem row?_putAll_of_mem {ops : List Upsert} (hnodup : (ops.map Upsert.place).Nodup)
    (store : TableStore) {op : Upsert} (h : op ∈ ops) :
    (store.putAll ops).row? op.place = some op := by
  rw [row?_putAll, (lastAt_eq_some_iff hnodup).mpr ⟨h, rfl⟩, Option.some_or]

/-! ## Counts -/

/-- **Upserts of different places are the rows of a fresh table**, all of them. -/
theorem rows_putAll_perm {ops : List Upsert} (hnodup : (ops.map Upsert.place).Nodup) :
    (putAll {} ops).rows.Perm (ops.map fun op => (op.place, op)) := by
  have hrows : (putAll {} ops).rows.Nodup :=
    List.Nodup.of_map Prod.fst (putAll {} ops).nodup_places
  have hops : (ops.map fun op => (op.place, op)).Nodup := by
    apply List.Nodup.of_map Prod.fst
    rwa [List.map_map]
  -- Without repeated places the last row at a place is the only one.
  apply (List.perm_ext_iff_of_nodup hrows hops).mpr
  rintro ⟨place, op⟩
  have hempty : row? {} place = none := rfl
  rw [mem_rows_iff, row?_putAll, hempty, Option.or_none, lastAt_eq_some_iff hnodup, List.mem_map]
  constructor
  · rintro ⟨hmem, rfl⟩
    exact ⟨op, hmem, rfl⟩
  · rintro ⟨o, hmem, heq⟩
    obtain ⟨rfl, rfl⟩ := Prod.mk.inj heq
    exact ⟨hmem, rfl⟩

theorem size_putAll {ops : List Upsert} (hnodup : (ops.map Upsert.place).Nodup) :
    (putAll {} ops).size = ops.length := by
  rw [size, (rows_putAll_perm hnodup).length_eq, List.length_map]

theorem count_putAll {ops : List Upsert} (hnodup : (ops.map Upsert.place).Nodup) (table : String) :
    (putAll {} ops).count table = ops.countP fun op => op.table = table := by
  rw [count, ← List.countP_eq_length_filter, (rows_putAll_perm hnodup).countP_eq, List.countP_map]
  rfl

end TableStore

end EscrowFeed
