/-
Runs of saves: to a store that refuses nothing, and to one that may.

A store may refuse an upsert that has no key, and apart from that only what is
under the store can make it fail. As long as nothing does, a run of saves is a
fold of one step, and the steps of the feed need to know no more of a store than
that step. `TakesAll` names this situation: while a store is good, a save of an
upsert with a key succeeds, its effect is `next`, and the store stays good.

A run that goes on after a failure is no fold of that kind, since a store that
has failed may answer the next save in another way than before. `saveEach` is
such a run with all its answers, and of two lists of its upserts the stores speak
differently: `keyed` are those that any store could take, `accepted` are those
that this one did.
-/
import EscrowFeed.Store.Basic
import Mathlib.Control.Monad.Basic

set_option autoImplicit false

namespace EscrowFeed.RowStore

variable {σ : Type} [RowStore σ]

/-- A good store takes every upsert that has a key, and `next` is what it then
becomes. -/
structure TakesAll (good : σ → Prop) (next : σ → Upsert → σ) : Prop where
  save_eq : ∀ {store : σ} {op : Upsert}, good store → op.rowKey ≠ [] →
    save op store = (.ok (), next store op)
  good_next : ∀ {store : σ} {op : Upsert}, good store → op.rowKey ≠ [] → good (next store op)

namespace TakesAll

variable {good : σ → Prop} {next : σ → Upsert → σ}

theorem good_foldl (h : TakesAll good next) {ops : List Upsert} {store : σ} (hstore : good store)
    (hkeys : ∀ op ∈ ops, op.rowKey ≠ []) : good (ops.foldl next store) := by
  induction ops generalizing store with
  | nil => exact hstore
  | cons op rest ih =>
    obtain ⟨hop, hrest⟩ := List.forall_mem_cons.mp hkeys
    rw [List.foldl_cons]
    exact ih (h.good_next hstore hop) hrest

/-- **A run of saves succeeds, and is its steps one after the other.** -/
theorem saveAll_eq (h : TakesAll good next) {ops : List Upsert} {store : σ} (hstore : good store)
    (hkeys : ∀ op ∈ ops, op.rowKey ≠ []) : saveAll ops store = (.ok (), ops.foldl next store) := by
  induction ops generalizing store with
  | nil => rfl
  | cons op rest ih =>
    obtain ⟨hop, hrest⟩ := List.forall_mem_cons.mp hkeys
    rw [saveAll, h.save_eq hstore hop]
    exact ih (h.good_next hstore hop) hrest

/-- Only the flush is left to fail. -/
theorem commit_eq (h : TakesAll good next) {ops : List Upsert} {store : σ} (hstore : good store)
    (hkeys : ∀ op ∈ ops, op.rowKey ≠ []) : commit ops store = flush (ops.foldl next store) := by
  rw [commit, h.saveAll_eq hstore hkeys]

end TakesAll

/-! ## Runs that go on after a failure -/

/-- Saves one after the other, whatever becomes of each. -/
def saveEach : List Upsert → σ → List (Except StoreError Unit) × σ
  | [], store => ([], store)
  | op :: rest, store =>
    let step := save op store
    let run := saveEach rest step.2
    (step.1 :: run.1, run.2)

/-- The upserts of a run whose saves succeed. -/
def accepted (ops : List Upsert) (store : σ) : List Upsert :=
  ((ops.zip (saveEach ops store).1).filter fun step => step.2 = .ok ()).map Prod.fst

/-- What a run accepts is decided save by save, each by the store that the one
before left. -/
theorem accepted_cons (op : Upsert) (rest : List Upsert) (store : σ) :
    accepted (op :: rest) store =
      if (save op store).1 = .ok () then op :: accepted rest (save op store).2
      else accepted rest (save op store).2 := by
  rw [accepted, saveEach, List.zip_cons_cons, List.filter_cons]
  simp only [decide_eq_true_eq]
  split
  · rw [List.map_cons, accepted]
  · rw [accepted]

/-- The upserts that have a key. -/
def keyed (ops : List Upsert) : List Upsert := ops.filter fun op => op.rowKey ≠ []

theorem keyed_append (front rest : List Upsert) :
    keyed (front ++ rest) = keyed front ++ keyed rest :=
  List.filter_append front rest

theorem keyed_cons_of_ne_nil {op : Upsert} (h : op.rowKey ≠ []) (rest : List Upsert) :
    keyed (op :: rest) = op :: keyed rest :=
  List.filter_cons_of_pos (decide_eq_true h)

theorem keyed_cons_of_eq_nil {op : Upsert} (h : op.rowKey = []) (rest : List Upsert) :
    keyed (op :: rest) = keyed rest :=
  List.filter_cons_of_neg (by simp [h])

end EscrowFeed.RowStore
