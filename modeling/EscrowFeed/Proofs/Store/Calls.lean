/-
What a store hears.

The feed knows a store by its answers only, so what it asks of a store can be
seen by putting something in between that passes every call on and keeps it with
the answer. `Observed` is that, for any store. It is a store itself, and one that
cannot be told from the store behind it: all runs come to the same on either. So
what its list of calls says of a run is true of the run on the store itself.

For a commit the list has one of two forms, `CommitCalls`: all saves and then a
flush, or the saves up to one that failed and nothing after it.
-/
import EscrowFeed.Store.Basic

set_option autoImplicit false

namespace EscrowFeed

/-- What a store can be asked to do. -/
inductive StoreCall where
  | save (op : Upsert)
  | flush

/-- What a store was asked to do, and its answers. -/
abbrev StoreCalls := List (StoreCall × Except StoreError Unit)

/-- A store with the calls that it has had. -/
structure Observed (σ : Type) where
  store : σ
  calls : StoreCalls

variable {σ : Type} [RowStore σ]

instance : RowStore (Observed σ) where
  save op observed :=
    let (result, store) := RowStore.save op observed.store
    (result, ⟨store, observed.calls ++ [(.save op, result)]⟩)
  flush observed :=
    let (result, store) := RowStore.flush observed.store
    (result, ⟨store, observed.calls ++ [(.flush, result)]⟩)

/-- The calls of saves that all succeed. -/
def savedCalls (ops : List Upsert) : StoreCalls := ops.map fun op => (.save op, .ok ())

/-- The calls that a commit of upserts may come to, and what it then comes to
itself. -/
inductive CommitCalls : List Upsert → StoreCalls → Except StoreError Unit → Prop
  /-- Every save succeeded, and the flush decides. -/
  | flushed (ops : List Upsert) (outcome : Except StoreError Unit) :
    CommitCalls ops (savedCalls ops ++ [(.flush, outcome)]) outcome
  /-- A save failed, and nothing follows it. -/
  | refused (front : List Upsert) (op : Upsert) (rest : List Upsert) (error : StoreError) :
    CommitCalls (front ++ op :: rest) (savedCalls front ++ [(.save op, .error error)])
      (.error error)

namespace Observed

/-! ## Nothing is changed -/

theorem save_eq (op : Upsert) (observed : Observed σ) :
    RowStore.save op observed =
      ((RowStore.save op observed.store).1,
        ⟨(RowStore.save op observed.store).2,
          observed.calls ++ [(.save op, (RowStore.save op observed.store).1)]⟩) := rfl

/-- A run of saves comes to the same whether it is observed or not. -/
theorem saveAll_store (ops : List Upsert) (observed : Observed σ) :
    RowStore.saveAll ops observed.store =
      ((RowStore.saveAll ops observed).1, (RowStore.saveAll ops observed).2.store) := by
  induction ops generalizing observed with
  | nil => rfl
  | cons op rest ih =>
    rw [RowStore.saveAll, RowStore.saveAll, save_eq]
    rcases RowStore.save op observed.store with ⟨_ | _, store⟩
    · rfl
    · exact ih ⟨store, _⟩

/-- **A store does not notice that it is observed.** -/
theorem commit_store (ops : List Upsert) (observed : Observed σ) :
    RowStore.commit ops observed.store =
      ((RowStore.commit ops observed).1, (RowStore.commit ops observed).2.store) := by
  rw [RowStore.commit, RowStore.commit, saveAll_store]
  rcases RowStore.saveAll ops observed with ⟨_ | _, after⟩
  · rfl
  · rfl

/-! ## What is kept -/

/-- A run of saves is kept as far as it goes. -/
theorem saveAll_calls (ops : List Upsert) (observed : Observed σ) :
    (∃ store, RowStore.saveAll ops observed = (.ok (), ⟨store, observed.calls ++ savedCalls ops⟩))
      ∨ ∃ front op rest error store, ops = front ++ op :: rest
        ∧ RowStore.saveAll ops observed = (.error error,
            ⟨store, observed.calls ++ (savedCalls front ++ [(.save op, .error error)])⟩) := by
  induction ops generalizing observed with
  | nil =>
    left
    refine ⟨observed.store, ?_⟩
    rw [savedCalls, List.map_nil, List.append_nil]
    rfl
  | cons op rest ih =>
    rw [RowStore.saveAll, save_eq]
    rcases RowStore.save op observed.store with ⟨error | _, store⟩
    · right
      exact ⟨[], op, rest, error, store, rfl, rfl⟩
    · -- The first save is kept in front of what the rest comes to.
      have hfirst : ∀ calls, observed.calls ++ [(.save op, .ok ())] ++ calls =
          observed.calls ++ ((.save op, .ok ()) :: calls) := fun calls => by
        rw [List.append_assoc, List.singleton_append]
      rcases ih ⟨store, observed.calls ++ [(.save op, .ok ())]⟩ with ⟨last, hlast⟩ |
        ⟨front, failed, behind, error, last, hops, hlast⟩
      · left
        exact ⟨last, hlast.trans (by rw [hfirst]; rfl)⟩
      · right
        refine ⟨op :: front, failed, behind, error, last, by rw [hops, List.cons_append], ?_⟩
        exact hlast.trans (by rw [hfirst]; rfl)

/-- **A commit asks for its upserts in their order**, up to the first that fails,
and for a flush if none does. -/
theorem commit_calls (ops : List Upsert) (store : σ) :
    CommitCalls ops (RowStore.commit ops (⟨store, []⟩ : Observed σ)).2.calls
      (RowStore.commit ops (⟨store, []⟩ : Observed σ)).1 := by
  rw [RowStore.commit]
  rcases saveAll_calls ops ⟨store, []⟩ with ⟨last, hlast⟩ |
    ⟨front, op, rest, error, last, rfl, hlast⟩
  · rw [hlast]
    exact .flushed ops _
  · rw [hlast]
    exact .refused front op rest error

end Observed

end EscrowFeed
