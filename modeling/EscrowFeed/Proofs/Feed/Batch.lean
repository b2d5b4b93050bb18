/-
A batch against its entries taken one by one.

The reference is the list of what `classify` says of each description at its
place. A batch carries nothing from one entry to the next but its sink, so its
records and its counts are the reference's for every sink, and a sink that
collects has the reference's skips behind what it had before.
-/
import EscrowFeed.Feed.Batch
import EscrowFeed.Proofs.Feed.Summary

set_option autoImplicit false

namespace EscrowFeed

/-- What is decided of descriptions of which the first has the place `index`. -/
def decisions (index : Nat) (descriptions : List String) : List Decision :=
  descriptions.mapIdx fun place description => classify (index + place) description

/-- The first description is decided at the first place, the others at the
places behind it. -/
theorem decisions_cons (index : Nat) (description : String) (rest : List String) :
    decisions index (description :: rest) =
      classify index description :: decisions (index + 1) rest := by
  -- Places are counted from the head on the left and from its successor on the right.
  rw [decisions, List.mapIdx_cons, Nat.add_zero, decisions]
  simp only [Nat.add_assoc, Nat.add_comm 1]

theorem decisions_zero (descriptions : List String) :
    decisions 0 descriptions = descriptions.mapIdx classify := by
  simp only [decisions, Nat.zero_add]

/-- What stands in front of an entry moves its place and changes nothing else. -/
theorem decisions_append (index : Nat) (front rest : List String) :
    decisions index (front ++ rest) =
      decisions index front ++ decisions (index + front.length) rest := by
  rw [decisions, List.mapIdx_append, decisions, decisions]
  simp only [Nat.add_assoc, Nat.add_comm front.length]

theorem exists_of_mem_decisions {index : Nat} {descriptions : List String} {decision : Decision}
    (h : decision ∈ decisions index descriptions) :
    ∃ place description, index ≤ place ∧ classify place description = decision := by
  obtain ⟨place, hplace, heq⟩ := List.mem_mapIdx.mp h
  exact ⟨index + place, _, Nat.le_add_right index place, heq⟩

/-- A description decides what is decided of it and of no other. -/
theorem decisions_set (descriptions : List String) (place : Nat) (description : String) :
    decisions 0 (descriptions.set place description) =
      (decisions 0 descriptions).set place (classify place description) := by
  rw [decisions_zero, decisions_zero, List.mapIdx_set]

/-! ## Sinks and their skips -/

/-- A sink after some skips, one after the other. -/
def SkipSink.receiveAll {κ : Type} [SkipSink κ] (skips : List Skip) (sink : κ) : κ :=
  skips.foldl (fun sink skip => (receive skip sink).1) sink

/-- A sink that collects has what it is told, behind what it had. -/
theorem CollectedSkips.skips_receiveAll (skips : List Skip) (sink : CollectedSkips) :
    (SkipSink.receiveAll skips sink).skips = sink.skips ++ skips := by
  induction skips generalizing sink with
  | nil => exact (List.append_nil _).symm
  | cons skip rest ih =>
    rw [SkipSink.receiveAll, List.foldl_cons, ← SkipSink.receiveAll, ih]
    exact (List.append_cons sink.skips skip rest).symm

namespace Batch

section

variable {κ : Type} [SkipSink κ]

/-- The records of a batch are those that its entries are decided to be. -/
theorem records_ofEntries (sink : κ) (index : Nat) (descriptions : List String) :
    (ofEntries sink index descriptions).records =
      (decisions index descriptions).filterMap Decision.record? := by
  induction descriptions generalizing sink index with
  | nil => rfl
  | cons description rest ih =>
    rw [ofEntries, decisions_cons]
    split
    all_goals
      next h => simp only [h, List.filterMap_cons, Decision.record?, ih]

/-- **The counts of a batch are those of its decisions.** -/
theorem counts_ofEntries (sink : κ) (index : Nat) (descriptions : List String) :
    (ofEntries sink index descriptions).summary.Counts (decisions index descriptions) := by
  induction descriptions generalizing sink index with
  | nil => exact Summary.counts_nil
  | cons description rest ih =>
    rw [ofEntries, decisions_cons]
    split
    · next record h =>
      rw [h]
      exact (ih sink (index + 1)).addMaterialized record
    · next eventType h =>
      rw [h]
      exact (ih sink (index + 1)).addUnrecognized eventType
    · next skip h =>
      -- The rest is mapped with the sink that has taken the skip, which it never looks at.
      rw [h]
      exact (ih _ (index + 1)).addSkipped skip

/-- The sink is told of the skips of the entries in their order, and of nothing
else. -/
theorem sink_ofEntries (sink : κ) (index : Nat) (descriptions : List String) :
    (ofEntries sink index descriptions).sink =
      SkipSink.receiveAll ((decisions index descriptions).filterMap Decision.skip?) sink := by
  induction descriptions generalizing sink index with
  | nil => rfl
  | cons description rest ih =>
    rw [ofEntries, decisions_cons]
    split
    all_goals
      next h =>
        simp only [h, List.filterMap_cons, Decision.skip?, ih, SkipSink.receiveAll, List.foldl_cons]

/-- A summary tells nothing of the sink that the skips went to. -/
theorem summary_ofEntries_eq {κ' : Type} [SkipSink κ'] (sink : κ) (other : κ') (index : Nat)
    (descriptions : List String) :
    (ofEntries sink index descriptions).summary = (ofEntries other index descriptions).summary := by
  induction descriptions generalizing sink other index with
  | nil => rfl
  | cons description rest ih =>
    rw [ofEntries, ofEntries]
    split
    · exact congrArg (Summary.addMaterialized _) (ih sink other (index + 1))
    · exact congrArg Summary.addUnrecognized (ih sink other (index + 1))
    · exact congrArg Summary.addSkipped (ih _ _ (index + 1))

end

/-- A sink that collects has the skips of the entries, in their order and behind
what it had. -/
theorem skips_ofEntries (sink : CollectedSkips) (index : Nat) (descriptions : List String) :
    (ofEntries sink index descriptions).sink.skips =
      sink.skips ++ (decisions index descriptions).filterMap Decision.skip? := by
  rw [sink_ofEntries, CollectedSkips.skips_receiveAll]

/-- **A batch is its entries, one by one.** Its records and the skips that it
adds are those of the entries at their places, in the order of the places; its
counts are the numbers of the three sorts of decision and leave none out; and
its tally has exactly the kinds of its records, in their order and each with the
number of its records. So a change of one description changes the decision at
its place alone. -/
theorem ofEntries_eq_decisions (sink : CollectedSkips) (descriptions : List String) :
    let batch := ofEntries sink 0 descriptions
    let decisions := descriptions.mapIdx classify
    batch.records = decisions.filterMap Decision.record?
      ∧ batch.sink.skips = sink.skips ++ decisions.filterMap Decision.skip?
      ∧ batch.summary.entries = descriptions.length
      ∧ batch.summary.materialized = batch.records.length
      ∧ sink.skips.length + batch.summary.skipped = batch.sink.skips.length
      ∧ batch.summary.unrecognized = (decisions.filterMap Decision.unrecognized?).length
      ∧ batch.summary.materialized + batch.summary.skipped + batch.summary.unrecognized =
          batch.summary.entries
      ∧ (∀ kind n, (kind, n) ∈ batch.summary.perKind ↔
          n = (batch.records.countP fun record => record.kind = kind) ∧ 0 < n)
      ∧ (batch.summary.perKind.Pairwise fun a b => a.1.position < b.1.position)
      ∧ (batch.summary.perKind.map Prod.snd).sum = batch.summary.materialized
      ∧ ∀ place description,
          let changed := ofEntries sink 0 (descriptions.set place description)
          let changedDecisions := decisions.set place (classify place description)
          changed.records = changedDecisions.filterMap Decision.record?
            ∧ changed.sink.skips =
                sink.skips ++ changedDecisions.filterMap Decision.skip? := by
  intro batch decisions
  have hrecords : batch.records = decisions.filterMap Decision.record? := by
    rw [records_ofEntries, decisions_zero]
  have hskips : batch.sink.skips = sink.skips ++ decisions.filterMap Decision.skip? := by
    rw [skips_ofEntries, decisions_zero]
  have hcounts : batch.summary.Counts decisions := by
    have h := counts_ofEntries sink 0 descriptions
    rwa [decisions_zero] at h
  -- What is left is to say the counts in terms of the batch and not of its decisions.
  refine ⟨hrecords, hskips, ?_, ?_, ?_, hcounts.unrecognized, hcounts.sum_eq_entries,
    fun kind n => ?_, hcounts.listed.sorted, hcounts.total, fun place description => ?_⟩
  · rw [hcounts.entries, List.length_mapIdx]
  · rw [hcounts.materialized, hrecords]
  · rw [hcounts.skipped, hskips, List.length_append]
  · rw [hcounts.listed.mem_iff, hcounts.numberOf, hrecords]
  · have hset := decisions_set descriptions place description
    rw [decisions_zero descriptions] at hset
    exact ⟨by rw [records_ofEntries, hset], by rw [skips_ofEntries, hset]⟩

end Batch

end EscrowFeed
