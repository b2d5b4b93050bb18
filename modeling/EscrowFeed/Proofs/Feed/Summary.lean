/-
Counts and what they are counts of.

`Summary.Counts` is the invariant of a batch: what each count of a summary says
about a list of results. An entry adds one result to the list and changes the
counts in one of three ways, so there are three steps, and each keeps the
invariant. A tally is harder than a number, since a kind's count can be wrong by
standing in the wrong place, by standing there twice, or by being zero; the
first two are excluded by the order of the tally and the third is kept apart.
-/
import EscrowFeed.Feed.Entry
import EscrowFeed.Feed.Summary
import Mathlib.Algebra.Ring.Nat

set_option autoImplicit false

namespace EscrowFeed

theorem Kind.position_injective {a b : Kind} (h : a.position = b.position) : a = b := by
  cases a <;> cases b <;> first | rfl | exact absurd h (by decide)

/-! ## Tallies -/

namespace Tally

/-- How many of a kind a tally says there are. -/
def numberOf (kind : Kind) : Tally → Nat
  | [] => 0
  | (k, n) :: rest => (if k = kind then n else 0) + numberOf kind rest

/-- How many a tally says there are in all. -/
def total (tally : Tally) : Nat := (tally.map Prod.snd).sum

/-- The kinds are in their order, each once, and none without a record. -/
structure Listed (tally : Tally) : Prop where
  sorted : tally.Pairwise fun a b => a.1.position < b.1.position
  pos : ∀ entry ∈ tally, 0 < entry.2

theorem numberOf_add (kind k : Kind) (tally : Tally) :
    (tally.add kind).numberOf k = tally.numberOf k + if kind = k then 1 else 0 := by
  induction tally with
  | nil => exact Nat.add_comm _ 0
  | cons entry rest ih =>
    obtain ⟨k', n⟩ := entry
    rw [add]
    by_cases h : kind = k'
    · rw [if_pos h]
      -- The kind is there already and counts one more, for itself alone.
      subst h
      rw [numberOf, numberOf]
      split <;> omega
    · rw [if_neg h]
      by_cases hlt : kind.position < k'.position
      · rw [if_pos hlt, numberOf, Nat.add_comm]
      · rw [if_neg hlt, numberOf, numberOf, ih, Nat.add_assoc]

theorem total_add (kind : Kind) (tally : Tally) : (tally.add kind).total = tally.total + 1 := by
  induction tally with
  | nil => rfl
  | cons entry rest ih =>
    obtain ⟨k, n⟩ := entry
    simp only [total, List.map_cons, List.sum_cons] at ih ⊢
    rw [add]
    -- The three branches of adding: the kind is here, belongs in front of this entry, or behind it.
    by_cases h : kind = k
    · rw [if_pos h]
      simp only [List.map_cons, List.sum_cons]
      omega
    · rw [if_neg h]
      by_cases hlt : kind.position < k.position
      · rw [if_pos hlt]
        simp only [List.map_cons, List.sum_cons]
        omega
      · rw [if_neg hlt]
        simp only [List.map_cons, List.sum_cons, ih]
        omega

/-- An addition brings no kind but its own. -/
theorem mem_of_mem_add {kind : Kind} {tally : Tally} {entry : Kind × Nat}
    (h : entry ∈ tally.add kind) : entry.1 = kind ∨ entry ∈ tally := by
  induction tally with
  | nil => exact .inl (congrArg Prod.fst (List.mem_singleton.mp h))
  | cons head rest ih =>
    obtain ⟨k, n⟩ := head
    rw [add] at h
    by_cases hk : kind = k
    · rw [if_pos hk] at h
      rcases List.mem_cons.mp h with rfl | h
      · exact .inl hk.symm
      · exact .inr (List.mem_cons_of_mem _ h)
    · rw [if_neg hk] at h
      by_cases hlt : kind.position < k.position
      · rw [if_pos hlt] at h
        rcases List.mem_cons.mp h with rfl | h
        · exact .inl rfl
        · exact .inr h
      · rw [if_neg hlt] at h
        rcases List.mem_cons.mp h with rfl | h
        · exact .inr List.mem_cons_self
        · exact (ih h).imp_right (List.mem_cons_of_mem _)

/-- A tally is listed by its head and by the rest behind it. -/
theorem listed_cons {k : Kind} {n : Nat} {rest : Tally} :
    Listed ((k, n) :: rest) ↔
      0 < n ∧ (∀ entry ∈ rest, k.position < entry.1.position) ∧ Listed rest := by
  constructor
  · rintro ⟨hsorted, hpos⟩
    obtain ⟨hfirst, hrest⟩ := List.pairwise_cons.mp hsorted
    obtain ⟨hn, hpos⟩ := List.forall_mem_cons.mp hpos
    exact ⟨hn, hfirst, hrest, hpos⟩
  · rintro ⟨hn, hfirst, hrest, hpos⟩
    exact ⟨List.pairwise_cons.mpr ⟨hfirst, hrest⟩, List.forall_mem_cons.mpr ⟨hn, hpos⟩⟩

/-- **Adding a kind keeps a tally in order**, with the kind in its place. -/
theorem Listed.add {tally : Tally} (h : tally.Listed) (kind : Kind) : (tally.add kind).Listed := by
  induction tally with
  | nil => exact listed_cons.mpr ⟨Nat.one_pos, List.forall_mem_nil _, h⟩
  | cons head rest ih =>
    obtain ⟨k, n⟩ := head
    obtain ⟨hn, hfirst, hrest⟩ := listed_cons.mp h
    rw [Tally.add]
    by_cases heq : kind = k
    · rw [if_pos heq]
      exact listed_cons.mpr ⟨Nat.succ_pos n, hfirst, hrest⟩
    · rw [if_neg heq]
      by_cases hbefore : kind.position < k.position
      · rw [if_pos hbefore]
        refine listed_cons.mpr ⟨Nat.one_pos, List.forall_mem_cons.mpr ⟨hbefore, ?_⟩, h⟩
        intro entry hentry
        exact Nat.lt_trans hbefore (hfirst entry hentry)
      · rw [if_neg hbefore]
        -- The kind goes further back, so it comes after the head and not before it.
        have hne : k.position ≠ kind.position := fun h => heq (Kind.position_injective h.symm)
        have hlt : k.position < kind.position := by omega
        refine listed_cons.mpr ⟨hn, ?_, ih hrest⟩
        intro entry hentry
        rcases mem_of_mem_add hentry with hkind | hmem
        · rw [hkind]
          exact hlt
        · exact hfirst entry hmem

theorem numberOf_eq_zero {kind : Kind} {tally : Tally} (h : ∀ entry ∈ tally, entry.1 ≠ kind) :
    tally.numberOf kind = 0 := by
  induction tally with
  | nil => rfl
  | cons head rest ih =>
    obtain ⟨hhead, hrest⟩ := List.forall_mem_cons.mp h
    rw [numberOf, if_neg hhead, ih hrest]

/-- The kinds behind the head are later ones, so the head is the kind's only entry. -/
theorem Listed.ne_of_mem {k : Kind} {n : Nat} {rest : Tally} (h : Listed ((k, n) :: rest)) :
    ∀ entry ∈ rest, entry.1 ≠ k := by
  intro entry hentry heq
  have hlater := (listed_cons.mp h).2.1 entry hentry
  rw [heq] at hlater
  exact Nat.lt_irrefl _ hlater

/-- In an ordered tally a kind's number is the one that stands beside it, and a
kind is missing exactly when its number is zero. -/
theorem Listed.mem_iff {tally : Tally} (h : tally.Listed) {kind : Kind} {n : Nat} :
    (kind, n) ∈ tally ↔ n = tally.numberOf kind ∧ 0 < n := by
  induction tally with
  | nil =>
    refine ⟨fun hmem => absurd hmem List.not_mem_nil, fun ⟨hn, hpos⟩ => ?_⟩
    rw [hn, numberOf] at hpos
    exact absurd hpos (Nat.lt_irrefl 0)
  | cons head rest ih =>
    obtain ⟨k, m⟩ := head
    obtain ⟨hm, -, hrest⟩ := listed_cons.mp h
    rw [List.mem_cons, Prod.mk.injEq, numberOf]
    by_cases hk : k = kind
    · subst hk
      -- The kind stands at the head, and a listed tally has it nowhere else.
      have hne := h.ne_of_mem
      rw [if_pos rfl, numberOf_eq_zero hne, Nat.add_zero]
      constructor
      · rintro (⟨-, rfl⟩ | hmem)
        · exact ⟨rfl, hm⟩
        · exact absurd rfl (hne _ hmem)
      · rintro ⟨rfl, -⟩
        exact .inl ⟨rfl, rfl⟩
    · rw [if_neg hk, Nat.zero_add, ← ih hrest]
      exact or_iff_right fun ⟨h, _⟩ => hk h.symm

/-- What stands beside a kind, or zero if it is missing, is the kind's number. -/
theorem Listed.lookup_getD {tally : Tally} (h : tally.Listed) (kind : Kind) :
    (tally.lookup kind).getD 0 = tally.numberOf kind := by
  induction tally with
  | nil => rfl
  | cons head rest ih =>
    obtain ⟨k, m⟩ := head
    have hrest := (listed_cons.mp h).2.2
    rw [List.lookup_cons, numberOf]
    by_cases hk : kind = k
    · subst hk
      rw [beq_self_eq_true, if_pos rfl, numberOf_eq_zero h.ne_of_mem]
      rfl
    · rw [beq_eq_false_iff_ne.mpr hk, if_neg fun heq => hk heq.symm, Nat.zero_add]
      exact ih hrest

end Tally

/-! ## Decisions -/

/-- What is decided of an entry. -/
abbrev Decision := Except Skip Outcome

namespace Decision

/-- The record that an entry becomes. -/
def record? : Decision → Option Record
  | .ok (.materialized record) => some record
  | .ok (.unrecognized _) | .error _ => none

/-- The skip that an entry leaves. -/
def skip? : Decision → Option Skip
  | .error skip => some skip
  | .ok _ => none

/-- The type of an entry that is passed over. -/
def unrecognized? : Decision → Option String
  | .ok (.unrecognized eventType) => some eventType
  | .ok (.materialized _) | .error _ => none

/-- Every decision is of one of the three sorts. -/
theorem length_add_length_add_length (decisions : List Decision) :
    (decisions.filterMap record?).length + (decisions.filterMap skip?).length
      + (decisions.filterMap unrecognized?).length = decisions.length := by
  induction decisions with
  | nil => rfl
  | cons decision rest ih =>
    rcases decision with skip | record | eventType
    all_goals
      simp only [List.filterMap_cons, record?, skip?, unrecognized?, List.length_cons]
      omega

end Decision

/-! ## Summaries -/

namespace Summary

open Decision

/-- The counts of a summary are those of a list of decisions. -/
structure Counts (summary : Summary) (decisions : List Decision) : Prop where
  entries : summary.entries = decisions.length
  materialized : summary.materialized = (decisions.filterMap record?).length
  skipped : summary.skipped = (decisions.filterMap skip?).length
  unrecognized : summary.unrecognized = (decisions.filterMap unrecognized?).length
  listed : summary.perKind.Listed
  numberOf : ∀ kind, summary.perKind.numberOf kind =
    (decisions.filterMap record?).countP fun record => record.kind = kind
  total : summary.perKind.total = summary.materialized

variable {summary : Summary} {decisions : List Decision}

theorem counts_nil : Counts {} [] where
  entries := rfl
  materialized := rfl
  skipped := rfl
  unrecognized := rfl
  listed := ⟨.nil, List.forall_mem_nil _⟩
  numberOf _ := rfl
  total := rfl

/-- One more record counts as an entry, as a record and for its kind. -/
theorem Counts.addMaterialized (h : summary.Counts decisions) (record : Record) :
    (summary.addMaterialized record.kind).Counts (.ok (.materialized record) :: decisions) where
  entries := congrArg Nat.succ h.entries
  materialized := congrArg Nat.succ h.materialized
  skipped := h.skipped
  unrecognized := h.unrecognized
  listed := h.listed.add record.kind
  numberOf kind := by
    -- Both sides grow by one exactly when the record is of the kind.
    rw [Summary.addMaterialized, Tally.numberOf_add, h.numberOf, List.filterMap_cons, record?]
    simp only [List.countP_cons, decide_eq_true_eq]
  total := by
    rw [Summary.addMaterialized, Tally.total_add, h.total]

theorem Counts.addUnrecognized (h : summary.Counts decisions) (eventType : String) :
    summary.addUnrecognized.Counts (.ok (.unrecognized eventType) :: decisions) where
  entries := congrArg Nat.succ h.entries
  materialized := h.materialized
  skipped := h.skipped
  unrecognized := congrArg Nat.succ h.unrecognized
  listed := h.listed
  numberOf := h.numberOf
  total := h.total

theorem Counts.addSkipped (h : summary.Counts decisions) (skip : Skip) :
    summary.addSkipped.Counts (.error skip :: decisions) where
  entries := congrArg Nat.succ h.entries
  materialized := h.materialized
  skipped := congrArg Nat.succ h.skipped
  unrecognized := h.unrecognized
  listed := h.listed
  numberOf := h.numberOf
  total := h.total

/-- An entry is counted once. -/
theorem Counts.sum_eq_entries (h : summary.Counts decisions) :
    summary.materialized + summary.skipped + summary.unrecognized = summary.entries := by
  rw [h.materialized, h.skipped, h.unrecognized, h.entries, length_add_length_add_length]

end Summary

end EscrowFeed
