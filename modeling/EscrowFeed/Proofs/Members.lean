/-
Members in key order, and what a list of entries leaves of each key.

`LastOfEach` says what `Members.ofList` is for without saying how it is
computed: the members are in key order with one member a key, and under every
key stands the last entry of that key. That determines the members, so the
relation and the function are the same thing.
-/
import EscrowFeed.Json.Basic
import Mathlib.Data.List.Sort

set_option autoImplicit false

namespace EscrowFeed.Members

variable {α : Type}

/-- In strict key order, hence without two members of one key. -/
def Sorted (members : List (String × α)) : Prop := members.Pairwise fun a b => a.1 < b.1

/-- The members that entries leave: in key order, and of each key the last of
its entries. -/
def LastOfEach (entries members : List (String × α)) : Prop :=
  Sorted members ∧ ∀ key, find? key members = entries.reverse.lookup key

/-! ## Order -/

/-- Whether members are in order is a matter of their keys. -/
theorem sorted_of_keys {members : List (String × α)} (keys : List String)
    (h : keys.Pairwise fun a b => a < b) (hkeys : members.map Prod.fst = keys) :
    Sorted members := by
  rw [← hkeys, List.pairwise_map] at h
  exact h

/-- The key is one of the members' keys, and none of these is before it. -/
def IsSmallest (key : String) (members : List (String × α)) : Prop :=
  key ∈ members.map Prod.fst ∧ ∀ other ∈ members.map Prod.fst, key ≤ other

/-- In sorted members the smallest key is the first. -/
theorem Sorted.isSmallest_iff {members : List (String × α)} (h : Sorted members) {key : String} :
    IsSmallest key members ↔ ∃ value rest, members = (key, value) :: rest := by
  constructor
  · rintro ⟨hmem, hleast⟩
    cases members with
    | nil => exact absurd hmem List.not_mem_nil
    | cons first rest =>
      rcases List.mem_cons.mp hmem with rfl | hrest
      · exact ⟨first.2, rest, rfl⟩
      · -- The first key is before all others, so none of them can be the smallest.
        obtain ⟨m, hm, rfl⟩ := List.mem_map.mp hrest
        have hbefore := (List.pairwise_cons.mp h).1 m hm
        exact absurd hbefore (String.not_lt.mpr (hleast first.1 List.mem_cons_self))
  · rintro ⟨value, rest, rfl⟩
    refine ⟨List.mem_cons_self, fun other hother => ?_⟩
    rcases List.mem_cons.mp hother with rfl | hrest
    · exact String.le_refl _
    · obtain ⟨m, hm, rfl⟩ := List.mem_map.mp hrest
      exact String.not_lt.mp (String.lt_asymm ((List.pairwise_cons.mp h).1 m hm))

theorem mem_insert {key : String} {value : α} {members : List (String × α)} {m : String × α}
    (h : m ∈ insert key value members) : m = (key, value) ∨ m ∈ members := by
  induction members with
  | nil => exact .inl (List.mem_singleton.mp h)
  | cons n rest ih =>
    rw [insert] at h
    -- Inserting replaces a member, puts one in front of it, or goes on behind it.
    by_cases heq : key = n.1
    · rw [if_pos heq] at h
      rcases List.mem_cons.mp h with h | h
      · exact .inl h
      · exact .inr (List.mem_cons_of_mem n h)
    · rw [if_neg heq] at h
      by_cases hlt : key < n.1
      · rw [if_pos hlt] at h
        exact List.mem_cons.mp h
      · rw [if_neg hlt] at h
        rcases List.mem_cons.mp h with rfl | h
        · exact .inr List.mem_cons_self
        · exact (ih h).imp_right (List.mem_cons_of_mem n)

/-- **An insertion keeps the order**, with one member a key. -/
theorem sorted_insert (key : String) (value : α) {members : List (String × α)}
    (h : Sorted members) : Sorted (insert key value members) := by
  induction members with
  | nil => exact List.pairwise_singleton _ _
  | cons n rest ih =>
    obtain ⟨hfirst, hrest⟩ := List.pairwise_cons.mp h
    rw [insert]
    by_cases heq : key = n.1
    · rw [if_pos heq]
      refine List.pairwise_cons.mpr ⟨?_, hrest⟩
      intro m hm
      rw [heq]
      exact hfirst m hm
    · rw [if_neg heq]
      by_cases hlt : key < n.1
      · rw [if_pos hlt]
        refine List.pairwise_cons.mpr ⟨?_, h⟩
        intro m hm
        rcases List.mem_cons.mp hm with rfl | hm
        · exact hlt
        · exact String.lt_trans hlt (hfirst m hm)
      · rw [if_neg hlt]
        -- The new member goes further back, so the head stays first.
        refine List.pairwise_cons.mpr ⟨?_, ih hrest⟩
        intro m hm
        rcases mem_insert hm with rfl | hm
        · exact Std.lt_of_le_of_ne (Std.not_lt.mp hlt) (Ne.symm heq)
        · exact hfirst m hm

/-! ## What is under a key -/

theorem find?_eq_none {key : String} {members : List (String × α)}
    (h : ∀ m ∈ members, m.1 ≠ key) : find? key members = none := by
  induction members with
  | nil => rfl
  | cons m rest ih =>
    rw [find?, if_neg (h m List.mem_cons_self).symm]
    exact ih fun n hn => h n (List.mem_cons_of_mem m hn)

/-- Of members in order, what is under the first key is the first member's
value, and the rest holds nothing under it. -/
theorem Sorted.find?_tail {key : String} {value : α} {rest : List (String × α)}
    (h : Sorted ((key, value) :: rest)) : find? key rest = none := by
  apply find?_eq_none
  intro m hm heq
  have hlt := (List.pairwise_cons.mp h).1 m hm
  rw [heq] at hlt
  exact String.lt_irrefl key hlt

theorem mem_of_find?_eq_some {key : String} {value : α} {members : List (String × α)}
    (h : find? key members = some value) : (key, value) ∈ members := by
  induction members with
  | nil => cases h
  | cons m rest ih =>
    rw [find?] at h
    by_cases heq : key = m.1
    · rw [if_pos heq] at h
      rw [heq, ← Option.some.inj h]
      exact List.mem_cons_self
    · rw [if_neg heq] at h
      exact List.mem_cons_of_mem m (ih h)

/-- In sorted members every member is found under its key. -/
theorem Sorted.find?_of_mem {key : String} {value : α} {members : List (String × α)}
    (h : Sorted members) (hm : (key, value) ∈ members) : find? key members = some value := by
  induction members with
  | nil => cases hm
  | cons m rest ih =>
    obtain ⟨hfirst, hrest⟩ := List.pairwise_cons.mp h
    rcases List.mem_cons.mp hm with rfl | hm
    · exact if_pos rfl
    · -- The first member has a smaller key than all others, so the search goes past it.
      have hne : key ≠ m.1 := by
        intro heq
        have hlt := hfirst _ hm
        rw [← heq] at hlt
        exact String.lt_irrefl key hlt
      rw [find?, if_neg hne]
      exact ih hrest hm

/-- **Members in order are determined by what is under each key.** -/
theorem Sorted.ext {a b : List (String × α)} (ha : Sorted a) (hb : Sorted b)
    (h : ∀ key, find? key a = find? key b) : a = b := by
  have hmem : ∀ m, m ∈ a ↔ m ∈ b := by
    rintro ⟨key, value⟩
    constructor
    · intro hm
      exact mem_of_find?_eq_some ((h key).symm.trans (ha.find?_of_mem hm))
    · intro hm
      exact mem_of_find?_eq_some ((h key).trans (hb.find?_of_mem hm))
  -- An order that is strict leaves one way to list the same members.
  have hirrefl : Std.Irrefl fun m n : String × α => m.1 < n.1 := ⟨fun m => String.lt_irrefl m.1⟩
  have hantisymm : Std.Antisymm fun m n : String × α => m.1 < n.1 :=
    ⟨fun m n hmn hnm => absurd hnm (String.lt_asymm hmn)⟩
  exact List.Pairwise.eq_of_mem_iff ha hb hmem

/-! ## Members of entries -/

/-- The members of entries behind members that are there already. -/
theorem find?_foldl_insert (key : String) (entries members : List (String × α)) :
    find? key (entries.foldl (fun ms entry => insert entry.1 entry.2 ms) members)
      = (entries.reverse.lookup key).or (find? key members) := by
  induction entries generalizing members with
  | nil => rfl
  | cons entry rest ih =>
    rw [List.foldl_cons, ih, find?_insert, List.reverse_cons, List.lookup_append, Option.or_assoc]
    congr 1
    by_cases h : key = entry.1
    · subst h
      rw [if_pos rfl, List.lookup_cons_self]
      rfl
    · rw [if_neg h, List.lookup_cons, beq_eq_false_iff_ne.mpr h]
      rfl

/-- Under a key stands the last entry of the key. -/
theorem find?_ofList (key : String) (entries : List (String × α)) :
    find? key (ofList entries) = entries.reverse.lookup key := by
  rw [ofList, find?_foldl_insert]
  exact Option.or_none

/-- Insertions one after the other keep the order. -/
theorem sorted_foldl_insert {entries members : List (String × α)} (h : Sorted members) :
    Sorted (entries.foldl (fun ms entry => insert entry.1 entry.2 ms) members) := by
  induction entries generalizing members with
  | nil => exact h
  | cons entry rest ih => exact ih (sorted_insert entry.1 entry.2 h)

theorem sorted_ofList (entries : List (String × α)) : Sorted (ofList entries) :=
  sorted_foldl_insert List.Pairwise.nil

/-- Nothing is left but entries. -/
theorem mem_of_mem_ofList {m : String × α} {entries : List (String × α)} (h : m ∈ ofList entries) :
    m ∈ entries := by
  have hfind := (sorted_ofList entries).find?_of_mem h
  rw [find?_ofList] at hfind
  obtain ⟨before, after, heq, -⟩ := List.lookup_eq_some_iff.mp hfind
  have hmem : m ∈ entries.reverse := heq ▸ List.mem_append_right before List.mem_cons_self
  exact List.mem_reverse.mp hmem

/-- Of entries with different keys none is replaced. -/
theorem find?_ofList_of_mem {key : String} {value : α} {entries : List (String × α)}
    (hnodup : (entries.map Prod.fst).Nodup) (h : (key, value) ∈ entries) :
    find? key (ofList entries) = some value := by
  rw [find?_ofList]
  induction entries with
  | nil => cases h
  | cons entry rest ih =>
    rw [List.map_cons, List.nodup_cons] at hnodup
    rw [List.reverse_cons, List.lookup_append]
    rcases List.mem_cons.mp h with rfl | h
    · -- A later entry of the key would have won, but there is none.
      have hnone : rest.reverse.lookup key = none := by
        apply List.lookup_eq_none_iff.mpr
        intro m hm
        have hkey : m.1 ∈ rest.map Prod.fst := List.mem_map_of_mem (List.mem_reverse.mp hm)
        refine bne_iff_ne.mpr fun heq => hnodup.1 ?_
        rwa [← heq] at hkey
      rw [hnone, List.lookup_cons_self, Option.none_or]
    · rw [ih hnodup.2 h, Option.some_or]

/-- **`ofList` is the one list of members that is in order and holds the last
entry of each key.** -/
theorem lastOfEach_iff {entries members : List (String × α)} :
    LastOfEach entries members ↔ members = ofList entries := by
  constructor
  · rintro ⟨hsorted, hfind⟩
    apply hsorted.ext (sorted_ofList entries)
    intro key
    rw [hfind, find?_ofList]
  · rintro rfl
    exact ⟨sorted_ofList entries, fun key => find?_ofList key entries⟩

/-- Members in order are what they leave of themselves. -/
theorem Sorted.lastOfEach {members : List (String × α)} (h : Sorted members) :
    LastOfEach members members := by
  refine ⟨h, fun key => ?_⟩
  induction members with
  | nil => rfl
  | cons m rest ih =>
    obtain ⟨k, value⟩ := m
    rw [List.reverse_cons, List.lookup_append, ← ih (List.pairwise_cons.mp h).2]
    by_cases heq : key = k
    · subst heq
      rw [find?, if_pos rfl, h.find?_tail, List.lookup_cons_self]
      rfl
    · rw [find?, if_neg heq, List.lookup_cons, beq_eq_false_iff_ne.mpr heq]
      exact Option.or_none.symm

end EscrowFeed.Members
