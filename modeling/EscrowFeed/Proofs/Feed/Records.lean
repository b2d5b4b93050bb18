/-
The records of an envelope, told apart.

A record's key holds the place of its entry, and no two entries have one place.
That is all there is to it: the hashes may be equal, empty or of any length, and
what becomes of the other entries is of no matter, since a place counts entries
and not records. So the rows of an envelope's records are at different places,
those of one table among themselves as well as those of different tables.
-/
import EscrowFeed.Proofs.Event.Identity
import EscrowFeed.Proofs.Feed.Batch
import EscrowFeed.Proofs.Feed.Recovery
import EscrowFeed.Store.Table

set_option autoImplicit false

namespace EscrowFeed

theorem Decision.record?_eq_some_iff {decision : Decision} {record : Record} :
    decision.record? = some record ↔ decision = .ok (.materialized record) := by
  rcases decision with skip | other | eventType <;> simp [record?]

/-- Records of different entries have different keys, wherever the entries are
in their envelopes. -/
theorem Record.id_ne_of_classify {i j : Nat} {a b : String} {r s : Record} (hne : i ≠ j)
    (hr : classify i a = .ok (.materialized r)) (hs : classify j b = .ok (.materialized s)) :
    r.id ≠ s.id := by
  obtain ⟨-, -, -, hrid⟩ := classify_eq_materialized_iff.mp hr
  obtain ⟨-, -, -, hsid⟩ := classify_eq_materialized_iff.mp hs
  intro heq
  rw [hrid, hsid, Identity.key_inj, Identity.text_inj] at heq
  exact hne heq.2

/-- **No two entries are decided to be records of one key.** -/
theorem pairwise_decisions (index : Nat) (descriptions : List String) :
    (decisions index descriptions).Pairwise fun a b =>
      ∀ r ∈ a.record?, ∀ s ∈ b.record?, r.id ≠ s.id := by
  induction descriptions generalizing index with
  | nil => exact .nil
  | cons description rest ih =>
    rw [decisions_cons]
    refine .cons ?_ (ih (index + 1))
    intro decision hdecision r hr s hs
    -- The others are further back than the head, so its place is not one of theirs.
    obtain ⟨place, other, hplace, rfl⟩ := exists_of_mem_decisions hdecision
    exact Record.id_ne_of_classify (Nat.ne_of_lt hplace) (Decision.record?_eq_some_iff.mp hr)
      (Decision.record?_eq_some_iff.mp hs)

/-! ## The records of an envelope -/

/-- The records that the descriptions of an envelope become. -/
def recordsOf (descriptions : List String) : List Record :=
  (decisions 0 descriptions).filterMap Decision.record?

/-- Descriptions behind others become records behind theirs, and change none of
them. -/
theorem recordsOf_append (front rest : List String) :
    ∃ more, recordsOf (front ++ rest) = recordsOf front ++ more := by
  rw [recordsOf, decisions_append, List.filterMap_append]
  exact ⟨_, rfl⟩

/-- **The records of an envelope have different keys.** -/
theorem nodup_ids (descriptions : List String) :
    ((recordsOf descriptions).map Record.id).Nodup := by
  rw [List.Nodup, List.pairwise_map, recordsOf, List.pairwise_filterMap]
  exact pairwise_decisions 0 descriptions

/-- The upserts of an envelope, in the order of their entries. -/
def upsertsOf (descriptions : List String) : List Upsert :=
  (recordsOf descriptions).map Record.toUpsert

theorem upsertsOf_append (front rest : List String) :
    ∃ more, upsertsOf (front ++ rest) = upsertsOf front ++ more := by
  obtain ⟨more, hmore⟩ := recordsOf_append front rest
  exact ⟨more.map Record.toUpsert, by rw [upsertsOf, hmore, List.map_append, upsertsOf]⟩

theorem Record.rowKey_ne_nil (record : Record) : record.toUpsert.rowKey ≠ [] := by
  rw [rowKey_toUpsert]
  exact List.cons_ne_nil _ _

/-- **No two upserts of an envelope go to one place.** -/
theorem nodup_places (descriptions : List String) :
    ((upsertsOf descriptions).map Upsert.place).Nodup := by
  have hids := nodup_ids descriptions
  rw [List.Nodup, List.pairwise_map] at hids
  rw [upsertsOf, List.map_map, List.Nodup, List.pairwise_map]
  -- The keys alone are different, whatever the tables are.
  refine hids.imp fun hne hplace => hne ?_
  have hkey := (RowPlace.mk.inj hplace).2
  exact List.singleton_injective hkey

end EscrowFeed
