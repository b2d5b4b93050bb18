/-
Counts of what became of an envelope's entries.
-/
import EscrowFeed.Event.Kind

set_option autoImplicit false

namespace EscrowFeed

/-- How many records of each kind there are, in the order of the kinds and
without the kinds that have none. -/
abbrev Tally := List (Kind × Nat)

/-- The tally with one more of a kind. -/
def Tally.add (kind : Kind) : Tally → Tally
  | [] => [(kind, 1)]
  | (k, n) :: rest =>
    if kind = k then (k, n + 1) :: rest
    else if kind.position < k.position then (kind, 1) :: (k, n) :: rest
    else (k, n) :: Tally.add kind rest

/-- The counts of an envelope. -/
structure Summary where
  entries : Nat := 0
  materialized : Nat := 0
  skipped : Nat := 0
  unrecognized : Nat := 0
  perKind : Tally := []
deriving DecidableEq

namespace Summary

/-- One more entry, with a record of a kind. -/
def addMaterialized (kind : Kind) (summary : Summary) : Summary :=
  { summary with
    entries := summary.entries + 1
    materialized := summary.materialized + 1
    perKind := summary.perKind.add kind }

/-- One more entry, of an unknown type. -/
def addUnrecognized (summary : Summary) : Summary :=
  { summary with entries := summary.entries + 1, unrecognized := summary.unrecognized + 1 }

/-- One more entry, skipped. -/
def addSkipped (summary : Summary) : Summary :=
  { summary with entries := summary.entries + 1, skipped := summary.skipped + 1 }

end Summary

end EscrowFeed
