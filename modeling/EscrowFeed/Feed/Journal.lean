/-
The journal of a run, and the sinks that skips are reported to.

A notice says what happened, and its level, its line and its fields follow from
that. Skips take a way of their own: they go to a sink, and it is the sink that
decides whether the journal hears of them. `CollectedSkips` keeps them and says
nothing, `SkipWarnings` keeps nothing and gives a warning of each.
-/
import EscrowFeed.Feed.Entry
import EscrowFeed.Feed.Summary

set_option autoImplicit false

namespace EscrowFeed

/-- How much a notice matters. -/
inductive Level where
  | warn
  | info
  | debug
deriving DecidableEq

/-- A value that a notice carries beside its line. -/
inductive NoticeValue where
  | number (n : Nat)
  | text (content : String)
deriving DecidableEq

/-- Something that happened in a run. -/
inductive Notice where
  | decoded (entries : Nat)
  | materialized (index : Nat) (record : Record)
  | unrecognized (index : Nat) (eventType : String)
  | skipped (skip : Skip)
  | complete (summary : Summary)
  | kindCount (kind : Kind) (count : Nat)
deriving DecidableEq

namespace Notice

/-- The level of a notice. -/
def level : Notice → Level
  | .skipped _ => .warn
  | .decoded _ | .complete _ => .info
  | .materialized .. | .unrecognized .. | .kindCount .. => .debug

/-- The line of a notice. -/
def message : Notice → String
  | .decoded entries => "Decoded envelope with " ++ entries.repr ++ " entries"
  | .materialized index record =>
    "Materialized " ++ record.kind.name ++ " at index " ++ index.repr ++ ": id=" ++ record.id
  | .unrecognized index eventType =>
    "Ignoring unrecognized event type '" ++ eventType ++ "' at index " ++ index.repr
  | .skipped skip => skip.message
  | .complete summary =>
    "Batch complete: " ++ summary.entries.repr ++ " entries, " ++ summary.materialized.repr
      ++ " materialized, " ++ summary.skipped.repr ++ " skipped, " ++ summary.unrecognized.repr
      ++ " unrecognized"
  | .kindCount kind count => "  " ++ kind.name ++ ": " ++ count.repr

/-- The values beside the line. Only a skip has any. -/
def fields : Notice → List (String × NoticeValue)
  | .skipped skip =>
    let faults := skip.faults?.getD {}
    [("index", .number skip.index),
      ("kind", .text (skip.kind?.elim "" Kind.name)),
      ("missing", .text (",".intercalate faults.missing)),
      ("malformed", .text (",".intercalate faults.malformed))]
  | .decoded _ | .materialized .. | .unrecognized .. | .complete _ | .kindCount .. => []

end Notice

/-! ## Sinks -/

/-- What skips can be reported to. -/
class SkipSink (κ : Type) where
  /-- The sink after a skip, and the notices that it gives of it. -/
  receive : Skip → κ → κ × List Notice

/-- A sink that keeps the skips in the order of their report. -/
structure CollectedSkips where
  skips : List Skip := []
deriving DecidableEq

instance : SkipSink CollectedSkips where
  receive skip sink := (⟨sink.skips ++ [skip]⟩, [])

/-- The diagnostic lines of the collected skips. -/
def CollectedSkips.messages (sink : CollectedSkips) : List String := sink.skips.map Skip.message

/-- A sink that warns of every skip. -/
structure SkipWarnings where
deriving DecidableEq

instance : SkipSink SkipWarnings where
  receive skip sink := (sink, [.skipped skip])

end EscrowFeed
