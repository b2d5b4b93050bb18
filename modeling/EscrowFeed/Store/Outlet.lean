/-
An outlet for bytes with room for a limited number of them.

What is written goes through as far as there is room. A write that does not fit
leaves the part that did and fails, so the bytes an outlet has passed on are
always the beginning of the bytes it was given.
-/
import EscrowFeed.Bytes

set_option autoImplicit false

namespace EscrowFeed

/-- An outlet. -/
structure Outlet where
  /-- What has been passed on. -/
  content : Bytes := []
  /-- How much can be passed on in all; no bound if absent. -/
  limit : Option Nat := none
  /-- Flushing fails. -/
  flushFails : Bool := false
deriving DecidableEq

/-- Why an outlet fails. -/
inductive OutletError where
  | full
  | flushFailed
deriving DecidableEq

/-- The text of the error. -/
def OutletError.message : OutletError → String
  | .full => "disk full"
  | .flushFailed => "flush failed"

namespace Outlet

/-- The part of some bytes that there is room for. -/
def fitting (outlet : Outlet) (bytes : Bytes) : Bytes :=
  match outlet.limit with
  | none => bytes
  | some limit => bytes.take (limit - outlet.content.length)

/-- Writes all bytes, or as many as fit. -/
def write (bytes : Bytes) (outlet : Outlet) : Except OutletError Unit × Outlet :=
  let fits := outlet.fitting bytes
  (if fits.length = bytes.length then .ok () else .error .full,
    { outlet with content := outlet.content ++ fits })

/-- Flushes. -/
def flush (outlet : Outlet) : Except OutletError Unit :=
  if outlet.flushFails then .error .flushFailed else .ok ()

end Outlet

end EscrowFeed
