/-
Why an envelope cannot be decoded: a cause, and how far inside it was found.
-/
import EscrowFeed.Wire.Basic

set_option autoImplicit false

namespace EscrowFeed.Envelope

/-- The part of an envelope that was being read. -/
inductive Location where
  /-- The envelope's own keys and unknown fields. -/
  | envelope
  /-- An entry: its layout, its length, its keys and unknown fields. -/
  | entry
  /-- The description in an entry. -/
  | description
deriving DecidableEq

/-- The way to a location, innermost part first. -/
def Location.path : Location → String
  | .envelope => ""
  | .entry => "Events.events: "
  | .description => "Event.json_description: Events.events: "

/-- Why an envelope cannot be decoded. -/
structure DecodeError where
  location : Location
  cause : Wire.Cause
deriving DecidableEq

namespace DecodeError

/-- What went wrong and where. -/
def detail (error : DecodeError) : String :=
  "failed to decode Protobuf message: " ++ error.location.path ++ error.cause.message

/-- The text of the error. -/
def message (error : DecodeError) : String := "protobuf decode error: " ++ error.detail

end DecodeError

end EscrowFeed.Envelope
