/-
Encoding descriptions as an envelope.

An entry whose description is empty holds no field at all: that is how a text
with its default value is written.
-/
import EscrowFeed.Wire.Basic

set_option autoImplicit false

namespace EscrowFeed.Envelope

open Wire

/-- A field of the known tag in one block. -/
def encodeBlock (block : Bytes) : Bytes := 0x0a :: varint block.length ++ block

/-- The entry of a description. -/
def encodeEntry (description : String) : Bytes :=
  encodeBlock (if description = "" then [] else encodeBlock (Utf8.encode description))

/-- The envelope of descriptions. -/
def encode (descriptions : List String) : Bytes := descriptions.flatMap encodeEntry

end EscrowFeed.Envelope
