/-
The identity of a record.

An event has no number of its own, so its record is identified by where it came
from: the hash of its transaction and the place of its entry in the envelope.
The identity is a text, the hash in hex and the place in decimal with a dash
between them, and the key of the record is that text's bytes in hex again. The
dash is what keeps it readable: neither hex digits nor decimal digits contain
one, so hash and place can be told apart whatever the length of the hash.
-/
import EscrowFeed.Bytes

set_option autoImplicit false

namespace EscrowFeed.Identity

/-- The identity of the entry at a place of an envelope. -/
def text (transactionHash : Bytes) (index : Nat) : String :=
  Hex.text transactionHash ++ "-" ++ index.repr

/-- The key of the record with an identity. -/
def key (identity : String) : String := Hex.text (Utf8.encode identity)

end EscrowFeed.Identity
