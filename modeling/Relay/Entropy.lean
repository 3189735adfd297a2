import Relay.Bytes

/-!
# `Relay.Entropy`: where keys and nonces come from

Random bytes are a value that is handed on: `Entropy.draw` takes the next bytes and leaves the
rest. The bytes are a finite tape followed by zeros, so every finite run of the relay with any
random bytes whatever is a run with some tape.
-/

set_option autoImplicit false

namespace Relay

/-- A source of random bytes. -/
structure Entropy where
  /-- The bytes to come; after them come zeros. -/
  tape : Bytes
  /-- How many bytes were drawn so far. -/
  drawn : Nat := 0
deriving DecidableEq

/-- The next `n` bytes and what is left. -/
def Entropy.draw (n : Nat) (e : Entropy) : Octets n × Entropy :=
  (Octets.padded n e.tape, ⟨e.tape.drop n, e.drawn + n⟩)

end Relay
