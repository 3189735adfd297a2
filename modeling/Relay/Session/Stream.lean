import Relay.Session.Keys

/-!
# `Relay.Session.Stream`: one direction of a session

A stream is sealed under a key of its own, derived from the session key and a random header that
the sending side picks. The nonce is a counter that both sides keep and that is never sent, so a
sealed text opens only in its place: sealing advances the counter, opening advances it only on
success. When the last counter value is reached nothing more is sealed.
-/

set_option autoImplicit false

namespace Relay

/-- The number of bytes of a stream header. -/
def headerSize : Nat := 24

/-- What a sending side picks to start a stream. -/
abbrev StreamHeader := Octets headerSize

/-- The purpose for which stream keys are derived. -/
def streamPurpose : Bytes := "mrp stream v1".toUTF8.toList

/-- The nonce of a counter value: four zeros and the counter, most significant byte first. -/
def streamNonce (counter : UInt64) : Nonce :=
  ⟨List.replicate 4 0 ++ bigEndian 8 counter.toNat, by simp [bigEndian, nonceSize]⟩

/-- The key of the stream with the given header under a session key. -/
def Suite.streamKey (suite : Suite) (key : Key) (header : StreamHeader) : Key :=
  suite.derive header.bytes key.bytes streamPurpose keySize

/-- The number of bytes of the sealed form of a text. -/
def sealedSize (textSize : Nat) : Nat := textSize + sealOverhead

/-- The sending side of a stream. -/
structure StreamEncoder where
  /-- Seals the stream. -/
  aead : Aead
  /-- The key of the stream. -/
  key : Key
  /-- The number of texts sealed so far. -/
  counter : UInt64 := 0

/-- The receiving side of a stream. -/
structure StreamDecoder where
  /-- Opens the stream. -/
  aead : Aead
  /-- The key of the stream. -/
  key : Key
  /-- The number of texts opened so far. -/
  counter : UInt64 := 0

/-- Starts a stream under a session key and a header. -/
def Suite.encoder (suite : Suite) (key : Key) (header : StreamHeader) : StreamEncoder :=
  { aead := suite.aead, key := suite.streamKey key header }

/-- Attaches to the stream with the given header. -/
def Suite.decoder (suite : Suite) (key : Key) (header : StreamHeader) : StreamDecoder :=
  { aead := suite.aead, key := suite.streamKey key header }

/-- Starts a stream with a fresh header. -/
def Suite.startStream (suite : Suite) (key : Key) (e : Entropy) :
    StreamEncoder × StreamHeader × Entropy :=
  let (header, e) := e.draw headerSize
  (suite.encoder key header, header, e)

/-- Attaches to a stream whose header arrived as bytes. -/
def Suite.attachStream (suite : Suite) (key : Key) (header : Bytes) :
    Except CryptoError StreamDecoder :=
  match Octets.ofBytes? headerSize header with
  | none => .error (.invalidLength headerSize header.length)
  | some header => .ok (suite.decoder key header)

/-- Seals the next text of the stream. -/
def StreamEncoder.encrypt (s : StreamEncoder) (text : Bytes) :
    Except CryptoError (Bytes × StreamEncoder) :=
  if s.counter.toNat + 1 = UInt64.size then .error .encrypt
  else .ok (s.aead.encrypt s.key (streamNonce s.counter) text, { s with counter := s.counter + 1 })

/-- Opens the next text of the stream. -/
def StreamDecoder.decrypt (s : StreamDecoder) (sealed : Bytes) :
    Except CryptoError (Bytes × StreamDecoder) :=
  match s.aead.decrypt? s.key (streamNonce s.counter) sealed with
  | none => .error .decrypt
  | some text => .ok (text, { s with counter := s.counter + 1 })

end Relay
