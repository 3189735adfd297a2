import Relay.Proofs.Session.Conversation
import Relay.Proofs.Wire.Peer

/-!
# `Relay.Proofs.Session.Handshake`: what comes of a handshake

`HandshakeCases` reads the branches of `Suite.shakeHands` once: where a handshake is given up, and
what the relay has said until then. With a client that keeps to the rules (`Client`) it comes to a
session: both sides derive the same two keys (`sessionKeys_mirrored`), and each is attached to what
the other says. `Suite.handshake_mirrored_or_silent` is the main statement.
-/

set_option autoImplicit false

namespace Relay

theorem SignatureScheme.length_signed (scheme : SignatureScheme) (seed : Key) (payload : Bytes) :
    (scheme.signed seed payload).length = signatureSize + payload.length := by
  rw [signed, List.length_append, (scheme.sign seed payload).length_eq]

theorem Octets.ofBytes?_of_length {n : Nat} {bytes : Bytes} (h : bytes.length = n) :
    Octets.ofBytes? n bytes = some (.padded n bytes) := by
  have hpadded := Octets.padded_bytes ⟨bytes, h⟩
  rw [hpadded]
  exact Octets.ofBytes?_bytes ⟨bytes, h⟩

/-- Agreeing on a secret comes to the same from both sides. -/
def KeyAgreement.Agrees (agreement : KeyAgreement) : Prop :=
  ∀ a b : Key,
    agreement.agree? a (agreement.publicKey b) = agreement.agree? b (agreement.publicKey a)

/-- What was signed under a seed holds under its verifying key. -/
def SignatureScheme.Verifies (scheme : SignatureScheme) : Prop :=
  ∀ (seed : Key) (payload : Bytes),
    scheme.verify (scheme.verifyingKey seed) payload (scheme.sign seed payload) = true

theorem SignatureScheme.openSigned?_signed {scheme : SignatureScheme} (h : scheme.Verifies)
    (seed : Key) (payload : Bytes) :
    scheme.openSigned? (scheme.verifyingKey seed) (scheme.signed seed payload) = some payload := by
  have hlength := (scheme.sign seed payload).length_eq
  unfold openSigned? signed
  rw [List.take_left' hlength, List.drop_left' hlength, Octets.ofBytes?_bytes]
  dsimp only
  rw [if_pos (h seed payload)]

namespace Suite

variable (suite : Suite) (seed : Key) (own : KeyPair) (e : Entropy)

/-- The first that the relay says in a handshake: its key, signed. -/
def signedKey : Bytes := suite.signatures.signed seed own.publicKey.bytes

/-- The header that the relay draws for what it says. -/
def relayHeader : StreamHeader := (e.draw headerSize).1

/-- The second that the relay says in a handshake: the header of its stream, signed. -/
def signedHeader : Bytes := suite.signatures.signed seed (relayHeader e).bytes

/-- The first bytes that come from a peer, taken as a client's key. -/
def clientKey (p : Peer) : Key := Octets.padded keySize (p.pending.take keySize)

/-- The bytes after them, taken as the header of the client's stream. -/
def clientHeader (p : Peer) : StreamHeader :=
  Octets.padded headerSize ((p.pending.drop keySize).take headerSize)

theorem length_signedKey : (suite.signedKey seed own).length = 96 := by
  rw [signedKey, SignatureScheme.length_signed, own.publicKey.length_eq, signatureSize, keySize]

theorem length_signedHeader : (suite.signedHeader seed e).length = 88 := by
  rw [signedHeader, SignatureScheme.length_signed, (relayHeader e).length_eq, signatureSize,
    headerSize]

theorem sessionKeys_eq_error_iff (role : Role) (peer : Key) (cause : CryptoError) :
    suite.sessionKeys role own peer = .error cause ↔
      suite.agreement.agree? own.secret peer = none ∧ cause = .keyExchange := by
  unfold sessionKeys
  cases suite.agreement.agree? own.secret peer with
  | none => simp [eq_comm]
  | some shared => cases role <;> simp

/-- The header of the client's stream is one, if it is there. -/
theorem attachStream_clientHeader {p : Peer} (hlong : 56 ≤ p.pending.length) (key : Key) :
    suite.attachStream key ((p.pending.drop keySize).take headerSize) =
      .ok (suite.decoder key (clientHeader p)) := by
  have hlength : ((p.pending.drop keySize).take headerSize).length = headerSize := by
    simp only [List.length_take, List.length_drop, keySize, headerSize]
    omega
  rw [attachStream, Octets.ofBytes?_of_length hlength, clientHeader]

/-- What a handshake comes to: what is returned, and the peer afterwards. -/
inductive HandshakeCases (p : Peer) : Except WireError Session → Peer → Prop where
  /-- The relay's key does not get through. -/
  | keyCut {q : Peer} {cause : WireError} {n : Nat} (hroom : p.hasRoom 96 = false)
    (haccepted : q.accepted = p.accepted ++ (suite.signedKey seed own).take n) :
    HandshakeCases p (.error cause) q
  /-- The client's key does not come. -/
  | keyMissing {q : Peer} {cause : WireError} (hroom : p.hasRoom 96 = true)
    (hshort : p.pending.length < keySize)
    (haccepted : q.accepted = p.accepted ++ suite.signedKey seed own) :
    HandshakeCases p (.error cause) q
  /-- With the client's key there is no secret. -/
  | keyUseless {q : Peer} (hroom : p.hasRoom 96 = true)
    (hagree : suite.agreement.agree? own.secret (clientKey p) = none)
    (haccepted : q.accepted = p.accepted ++ suite.signedKey seed own) :
    HandshakeCases p (.error (.crypto .keyExchange)) q
  /-- The header of the relay's stream does not get through. -/
  | headerCut {q : Peer} {keys : SessionKeys} {cause : WireError} {n : Nat}
    (hlong : keySize ≤ p.pending.length)
    (hkeys : suite.sessionKeys .relay own (clientKey p) = .ok keys)
    (hroom : p.hasRoom 184 = false)
    (haccepted : q.accepted = p.accepted ++
      (suite.signedKey seed own ++ (suite.signedHeader seed e).take n)) :
    HandshakeCases p (.error cause) q
  /-- The header of the client's stream does not come. -/
  | headerMissing {q : Peer} {keys : SessionKeys} {cause : WireError}
    (hlong : keySize ≤ p.pending.length)
    (hkeys : suite.sessionKeys .relay own (clientKey p) = .ok keys)
    (hshort : p.pending.length < 56)
    (haccepted : q.accepted = p.accepted ++
      (suite.signedKey seed own ++ suite.signedHeader seed e)) :
    HandshakeCases p (.error cause) q
  /-- There is a session. -/
  | done {q : Peer} {keys : SessionKeys} (hroom : p.hasRoom 184 = true)
    (hlong : 56 ≤ p.pending.length)
    (hkeys : suite.sessionKeys .relay own (clientKey p) = .ok keys)
    (haccepted : q.accepted = p.accepted ++
      (suite.signedKey seed own ++ suite.signedHeader seed e))
    (hpending : q.pending = p.pending.drop 56) (hconsumed : q.consumed = p.consumed + 56) :
    HandshakeCases p (.ok ⟨suite.encoder keys.tx (relayHeader e),
      suite.decoder keys.rx (clientHeader p)⟩) q

theorem handshakeCases (limit : Nat) (p : Peer) :
    HandshakeCases suite seed own e p (suite.shakeHands seed own limit e p).1
      (suite.shakeHands seed own limit e p).2.2 := by
  have hkeyLength := length_signedKey suite seed own
  have hheaderLength := length_signedHeader suite seed e
  have hkeyWrite := p.writeCases (suite.signedKey seed own) limit .relayKeyWrite
  unfold shakeHands
  -- The relay says its key.
  rw [← signedKey]
  generalize p.write _ limit .relayKeyWrite = written at hkeyWrite ⊢
  cases hkeyWrite with
  | cut hroom hn htaken haccepted => exact .keyCut (hkeyLength ▸ hroom) haccepted
  | @through p₁ hroom haccepted₁ hleft₁ hreads₁ =>
    rw [hkeyLength] at hroom hleft₁
    -- The client's key is read where the peer's bytes begin, since writing reads nothing.
    have hkeyRead := p₁.readCases keySize limit .clientKeyRead
    dsimp only
    generalize p₁.read keySize limit .clientKeyRead = got at hkeyRead ⊢
    cases hkeyRead with
    | short hshort hwrites =>
      exact .keyMissing hroom (hreads₁.pending_eq ▸ hshort) (hwrites.accepted.trans haccepted₁)
    | @got p₂ hlong hpending₂ hconsumed₂ hwrites₂ =>
      rw [hreads₁.pending_eq] at hlong hpending₂
      rw [hreads₁.consumed] at hconsumed₂
      have haccepted₂ := hwrites₂.accepted.trans haccepted₁
      dsimp only
      rw [hreads₁.pending_eq, ← clientKey]
      cases hkeys : suite.sessionKeys .relay own (clientKey p) with
      | error cause =>
        obtain ⟨hagree, rfl⟩ := (suite.sessionKeys_eq_error_iff own _ _ _).1 hkeys
        exact .keyUseless hroom hagree haccepted₂
      | ok keys =>
        -- The relay says its header, for which there is the room that its key has left.
        dsimp only [startStream]
        rw [← relayHeader, ← signedHeader]
        have hleft₂ (size : Nat) : p₂.hasRoom size = p.hasRoom (96 + size) :=
          (hwrites₂.hasRoom_eq size).trans (hleft₁ size)
        have hheaderWrite := p₂.writeCases (suite.signedHeader seed e) limit .relayHeaderWrite
        generalize p₂.write _ limit .relayHeaderWrite = written at hheaderWrite ⊢
        cases hheaderWrite with
        | @cut _ _ n hroom' hn htaken haccepted =>
          rw [hheaderLength, hleft₂] at hroom'
          refine .headerCut (n := n) hlong hkeys hroom' ?_
          rw [haccepted, haccepted₂, List.append_assoc]
        | @through p₃ hroom' haccepted₃ hleft₃ hreads₃ =>
          rw [hheaderLength, hleft₂] at hroom'
          rw [haccepted₂, List.append_assoc] at haccepted₃
          -- The client's header is read after its key.
          have hheaderRead := p₃.readCases headerSize limit .clientHeaderRead
          have hpending₃ := hreads₃.pending_eq.trans hpending₂
          dsimp only
          generalize p₃.read headerSize limit .clientHeaderRead = got at hheaderRead ⊢
          cases hheaderRead with
          | short hshort hwrites =>
            rw [hpending₃, List.length_drop] at hshort
            refine .headerMissing hlong hkeys ?_ (hwrites.accepted.trans haccepted₃)
            simp only [keySize, headerSize] at hshort
            omega
          | got hlong' hpending₄ hconsumed₄ hwrites =>
            rw [hpending₃, List.length_drop] at hlong'
            rw [hreads₃.consumed, hconsumed₂] at hconsumed₄
            rw [hpending₃, List.drop_drop] at hpending₄
            simp only [keySize, headerSize] at hlong' hconsumed₄ hpending₄
            dsimp only
            rw [hpending₃, suite.attachStream_clientHeader (by omega)]
            exact .done hroom' (by omega) hkeys (hwrites.accepted.trans haccepted₃) hpending₄
              (by omega)

/-! ### The client -/

/-- Both sides derive the same keys: what the one sends under, the other receives under. -/
theorem sessionKeys_mirrored (hagrees : suite.agreement.Agrees) {clientSecret relaySecret : Key}
    {keys : SessionKeys}
    (hkeys : suite.sessionKeys .relay (suite.keyPair relaySecret)
      (suite.keyPair clientSecret).publicKey = .ok keys) :
    suite.sessionKeys .client (suite.keyPair clientSecret) (suite.keyPair relaySecret).publicKey =
      .ok ⟨keys.tx, keys.rx⟩ := by
  have hsame := hagrees relaySecret clientSecret
  unfold sessionKeys keyPair at *
  dsimp only at hkeys hsame ⊢
  rw [← hsame]
  cases hshared : suite.agreement.agree? relaySecret (suite.agreement.publicKey clientSecret) with
  | none => rw [hshared] at hkeys; cases hkeys
  | some shared =>
    rw [hshared] at hkeys
    cases hkeys
    rfl

end Suite

/-- A client that keeps to the rules, with all that it brings to a handshake. -/
structure Client where
  /-- The relay's verifying key, which it knows beforehand. -/
  trusted : Key
  /-- Its secret. -/
  secret : Key
  /-- The header that it picks for what it says. -/
  header : StreamHeader

namespace Client

variable (suite : Suite) (c : Client)

/-- All that a client says in a handshake: its key, and later its header. -/
def speech : Bytes := (suite.keyPair c.secret).publicKey.bytes ++ c.header.bytes

/-- What a client makes of what it hears in a handshake, if both signatures hold. -/
def session? (heard : Bytes) : Option (SessionKeys × Session) := do
  let relayPublic ← suite.signatures.openSigned? c.trusted (heard.take 96)
  let relayPublic ← Octets.ofBytes? keySize relayPublic
  let keys ← (suite.sessionKeys .client (suite.keyPair c.secret) relayPublic).toOption
  let relayHeader ← suite.signatures.openSigned? c.trusted (heard.drop 96)
  let decoder ← (suite.attachStream keys.rx relayHeader).toOption
  return (keys, ⟨suite.encoder keys.tx c.header, decoder⟩)

/-- What a client makes of what the relay says is the relay's session from the other side. -/
theorem session?_signed {suite : Suite} {c : Client} {seed relaySecret : Key} {keys : SessionKeys}
    (hagrees : suite.agreement.Agrees) (hverifies : suite.signatures.Verifies)
    (htrusted : c.trusted = suite.signatures.verifyingKey seed)
    (hkeys : suite.sessionKeys .relay (suite.keyPair relaySecret)
      (suite.keyPair c.secret).publicKey = .ok keys) (e : Entropy) :
    c.session? suite (suite.signedKey seed (suite.keyPair relaySecret) ++
        suite.signedHeader seed e) =
      some (⟨keys.tx, keys.rx⟩,
        ⟨suite.encoder keys.rx c.header, suite.decoder keys.tx (Suite.relayHeader e)⟩) := by
  have hlength := suite.length_signedKey seed (suite.keyPair relaySecret)
  unfold session?
  rw [List.take_left' hlength, List.drop_left' hlength, Suite.signedKey, Suite.signedHeader,
    htrusted, SignatureScheme.openSigned?_signed hverifies,
    SignatureScheme.openSigned?_signed hverifies]
  dsimp only [Option.bind_eq_bind, Option.bind_some]
  rw [Octets.ofBytes?_bytes, Option.bind_some, Suite.sessionKeys_mirrored suite hagrees hkeys]
  dsimp only [Except.toOption, Option.bind_some]
  rw [Suite.attachStream, Octets.ofBytes?_bytes]
  rfl

end Client

/-! ### Both outcomes -/

/-- How a handshake ends, whoever the peer is, from what is returned and from the peer afterwards.
There is a session if the peer takes all that the relay says and gives a key with which there is a
secret, and a header after it; nothing else is read then. If there is none, what was said is how it
begins otherwise, and without a key of use it stays at the relay's own. -/
structure HandshakeEnds (suite : Suite) (seed : Key) (own : KeyPair) (e : Entropy) (p : Peer)
    (result : Except WireError Session) (q : Peer) : Prop where
  length_signedKey : (suite.signedKey seed own).length = 96
  length_signedHeader : (suite.signedHeader seed e).length = 88
  succeeds_iff : (∃ session, result = .ok session) ↔
    p.hasRoom 184 = true ∧ 56 ≤ p.pending.length ∧
      (suite.agreement.agree? own.secret (Suite.clientKey p)).isSome
  success : ∀ session, result = .ok session →
    q.accepted = p.accepted ++ (suite.signedKey seed own ++ suite.signedHeader seed e) ∧
      q.consumed = p.consumed + 56 ∧ q.pending = p.pending.drop 56
  failure : ∀ cause, result = .error cause →
    ∃ sent, q.accepted = p.accepted ++ sent ∧
      sent <+: suite.signedKey seed own ++ suite.signedHeader seed e ∧
      (p.pending.length < keySize ∨
          suite.agreement.agree? own.secret (Suite.clientKey p) = none →
        sent <+: suite.signedKey seed own)

theorem Suite.isSome_agree?_of_sessionKeys {suite : Suite} {role : Role} {own : KeyPair}
    {peer : Key} {keys : SessionKeys} (h : suite.sessionKeys role own peer = .ok keys) :
    (suite.agreement.agree? own.secret peer).isSome := by
  cases hagree : suite.agreement.agree? own.secret peer with
  | some => rfl
  | none =>
    rw [(suite.sessionKeys_eq_error_iff own role peer .keyExchange).2 ⟨hagree, rfl⟩] at h
    cases h

/-- A handshake that was given up ends as it should if one of the conditions failed, and what was said
until then is how it begins. -/
theorem HandshakeEnds.of_error {suite : Suite} {seed : Key} {own : KeyPair} {e : Entropy}
    {p q : Peer} {cause : WireError} {sent : Bytes} (haccepted : q.accepted = p.accepted ++ sent)
    (hbegins : sent <+: suite.signedKey seed own ++ suite.signedHeader seed e)
    (hfails : ¬ (p.hasRoom 184 = true ∧ 56 ≤ p.pending.length ∧
      (suite.agreement.agree? own.secret (Suite.clientKey p)).isSome))
    (hkeyOnly : p.pending.length < keySize ∨
        suite.agreement.agree? own.secret (Suite.clientKey p) = none →
      sent <+: suite.signedKey seed own) :
    HandshakeEnds suite seed own e p (.error cause) q := by
  refine ⟨suite.length_signedKey seed own, suite.length_signedHeader seed e, ?_, nofun, ?_⟩
  · exact iff_of_false (fun ⟨session, h⟩ => nomatch h) hfails
  · intro _ _
    exact ⟨sent, haccepted, hbegins, hkeyOnly⟩

theorem Suite.handshakeEnds (suite : Suite) (seed : Key) (own : KeyPair) (limit : Nat) (e : Entropy)
    (p : Peer) :
    HandshakeEnds suite seed own e p (suite.shakeHands seed own limit e p).1
      (suite.shakeHands seed own limit e p).2.2 := by
  have hcases := suite.handshakeCases seed own e limit p
  have hbegins := List.prefix_append (suite.signedKey seed own) (suite.signedHeader seed e)
  -- With a secret and a key that is long enough, more than the relay's own key may have been said.
  have useful {keys : SessionKeys} (hlong : keySize ≤ p.pending.length)
      (hkeys : suite.sessionKeys .relay own (clientKey p) = .ok keys)
      (hnone : p.pending.length < keySize ∨
        suite.agreement.agree? own.secret (clientKey p) = none) : False := by
    have hsecret := isSome_agree?_of_sessionKeys hkeys
    rcases hnone with hshort | hnone
    · omega
    · rw [hnone] at hsecret
      cases hsecret
  generalize (suite.shakeHands seed own limit e p).1 = result at hcases
  generalize (suite.shakeHands seed own limit e p).2.2 = q at hcases
  cases hcases with
  | keyCut hroom haccepted =>
    refine .of_error haccepted ((List.take_prefix _ _).trans hbegins) (fun h => ?_)
      fun _ => List.take_prefix _ _
    rw [Peer.hasRoom_of_le (by decide) h.1] at hroom
    cases hroom
  | keyMissing hroom hshort haccepted =>
    refine .of_error haccepted hbegins (fun h => ?_) fun _ => List.prefix_rfl
    have hlong := h.2.1
    simp only [keySize] at hshort
    omega
  | keyUseless hroom hagree haccepted =>
    refine .of_error haccepted hbegins (fun h => ?_) fun _ => List.prefix_rfl
    rw [hagree] at h
    cases h.2.2
  | headerCut hlong hkeys hroom haccepted =>
    refine .of_error haccepted ((List.prefix_append_right_inj _).2 (List.take_prefix _ _))
      (fun h => ?_) fun hnone => (useful hlong hkeys hnone).elim
    rw [h.1] at hroom
    cases hroom
  | headerMissing hlong hkeys hshort haccepted =>
    refine .of_error haccepted List.prefix_rfl (fun h => ?_)
      fun hnone => (useful hlong hkeys hnone).elim
    omega
  | done hroom hlong hkeys haccepted hpending hconsumed =>
    refine ⟨suite.length_signedKey seed own, suite.length_signedHeader seed e, ?_, ?_, nofun⟩
    · exact iff_of_true ⟨_, rfl⟩ ⟨hroom, hlong, isSome_agree?_of_sessionKeys hkeys⟩
    · intro _ _
      exact ⟨haccepted, hconsumed, hpending⟩

/-- How a handshake ends with a client that keeps to the rules, from what is returned and from the
peer afterwards: there is a session on each side. Both sides hold the same keys, mirrored, and from
then on each hears what the other says. What follows the client's header is not read. -/
def HandshakeMirrored (suite : Suite) (relaySecret : Key) (client : Client) (e : Entropy) (p : Peer)
    (rest : Bytes) (result : Except WireError Session) (q : Peer) : Prop :=
  ∃ (relaySession clientSession : Session) (relayKeys clientKeys : SessionKeys) (heard : Bytes),
    result = .ok relaySession ∧ q.accepted = p.accepted ++ heard ∧ q.pending = rest ∧
    client.session? suite heard = some (clientKeys, clientSession) ∧
    suite.sessionKeys .relay (suite.keyPair relaySecret) (suite.keyPair client.secret).publicKey =
      .ok relayKeys ∧
    relaySession = ⟨suite.encoder relayKeys.tx (Suite.relayHeader e),
      suite.decoder relayKeys.rx client.header⟩ ∧
    relayKeys.rx = clientKeys.tx ∧ relayKeys.tx = clientKeys.rx ∧
    (Conversation.start clientSession relaySession).HeardAsSaid

theorem Suite.handshakeMirrored {suite : Suite} (hinverts : suite.aead.Inverts)
    (hagrees : suite.agreement.Agrees) (hverifies : suite.signatures.Verifies)
    {seed relaySecret : Key} {client : Client} {p : Peer} {rest : Bytes} (limit : Nat) (e : Entropy)
    (htrusted : client.trusted = suite.signatures.verifyingKey seed)
    (hsecret : (suite.agreement.agree? relaySecret
      (suite.keyPair client.secret).publicKey).isSome)
    (hpending : p.pending = client.speech suite ++ rest) (hroom : p.hasRoom 184 = true) :
    HandshakeMirrored suite relaySecret client e p rest
      (suite.shakeHands seed (suite.keyPair relaySecret) limit e p).1
      (suite.shakeHands seed (suite.keyPair relaySecret) limit e p).2.2 := by
  have hkeyLength : (suite.keyPair client.secret).publicKey.bytes.length = keySize :=
    (suite.keyPair client.secret).publicKey.length_eq
  have hlength : (client.speech suite).length = 56 := by
    rw [Client.speech, List.length_append, hkeyLength, client.header.length_eq, keySize, headerSize]
  have hkey : clientKey p = (suite.keyPair client.secret).publicKey := by
    rw [clientKey, hpending, Client.speech, List.append_assoc, List.take_left' hkeyLength,
      Octets.padded_bytes]
  have hheader : clientHeader p = client.header := by
    rw [clientHeader, hpending, Client.speech, List.append_assoc, List.drop_left' hkeyLength,
      List.take_left' client.header.length_eq, Octets.padded_bytes]
  have hends := suite.handshakeEnds seed (suite.keyPair relaySecret) limit e p
  obtain ⟨session, hok⟩ := hends.succeeds_iff.2
    ⟨hroom, by rw [hpending, List.length_append]; omega, by rwa [hkey]⟩
  have hcases := suite.handshakeCases seed (suite.keyPair relaySecret) e limit p
  generalize (suite.shakeHands seed (suite.keyPair relaySecret) limit e p).2.2 = q at hcases
  rw [hok] at hcases ⊢
  cases hcases with
  | @done _ keys _ _ hkeys haccepted hrest _ =>
    rw [hkey] at hkeys
    rw [hpending, List.drop_left' hlength] at hrest
    rw [hheader]
    refine ⟨_, _, keys, ⟨keys.tx, keys.rx⟩, _, rfl, haccepted, hrest,
      Client.session?_signed hagrees hverifies htrusted hkeys e, hkeys, rfl, rfl, rfl, ?_⟩
    apply Conversation.heard_as_said
    · intro role
      cases role <;> exact .nil _
    · intro role
      cases role <;> rfl
    · intro role
      cases role <;> exact hinverts

/-- Whoever the peer is, a handshake comes to a session or is given up without another word. With a
client that keeps to the rules, where agreement, signatures and encryption do what they are for, it
comes to a session of which both sides hold the same keys, and on which each hears what the other
says. -/
theorem Suite.handshake_mirrored_or_silent (suite : Suite) (seed : Key) (limit : Nat) (e : Entropy)
    (p : Peer) :
    (∀ own : KeyPair, HandshakeEnds suite seed own e p (suite.shakeHands seed own limit e p).1
      (suite.shakeHands seed own limit e p).2.2) ∧
    (suite.aead.Inverts → suite.agreement.Agrees → suite.signatures.Verifies →
      ∀ (relaySecret : Key) (client : Client) (rest : Bytes),
        client.trusted = suite.signatures.verifyingKey seed →
        (suite.agreement.agree? relaySecret (suite.keyPair client.secret).publicKey).isSome →
        p.pending = client.speech suite ++ rest → p.hasRoom 184 = true →
        HandshakeMirrored suite relaySecret client e p rest
          (suite.shakeHands seed (suite.keyPair relaySecret) limit e p).1
          (suite.shakeHands seed (suite.keyPair relaySecret) limit e p).2.2) :=
  ⟨fun own => suite.handshakeEnds seed own limit e p,
    fun hinverts hagrees hverifies _ _ _ htrusted hsecret hpending hroom =>
      handshakeMirrored hinverts hagrees hverifies limit e htrusted hsecret hpending hroom⟩

namespace Sample

/-- The sample suite, with an agreement that comes to the same from both sides and signatures that
are tied to their seed. Nothing is agreed with one's own key. -/
def agreeingSuite : Suite where
  aead := taggingAead
  agreement := ⟨id, fun secret key =>
    if secret = key then none else some (.padded keySize (xorBytes secret.bytes key.bytes))⟩
  signatures := ⟨id, fun _ => true, fun seed text => .padded signatureSize (seed.bytes ++ text),
    fun key text signature => signature = .padded signatureSize (key.bytes ++ text)⟩
  derive := taggingSuite.derive

theorem agrees_agreeingSuite : agreeingSuite.agreement.Agrees := by
  intro a b
  simp only [agreeingSuite, id, xorBytes]
  rw [List.zipWith_comm_of_comm UInt8.xor_comm]
  simp only [eq_comm]

theorem verifies_agreeingSuite : agreeingSuite.signatures.Verifies := by
  intro seed payload
  simp [agreeingSuite]

/-- A client of the relay whose seed is all zeros. -/
def caller : Client := ⟨.zero keySize, .padded keySize [1], .padded headerSize [5]⟩

/-- What the client says, in pieces, and one byte of what it says later. -/
def callerPeer : Peer :=
  let speech := caller.speech agreeingSuite
  { arriving := [speech.take 40, speech.drop 40, [9]] }

end Sample

/-- A client's bytes arrive in pieces, and there is a session. -/
theorem Suite.handshake_mirrored_or_silent_pieces :
    Sample.agreeingSuite.aead.Inverts ∧ Sample.agreeingSuite.agreement.Agrees ∧
      Sample.agreeingSuite.signatures.Verifies ∧
      Sample.callerPeer.pending = Sample.caller.speech Sample.agreeingSuite ++ [9] ∧
      HandshakeMirrored Sample.agreeingSuite (.padded keySize [2]) Sample.caller ⟨[3, 4], 0⟩
        Sample.callerPeer [9]
        (Sample.agreeingSuite.shakeHands (.zero keySize)
          (Sample.agreeingSuite.keyPair (.padded keySize [2])) 5 ⟨[3, 4], 0⟩ Sample.callerPeer).1
        (Sample.agreeingSuite.shakeHands (.zero keySize)
          (Sample.agreeingSuite.keyPair (.padded keySize [2])) 5 ⟨[3, 4], 0⟩
          Sample.callerPeer).2.2 := by
  have hpending : Sample.callerPeer.pending = Sample.caller.speech Sample.agreeingSuite ++ [9] := by
    decide +kernel
  obtain ⟨-, hmirrored⟩ := Sample.agreeingSuite.handshake_mirrored_or_silent (.zero keySize) 5
    ⟨[3, 4], 0⟩ Sample.callerPeer
  exact ⟨Sample.inverts_taggingAead, Sample.agrees_agreeingSuite, Sample.verifies_agreeingSuite,
    hpending, hmirrored Sample.inverts_taggingAead Sample.agrees_agreeingSuite
      Sample.verifies_agreeingSuite (.padded keySize [2]) Sample.caller [9] rfl (by decide +kernel)
      hpending rfl⟩

end Relay
