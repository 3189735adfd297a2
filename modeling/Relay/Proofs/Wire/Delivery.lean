import Mathlib.Algebra.Ring.Nat
import Relay.Proofs.Message.Codec
import Relay.Proofs.Session.Stream
import Relay.Proofs.Wire.Peer
import Relay.Wire.Exchange

/-!
# `Relay.Proofs.Wire.Delivery`: what arrives is what was sent

Messages are sent one after the other on one stream, whatever becomes of each (`Peer.sendAll`). The
peer may stop taking bytes anywhere. What it took is read at the other end of the stream, where
messages are received until that fails (`Peer.receiveAll`).

`Peer.SendCases` reads the branches of `Peer.send` once. A message that is not sealed leaves
everything as it was. One that gets through is the next frame, and its reader is then where the
sender is (`Peer.receive_framed`). One that is cut off is the last to leave a trace: the peer is
full after it (`Peer.sendAll_of_full`), and the reader meets the end of the stream within its frame
(`Peer.receive_of_cut`). The main statement is `Suite.received_eq_sent`.
-/

set_option autoImplicit false

namespace Relay

/-! ### Sealing -/

namespace Message

/-- Whether a message is small enough to be packed. -/
def fits (m : Message) : Bool := m.body.length ≤ maxBodySize

/-- The number of bytes that a message takes on the wire. -/
def wireSize (m : Message) : Nat := frameLengthSize + sealedSize (headSize + m.body.length)

theorem wireSize_pos (m : Message) : 0 < m.wireSize := by
  simp only [wireSize, frameLengthSize]
  omega

end Message

namespace StreamEncoder

variable {s next : StreamEncoder} {m : Message} {frame : Bytes}

/-- The three ways in which a message is sealed or not. -/
inductive SealCases (s : StreamEncoder) (m : Message) :
    Except WireError (Bytes × StreamEncoder) → Prop where
  /-- It is too large. -/
  | tooLarge (h : m.fits = false) :
    SealCases s m (.error (.frame (.bodyTooLarge Message.maxBodySize m.body.length)))
  /-- The counter is at its end. -/
  | exhausted (hfits : m.fits = true) (h : ¬ s.counter.toNat < streamLimit) :
    SealCases s m (.error (.crypto .encrypt))
  /-- It is sealed as the next text. -/
  | sealed (hfits : m.fits = true) (h : s.counter.toNat < streamLimit) :
    SealCases s m
      (.ok (s.aead.encrypt s.key (streamNonce s.counter) (m.head ++ m.body), s.advanced))

theorem sealCases (s : StreamEncoder) (m : Message) : SealCases s m (s.sealMessage m) := by
  unfold sealMessage
  cases hpack : m.pack with
  | error e =>
    obtain ⟨hlarge, rfl⟩ := (m.pack_eq_error_iff e).1 hpack
    exact .tooLarge (by simpa [Message.fits] using hlarge)
  | ok text =>
    obtain ⟨hle, rfl⟩ := (m.pack_eq_ok_iff text).1 hpack
    have hfits : m.fits = true := by simpa [Message.fits] using hle
    dsimp only
    by_cases hcounter : s.counter.toNat < streamLimit
    · rw [encrypt_of_lt hcounter]
      exact .sealed hfits hcounter
    · rw [encrypt_of_not_lt hcounter]
      exact .exhausted hfits hcounter

theorem of_sealMessage (hseal : s.sealMessage m = .ok (frame, next)) :
    m.fits = true ∧ m.pack = .ok (m.head ++ m.body) ∧
      frame = s.aead.encrypt s.key (streamNonce s.counter) (m.head ++ m.body) ∧
      next = s.advanced := by
  have hcases := s.sealCases m
  rw [hseal] at hcases
  cases hcases with
  | sealed hfits _ =>
    have hle : m.body.length ≤ Message.maxBodySize := by simpa [Message.fits] using hfits
    exact ⟨hfits, (m.pack_eq_ok_iff _).2 ⟨hle, rfl⟩, rfl, rfl⟩

/-- A sealed message makes a frame. -/
theorem length_of_sealMessage (hseal : s.sealMessage m = .ok (frame, next)) :
    (0 < frame.length ∧ frame.length ≤ maxFrameSize) ∧ (framed frame).length = m.wireSize := by
  obtain ⟨-, hpack, rfl, -⟩ := of_sealMessage hseal
  obtain ⟨-, hle⟩ := Message.length_of_pack hpack
  rw [Peer.length_framed, s.aead.length_encrypt, Message.wireSize, maxFrameSize, sealedSize,
    sealedSize, ← m.length_head, ← List.length_append]
  exact ⟨⟨by simp only [sealOverhead]; omega, by omega⟩, rfl⟩

end StreamEncoder

namespace Peer

variable {p q : Peer} {s next : StreamEncoder} {m : Message} {frame : Bytes} {idle part : Nat}

/-! ### Sending one message -/

/-- What sending a message comes to: what is returned, the stream and the peer afterwards. -/
inductive SendCases (p : Peer) (s : StreamEncoder) (m : Message) :
    Except WireError Unit × StreamEncoder × Peer → Prop where
  /-- The message is too large, and nothing happens. -/
  | tooLarge (h : m.fits = false) :
    SendCases p s m (.error (.frame (.bodyTooLarge Message.maxBodySize m.body.length)), s, p)
  /-- The counter is at its end, and nothing happens. -/
  | exhausted (hfits : m.fits = true) (h : ¬ s.counter.toNat < streamLimit) :
    SendCases p s m (.error (.crypto .encrypt), s, p)
  /-- The frame gets through. -/
  | sent {frame : Bytes} {q : Peer} (hfits : m.fits = true)
    (hseal : s.sealMessage m = .ok (frame, s.advanced)) (hroom : p.hasRoom m.wireSize = true)
    (haccepted : q.accepted = p.accepted ++ framed frame)
    (hleft : ∀ size, q.hasRoom size = p.hasRoom (m.wireSize + size)) :
    SendCases p s m (.ok (), s.advanced, q)
  /-- The frame is cut off, and the peer is full. -/
  | cut {frame : Bytes} {q : Peer} {step : WireStep} {n : Nat} (hfits : m.fits = true)
    (hseal : s.sealMessage m = .ok (frame, s.advanced)) (hroom : p.hasRoom m.wireSize = false)
    (hn : n < (framed frame).length) (htaken : p.hasRoom n = true)
    (haccepted : q.accepted = p.accepted ++ (framed frame).take n) (hfull : q.room = some 0) :
    SendCases p s m (.error (p.refusal.error step), s.advanced, q)

theorem sendCases (p : Peer) (s : StreamEncoder) (m : Message) (idle part : Nat) :
    SendCases p s m (p.send s m idle part) := by
  have hcases := s.sealCases m
  unfold send
  cases hseal : s.sealMessage m with
  | error e =>
    rw [hseal] at hcases
    cases hcases with
    | tooLarge h => exact .tooLarge h
    | exhausted hfits h => exact .exhausted hfits h
  | ok pair =>
    obtain ⟨frame, next⟩ := pair
    obtain ⟨hfits, -, -, rfl⟩ := StreamEncoder.of_sealMessage hseal
    obtain ⟨-, hsize⟩ := StreamEncoder.length_of_sealMessage hseal
    have hwrite := p.writeCases_writeFrame frame idle part
    dsimp only
    generalize p.writeFrame frame idle part = written at hwrite ⊢
    cases hwrite with
    | through hroom haccepted hleft =>
      exact .sent hfits hseal (hsize ▸ hroom) haccepted (hsize ▸ hleft)
    | cut hroom hn htaken haccepted hfull =>
      exact .cut hfits hseal (hsize ▸ hroom) hn htaken haccepted hfull

/-! ### Receiving one message -/

/-- A message that got through is received. -/
theorem receive_framed (idle part : Nat) {rest : Bytes} (hinverts : s.aead.Inverts)
    (hseal : s.sealMessage m = .ok (frame, next)) (hpending : q.pending = framed frame ++ rest) :
    ∃ after : Peer, q.receive s.reader idle part = (.ok m, next.reader, after) ∧
      after.pending = rest ∧ after.ending = q.ending := by
  obtain ⟨hsize, -⟩ := StreamEncoder.length_of_sealMessage hseal
  obtain ⟨-, hpack, rfl, rfl⟩ := StreamEncoder.of_sealMessage hseal
  obtain ⟨after, hread, hrest, hending⟩ :=
    readFrame_framed idle part hsize hpending
  unfold receive
  rw [hread]
  dsimp only
  rw [StreamEncoder.decrypt_reader hinverts]
  dsimp only
  rw [Message.unpack_of_pack hpack]
  exact ⟨after, rfl, hrest, hending⟩

/-- Where a message was cut off, its reader meets the end of the stream. -/
theorem receive_of_cut {decoder : StreamDecoder} {n : Nat}
    (hseal : s.sealMessage m = .ok (frame, next)) (hn : n < (framed frame).length)
    (hpending : q.pending = (framed frame).take n) (hending : q.ending = none) :
    (q.receive decoder idle part).1 = .error .connectionClosed := by
  obtain ⟨hsize, -⟩ := StreamEncoder.length_of_sealMessage hseal
  have herror := readFrame_of_cut idle part hsize hn hpending hending
  unfold receive
  generalize q.readFrame idle part = got at herror
  obtain ⟨result, after⟩ := got
  obtain rfl : result = .error _ := herror
  rfl

/-- A message that was received is no longer there to be read. -/
theorem length_pending_receive {decoder : StreamDecoder}
    (h : (q.receive decoder idle part).1 = .ok m) :
    (q.receive decoder idle part).2.2.pending.length < q.pending.length := by
  have hshorter := q.length_pending_readFrame idle part
  revert h
  unfold receive
  generalize q.readFrame idle part = got at hshorter
  obtain ⟨_ | frame, after⟩ := got
  · intro h
    cases h
  · intro _
    have hshorter := hshorter frame rfl
    dsimp only
    split
    · exact hshorter
    · split <;> exact hshorter

/-! ### One after the other -/

/-- Sends messages one after the other, also after an error: what became of each, and the stream
and the peer afterwards. The limits are in milliseconds. -/
def sendAll (p : Peer) (s : StreamEncoder) (idle part : Nat) :
    List Message → List (Message × Except WireError Unit) × StreamEncoder × Peer
  | [] => ([], s, p)
  | m :: rest =>
    let (outcome, s, p) := p.send s m idle part
    let (outcomes, s, p) := p.sendAll s idle part rest
    ((m, outcome) :: outcomes, s, p)

/-- The messages that were sent without an error. -/
def sent : List (Message × Except WireError Unit) → List Message
  | [] => []
  | (m, .ok _) :: rest => m :: sent rest
  | (_, .error _) :: rest => sent rest

/-- Receives messages until that fails: the messages, and why it failed in the end. -/
def receiveAll (p : Peer) (s : StreamDecoder) (idle part : Nat) : List Message × WireError :=
  match h : p.receive s idle part with
  | (.error e, _, _) => ([], e)
  | (.ok m, s, q) =>
    have : q.pending.length < p.pending.length := by
      have shorter := p.length_pending_receive (m := m) (by rw [h])
      rwa [h] at shorter
    let (messages, e) := q.receiveAll s idle part
    (m :: messages, e)
termination_by p.pending.length

/-- The first message is sent in one of the ways, and the others after it. -/
theorem sendAll_cons (p : Peer) (s : StreamEncoder) (idle part : Nat) (m : Message) :
    ∃ (outcome : Except WireError Unit) (next : StreamEncoder) (q : Peer),
      SendCases p s m (outcome, next, q) ∧ ∀ rest,
        p.sendAll s idle part (m :: rest) =
          ((m, outcome) :: (q.sendAll next idle part rest).1, (q.sendAll next idle part rest).2) :=
  ⟨_, _, _, p.sendCases s m idle part, fun _ => rfl⟩

theorem receiveAll_of_ok {decoder after : StreamDecoder}
    (h : p.receive decoder idle part = (.ok m, after, q)) :
    p.receiveAll decoder idle part =
      (m :: (q.receiveAll after idle part).1, (q.receiveAll after idle part).2) := by
  rw [receiveAll]
  split
  · rename_i h'
    rw [h] at h'
    cases h'
  · rename_i h'
    rw [h] at h'
    cases h'
    rfl

theorem receiveAll_of_error {decoder : StreamDecoder} {e : WireError}
    (h : (p.receive decoder idle part).1 = .error e) :
    p.receiveAll decoder idle part = ([], e) := by
  rw [receiveAll]
  split
  · rename_i h'
    rw [h'] at h
    cases h
    rfl
  · rename_i h'
    rw [h'] at h
    cases h

/-- Where there is nothing, the reader meets the end of the stream. -/
theorem receiveAll_of_nil {decoder : StreamDecoder} (hpending : q.pending = [])
    (hending : q.ending = none) :
    q.receiveAll decoder idle part = ([], .connectionClosed) := by
  have hshort : q.pending.length < frameLengthSize := by
    rw [hpending]
    decide
  have herror := readFrame_of_short idle part hshort hending
  apply receiveAll_of_error
  unfold receive
  generalize q.readFrame idle part = got at herror
  obtain ⟨result, after⟩ := got
  obtain rfl : result = .error _ := herror
  rfl

/-- Whatever is sent, what was taken before stays in front. -/
theorem accepted_sendAll (p : Peer) (s : StreamEncoder) (idle part : Nat)
    (messages : List Message) :
    ∃ wire, (p.sendAll s idle part messages).2.2.accepted = p.accepted ++ wire := by
  induction messages generalizing p s with
  | nil => exact ⟨[], (List.append_nil _).symm⟩
  | cons m rest ih =>
    obtain ⟨outcome, next, q, hcases, hsend⟩ := p.sendAll_cons s idle part m
    rw [hsend]
    obtain ⟨wire, hwire⟩ := ih q next
    dsimp only
    rw [hwire]
    cases hcases with
    | tooLarge | exhausted => exact ⟨wire, rfl⟩
    | sent _ _ _ haccepted => exact ⟨_, by rw [haccepted, List.append_assoc]⟩
    | cut _ _ _ _ _ haccepted => exact ⟨_, by rw [haccepted, List.append_assoc]⟩

/-- A full peer takes nothing, and nothing is sent to it. -/
theorem sendAll_of_full (p : Peer) (s : StreamEncoder) (idle part : Nat)
    (messages : List Message) (hfull : p.room = some 0) :
    (p.sendAll s idle part messages).2.2.accepted = p.accepted ∧
      sent (p.sendAll s idle part messages).1 = [] := by
  induction messages generalizing p s with
  | nil => exact ⟨rfl, rfl⟩
  | cons m rest ih =>
    obtain ⟨outcome, next, q, hcases, hsend⟩ := p.sendAll_cons s idle part m
    rw [hsend]
    cases hcases with
    | tooLarge | exhausted => exact ih p s hfull
    | sent _ _ hroom => exact absurd ((hasRoom_iff_of_full hfull).1 hroom) (Nat.ne_of_gt m.wireSize_pos)
    | @cut _ _ _ n _ _ _ _ htaken haccepted hfull' =>
      obtain ⟨hnothing, hsent⟩ := ih q s.advanced hfull'
      obtain rfl : n = 0 := (hasRoom_iff_of_full hfull).1 htaken
      rw [List.take_zero, List.append_nil] at haccepted
      exact ⟨hnothing.trans haccepted, hsent⟩

/-- What the peer took is received up to the first message that did not get through. -/
theorem receiveAll_sendAll (p q : Peer) (s : StreamEncoder) (idle part idle' part' : Nat)
    (messages : List Message) (hinverts : s.aead.Inverts)
    (hpending : (p.sendAll s idle part messages).2.2.accepted = p.accepted ++ q.pending)
    (hending : q.ending = none) :
    q.receiveAll s.reader idle' part' =
      (sent (p.sendAll s idle part messages).1, .connectionClosed) := by
  -- Induction on the messages: the reader stays where the sender is, as long as frames get through.
  induction messages generalizing p q s with
  | nil =>
    have hnothing : q.pending = [] := by
      rw [sendAll] at hpending
      exact List.self_eq_append_right.1 hpending
    exact receiveAll_of_nil hnothing hending
  | cons m rest ih =>
    obtain ⟨outcome, next, p', hcases, hsend⟩ := p.sendAll_cons s idle part m
    rw [hsend] at hpending ⊢
    cases hcases with
    | tooLarge | exhausted => exact ih p q s hinverts hpending hending
    | @sent frame _ _ hseal _ haccepted =>
      obtain ⟨wire, hwire⟩ := p'.accepted_sendAll s.advanced idle part rest
      have hframes : q.pending = framed frame ++ wire := by
        dsimp only at hpending
        rw [hwire, haccepted, List.append_assoc] at hpending
        exact (List.append_cancel_left hpending).symm
      obtain ⟨after, hreceive, hafter, hending'⟩ :=
        receive_framed idle' part' hinverts hseal hframes
      have hrest := ih p' after s.advanced hinverts (by rw [hwire, hafter])
        (hending'.trans hending)
      rw [receiveAll_of_ok hreceive, hrest]
      rfl
    | @cut frame _ _ n _ hseal _ hn _ haccepted hfull =>
      obtain ⟨hnothing, hsent⟩ := p'.sendAll_of_full s.advanced idle part rest hfull
      have hcut : q.pending = (framed frame).take n := by
        dsimp only at hpending
        rw [hnothing, haccepted] at hpending
        exact (List.append_cancel_left hpending).symm
      rw [receiveAll_of_error (receive_of_cut hseal hn hcut hending), sent, hsent]

/-- Messages that are too large could as well not have been there. -/
theorem sendAll_filter (p : Peer) (s : StreamEncoder) (idle part : Nat) (messages : List Message) :
    p.sendAll s idle part (messages.filter Message.fits) =
      ((p.sendAll s idle part messages).1.filter fun x => x.1.fits,
        (p.sendAll s idle part messages).2) := by
  induction messages generalizing p s with
  | nil => rfl
  | cons m rest ih =>
    obtain ⟨outcome, next, q, hcases, hsend⟩ := p.sendAll_cons s idle part m
    rw [hsend]
    cases hcases with
    | tooLarge h =>
      rw [List.filter_cons_of_neg (by simp [h]), List.filter_cons_of_neg (by simp [h])]
      exact ih p s
    | exhausted hfits | sent hfits | cut hfits =>
      simp only [List.filter_cons, hfits, if_true]
      rw [hsend, ih]

/-- A message is refused for its size if it is too large, and only then. -/
theorem tooLarge_iff_of_mem_sendAll {p : Peer} {s : StreamEncoder} {idle part : Nat}
    {messages : List Message} {x : Message × Except WireError Unit}
    (hx : x ∈ (p.sendAll s idle part messages).1) :
    x.2 = .error (.frame (.bodyTooLarge Message.maxBodySize x.1.body.length)) ↔
      x.1.fits = false := by
  induction messages generalizing p s with
  | nil => cases hx
  | cons m rest ih =>
    obtain ⟨outcome, next, q, hcases, hsend⟩ := p.sendAll_cons s idle part m
    rw [hsend] at hx
    cases hx with
    | tail _ hx => exact ih hx
    | head =>
      cases hcases with
      | tooLarge h => simp [h]
      | exhausted hfits | sent hfits => simp [hfits]
      | cut hfits => cases hrefusal : p.refusal <;> simp [hfits, Fault.error]

/-- With room for all and counter values for all, all that is not too large is sent. -/
theorem sent_sendAll (p : Peer) (s : StreamEncoder) (idle part : Nat) (messages : List Message)
    (hroom : p.hasRoom ((messages.filter Message.fits).map Message.wireSize).sum = true)
    (hcounter : s.counter.toNat + (messages.filter Message.fits).length ≤ streamLimit) :
    sent (p.sendAll s idle part messages).1 = messages.filter Message.fits := by
  induction messages generalizing p s with
  | nil => rfl
  | cons m rest ih =>
    obtain ⟨outcome, next, q, hcases, hsend⟩ := p.sendAll_cons s idle part m
    rw [hsend]
    cases hfits : m.fits with
    | false =>
      rw [List.filter_cons_of_neg (by simp [hfits])] at hroom hcounter ⊢
      cases hcases with
      | tooLarge => exact ih p s hroom hcounter
      | exhausted h | sent h | cut h => rw [hfits] at h; cases h
    | true =>
      rw [List.filter_cons_of_pos hfits] at hroom hcounter ⊢
      rw [List.length_cons] at hcounter
      rw [List.map_cons, List.sum_cons] at hroom
      cases hcases with
      | tooLarge h => rw [hfits] at h; cases h
      | exhausted _ h => omega
      | sent _ _ _ _ hleft =>
        have hnext := s.toNat_counter_advanced (by omega)
        rw [sent, ih q s.advanced (by rw [hleft, hroom]) (by omega)]
      | cut _ _ h =>
        rw [hasRoom_of_le (Nat.le_add_right _ _) hroom] at h
        cases h

theorem map_fst_sendAll (p : Peer) (s : StreamEncoder) (idle part : Nat)
    (messages : List Message) : (p.sendAll s idle part messages).1.map Prod.fst = messages := by
  induction messages generalizing p s with
  | nil => rfl
  | cons m rest ih =>
    obtain ⟨outcome, next, q, -, hsend⟩ := p.sendAll_cons s idle part m
    rw [hsend, List.map_cons, ih]

end Peer

/-- Messages are sent one after the other on a stream, also after errors, to a peer that may stop
taking bytes anywhere. Whoever is attached to the stream and gets what was taken, in any pieces, and
then the end, receives the messages that were sent without an error, and after them meets the end.

A message is refused for its size if it is too large, and only then. Without such messages all goes
as with them: the same for every other message, on the wire and in the stream. With room for all the
others, and as many counter values, all the others are sent. -/
theorem Suite.received_eq_sent (suite : Suite) (key : Key) (header : StreamHeader)
    (messages : List Message) (p : Peer) (idle part : Nat) (hinverts : suite.aead.Inverts) :
    ∃ decoder : StreamDecoder, suite.attachStream key header.bytes = .ok decoder ∧
      ∀ (outcomes : List (Message × Except WireError Unit)) (s : StreamEncoder) (last : Peer),
        p.sendAll (suite.encoder key header) idle part messages = (outcomes, s, last) →
        outcomes.map Prod.fst = messages ∧
        (∃ wire, last.accepted = p.accepted ++ wire ∧
          ∀ (q : Peer) (idle' part' : Nat), q.pending = wire → q.ending = none →
            q.receiveAll decoder idle' part' = (Peer.sent outcomes, .connectionClosed)) ∧
        (∀ x ∈ outcomes,
          x.2 = .error (.frame (.bodyTooLarge Message.maxBodySize x.1.body.length)) ↔
            Message.maxBodySize < x.1.body.length) ∧
        p.sendAll (suite.encoder key header) idle part (messages.filter Message.fits) =
          (outcomes.filter fun x => x.1.fits, s, last) ∧
        (p.hasRoom ((messages.filter Message.fits).map Message.wireSize).sum = true →
          (messages.filter Message.fits).length ≤ streamLimit →
          Peer.sent outcomes = messages.filter Message.fits) := by
  have hattach : suite.attachStream key header.bytes = .ok (suite.encoder key header).reader := by
    rw [Suite.attachStream, Octets.ofBytes?_bytes]
    rfl
  refine ⟨_, hattach, fun outcomes s last hsend => ?_⟩
  have houtcomes : (p.sendAll (suite.encoder key header) idle part messages).1 = outcomes := by
    rw [hsend]
  refine ⟨?_, ?_, fun x hx => ?_, ?_, fun hroom hcounter => ?_⟩
  · rw [← houtcomes, Peer.map_fst_sendAll]
  · obtain ⟨wire, hwire⟩ := p.accepted_sendAll (suite.encoder key header) idle part messages
    refine ⟨wire, by rw [← hwire, hsend], fun q idle' part' hpending hending => ?_⟩
    rw [← houtcomes]
    exact Peer.receiveAll_sendAll p q _ idle part idle' part' messages hinverts
      (by rw [hwire, hpending]) hending
  · rw [← houtcomes] at hx
    rw [Peer.tooLarge_iff_of_mem_sendAll hx, Message.fits, decide_eq_false_iff_not, Nat.not_le]
  · rw [Peer.sendAll_filter, hsend]
  · rw [← houtcomes]
    apply Peer.sent_sendAll p _ idle part messages hroom
    -- The counter of a new stream is zero.
    exact (Nat.zero_add _).symm ▸ hcounter

namespace Sample

/-- A message from one user to another. -/
def note (body : Bytes) : Message where
  flag := .proceed
  timestamp := 7
  sender := 1
  recipient := 2
  token := .empty
  body := body

/-- A message, one that is too large, and two more. -/
def notes : List Message := [note [1], note (List.replicate 161 2), note [3], note [4]]

/-- A peer that breaks off within the third message. -/
def breakingPeer : Peer := { room := some 284, refusal := .broken "connection reset" }

end Sample

/-- Of four messages, one is too large and the last is cut off. The other two are received. -/
theorem Suite.received_eq_sent_cut :
    Sample.taggingSuite.aead.Inverts ∧
      ∃ (decoder : StreamDecoder) (outcomes : List (Message × Except WireError Unit))
        (s : StreamEncoder) (last : Peer),
        Sample.taggingSuite.attachStream (.zero keySize) (Octets.zero headerSize).bytes =
          .ok decoder ∧
        Sample.breakingPeer.sendAll
          (Sample.taggingSuite.encoder (.zero keySize) (.zero headerSize)) 5 5 Sample.notes =
            (outcomes, s, last) ∧
        outcomes.map (fun x => x.2.toBool) = [true, false, true, false] ∧
        last.accepted.length = 284 ∧
        ∀ q : Peer, q.pending = last.accepted → q.ending = none →
          q.receiveAll decoder 5 5 = ([Sample.note [1], Sample.note [3]], .connectionClosed) := by
  have hoks : (Sample.breakingPeer.sendAll
      (Sample.taggingSuite.encoder (.zero keySize) (.zero headerSize)) 5 5 Sample.notes).1.map
        (fun x => x.2.toBool) = [true, false, true, false] := by decide +kernel
  have hlength : (Sample.breakingPeer.sendAll
      (Sample.taggingSuite.encoder (.zero keySize) (.zero headerSize)) 5 5
        Sample.notes).2.2.accepted.length = 284 := by decide +kernel
  have hsent : Peer.sent (Sample.breakingPeer.sendAll
      (Sample.taggingSuite.encoder (.zero keySize) (.zero headerSize)) 5 5 Sample.notes).1 =
        [Sample.note [1], Sample.note [3]] := by decide +kernel
  obtain ⟨decoder, hattach, hsending⟩ := Sample.taggingSuite.received_eq_sent (.zero keySize)
    (.zero headerSize) Sample.notes Sample.breakingPeer 5 5 Sample.inverts_taggingAead
  rcases hsend : Sample.breakingPeer.sendAll
    (Sample.taggingSuite.encoder (.zero keySize) (.zero headerSize)) 5 5 Sample.notes
    with ⟨outcomes, s, last⟩
  rw [hsend] at hoks hlength hsent
  obtain ⟨-, ⟨wire, hwire, hreceived⟩, -⟩ := hsending outcomes s last hsend
  refine ⟨Sample.inverts_taggingAead, decoder, outcomes, s, last, hattach, rfl, hoks, hlength,
    fun q hpending hending => ?_⟩
  rw [← hsent]
  exact hreceived q 5 5 (hpending.trans hwire) hending

end Relay
