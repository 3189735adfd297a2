import Relay.Session.Stream
import Relay.Wire.Peer

/-!
# `Relay.Wire.Frame`: frames in a stream of bytes

What is said on an established session goes in frames, each a length of four bytes, least
significant byte first, and as many bytes:

    length 4 | body

A frame holds at least one byte and at most those of the largest sealed message. The length is
waited for under the idle limit; once it is there, the body is waited for under the shorter part
limit. A length that no frame has ends the stream there and then: what follows it is not read.
-/

set_option autoImplicit false

namespace Relay

/-- The number of bytes of a frame's length. -/
def frameLengthSize : Nat := 4

/-- The most bytes of a frame. -/
def maxFrameSize : Nat := sealedSize Message.maxSize

/-- Whether a length is that of a frame. -/
def isFrameLength (length : UInt32) : Bool := length != 0 && length.toNat ≤ maxFrameSize

/-- A frame as it stands in a stream. -/
def framed (frame : Bytes) : Bytes := word32 (UInt32.ofNat frame.length) ++ frame

namespace Peer

/-- Reads the next frame. The limits are in milliseconds. -/
def readFrame (p : Peer) (idle part : Nat) : Except WireError Bytes × Peer :=
  match p.read frameLengthSize idle .frameLengthRead with
  | (.error e, p) => (.error e, p)
  | (.ok bytes, p) =>
    let length := ofWord32 bytes
    if isFrameLength length then p.read length.toNat part .frameBodyRead
    else (.error (.invalidLength length), p)

/-- Writes a frame. The limits are in milliseconds. -/
def writeFrame (p : Peer) (frame : Bytes) (idle part : Nat) : Except WireError Unit × Peer :=
  match p.write (word32 (UInt32.ofNat frame.length)) idle .frameLengthWrite with
  | (.error e, p) => (.error e, p)
  | (.ok _, p) => p.write frame part .frameBodyWrite

/-- A frame that was read is no longer there to be read. -/
theorem length_pending_readFrame (p : Peer) (idle part : Nat) (frame : Bytes)
    (h : (p.readFrame idle part).1 = .ok frame) :
    (p.readFrame idle part).2.pending.length < p.pending.length := by
  have hp := p.pending_read frameLengthSize idle .frameLengthRead
  have hr := p.read_eq_ok_iff frameLengthSize idle .frameLengthRead
  revert h
  unfold readFrame
  generalize p.read frameLengthSize idle .frameLengthRead = got at hp hr
  obtain ⟨_ | bytes, q⟩ := got
  · intro h; nomatch h
  · have hle := ((hr bytes).1 rfl).1
    simp only at hp ⊢
    split
    · intro _
      rw [q.pending_read, hp]
      simp only [List.length_drop, frameLengthSize] at hle ⊢
      omega
    · intro h; nomatch h

/-- Reads frames until that fails: the frames, why it failed in the end, and the peer then. -/
def readFrames (p : Peer) (idle part : Nat) : List Bytes × WireError × Peer :=
  match h : p.readFrame idle part with
  | (.error e, p) => ([], e, p)
  | (.ok frame, q) =>
    have : q.pending.length < p.pending.length := by
      have shorter := p.length_pending_readFrame idle part frame (by rw [h])
      rwa [h] at shorter
    let (frames, e, q) := q.readFrames idle part
    (frame :: frames, e, q)
termination_by p.pending.length

end Peer

end Relay
