import Relay.Message.Codec
import Relay.Session.Keys

/-!
# `Relay.Wire.Peer`: the other end of a connection

A `Peer` is the other end of a connection as the relay meets it: the bytes that come from it, cut
into the pieces in which they arrive, what follows when they are used up, and how many bytes it
takes. `Peer.read` and `Peer.write` are the only ways to deal with it. Both have a time limit and
both always come to an end: a peer that has nothing more to give, or takes nothing more, either
stays silent until the limit is reached, or breaks off.

How the bytes are cut into pieces makes no difference (`fst_takePieces`, `flatten_snd_takePieces`).
-/

set_option autoImplicit false

namespace Relay

/-- What the relay is doing with a peer. -/
inductive WireStep where
  /-- Waiting for the length of a frame. -/
  | frameLengthRead
  /-- Waiting for the rest of a frame. -/
  | frameBodyRead
  /-- Writing the length of a frame. -/
  | frameLengthWrite
  /-- Writing the rest of a frame. -/
  | frameBodyWrite
  /-- Writing the relay's key. -/
  | relayKeyWrite
  /-- Waiting for the client's key. -/
  | clientKeyRead
  /-- Writing the header of the relay's stream. -/
  | relayHeaderWrite
  /-- Waiting for the header of the client's stream. -/
  | clientHeaderRead
  /-- Turning a client away. -/
  | rejectionWrite
  /-- Waiting for anything at all. -/
  | idleWait
deriving DecidableEq

/-- The name of a step. -/
def WireStep.label : WireStep → String
  | frameLengthRead => "frame length read"
  | frameBodyRead => "frame body read"
  | frameLengthWrite => "frame length write"
  | frameBodyWrite => "frame body write"
  | relayKeyWrite => "server key write"
  | clientKeyRead => "client key read"
  | relayHeaderWrite => "server header write"
  | clientHeaderRead => "client header read"
  | rejectionWrite => "rejection write"
  | idleWait => "idle"

/-- Why dealing with a peer fails. -/
inductive WireError where
  /-- A step took too long. -/
  | timeout (step : WireStep)
  /-- A frame announces a length that no frame has. -/
  | invalidLength (announced : UInt32)
  /-- The connection broke. -/
  | io (reason : String)
  /-- A message cannot be packed or unpacked. -/
  | frame (cause : CodecError)
  /-- The peer's key is unusable, or a frame is not the next one of its stream. -/
  | crypto (cause : CryptoError)
  /-- The peer, or the relay, closed the connection. -/
  | connectionClosed
deriving DecidableEq

/-- The wording of a failure. -/
def WireError.message : WireError → String
  | timeout step => s!"{step.label} timed out"
  | invalidLength announced => s!"invalid frame length {announced}"
  | io reason => s!"io error: {reason}"
  | frame cause => s!"frame error: {cause.message}"
  | crypto cause => s!"crypto error: {cause.message}"
  | connectionClosed => "connection closed"

/-- What goes wrong at the other end. -/
inductive Fault where
  /-- Nothing happens any more. -/
  | silent
  /-- The connection breaks. -/
  | broken (reason : String)
deriving DecidableEq

/-- What a fault comes to for the step that meets it. -/
def Fault.error (step : WireStep) : Fault → WireError
  | silent => .timeout step
  | broken reason => .io reason

/-- How long a fault is waited for under a limit. -/
def Fault.delay (limit : Nat) : Fault → Nat
  | silent => limit
  | broken _ => 0

/-- The other end of a connection. -/
structure Peer where
  /-- The bytes that come from it, in the pieces in which they arrive. -/
  arriving : List Bytes := []
  /-- What follows after them; without a fault, the orderly end. -/
  ending : Option Fault := none
  /-- How many more bytes it takes; any number, if there is no limit. -/
  room : Option Nat := none
  /-- What happens to a write beyond that. -/
  refusal : Fault := .silent
  /-- How many bytes were read from it. -/
  consumed : Nat := 0
  /-- The bytes that it took. -/
  accepted : Bytes := []
  /-- How long it was waited for, in milliseconds. -/
  waited : Nat := 0
deriving DecidableEq

/-- The first `size` bytes of some pieces, or all if there are fewer, and the pieces left. -/
def takePieces : Nat → List Bytes → Bytes × List Bytes
  | _, [] => ([], [])
  | size, piece :: rest =>
    if size < piece.length then (piece.take size, piece.drop size :: rest)
    else
      let (more, left) := takePieces (size - piece.length) rest
      (piece ++ more, left)

/-- What is taken does not depend on the cutting. -/
theorem fst_takePieces (size : Nat) (pieces : List Bytes) :
    (takePieces size pieces).1 = pieces.flatten.take size := by
  induction pieces generalizing size with
  | nil => simp [takePieces]
  | cons piece rest ih =>
    by_cases h : size < piece.length
    · simp [takePieces, h, List.take_append_of_le_length (Nat.le_of_lt h)]
    · simp [takePieces, h, ih, List.take_append, List.take_of_length_le (Nat.not_lt.1 h)]

/-- What is left does not depend on the cutting. -/
theorem flatten_snd_takePieces (size : Nat) (pieces : List Bytes) :
    (takePieces size pieces).2.flatten = pieces.flatten.drop size := by
  induction pieces generalizing size with
  | nil => simp [takePieces]
  | cons piece rest ih =>
    by_cases h : size < piece.length
    · simp [takePieces, h, List.drop_append_of_le_length (Nat.le_of_lt h)]
    · simp [takePieces, h, ih, List.drop_append, List.drop_of_length_le (Nat.not_lt.1 h)]

namespace Peer

/-- The bytes that were not read yet. -/
def pending (p : Peer) : Bytes := p.arriving.flatten

/-- Reads exactly `size` bytes, each step of waiting for them under a limit in milliseconds. If
there are fewer they are read nevertheless, and lost. -/
def read (p : Peer) (size limit : Nat) (step : WireStep) : Except WireError Bytes × Peer :=
  let (bytes, arriving) := takePieces size p.arriving
  let p := { p with arriving, consumed := p.consumed + bytes.length }
  if bytes.length = size then (.ok bytes, p)
  else
    match p.ending with
    | none => (.error .connectionClosed, p)
    | some fault => (.error (fault.error step), { p with waited := p.waited + fault.delay limit })

/-- Writes all of some bytes under a limit in milliseconds. What the peer takes before it refuses,
it has taken. -/
def write (p : Peer) (bytes : Bytes) (limit : Nat) (step : WireStep) : Except WireError Unit × Peer :=
  match p.room with
  | none => (.ok (), { p with accepted := p.accepted ++ bytes })
  | some room =>
    -- A write that is refused has got through in part.
    let p := { p with
      accepted := p.accepted ++ bytes.take room
      room := some (room - bytes.length) }
    if bytes.length ≤ room then (.ok (), p)
    else (.error (p.refusal.error step), { p with waited := p.waited + p.refusal.delay limit })

/-- Reading takes bytes from those that were not read yet. -/
theorem pending_read (p : Peer) (size limit : Nat) (step : WireStep) :
    (p.read size limit step).2.pending = p.pending.drop size := by
  simp only [read, pending]
  split
  · exact flatten_snd_takePieces size p.arriving
  · split <;> exact flatten_snd_takePieces size p.arriving

/-- A successful read gives the next bytes. -/
theorem read_eq_ok_iff (p : Peer) (size limit : Nat) (step : WireStep) (bytes : Bytes) :
    (p.read size limit step).1 = .ok bytes ↔ size ≤ p.pending.length ∧ bytes = p.pending.take size := by
  have h := fst_takePieces size p.arriving
  simp only [read, pending, h]
  by_cases hs : size ≤ p.arriving.flatten.length
  · have hl : (p.arriving.flatten.take size).length = size := by
      rw [List.length_take]; omega
    rw [if_pos hl]
    simp only [Except.ok.injEq, hs, true_and]
    exact eq_comm
  · have hl : ¬ (p.arriving.flatten.take size).length = size := by
      rw [List.length_take]; omega
    rw [if_neg hl]
    split <;> simp only [hs, false_and, iff_false] <;> exact fun h => nomatch h

end Peer

end Relay
