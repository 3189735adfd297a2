import Relay.Link.Basic

/-!
# `Relay.Link.Read`: the reader of a session

Each function here is one step of the reader and is `none` where the step cannot be taken. While the
reader waits for a frame, several steps may be possible at once: more has arrived, the permit to
close is there, a timer goes off. None of them has precedence, but a body that is there in full is
not too late, and one that will never come is not waited for.

The idle timer runs on while a body is waited for. It is set when the reader begins to wait for a
frame and again each time that it goes off too early, because something was written meanwhile.
-/

set_option autoImplicit false

namespace Relay

namespace Link

variable (S : Service)

/-- The time for which a connection may be silent, in milliseconds. -/
def idleLimit : Nat := S.config.idleTimeoutMs.toNat

/-- The time within which a body has to follow its length, in milliseconds. -/
def partLimit : Nat := S.config.partTimeoutMs.toNat

/-- The reader ends. -/
def stopReading (l : Link) (result : Except WireError Outcome) : Link :=
  { l with reader := .ended result }

/-- The reader begins to wait for the next frame. -/
def awaitFrame (l : Link) : Link :=
  { l with reader := .awaiting .length (l.activity.idleDeadline (idleLimit S)) }

/-- The reader takes in what a step of routing came to. -/
def proceed (l : Link) (turn : Turn) (replies : List Message) (since : Nat) : Link × State :=
  match turn.next with
  | .finished outcome =>
    ({ l with reader := .replying (replies ++ turn.replies) outcome since }, turn.state)
  | .waiting pending =>
    ({ l with reader := .routing pending (replies ++ turn.replies) since }, turn.state)

/-- The reader opens a frame and begins to route its message. A text that is no message ends the
session: the connection is removed, and one reply says so. -/
def openFrame (l : Link) (now : Nat) (t : Moment) (σ : State) (frame : Bytes) : Link × State :=
  match l.decoder.decrypt frame with
  | .error e => (l.stopReading (.error (.crypto e)), σ)
  | .ok (text, decoder) =>
    let l := { l with decoder }
    match Message.unpack text with
    | .error _ =>
      ({ l with reader := .replying [S.malformedReply t] .finishWithError now }, σ.purge l.id)
    | .ok m => l.proceed (S.begin σ t l.id m) [] now

/-- The reader takes in what is next of a frame, if that has arrived in full; if it never will, the
reader ends. -/
def read? (l : Link) (now : Nat) (t : Moment) (σ : State) : Option (Link × State) :=
  match l.reader with
  | .awaiting .length timer =>
    if l.incoming.length < frameLengthSize then
      l.inputEnd.map fun e => (l.stopReading (.error e), σ)
    else
      let length := ofWord32 (l.incoming.take frameLengthSize)
      let l := { l with incoming := l.incoming.drop frameLengthSize }
      -- The idle timer is not set anew for the body.
      if isFrameLength length then
        let part := FramePart.body length.toNat (now + millis (partLimit S))
        some ({ l with reader := .awaiting part timer }, σ)
      else some (l.stopReading (.error (.invalidLength length)), σ)
  | .awaiting (.body size _) _ =>
    if l.incoming.length < size then l.inputEnd.map fun e => (l.stopReading (.error e), σ)
    else
      let frame := l.incoming.take size
      let l := { l with incoming := l.incoming.drop size }
      some ((l.touch now).openFrame S now t σ frame)
  | _ => none

/-- The reader finds the permit to close. -/
def notice? (l : Link) : Option Link :=
  match l.reader with
  | .awaiting _ _ =>
    if l.closing then some ({ l with closing := false }.stopReading (.error .connectionClosed))
    else none
  | _ => none

/-- The idle timer goes off. The reader ends if the connection has been silent for too long by
now, and sets the timer again if not. -/
def ring? (l : Link) (now : Nat) : Option Link :=
  match l.reader with
  | .awaiting part timer =>
    if timer ≤ now then
      let deadline := l.activity.idleDeadline (idleLimit S)
      if deadline ≤ now then some (l.stopReading (.error (.timeout .idleWait)))
      else some { l with reader := .awaiting part deadline }
    else none
  | _ => none

/-- The reader gives up on a body that is too late. -/
def giveUp? (l : Link) (now : Nat) : Option Link :=
  match l.reader with
  | .awaiting (.body size deadline) _ =>
    if deadline ≤ now ∧ l.incoming.length < size ∧ l.inputEnd.isNone then
      some (l.stopReading (.error (.timeout .frameBodyRead)))
    else none
  | _ => none

/-- The store has answered. -/
def resume? (l : Link) (t : Moment) (σ : State) : Option (Link × State) :=
  match l.reader with
  | .routing pending replies since => some (l.proceed (S.resume σ t l.id pending) replies since)
  | _ => none

/-- The reader hands the next reply over. It waits while the queue is full, and ends if nobody
takes messages out of it any more. -/
def reply? (l : Link) (σ : State) : Option (Link × State) :=
  match l.reader with
  | .replying (m :: rest) outcome since =>
    match σ.delivery l.id with
    | .queued => some ({ l with reader := .replying rest outcome since }, σ.enqueue l.id m)
    -- The outcome is lost with the replies.
    | .closed => some (l.stopReading (.error .connectionClosed), σ)
    | .full => none
  | _ => none

/-- The reader is done with a frame. -/
def conclude? (l : Link) (now : Nat) (σ : State) : Option (Link × State) :=
  match l.reader with
  | .replying [] outcome since =>
    let σ := { σ with metrics := σ.metrics.observe (now - since) }
    if outcome.closes then some (l.stopReading (.ok outcome), σ) else some (l.awaitFrame S, σ)
  | _ => none

end Link

end Relay
