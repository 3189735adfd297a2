import Relay.Link.Read

/-!
# `Relay.Link.Write`: the writer of a session

Each function here is one step of the writer and is `none` where the step cannot be taken. A writer
that fails leaves the permit to close and takes nothing more out of the queue. A writer that is
left alone, because nobody can put messages into the queue any more, writes what is there and ends.
-/

set_option autoImplicit false

namespace Relay

namespace Link

variable (S : Service)

/-- The writer fails: what waits in the queue is lost. -/
def stopWriting (l : Link) (σ : State) : Link × State :=
  ({ l with writer := .ended, closing := true },
   { σ with outboxes := σ.outboxes.modify l.id Outbox.close })

/-- The writer takes the next message out of the queue and seals it. -/
def collect? (l : Link) (now : Nat) (σ : State) : Option (Link × State) :=
  match l.writer, (σ.outboxes.get? l.id).bind Outbox.next? with
  | .idle, some m =>
    let σ := { σ with outboxes := σ.outboxes.modify l.id Outbox.dropNext }
    match l.encoder.sealMessage m with
    | .error _ => some (l.stopWriting σ)
    | .ok (frame, encoder) =>
      some ({ l with encoder, writer := .length frame (now + millis (idleLimit S)) }, σ)
  | _, _ => none

/-- The client has taken what the writer was writing. -/
def taken? (l : Link) (now : Nat) : Option Link :=
  match l.writer with
  | .length frame _ =>
    some { l with
      sent := l.sent ++ word32 (UInt32.ofNat frame.length)
      writer := .body frame (now + millis (partLimit S)) }
  | .body frame _ => some ({ l with sent := l.sent ++ frame, writer := .idle }.touch now)
  | _ => none

/-- The connection breaks while the writer is writing. -/
def refuse? (l : Link) (σ : State) : Option (Link × State) :=
  match l.writer with
  | .length _ _ | .body _ _ => some (l.stopWriting σ)
  | _ => none

/-- The writer gives up on a client that takes too long. -/
def lapse? (l : Link) (now : Nat) (σ : State) : Option (Link × State) :=
  match l.writer with
  | .length _ deadline | .body _ deadline =>
    if deadline ≤ now then some (l.stopWriting σ) else none
  | _ => none

/-- The writer ends because nothing waits and nothing will. -/
def finish? (l : Link) (σ : State) : Option Link :=
  match l.writer, (σ.outboxes.get? l.id).bind Outbox.next? with
  | .idle, none => if l.released then some { l with writer := .ended } else none
  | _, _ => none

end Link

end Relay
