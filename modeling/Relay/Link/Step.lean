import Relay.Link.Write

/-!
# `Relay.Link.Step`: what may happen on a session

`Link.step?` says what a `LinkEvent` makes of a session and of what connections share, and is
`none` where the event cannot happen.
-/

set_option autoImplicit false

namespace Relay

/-- What may happen on a session. -/
inductive LinkEvent where
  /-- Bytes arrive. -/
  | arrive (bytes : Bytes)
  /-- The client has nothing more to send, or the connection breaks for a reason. -/
  | hangUp (broken : Option String)
  /-- The reader takes in what is next of a frame. -/
  | read (t : Moment)
  /-- The reader finds the permit to close. -/
  | notice
  /-- The idle timer goes off. -/
  | ring
  /-- The reader gives up on a body. -/
  | giveUp
  /-- The store has answered. -/
  | resume (t : Moment)
  /-- The reader hands a reply over. -/
  | reply
  /-- The reader is done with a frame. -/
  | conclude
  /-- The writer takes a message out of the queue. -/
  | collect
  /-- The client has taken what was being written. -/
  | taken
  /-- The connection breaks while something is being written. -/
  | refuse
  /-- The writer gives up on the client. -/
  | lapse
  /-- The writer ends because nothing waits and nothing will. -/
  | finish

namespace Link

/-- What an event makes of a session and of what connections share. -/
def step? (S : Service) (now : Nat) (l : Link) (σ : State) :
    LinkEvent → Option (Link × State)
  | .arrive bytes => if l.inputEnd.isSome then none else some ({ l with incoming := l.incoming ++ bytes }, σ)
  | .hangUp broken =>
    if l.inputEnd.isSome then none
    else some ({ l with inputEnd := some ((broken.map WireError.io).getD .connectionClosed) }, σ)
  | .read t => l.read? S now t σ
  | .notice => l.notice?.map fun l => (l, σ)
  | .ring => (l.ring? S now).map fun l => (l, σ)
  | .giveUp => (l.giveUp? now).map fun l => (l, σ)
  | .resume t => l.resume? S t σ
  | .reply => l.reply? σ
  | .conclude => l.conclude? S now σ
  | .collect => l.collect? S now σ
  | .taken => (l.taken? S now).map fun l => (l, σ)
  | .refuse => l.refuse? σ
  | .lapse => l.lapse? now σ
  | .finish => (l.finish? σ).map fun l => (l, σ)

end Link

end Relay
