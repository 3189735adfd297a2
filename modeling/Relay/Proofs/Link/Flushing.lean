import Relay.Proofs.Link.Writing
import Relay.Proofs.Routing.Size

/-!
# `Relay.Proofs.Link.Flushing`: a writer that is left alone writes what waits

When the reader of a session has ended and the connection is removed, nobody puts messages into the
queue any more. What is in the queue by then is not lost: the writer takes out one message after the
other, writes each as far as the client takes it, and ends when the queue is empty. `Link.Flushes`
says that it can, by steps of its own, as long as the client takes what is written. It needs room for
what waits in the numbering of its stream, and nothing else.

The proof goes by the messages that wait. Each takes three steps, and one ends the writer
(`Link.LeftAlone`).
-/

set_option autoImplicit false

namespace Relay

/-- Whether an event is something that the writer does, or that the client does when it takes what
is written. -/
def LinkEvent.isWriting : LinkEvent → Bool
  | collect | taken | finish => true
  | _ => false

namespace Link

variable {S : Service} {now : Nat} {l l' : Link} {σ σ' : State} {event : LinkEvent}
  {first : StreamEncoder} {placed : List Message} {box : Outbox}

/-! ### Steps one after the other -/

/-- What a list of events makes of a session and of what connections share, if each of them can
happen in its turn. -/
def run? (S : Service) (now : Nat) (l : Link) (σ : State) : List LinkEvent → Option (Link × State)
  | [] => some (l, σ)
  | event :: rest =>
    match l.step? S now σ event with
    | none => none
    | some (next, τ) => next.run? S now τ rest

/-- The writer can write all that was placed in the queue, and end, if the client takes it. -/
def Flushes (S : Service) (now : Nat) (first : StreamEncoder) (placed : List Message) (l : Link)
    (σ : State) : Prop :=
  ∃ (events : List LinkEvent) (l' : Link) (σ' : State), (∀ event ∈ events, event.isWriting) ∧
    l.run? S now σ events = some (l', σ') ∧ l'.writer = .ended ∧ first.Writes placed l'.sent

theorem Flushes.cons (h : l'.Flushes S now first placed σ')
    (hstep : l.step? S now σ event = some (l', σ')) (hevent : event.isWriting) :
    l.Flushes S now first placed σ := by
  obtain ⟨events, k, τ, hevents, hrun, hended⟩ := h
  refine ⟨event :: events, k, τ, List.forall_mem_cons.2 ⟨hevent, hevents⟩, ?_, hended⟩
  rw [run?, hstep]
  exact hrun

/-! ### The writer -/

/-- Nobody puts messages into the queue of a session any more, and its writer has not failed. -/
structure LeftAlone (first : StreamEncoder) (placed : List Message) (box : Outbox) (l : Link)
    (σ : State) : Prop where
  found : σ.outboxes.get? l.id = some box
  isOpen : box.isOpen = true
  released : l.released = true
  writing : Writing first placed box l.released l.writer l.encoder l.sent

namespace LeftAlone

/-- The writer takes out the next message. -/
theorem collect (h : l.LeftAlone first placed box σ) (hwriter : l.writer = .idle) {m : Message}
    {rest : List Message} (hwaiting : box.waiting = m :: rest) {frame : Bytes}
    {next : StreamEncoder} (hseal : l.encoder.sealMessage m = .ok (frame, next)) (S : Service)
    (now : Nat) :
    ∃ (l' : Link) (σ' : State) (deadline : Nat), l.step? S now σ .collect = some (l', σ') ∧
      l'.LeftAlone first placed box.dropNext σ' ∧ l'.writer = .length frame deadline ∧
        l'.encoder = next := by
  have hnext : (σ.outboxes.get? l.id).bind Outbox.next? = some m := by
    rw [h.found, Option.bind_some, Outbox.next?, hwaiting, List.head?_cons]
  have hstep : l.step? S now σ .collect =
      some ({ l with encoder := next, writer := .length frame (now + millis (idleLimit S)) },
        { σ with outboxes := σ.outboxes.modify l.id Outbox.dropNext }) := by
    simp only [step?, collect?, hwriter, hnext, hseal]
  have hwriting := hwriter ▸ h.writing
  refine ⟨_, _, _, hstep, ⟨?_, h.isOpen, h.released, hwriting.collect hwaiting hseal _⟩, rfl, rfl⟩
  rw [Table.get?_modify, if_pos rfl, h.found, Option.map_some]

/-- The client takes the length of a frame. -/
theorem announce (h : l.LeftAlone first placed box σ) {frame : Bytes} {deadline : Nat}
    (hwriter : l.writer = .length frame deadline) (S : Service) (now : Nat) :
    ∃ (l' : Link) (later : Nat), l.step? S now σ .taken = some (l', σ) ∧
      l'.LeftAlone first placed box σ ∧ l'.writer = .body frame later ∧
        l'.encoder = l.encoder := by
  have hstep : l.step? S now σ .taken =
      some ({ l with
        sent := l.sent ++ word32 (UInt32.ofNat frame.length)
        writer := .body frame (now + millis (partLimit S)) }, σ) := by
    simp only [step?, taken?, hwriter, Option.map_some]
  have hwriting := hwriter ▸ h.writing
  exact ⟨_, _, hstep, ⟨h.found, h.isOpen, h.released, hwriting.announce _⟩, rfl, rfl⟩

/-- The client takes the rest of a frame. -/
theorem write (h : l.LeftAlone first placed box σ) {frame : Bytes} {deadline : Nat}
    (hwriter : l.writer = .body frame deadline) (S : Service) (now : Nat) :
    ∃ l' : Link, l.step? S now σ .taken = some (l', σ) ∧ l'.LeftAlone first placed box σ ∧
      l'.writer = .idle ∧ l'.encoder = l.encoder := by
  have hstep : l.step? S now σ .taken =
      some ({ l with sent := l.sent ++ frame, writer := .idle }.touch now, σ) := by
    simp only [step?, taken?, hwriter, Option.map_some]
  have hwriting := hwriter ▸ h.writing
  exact ⟨_, hstep, ⟨h.found, h.isOpen, h.released, hwriting.write⟩, rfl, rfl⟩

/-- The writer finds the queue empty. -/
theorem finish (h : l.LeftAlone first placed box σ) (hwriter : l.writer = .idle)
    (hempty : box.waiting = []) (S : Service) (now : Nat) : l.Flushes S now first placed σ := by
  have hnext : (σ.outboxes.get? l.id).bind Outbox.next? = none := by
    rw [h.found, Option.bind_some, Outbox.next?, hempty, List.head?_nil]
  have hstep : l.step? S now σ .finish = some ({ l with writer := .ended }, σ) := by
    simp only [step?, finish?, hwriter, hnext, if_pos h.released, Option.map_some]
  have hwriting := hwriter ▸ h.writing
  have hended : ({ l with writer := .ended } : Link).Flushes S now first placed σ := by
    refine ⟨[], _, σ, List.forall_mem_nil _, rfl, rfl, ?_⟩
    generalize l.sent = sent at hwriting ⊢
    cases hwriting with
    | @idle taken frames encoder _ hplaced hseals =>
      rw [hempty, List.append_nil] at hplaced
      exact ⟨frames, _, hplaced ▸ hseals, rfl⟩
  exact hended.cons hstep rfl

/-- A writer that is done with a frame writes what waits. -/
theorem flushes_of_idle (h : l.LeftAlone first placed box σ) (hwriter : l.writer = .idle)
    (hfits : ∀ m ∈ box.waiting, m.fits)
    (hroom : l.encoder.counter.toNat + box.waiting.length ≤ streamLimit) (S : Service) (now : Nat) :
    l.Flushes S now first placed σ := by
  -- Induction on what waits. The next message is collected, announced and written.
  generalize hwaiting : box.waiting = waiting at hfits hroom
  induction waiting generalizing l σ box with
  | nil => exact h.finish hwriter hwaiting S now
  | cons m rest ih =>
    obtain ⟨hm, hrest⟩ := List.forall_mem_cons.1 hfits
    rw [List.length_cons] at hroom
    have hcounter : l.encoder.counter.toNat < streamLimit := by omega
    obtain ⟨frame, hseal⟩ := (Message.Sendable.of_fits hm).seals _ hcounter
    obtain ⟨l₁, σ₁, _, hcollect, h₁, hwriter₁, hencoder₁⟩ := h.collect hwriter hwaiting hseal S now
    obtain ⟨l₂, _, hannounce, h₂, hwriter₂, hencoder₂⟩ := h₁.announce hwriter₁ S now
    obtain ⟨l₃, hwrite, h₃, hwriter₃, hencoder₃⟩ := h₂.write hwriter₂ S now
    have hleft : box.dropNext.waiting = rest := by
      rw [Outbox.waiting_dropNext, hwaiting, List.tail_cons]
    have hnext : l₃.encoder.counter.toNat = l.encoder.counter.toNat + 1 := by
      rw [hencoder₃, hencoder₂, hencoder₁, StreamEncoder.toNat_counter_advanced hcounter]
    have hlater := ih h₃ hwriter₃ hleft hrest (by omega)
    exact ((hlater.cons hwrite rfl).cons hannounce rfl).cons hcollect rfl

/-- Whatever the writer has come to, it writes what waits. -/
theorem flushes (h : l.LeftAlone first placed box σ) (hruns : l.writer ≠ .ended)
    (hfits : ∀ m ∈ box.waiting, m.fits)
    (hroom : l.encoder.counter.toNat + box.waiting.length ≤ streamLimit) (S : Service) (now : Nat) :
    l.Flushes S now first placed σ := by
  have hbody {k : Link} (hk : k.LeftAlone first placed box σ) {frame : Bytes} {deadline : Nat}
      (hwriter : k.writer = .body frame deadline) (hencoder : k.encoder = l.encoder) :
      k.Flushes S now first placed σ := by
    obtain ⟨k', hwrite, hk', hwriter', hencoder'⟩ := hk.write hwriter S now
    refine (hk'.flushes_of_idle hwriter' hfits ?_ S now).cons hwrite rfl
    rwa [hencoder', hencoder]
  cases hwriter : l.writer with
  | idle => exact h.flushes_of_idle hwriter hfits hroom S now
  | length frame deadline =>
    obtain ⟨k, _, hannounce, hk, hwriter', hencoder⟩ := h.announce hwriter S now
    exact (hbody hk hwriter' hencoder).cons hannounce rfl
  | body frame deadline => exact hbody h hwriter rfl
  | ended => exact absurd hwriter hruns

end LeftAlone

end Link

end Relay
