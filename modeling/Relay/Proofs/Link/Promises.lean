import Relay.Proofs.Link.Pipeline
import Relay.Proofs.Routing.Size

/-!
# `Relay.Proofs.Link.Promises`: what may be relied on about one session

From what a journal tells of its session follows what a client may rely on, without another look at
the steps. `Link.Pipelined` collects it for a state: the reader takes in the first of the frames that
arrive, in their order, and none behind the first that closes the connection; it stands still only
when it has taken in all of them or waits for room in its queue; the replies to one frame come before
those to the next. Two more properties are about the step at which a half ends: `Link.Stops` lists why
a reader does, and `Link.Quits` why a writer does.
-/

set_option autoImplicit false

namespace Relay

/-- Whether an event is something that the reader does by itself with what is there. -/
def LinkEvent.isHandling : LinkEvent → Bool
  | read _ | resume _ | reply | conclude => true
  | _ => false

namespace Link

variable {S : Service} {now : Nat} {l l' : Link} {σ σ' : State} {event : LinkEvent} {t : Moment}

/-! ### Why a session goes on and why it ends -/

/-- Nothing that the reader is to do by itself can be done: it waits for something. -/
def Rests (S : Service) (now : Nat) (l : Link) (σ : State) : Prop :=
  ∀ event : LinkEvent, event.isHandling → l.step? S now σ event = none

/-- A reader that cannot take in what is next waits for more of it. -/
theorem short_of_read?_eq_none {part : FramePart} {timer : Nat}
    (hreader : l.reader = .awaiting part timer) (h : l.read? S now t σ = none) :
    l.incoming.length < part.size := by
  by_contra hlong
  unfold read? at h
  rw [hreader] at h
  cases part with
  | length =>
    dsimp only [FramePart.size] at h hlong
    rw [if_neg hlong] at h
    split at h <;> cases h
  | body size deadline =>
    dsimp only [FramePart.size] at h hlong
    rw [if_neg hlong] at h
    cases h

/-- Why the reader of a session ends. -/
inductive Stops (S : Service) (now : Nat) (l : Link) : LinkEvent → Except WireError Outcome → Prop
    where
  /-- The replies to a frame are handed over, and its outcome closes the connection. -/
  | concluded {outcome : Outcome} {since : Nat} (hreader : l.reader = .replying [] outcome since)
      (hcloses : outcome.closes = true) : Stops S now l .conclude (.ok outcome)
  /-- A frame does not open. -/
  | rejected (t : Moment) {frame rest : Bytes} {e : CryptoError} (hholds : l.Holds frame rest)
      (hdecrypt : l.decoder.decrypt frame = .error e) :
      Stops S now l (.read t) (.error (.crypto e))
  /-- It gives up while it waits for a frame. -/
  | failed {event : LinkEvent} {e : WireError} (hfails : l.Fails S now event e) :
      Stops S now l event (.error e)
  /-- It has a reply in hand, and the writer has ended. -/
  | lost {m : Message} {rest : List Message} {outcome : Outcome} {since : Nat}
      (hreader : l.reader = .replying (m :: rest) outcome since) (hwriter : l.writer = .ended) :
      Stops S now l .reply (.error .connectionClosed)

/-- Why the writer of a session ends. -/
inductive Quits (now : Nat) (l : Link) (σ : State) : LinkEvent → Prop where
  /-- It was left alone, and nothing waits. -/
  | finished (hreleased : l.released = true) (hempty : σ.waiting l.id = []) : Quits now l σ .finish
  /-- The numbers of its stream are used up. -/
  | exhausted (hcounter : ¬ l.encoder.counter.toNat < streamLimit) : Quits now l σ .collect
  /-- The connection breaks or the client is too slow. -/
  | broken {event : LinkEvent} (hbreaks : l.Breaks now event) : Quits now l σ event

/-- There is no other reason for the writer to end, as long as what waits can be sent. -/
theorem Moves.quits (h : Moves S now l σ event l' σ') (hruns : l.writer ≠ .ended)
    (hended : l'.writer = .ended) (hfits : ∀ m ∈ σ.waiting l.id, m.fits) :
    l.Quits now σ event := by
  cases h with
  | arrives | hangsUp | measures | rejects | misreads | begins | fails | rings | resumes | replies
  | loses | goesOn | concludes => exact absurd hended hruns
  | collects | announces | writes => cases hended
  | chokes _ hbox hwaiting hseal =>
    rw [State.waiting_of_get? hbox, hwaiting] at hfits
    exact .exhausted (Message.error_of_fits (hfits _ List.mem_cons_self) hseal).2
  | breaks hbreaks => exact .broken hbreaks
  | finishes _ hreleased hempty =>
    refine .finished hreleased ?_
    cases hbox : σ.outboxes.get? l.id with
    | none => rw [State.waiting, hbox]
    | some box =>
      rw [hbox, Option.bind_some, Outbox.next?, List.head?_eq_none_iff] at hempty
      rw [State.waiting_of_get? hbox, hempty]

/-! ### What may be relied on -/

/-- What may be relied on about a session, given what it went through. -/
structure Pipelined (S : Service) (now : Nat) (j : Journal) (l : Link) (σ : State) : Prop where
  /-- The frames that the reader took in are the first of those that have arrived. -/
  order : ∀ (frames : List Bytes) (rest : Bytes), Decomposes j.arrived frames rest →
    j.frames <+: frames
  /-- Each of them was opened in its place in the stream and routed before the next, all but the last
  to its end. -/
  reads : Intake.ReadsAll S l.id j.first.decoder j.intakes l.decoder ∧
    ∀ x ∈ j.intakes.dropLast, x.Stays
  /-- Nothing is taken in behind the first frame that closes the connection. -/
  closes : ∀ (before : List Intake) (x : Intake) (after : List Intake),
    j.intakes = before ++ x :: after → x.reading.closes = true → after = []
  /-- A reader that stands still has taken in all frames that have arrived, or it waits for room in
  its queue. -/
  exhausts : l.reader.hasEnded = false → l.Rests S now σ →
    (∀ (frames : List Bytes) (rest : Bytes), Decomposes j.arrived frames rest →
      j.frames = frames) ∨ l.reader.replies ≠ [] ∧ σ.delivery l.id = .full
  /-- As long as frames arrive, no length is taken for an error. -/
  lengths : ∀ frames : List Bytes, (∀ frame ∈ frames, IsFrame frame) →
    j.arrived <+: frames.flatMap framed → ∀ (timer : Nat) (length : UInt32) (rest : Bytes),
      l.reader = .awaiting .length timer → l.incoming = word32 length ++ rest →
        isFrameLength length = true
  /-- While the writer lives, the replies in the queue are those to the frames, frame by frame and
  each of them once, but for those that the reader has still in hand. -/
  replies : l.writer ≠ .ended → j.own ++ l.reader.replies = repliesTo j.intakes
  /-- If the writer has failed, they are the first of them. -/
  first : j.own <+: repliesTo j.intakes
  /-- There is one reply without a body to a text that is no message, and the connection is
  removed. -/
  malformed : ∀ (before : List Intake) (frame text : Bytes) (reply : Message),
    j.intakes = before ++ [⟨frame, .malformed text reply⟩] →
      reply.flag = .error ∧ reply.recipient = UserId.toAnonymous ∧ reply.body = [] ∧
        repliesTo j.intakes = repliesTo before ++ [reply] ∧ σ.registry.contains l.id = false
  /-- There is no reply to a frame that does not open, and the reader has ended. -/
  unopened : ∀ (before : List Intake) (frame : Bytes) (e : CryptoError),
    j.intakes = before ++ [⟨frame, .unopened e⟩] →
      j.own = repliesTo before ∧ l.reader = .ended (.error (.crypto e))
  /-- What was placed in the queue, by the reader or by others, is written in its order. -/
  writes : ∃ box, σ.outboxes.get? l.id = some box ∧
    Writing j.first.encoder j.messages box l.released l.writer l.encoder l.sent

end Link

namespace Journal.Tells

variable {S : Service} {now : Nat} {j : Journal} {l l' : Link} {σ σ' : State} {event : LinkEvent}
  {frames : List Bytes} {rest : Bytes}

/-- The frames that the reader took in are the first of those that have arrived. -/
theorem order (h : j.Tells S l σ) (hframes : Decomposes j.arrived frames rest) :
    j.frames <+: frames := by
  obtain ⟨behind, hwhole⟩ := h.cut.first
  exact hframes.longest h.cut.valid hwhole.symm

/-- While the reader waits for more than what is there, it has taken in all frames that are. -/
theorem frames_eq_of_short (h : j.Tells S l σ) {part : FramePart} {timer : Nat}
    (hreader : l.reader = .awaiting part timer) (hshort : l.incoming.length < part.size)
    (hframes : Decomposes j.arrived frames rest) : j.frames = frames := by
  have hwhole := h.cut.whole (by rw [hreader]; rfl)
  refine (hframes.unique ⟨hwhole, h.cut.valid, fun frame behind hframe heq => ?_⟩).1
  rw [hreader] at heq
  cases part with
  | length =>
    have hlength : l.incoming.length = frameLengthSize + frame.length + behind.length := by
      rw [← Peer.length_framed, ← List.length_append, ← heq]
      rfl
    simp only [FramePart.size] at hshort
    omega
  | body size deadline =>
    obtain ⟨hsize, hincoming⟩ := toNat_eq_of_framed hframe heq
    rw [UInt32.toNat_ofNat_of_lt' (Nat.lt_of_le_of_lt (h.cut.size _ _ _ hreader).2 (by decide))]
      at hsize
    rw [hincoming, List.length_append, ← hsize] at hshort
    simp only [FramePart.size] at hshort
    omega

/-- A reader that stands still has taken in all frames that have arrived, or it has to wait for room
in its queue. -/
theorem exhausts (h : j.Tells S l σ) (hruns : l.reader.hasEnded = false)
    (hrests : l.Rests S now σ) :
    (∀ frames rest, Decomposes j.arrived frames rest → j.frames = frames) ∨
      l.reader.replies ≠ [] ∧ σ.delivery l.id = .full := by
  -- Wherever the reader stands, there is one step of its own that it would take next.
  let t : Moment := { now := 0 }
  cases hreader : l.reader with
  | awaiting part timer =>
    have hshort := Link.short_of_read?_eq_none hreader (hrests (.read t) rfl)
    exact .inl fun frames rest hframes => h.frames_eq_of_short hreader hshort hframes
  | routing p replies since =>
    have hnone := hrests (.resume t) rfl
    simp [Link.step?, Link.resume?, hreader] at hnone
  | replying replies outcome since =>
    cases replies with
    | nil =>
      have hnone := hrests .conclude rfl
      simp only [Link.step?, Link.conclude?, hreader] at hnone
      split at hnone <;> cases hnone
    | cons m rest =>
      have hnone := hrests .reply rfl
      simp only [Link.step?, Link.reply?, hreader] at hnone
      split at hnone
      · cases hnone
      · cases hnone
      · rename_i hfull
        exact .inr ⟨List.cons_ne_nil _ _, hfull⟩
  | ended result =>
    rw [hreader] at hruns
    cases hruns

/-- What stands behind the frames that were taken in is the beginning of a frame, if frames arrive. -/
theorem lengths (h : j.Tells S l σ) (hframes : ∀ frame ∈ frames, IsFrame frame)
    (harrived : j.arrived <+: frames.flatMap framed) {timer : Nat} {length : UInt32}
    (hreader : l.reader = .awaiting .length timer) (hincoming : l.incoming = word32 length ++ rest) :
    isFrameLength length = true := by
  have hwhole := h.cut.whole (by rw [hreader]; rfl)
  rw [hreader, hincoming, ReaderStage.begun, List.nil_append] at hwhole
  -- All that arrives is frames, and so is what stands behind those that were taken in.
  obtain ⟨behind, hall⟩ := harrived
  rw [hwhole, List.append_assoc] at hall
  obtain ⟨later, hlater⟩ := (decomposes_flatMap hframes).longest h.cut.valid hall.symm
  rw [← hlater, List.flatMap_append] at hall
  have hbehind := List.append_cancel_left hall
  cases later with
  | nil => exact absurd (congrArg List.length hbehind) (by simp)
  | cons frame later =>
    have hframe : IsFrame frame := hframes frame (hlater ▸ List.mem_append_right _ List.mem_cons_self)
    rw [List.append_assoc, List.flatMap_cons] at hbehind
    obtain ⟨hsize, -⟩ := toNat_eq_of_framed hframe hbehind
    rw [isFrameLength_iff, hsize]
    exact hframe

/-- A frame that does not open is the last that the reader takes in. -/
theorem unopened (h : j.Tells S l σ) {before : List Intake} {frame : Bytes} {e : CryptoError}
    (hintakes : j.intakes = before ++ [⟨frame, .unopened e⟩]) :
    j.own = repliesTo before ∧ l.reader = .ended (.error (.crypto e)) := by
  obtain ⟨box, -, hstands, -⟩ := h.queue
  have hnothing : repliesTo j.intakes = repliesTo before := by
    rw [hintakes, repliesTo_snoc]
    exact List.append_nil _
  have hlast {others : List Intake} {x : Intake} (hothers : j.intakes = others ++ [x]) :
      x = ⟨frame, .unopened e⟩ := by
    have hsame := List.append_inj_right' (hothers.symm.trans hintakes) rfl
    exact List.singleton_inj.1 hsame
  have hclosing (hstay : ∀ x ∈ j.intakes, x.Stays) : False := by
    have hx := hstay ⟨frame, .unopened e⟩ (hintakes ▸ List.mem_append_right _ List.mem_cons_self)
    cases hx
  -- The frame has no outcome and does not leave the connection open, so that the reader can be
  -- nowhere else.
  generalize hreader : l.reader = reader at hstands ⊢
  cases hstands with
  | awaiting hstay | failed hstay => exact (hclosing hstay).elim
  | routing hothers => cases hlast hothers
  | replying hothers _ houtcome | concluded hothers _ houtcome | lost hothers _ houtcome =>
    rw [hlast hothers] at houtcome
    cases houtcome
  | rejected hothers _ hown =>
    cases hlast hothers
    exact ⟨hown.trans hnothing, rfl⟩

/-- A text that is no message has one reply. -/
theorem malformed (h : j.Tells S l σ) {before : List Intake} {frame text : Bytes} {reply : Message}
    (hintakes : j.intakes = before ++ [⟨frame, .malformed text reply⟩]) :
    reply.flag = .error ∧ reply.recipient = UserId.toAnonymous ∧ reply.body = [] ∧
      repliesTo j.intakes = repliesTo before ++ [reply] ∧ σ.registry.contains l.id = false := by
  have hreads := h.reads
  rw [hintakes] at hreads
  obtain ⟨decoder, -, hlast⟩ := hreads.of_snoc
  have hgone := h.purged ⟨frame, .malformed text reply⟩
    (hintakes ▸ List.mem_append_right _ List.mem_cons_self) rfl
  cases hlast with
  | malformed t =>
    refine ⟨rfl, rfl, rfl, ?_, hgone⟩
    rw [hintakes, repliesTo_snoc]
    rfl

/-- What a journal tells is all that is needed. -/
theorem pipelined (h : j.Tells S l σ) (now : Nat) : l.Pipelined S now j σ := by
  obtain ⟨box, hbox, hstands, hwriting⟩ := h.queue
  constructor
  · exact fun _ _ hframes => h.order hframes
  · exact ⟨h.reads, hstands.stays⟩
  · exact fun _ _ _ => hstands.eq_nil_of_closes
  · exact h.exhausts
  · exact fun _ hframes harrived _ _ _ => h.lengths hframes harrived
  · intro hruns
    rw [hwriting.isOpen_of_ne_ended hruns] at hstands
    exact hstands.own_append_replies
  · exact hstands.own_isPrefix
  · exact fun _ _ _ _ => h.malformed
  · exact fun _ _ _ => h.unopened
  · exact ⟨box, hbox, hwriting⟩

/-- There is no other reason for the reader to end. -/
theorem stops (h : j.Tells S l σ) (hmoves : l.Moves S now σ event l' σ')
    (hruns : l.reader.hasEnded = false) {result : Except WireError Outcome}
    (hended : l'.reader = .ended result) : l.Stops S now event result := by
  cases hmoves with
  | arrives | hangsUp | collects | chokes | announces | writes | breaks | finishes =>
    rw [show l.reader = .ended result from hended] at hruns
    cases hruns
  | measures | misreads | rings | replies | goesOn => cases hended
  | begins | resumes => exact absurd hended (ReaderStage.ofTurn_ne_ended _ _ _ _)
  | rejects t _ hholds hdecrypt =>
    cases hended
    exact .rejected t hholds hdecrypt
  | fails hfails =>
    cases hended
    exact .failed hfails
  | loses hreader hclosed =>
    cases hended
    obtain ⟨box, hbox, -, hwriting⟩ := h.queue
    rw [State.delivery_of_get? hbox, Outbox.delivery_eq_closed_iff] at hclosed
    exact .lost hreader (hwriting.ended_of_closed hclosed)
  | concludes _ hreader hcloses =>
    cases hended
    exact .concluded hreader hcloses

end Journal.Tells

end Relay
