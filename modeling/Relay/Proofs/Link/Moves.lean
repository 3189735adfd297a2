import Relay.Link.Step

/-!
# `Relay.Proofs.Link.Moves`: all that a step of a session can be

`Link.Moves` lists what may happen on a session, with what it takes and with the whole of what it
does, and `moves_of_step?` says that there is nothing else. Later proofs go by its cases and do not
open `Link.step?` again. Where a reader gives up while it waits for a frame, `Link.Fails` says why,
and where a writer gives up while it writes, `Link.Breaks` does.

What is of no interest to anybody but the two halves themselves, which is when something is due, is
left open.
-/

set_option autoImplicit false

namespace Relay

/-- The number of bytes that are waited for. -/
def FramePart.size : FramePart → Nat
  | length => frameLengthSize
  | body size _ => size

/-- When what is being written has to be taken, as long as something is. -/
def WriterStage.deadline? : WriterStage → Option Nat
  | length _ deadline | body _ deadline => some deadline
  | idle | ended => none

/-- Where a reader is after a step of routing. -/
def ReaderStage.ofTurn (turn : Turn) (replies : List Message) (since : Nat) : ReaderStage :=
  match turn.next with
  | .finished outcome => replying (replies ++ turn.replies) outcome since
  | .waiting pending => routing pending (replies ++ turn.replies) since

namespace Link

variable {S : Service} {now : Nat} {l l' : Link} {σ σ' : State} {t : Moment}

/-! ### What may happen -/

/-- The reader waits for the body of a frame, which is there in full, and so much follows it. -/
structure Holds (l : Link) (frame rest : Bytes) : Prop where
  reader : ∃ deadline timer, l.reader = .awaiting (.body frame.length deadline) timer
  incoming : l.incoming = frame ++ rest

/-- Why a reader gives up while it waits for a frame. -/
inductive Fails (S : Service) (now : Nat) (l : Link) : LinkEvent → WireError → Prop where
  /-- The input has ended or is broken, and what is waited for is not there. -/
  | input (t : Moment) {part : FramePart} {timer : Nat} {e : WireError}
      (hreader : l.reader = .awaiting part timer) (hend : l.inputEnd = some e)
      (hshort : l.incoming.length < part.size) : Fails S now l (.read t) e
  /-- A length comes that no frame has. -/
  | invalid (t : Moment) {timer : Nat} {length : UInt32} {rest : Bytes}
      (hreader : l.reader = .awaiting .length timer) (hincoming : l.incoming = word32 length ++ rest)
      (hlength : isFrameLength length = false) : Fails S now l (.read t) (.invalidLength length)
  /-- The permit to close is there. -/
  | closer {part : FramePart} {timer : Nat} (hreader : l.reader = .awaiting part timer)
      (hclosing : l.closing = true) : Fails S now l .notice .connectionClosed
  /-- The connection has been silent for too long. -/
  | silent {part : FramePart} {timer : Nat} (hreader : l.reader = .awaiting part timer)
      (hdeadline : l.activity.idleDeadline (idleLimit S) ≤ now) :
      Fails S now l .ring (.timeout .idleWait)
  /-- A body does not come in time. -/
  | late {size deadline timer : Nat} (hreader : l.reader = .awaiting (.body size deadline) timer)
      (hdeadline : deadline ≤ now) (hshort : l.incoming.length < size) :
      Fails S now l .giveUp (.timeout .frameBodyRead)

/-- Why a writer gives up while it writes. -/
inductive Breaks (now : Nat) (l : Link) : LinkEvent → Prop where
  /-- The connection breaks. -/
  | refused {deadline : Nat} (hwriter : l.writer.deadline? = some deadline) : Breaks now l .refuse
  /-- The client is too slow. -/
  | late {deadline : Nat} (hwriter : l.writer.deadline? = some deadline) (hdeadline : deadline ≤ now) :
      Breaks now l .lapse

/-- What an event makes of a session and of what connections share. -/
inductive Moves (S : Service) (now : Nat) (l : Link) (σ : State) : LinkEvent → Link → State → Prop
    where
  /-- Bytes arrive. -/
  | arrives (bytes : Bytes) :
      Moves S now l σ (.arrive bytes) { l with incoming := l.incoming ++ bytes } σ
  /-- Nothing more will arrive. -/
  | hangsUp (broken : Option String) (e : WireError) :
      Moves S now l σ (.hangUp broken) { l with inputEnd := some e } σ
  /-- The reader takes in the length of a frame. -/
  | measures (t : Moment) {timer : Nat} {length : UInt32} {rest : Bytes} (deadline : Nat)
      (hreader : l.reader = .awaiting .length timer) (hincoming : l.incoming = word32 length ++ rest)
      (hlength : isFrameLength length = true) :
      Moves S now l σ (.read t)
        { l with
          incoming := rest
          reader := .awaiting (.body length.toNat deadline) timer } σ
  /-- The reader takes in a frame that does not open, and ends. -/
  | rejects (t : Moment) {frame rest : Bytes} {e : CryptoError} (activity : Activity)
      (hholds : l.Holds frame rest) (hdecrypt : l.decoder.decrypt frame = .error e) :
      Moves S now l σ (.read t)
        { l with incoming := rest, activity, reader := .ended (.error (.crypto e)) } σ
  /-- The reader takes in a frame that opens to a text that is no message. -/
  | misreads (t : Moment) {frame rest text : Bytes} {decoder : StreamDecoder} {e : CodecError}
      (activity : Activity) (hholds : l.Holds frame rest)
      (hdecrypt : l.decoder.decrypt frame = .ok (text, decoder))
      (hunpack : Message.unpack text = .error e) :
      Moves S now l σ (.read t)
        { l with
          incoming := rest
          activity
          decoder
          reader := .replying [S.malformedReply t] .finishWithError now } (σ.purge l.id)
  /-- The reader takes in a frame that holds a message, and begins to route it. -/
  | begins (t : Moment) {frame rest text : Bytes} {decoder : StreamDecoder} {m : Message}
      (activity : Activity) (hholds : l.Holds frame rest)
      (hdecrypt : l.decoder.decrypt frame = .ok (text, decoder))
      (hunpack : Message.unpack text = .ok m) :
      Moves S now l σ (.read t)
        { l with
          incoming := rest
          activity
          decoder
          reader := .ofTurn (S.begin σ t l.id m) [] now } (S.begin σ t l.id m).state
  /-- The reader gives up. -/
  | fails {event : LinkEvent} {e : WireError} (hfails : l.Fails S now event e) (incoming : Bytes)
      (closing : Bool) :
      Moves S now l σ event { l with incoming, closing, reader := .ended (.error e) } σ
  /-- The idle timer is set again. -/
  | rings {part : FramePart} {timer : Nat} (deadline : Nat)
      (hreader : l.reader = .awaiting part timer) :
      Moves S now l σ .ring { l with reader := .awaiting part deadline } σ
  /-- The store has answered. -/
  | resumes (t : Moment) {p : Pending} {replies : List Message} {since : Nat}
      (hreader : l.reader = .routing p replies since) :
      Moves S now l σ (.resume t)
        { l with reader := .ofTurn (S.resume σ t l.id p) replies since } (S.resume σ t l.id p).state
  /-- The reader hands a reply over. -/
  | replies {m : Message} {rest : List Message} {outcome : Outcome} {since : Nat}
      (hreader : l.reader = .replying (m :: rest) outcome since)
      (hqueued : σ.delivery l.id = .queued) :
      Moves S now l σ .reply { l with reader := .replying rest outcome since } (σ.enqueue l.id m)
  /-- Nobody takes the reply, and the reader ends. -/
  | loses {m : Message} {rest : List Message} {outcome : Outcome} {since : Nat}
      (hreader : l.reader = .replying (m :: rest) outcome since)
      (hclosed : σ.delivery l.id = .closed) :
      Moves S now l σ .reply { l with reader := .ended (.error .connectionClosed) } σ
  /-- The reader is done with a frame, and waits for the next. -/
  | goesOn {outcome : Outcome} {since : Nat} (timer : Nat) (metrics : Metrics)
      (hreader : l.reader = .replying [] outcome since) (hstays : outcome.closes = false) :
      Moves S now l σ .conclude { l with reader := .awaiting .length timer } { σ with metrics }
  /-- The reader is done with a frame, and ends. -/
  | concludes {outcome : Outcome} {since : Nat} (metrics : Metrics)
      (hreader : l.reader = .replying [] outcome since) (hcloses : outcome.closes = true) :
      Moves S now l σ .conclude { l with reader := .ended (.ok outcome) } { σ with metrics }
  /-- The writer takes a message out of the queue, and begins to write it. -/
  | collects {box : Outbox} {m : Message} {rest : List Message} {frame : Bytes}
      {encoder : StreamEncoder} (deadline : Nat) (hwriter : l.writer = .idle)
      (hbox : σ.outboxes.get? l.id = some box) (hwaiting : box.waiting = m :: rest)
      (hseal : l.encoder.sealMessage m = .ok (frame, encoder)) :
      Moves S now l σ .collect { l with encoder, writer := .length frame deadline }
        { σ with outboxes := σ.outboxes.modify l.id Outbox.dropNext }
  /-- The writer takes a message out of the queue that cannot be sealed, and fails. -/
  | chokes {box : Outbox} {m : Message} {rest : List Message} {e : WireError}
      (hwriter : l.writer = .idle) (hbox : σ.outboxes.get? l.id = some box)
      (hwaiting : box.waiting = m :: rest) (hseal : l.encoder.sealMessage m = .error e) :
      Moves S now l σ .collect { l with writer := .ended, closing := true }
        { σ with outboxes := (σ.outboxes.modify l.id Outbox.dropNext).modify l.id Outbox.close }
  /-- The length of a frame is written. -/
  | announces {frame : Bytes} {deadline : Nat} (later : Nat)
      (hwriter : l.writer = .length frame deadline) :
      Moves S now l σ .taken
        { l with
          sent := l.sent ++ word32 (UInt32.ofNat frame.length)
          writer := .body frame later } σ
  /-- A frame is written. -/
  | writes {frame : Bytes} {deadline : Nat} (activity : Activity)
      (hwriter : l.writer = .body frame deadline) :
      Moves S now l σ .taken { l with sent := l.sent ++ frame, activity, writer := .idle } σ
  /-- The writer gives up while it writes. -/
  | breaks {event : LinkEvent} (hbreaks : l.Breaks now event) :
      Moves S now l σ event { l with writer := .ended, closing := true }
        { σ with outboxes := σ.outboxes.modify l.id Outbox.close }
  /-- The writer ends because nothing waits and nothing will. -/
  | finishes (hwriter : l.writer = .idle) (hreleased : l.released = true)
      (hempty : (σ.outboxes.get? l.id).bind Outbox.next? = none) :
      Moves S now l σ .finish { l with writer := .ended } σ

/-! ### The reader -/

theorem proceed_eq (l : Link) (turn : Turn) (replies : List Message) (since : Nat) :
    l.proceed turn replies since =
      ({ l with reader := .ofTurn turn replies since }, turn.state) := by
  cases hnext : turn.next with
  | finished outcome => simp only [proceed, ReaderStage.ofTurn, hnext]
  | waiting pending => simp only [proceed, ReaderStage.ofTurn, hnext]

/-- What is there begins with a length, if there is enough of it. -/
theorem exists_word32 {bytes : Bytes} (h : ¬ bytes.length < frameLengthSize) :
    bytes = word32 (ofWord32 (bytes.take frameLengthSize)) ++ bytes.drop frameLengthSize := by
  have hlength : (bytes.take frameLengthSize).length = 4 :=
    List.length_take_of_le (Nat.le_of_not_lt h)
  rw [word32_ofWord32 hlength, List.take_append_drop]

theorem moves_of_openFrame {frame rest : Bytes} (activity : Activity)
    (hholds : l.Holds frame rest)
    (h : { l with incoming := rest, activity }.openFrame S now t σ frame = (l', σ')) :
    Moves S now l σ (.read t) l' σ' := by
  unfold openFrame at h
  dsimp only at h
  split at h
  · rename_i hdecrypt
    cases h
    exact .rejects t activity hholds hdecrypt
  · rename_i hdecrypt
    split at h
    · rename_i hunpack
      cases h
      exact .misreads t activity hholds hdecrypt hunpack
    · rename_i hunpack
      rw [proceed_eq] at h
      cases h
      exact .begins t activity hholds hdecrypt hunpack

theorem moves_of_read? (h : l.read? S now t σ = some (l', σ')) :
    Moves S now l σ (.read t) l' σ' := by
  unfold read? at h
  split at h
  · rename_i hreader
    split at h
    · rename_i hshort
      obtain ⟨e, hend, heq⟩ := Option.map_eq_some_iff.1 h
      cases heq
      exact .fails (.input t hreader hend hshort) l.incoming l.closing
    · rename_i hlong
      have hincoming := exists_word32 hlong
      dsimp only at h
      split at h
      · rename_i hlength
        cases h
        exact .measures t _ hreader hincoming hlength
      · rename_i hlength
        cases h
        exact .fails (.invalid t hreader hincoming (Bool.eq_false_iff.2 hlength)) _ l.closing
  · rename_i hreader
    split at h
    · rename_i hshort
      obtain ⟨e, hend, heq⟩ := Option.map_eq_some_iff.1 h
      cases heq
      exact .fails (.input t hreader hend hshort) l.incoming l.closing
    · rename_i size deadline timer hlong
      have hsize : (l.incoming.take size).length = size :=
        List.length_take_of_le (Nat.le_of_not_lt hlong)
      have hholds : l.Holds (l.incoming.take size) (l.incoming.drop size) :=
        ⟨⟨deadline, timer, by rw [hsize, hreader]⟩, (List.take_append_drop _ _).symm⟩
      exact moves_of_openFrame _ hholds (Option.some.inj h)
  · cases h

theorem moves_of_notice? (h : l.notice? = some l') : Moves S now l σ .notice l' σ := by
  unfold notice? at h
  split at h
  · rename_i hreader
    split at h
    · rename_i hclosing
      cases h
      exact .fails (.closer hreader hclosing) l.incoming false
    · cases h
  · cases h

theorem moves_of_ring? (h : l.ring? S now = some l') : Moves S now l σ .ring l' σ := by
  unfold ring? at h
  split at h
  · rename_i hreader
    split at h
    · dsimp only at h
      split at h
      · rename_i hdeadline
        cases h
        exact .fails (.silent hreader hdeadline) l.incoming l.closing
      · cases h
        exact .rings _ hreader
    · cases h
  · cases h

theorem moves_of_giveUp? (h : l.giveUp? now = some l') : Moves S now l σ .giveUp l' σ := by
  unfold giveUp? at h
  split at h
  · rename_i hreader
    split at h
    · rename_i hlate
      cases h
      exact .fails (.late hreader hlate.1 hlate.2.1) l.incoming l.closing
    · cases h
  · cases h

theorem moves_of_resume? (h : l.resume? S t σ = some (l', σ')) :
    Moves S now l σ (.resume t) l' σ' := by
  unfold resume? at h
  split at h
  · rename_i hreader
    rw [proceed_eq] at h
    cases h
    exact .resumes t hreader
  · cases h

theorem moves_of_reply? (h : l.reply? σ = some (l', σ')) : Moves S now l σ .reply l' σ' := by
  unfold reply? at h
  split at h
  · rename_i hreader
    split at h
    · rename_i hqueued
      cases h
      exact .replies hreader hqueued
    · rename_i hclosed
      cases h
      exact .loses hreader hclosed
    · cases h
  · cases h

theorem moves_of_conclude? (h : l.conclude? S now σ = some (l', σ')) :
    Moves S now l σ .conclude l' σ' := by
  unfold conclude? at h
  split at h
  · rename_i hreader
    dsimp only at h
    split at h
    · rename_i hcloses
      cases h
      exact .concludes _ hreader hcloses
    · rename_i hstays
      cases h
      exact .goesOn _ _ hreader (Bool.eq_false_iff.2 hstays)
  · cases h

/-! ### The writer -/

theorem Breaks.writing {event : LinkEvent} (h : l.Breaks now event) :
    ∃ deadline, l.writer.deadline? = some deadline := by
  cases h with
  | refused hwriter | late hwriter => exact ⟨_, hwriter⟩

theorem moves_of_collect? (h : l.collect? S now σ = some (l', σ')) :
    Moves S now l σ .collect l' σ' := by
  unfold collect? at h
  split at h
  · rename_i hwriter hnext
    obtain ⟨box, hbox, hhead⟩ := Option.bind_eq_some_iff.1 hnext
    obtain ⟨rest, hwaiting⟩ := List.head?_eq_some_iff.1 hhead
    dsimp only at h
    split at h
    · rename_i hseal
      cases h
      exact .chokes hwriter hbox hwaiting hseal
    · rename_i hseal
      cases h
      exact .collects _ hwriter hbox hwaiting hseal
  · cases h

theorem moves_of_taken? (h : l.taken? S now = some l') : Moves S now l σ .taken l' σ := by
  unfold taken? at h
  split at h
  · rename_i hwriter
    cases h
    exact .announces _ hwriter
  · rename_i hwriter
    cases h
    exact .writes _ hwriter
  · cases h

theorem moves_of_stopWriting {event : LinkEvent} (hbreaks : l.Breaks now event)
    (h : some (l.stopWriting σ) = some (l', σ')) : Moves S now l σ event l' σ' := by
  cases h
  exact .breaks hbreaks

theorem moves_of_refuse? (h : l.refuse? σ = some (l', σ')) : Moves S now l σ .refuse l' σ' := by
  unfold refuse? at h
  split at h
  · rename_i hwriter
    exact moves_of_stopWriting (.refused (by rw [hwriter]; rfl)) h
  · rename_i hwriter
    exact moves_of_stopWriting (.refused (by rw [hwriter]; rfl)) h
  · cases h

theorem moves_of_lapse? (h : l.lapse? now σ = some (l', σ')) : Moves S now l σ .lapse l' σ' := by
  unfold lapse? at h
  split at h
  · rename_i hwriter
    split at h
    · rename_i hdeadline
      exact moves_of_stopWriting (.late (by rw [hwriter]; rfl) hdeadline) h
    · cases h
  · rename_i hwriter
    split at h
    · rename_i hdeadline
      exact moves_of_stopWriting (.late (by rw [hwriter]; rfl) hdeadline) h
    · cases h
  · cases h

theorem moves_of_finish? (h : l.finish? σ = some l') : Moves S now l σ .finish l' σ := by
  unfold finish? at h
  split at h
  · rename_i hwriter hempty
    split at h
    · rename_i hreleased
      cases h
      exact .finishes hwriter hreleased hempty
    · cases h
  · cases h

/-! ### All events -/

/-- There is nothing else that may happen on a session. -/
theorem moves_of_step? {event : LinkEvent} (h : l.step? S now σ event = some (l', σ')) :
    Moves S now l σ event l' σ' := by
  -- Some steps of the halves leave what connections share alone.
  have alone {next : Option Link} {event : LinkEvent}
      (hmoves : ∀ l', next = some l' → Moves S now l σ event l' σ)
      (h : next.map (fun l => (l, σ)) = some (l', σ')) : Moves S now l σ event l' σ' := by
    obtain ⟨l'', hnext, heq⟩ := Option.map_eq_some_iff.1 h
    cases heq
    exact hmoves _ hnext
  cases event with
  | arrive bytes =>
    simp only [step?] at h
    split at h
    · cases h
    · cases h
      exact .arrives bytes
  | hangUp broken =>
    simp only [step?] at h
    split at h
    · cases h
    · cases h
      exact .hangsUp broken _
  | read t => exact moves_of_read? h
  | notice => exact alone (fun _ => moves_of_notice?) h
  | ring => exact alone (fun _ => moves_of_ring?) h
  | giveUp => exact alone (fun _ => moves_of_giveUp?) h
  | resume t => exact moves_of_resume? h
  | reply => exact moves_of_reply? h
  | conclude => exact moves_of_conclude? h
  | collect => exact moves_of_collect? h
  | taken => exact alone (fun _ => moves_of_taken?) h
  | refuse => exact moves_of_refuse? h
  | lapse => exact moves_of_lapse? h
  | finish => exact alone (fun _ => moves_of_finish?) h

end Link

end Relay
