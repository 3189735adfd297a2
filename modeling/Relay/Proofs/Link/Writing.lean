import Relay.Proofs.Link.Step
import Relay.Proofs.Link.Welcome
import Relay.Proofs.Routing.Queues
import Relay.Proofs.Wire.Delivery

/-!
# `Relay.Proofs.Link.Writing`: what is placed in a queue is written in its order

The writer of a session takes messages out of a queue into which the reader and other connections
put them at the same time. `Link.Writing` says how far it has come: what was placed in the queue since
the session began is what the writer took out, followed by what waits, and what the client was sent
are the frames of what was taken out, sealed one after the other on the stream of the session. This
breaks off only where the writer fails, and then the queue is closed.

Whatever happens on the session keeps it (`Link.Moves.accounts`), and so does whatever others put into
the queue (`Link.Writing.gains`). A writer that ends without having failed has written everything.
-/

set_option autoImplicit false

namespace Relay

/-! ### Sealing one after the other -/

namespace StreamEncoder

/-- The frames that carry messages one after the other, and the stream after them. -/
def sealMessages (s : StreamEncoder) : List Message → Except WireError (List Bytes × StreamEncoder)
  | [] => .ok ([], s)
  | m :: rest =>
    match s.sealMessage m with
    | .error e => .error e
    | .ok (frame, next) =>
      match next.sealMessages rest with
      | .error e => .error e
      | .ok (frames, last) => .ok (frame :: frames, last)

/-- Bytes are the frames that carry messages one after the other, as they stand in a stream. -/
def Writes (s : StreamEncoder) (messages : List Message) (bytes : Bytes) : Prop :=
  ∃ (frames : List Bytes) (last : StreamEncoder), s.sealMessages messages = .ok (frames, last) ∧
    bytes = frames.flatMap framed

variable {s middle last : StreamEncoder} {messages later : List Message} {frames behind : List Bytes}

/-- What comes behind is sealed on the stream that is left. -/
theorem sealMessages_append (h : s.sealMessages messages = .ok (frames, middle))
    (h' : middle.sealMessages later = .ok (behind, last)) :
    s.sealMessages (messages ++ later) = .ok (frames ++ behind, last) := by
  induction messages generalizing s frames with
  | nil =>
    cases h
    exact h'
  | cons m rest ih =>
    unfold sealMessages at h
    split at h
    · cases h
    · rename_i hseal
      split at h
      · cases h
      · rename_i hrest
        cases h
        rw [List.cons_append, sealMessages, hseal]
        dsimp only
        rw [ih hrest]
        rfl

theorem sealMessages_singleton {m : Message} {frame : Bytes}
    (h : s.sealMessage m = .ok (frame, last)) : s.sealMessages [m] = .ok ([frame], last) := by
  rw [sealMessages, h]
  rfl

end StreamEncoder

namespace Link

/-! ### How far the writer has come -/

/-- How far the writer of a session has come, given what was placed in its queue, what the queue is
now, and whether nobody puts messages into it any more. -/
inductive Writing (first : StreamEncoder) (placed : List Message) (box : Outbox) (released : Bool) :
    WriterStage → StreamEncoder → Bytes → Prop where
  /-- All that was taken out of the queue is written. -/
  | idle {taken : List Message} {frames : List Bytes} {encoder : StreamEncoder}
      (hopen : box.isOpen = true) (hplaced : placed = taken ++ box.waiting)
      (hseals : first.sealMessages taken = .ok (frames, encoder)) :
      Writing first placed box released .idle encoder (frames.flatMap framed)
  /-- The frame of the last message that was taken out is to be written. -/
  | length {taken : List Message} {frames : List Bytes} {frame : Bytes} {encoder : StreamEncoder}
      {deadline : Nat} (hopen : box.isOpen = true) (hplaced : placed = taken ++ box.waiting)
      (hseals : first.sealMessages taken = .ok (frames ++ [frame], encoder)) :
      Writing first placed box released (.length frame deadline) encoder (frames.flatMap framed)
  /-- Its length is written. -/
  | body {taken : List Message} {frames : List Bytes} {frame : Bytes} {encoder : StreamEncoder}
      {deadline : Nat} (hopen : box.isOpen = true) (hplaced : placed = taken ++ box.waiting)
      (hseals : first.sealMessages taken = .ok (frames ++ [frame], encoder)) :
      Writing first placed box released (.body frame deadline) encoder
        (frames.flatMap framed ++ word32 (UInt32.ofNat frame.length))
  /-- The writer was left alone and has written all that was placed in the queue. -/
  | finished {frames : List Bytes} {encoder : StreamEncoder} (hopen : box.isOpen = true)
      (hreleased : released = true) (hempty : box.waiting = [])
      (hseals : first.sealMessages placed = .ok (frames, encoder)) :
      Writing first placed box released .ended encoder (frames.flatMap framed)
  /-- The writer has failed. What it had written are the first of what was placed in the queue, the
  last of them perhaps in part. -/
  | failed {taken : List Message} {frames : List Bytes} {encoder : StreamEncoder} {sent : Bytes}
      (hclosed : box.isOpen = false) (hempty : box.waiting = []) (htaken : taken <+: placed)
      (hseals : first.sealMessages taken = .ok (frames, encoder))
      (hsent : sent <+: frames.flatMap framed) :
      Writing first placed box released .ended encoder sent

namespace Writing

variable {first encoder : StreamEncoder} {placed added : List Message} {box box' : Outbox}
  {released : Bool} {writer : WriterStage} {sent : Bytes}

/-- A session begins with an empty queue, and nothing is sent yet. -/
theorem start (first : StreamEncoder) (released : Bool) (hopen : box.isOpen = true)
    (hempty : box.waiting = []) : Writing first [] box released .idle first [] := by
  have hseals : first.sealMessages [] = .ok ([], first) := rfl
  exact .idle hopen hempty.symm hseals

/-- A queue is closed only by a writer that has failed. -/
theorem ended_of_closed (h : Writing first placed box released writer encoder sent)
    (hclosed : box.isOpen = false) : writer = .ended := by
  cases h with
  | idle hopen | length hopen | body hopen =>
    rw [hopen] at hclosed
    cases hclosed
  | finished | failed => rfl

/-- As long as the writer lives, the queue is open. -/
theorem isOpen_of_ne_ended (h : Writing first placed box released writer encoder sent)
    (hruns : writer ≠ .ended) : box.isOpen = true := by
  by_contra hclosed
  exact hruns (h.ended_of_closed (Bool.eq_false_iff.2 hclosed))

/-- A writer that has ended has failed, or it has written all that was placed in the queue. -/
theorem written_of_ended (h : Writing first placed box released .ended encoder sent) :
    box.isOpen = false ∨ first.Writes placed sent := by
  cases h with
  | finished _ _ _ hseals => exact .inr ⟨_, _, hseals, rfl⟩
  | failed hclosed => exact .inl hclosed

/-- Messages are put into the queue, as long as somebody can do that. -/
theorem gains (h : Writing first placed box released writer encoder sent)
    (hgains : box.Gains box' added) (hfresh : released = true → added = []) :
    Writing first (placed ++ added) box' released writer encoder sent := by
  -- What comes in stands behind what waits, and what was taken out is the same.
  have hmore {taken : List Message} (hplaced : placed = taken ++ box.waiting) :
      placed ++ added = taken ++ box'.waiting := by
    rw [hplaced, hgains.waiting_eq, List.append_assoc]
  cases h with
  | idle hopen hplaced hseals => exact .idle (hgains.isOpen_eq.trans hopen) (hmore hplaced) hseals
  | length hopen hplaced hseals =>
    exact .length (hgains.isOpen_eq.trans hopen) (hmore hplaced) hseals
  | body hopen hplaced hseals => exact .body (hgains.isOpen_eq.trans hopen) (hmore hplaced) hseals
  | finished hopen hreleased hempty hseals =>
    have hnone := hfresh hreleased
    refine .finished (hgains.isOpen_eq.trans hopen) hreleased ?_ ?_
    · rw [hgains.waiting_eq, hempty, hnone, List.append_nil]
    · rwa [hnone, List.append_nil]
  | failed hclosed hempty htaken hseals hsent =>
    have hnone := hgains.closed hclosed
    refine .failed (hgains.isOpen_eq.trans hclosed) ?_ ?_ hseals hsent
    · rw [hgains.waiting_eq, hempty, hnone, List.append_nil]
    · rwa [hnone, List.append_nil]

/-- From now on nobody puts messages into the queue. -/
theorem release (h : Writing first placed box released writer encoder sent) :
    Writing first placed box true writer encoder sent := by
  cases h with
  | idle hopen hplaced hseals => exact .idle hopen hplaced hseals
  | length hopen hplaced hseals => exact .length hopen hplaced hseals
  | body hopen hplaced hseals => exact .body hopen hplaced hseals
  | finished hopen _ hempty hseals => exact .finished hopen rfl hempty hseals
  | failed hclosed hempty htaken hseals hsent =>
    exact .failed hclosed hempty htaken hseals hsent

/-! ### What the writer does -/

/-- The writer takes the next message out of the queue. -/
theorem collect {m : Message} {rest : List Message} {frame : Bytes} {next : StreamEncoder}
    (h : Writing first placed box released .idle encoder sent) (hwaiting : box.waiting = m :: rest)
    (hseal : encoder.sealMessage m = .ok (frame, next)) (deadline : Nat) :
    Writing first placed box.dropNext released (.length frame deadline) next sent := by
  cases h with
  | @idle taken frames _ hopen hplaced hseals =>
    have htaken : placed = (taken ++ [m]) ++ rest := by
      rw [hplaced, hwaiting, List.append_assoc, List.singleton_append]
    refine .length hopen ?_ (StreamEncoder.sealMessages_append hseals
      (StreamEncoder.sealMessages_singleton hseal))
    rw [htaken, Outbox.waiting_dropNext, hwaiting, List.tail_cons]

/-- The length of a frame is written. -/
theorem announce {frame : Bytes} {deadline : Nat}
    (h : Writing first placed box released (.length frame deadline) encoder sent) (later : Nat) :
    Writing first placed box released (.body frame later) encoder
      (sent ++ word32 (UInt32.ofNat frame.length)) := by
  cases h with
  | length hopen hplaced hseals => exact .body hopen hplaced hseals

/-- A frame is written. -/
theorem write {frame : Bytes} {deadline : Nat}
    (h : Writing first placed box released (.body frame deadline) encoder sent) :
    Writing first placed box released .idle encoder (sent ++ frame) := by
  cases h with
  | @body taken frames _ _ _ hopen hplaced hseals =>
    have hsent : frames.flatMap framed ++ word32 (UInt32.ofNat frame.length) ++ frame =
        (frames ++ [frame]).flatMap framed := by
      rw [List.flatMap_append, List.flatMap_singleton, framed, List.append_assoc]
    rw [hsent]
    exact .idle hopen hplaced hseals

/-- The writer is left alone, and nothing waits. -/
theorem finish (h : Writing first placed box released .idle encoder sent)
    (hreleased : released = true) (hempty : box.waiting = []) :
    Writing first placed box released .ended encoder sent := by
  cases h with
  | idle hopen hplaced hseals =>
    rw [hempty, List.append_nil] at hplaced
    exact .finished hopen hreleased hempty (hplaced ▸ hseals)

/-- A writer that fails between two frames loses what waits in the queue. -/
theorem choke (h : Writing first placed box released .idle encoder sent) (box' : Outbox) :
    Writing first placed box'.close released .ended encoder sent := by
  cases h with
  | idle _ hplaced hseals => exact .failed rfl rfl ⟨_, hplaced.symm⟩ hseals List.prefix_rfl

/-- A writer that fails in the middle of a frame has written the frames before it. -/
theorem breakOff (h : Writing first placed box released writer encoder sent)
    {deadline : Nat} (hwriter : writer.deadline? = some deadline) (box' : Outbox) :
    Writing first placed box'.close released .ended encoder sent := by
  cases h with
  | idle | finished | failed => cases hwriter
  | length _ hplaced hseals =>
    refine .failed rfl rfl ⟨_, hplaced.symm⟩ hseals ?_
    rw [List.flatMap_append]
    exact List.prefix_append _ _
  | body _ hplaced hseals =>
    refine .failed rfl rfl ⟨_, hplaced.symm⟩ hseals ?_
    rw [List.flatMap_append, List.flatMap_singleton, framed]
    exact (List.prefix_append_right_inj _).2 (List.prefix_append _ _)

end Writing

variable {S : Service} {now : Nat} {l l' : Link} {σ σ' : State} {event : LinkEvent}
  {first : StreamEncoder} {placed : List Message} {box : Outbox}

/-! ### What happens on the session -/

/-- What a step of a session leaves of its queue: it was not opened again, and what was placed in it
is accounted for. -/
structure Accounts (first : StreamEncoder) (placed : List Message) (box : Outbox) (l' : Link)
    (σ' : State) (box' : Outbox) : Prop where
  found : σ'.outboxes.get? l'.id = some box'
  closed : box.isOpen = false → box'.isOpen = false
  writing : Writing first placed box' l'.released l'.writer l'.encoder l'.sent

/-- Messages that come into the queue from the reader or from routing. -/
theorem Writing.accounts (h : Writing first placed box l.released l.writer l.encoder l.sent)
    {box' : Outbox} {added : List Message} (hbox : σ.outboxes.get? l.id = some box)
    (hbox' : σ'.outboxes.get? l.id = some box') (hgains : box.Gains box' added)
    (hfresh : l.released = true → added = []) :
    Accounts first (placed ++ σ.placed σ' l.id) box l σ' box' := by
  refine ⟨hbox', fun hclosed => hgains.isOpen_eq.trans hclosed, ?_⟩
  rw [State.placed_of_append (State.placed_of_gains hbox hbox' hgains)]
  exact h.gains hgains hfresh

/-- Messages that routing puts into the queue of the connection itself, or that others do. -/
theorem Writing.accounts_of_feeds
    (h : Writing first placed box l.released l.writer l.encoder l.sent)
    (hbox : σ.outboxes.get? l.id = some box) (hfeeds : σ.Feeds σ' l.id)
    (hreleased : l.released = true → σ.registry.contains l.id = false) :
    ∃ box', Accounts first (placed ++ σ.placed σ' l.id) box l σ' box' := by
  obtain ⟨box', added, hbox', hgains, hlive⟩ := hfeeds box hbox
  refine ⟨box', h.accounts hbox hbox' hgains fun hleft => ?_⟩
  by_contra hsome
  rw [hreleased hleft] at hlive
  cases hlive hsome

/-- Whatever happens on a session, what is placed in its queue is accounted for. -/
theorem Moves.accounts (h : Moves S now l σ event l' σ')
    (hbox : σ.outboxes.get? l.id = some box)
    (hwriting : Writing first placed box l.released l.writer l.encoder l.sent)
    (hreleased : l.released = true → l.reader.hasEnded ∧ σ.registry.contains l.id = false) :
    ∃ box', Accounts first (placed ++ σ.placed σ' l.id) box l' σ' box' := by
  -- Where nothing is placed, it is enough to look at the queue that there is.
  have unplaced {k : Link} {τ : State} {box' : Outbox} (hsuffix : τ.waiting l.id <:+ σ.waiting l.id)
      (haccounts : Accounts first placed box k τ box') :
      ∃ box', Accounts first (placed ++ σ.placed τ l.id) box k τ box' := by
    rw [State.placed_of_suffix hsuffix, List.append_nil]
    exact ⟨box', haccounts⟩
  have hdrains : σ.Drains σ' → σ'.waiting l.id <:+ σ.waiting l.id := fun hdrains => hdrains.queues _
  cases h with
  | arrives | hangsUp | measures | rejects | misreads | fails | rings | loses | goesOn | concludes =>
    exact unplaced List.suffix_rfl ⟨hbox, fun hclosed => hclosed, hwriting⟩
  | begins t =>
    obtain ⟨box', hfound, hclosed, hafter⟩ := hwriting.accounts_of_feeds hbox
      ((S.beginning_begin σ t l.id _).feeds l.id) fun hleft => (hreleased hleft).2
    exact ⟨box', hfound, hclosed, hafter⟩
  | resumes t =>
    obtain ⟨box', hfound, hclosed, hafter⟩ := hwriting.accounts_of_feeds hbox
      ((S.resumption_resume σ t l.id _).feeds l.id) fun hleft => (hreleased hleft).2
    exact ⟨box', hfound, hclosed, hafter⟩
  | @replies m rest outcome since hreader hqueued =>
    have hpushed : (σ.enqueue l.id m).outboxes.get? l.id = some (box.push m) := by
      rw [State.get?_enqueue, hbox, Option.map_some]
    rw [State.delivery_of_get? hbox] at hqueued
    obtain ⟨hfound, hclosed, hafter⟩ :=
      hwriting.accounts hbox hpushed (Outbox.gains_push hqueued m) fun hleft => by
        have hended := (hreleased hleft).1
        rw [hreader] at hended
        cases hended
    exact ⟨_, hfound, hclosed, hafter⟩
  | @collects box' m rest frame encoder deadline hwriter hbox' hwaiting hseal =>
    obtain rfl : box' = box := Option.some.inj (hbox'.symm.trans hbox)
    rw [hwriter] at hwriting
    have hfound : (σ.outboxes.modify l.id Outbox.dropNext).get? l.id = some box'.dropNext := by
      rw [Table.get?_modify, if_pos rfl, hbox, Option.map_some]
    exact unplaced (hdrains (l.drains_dropNext σ))
      ⟨hfound, fun hclosed => hclosed, hwriting.collect hwaiting hseal deadline⟩
  | chokes hwriter =>
    rw [hwriter] at hwriting
    refine unplaced (hdrains ((l.drains_dropNext σ).trans (l.drains_stopWriting _)))
      ⟨?_, fun _ => rfl, hwriting.choke box.dropNext⟩
    rw [Table.get?_modify, if_pos rfl, Table.get?_modify, if_pos rfl, hbox]
    rfl
  | announces later hwriter =>
    rw [hwriter] at hwriting
    exact unplaced List.suffix_rfl ⟨hbox, fun hclosed => hclosed, hwriting.announce later⟩
  | writes activity hwriter =>
    rw [hwriter] at hwriting
    exact unplaced List.suffix_rfl ⟨hbox, fun hclosed => hclosed, hwriting.write⟩
  | breaks hbreaks =>
    obtain ⟨deadline, hwriter⟩ := hbreaks.writing
    refine unplaced (hdrains (l.drains_stopWriting σ))
      ⟨?_, fun _ => rfl, hwriting.breakOff hwriter box⟩
    rw [Table.get?_modify, if_pos rfl, hbox, Option.map_some]
  | finishes hwriter hleft hempty =>
    rw [hwriter] at hwriting
    rw [hbox, Option.bind_some, Outbox.next?, List.head?_eq_none_iff] at hempty
    exact unplaced List.suffix_rfl
      ⟨hbox, fun hclosed => hclosed, hwriting.finish hleft hempty⟩

end Link

end Relay
