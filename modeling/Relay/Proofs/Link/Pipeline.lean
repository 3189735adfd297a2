import Relay.Proofs.Link.Journal

/-!
# `Relay.Proofs.Link.Pipeline`: what a journal says of its session

`Journal.Tells` puts together what is known of a session from its journal: how the frames are cut out
of what has arrived, how they were read, how far the reader has come with them and how far the writer
has come with what was placed in the queue. Whatever happens on the session keeps it
(`Journal.Tells.step`), and so does whatever others do (`Journal.Tells.others`).
-/

set_option autoImplicit false

namespace Relay

namespace Link

variable {S : Service} {now : Nat} {l l' : Link} {σ σ' : State} {event : LinkEvent} {t : Moment}

/-! ### What is noted down for each event -/

theorem frame?_of_holds {frame rest : Bytes} (h : l.Holds frame rest) : l.frame? = some frame := by
  obtain ⟨⟨deadline, timer, hreader⟩, hincoming⟩ := h
  simp [frame?, hreader, hincoming]

/-- A frame is taken in when it is there. -/
theorem Holds.attend {frame rest : Bytes} (h : l.Holds frame rest) (j : Journal) :
    j.attend S l σ (.read t) =
      { j with intakes := j.intakes ++ [l.intake S t σ frame] } := by
  rw [Journal.attend, frame?_of_holds h]

/-- A reader that gives up takes nothing in. -/
theorem Fails.attend {e : WireError} (h : l.Fails S now event e) (j : Journal) :
    j.attend S l σ event = j := by
  cases h with
  | @input _ part _ _ hreader _ hshort =>
    have hnone : l.frame? = none := by
      cases part with
      | length => rw [frame?, hreader]
      | body size deadline =>
        rw [frame?, hreader]
        exact if_pos hshort
    rw [Journal.attend, hnone]
  | invalid _ hreader =>
    have hnone : l.frame? = none := by rw [frame?, hreader]
    rw [Journal.attend, hnone]
  | closer | silent | late => rfl

theorem Fails.isReply {e : WireError} (h : l.Fails S now event e) : event.isReply = false := by
  cases h <;> rfl

theorem attend_of_measures {timer : Nat} (hreader : l.reader = .awaiting .length timer)
    (j : Journal) : j.attend S l σ (.read t) = j := by
  have hnone : l.frame? = none := by rw [frame?, hreader]
  rw [Journal.attend, hnone]

theorem attend_of_routing {p : Pending} {replies : List Message} {since : Nat}
    (hreader : l.reader = .routing p replies since) (j : Journal) :
    j.attend S l σ (.resume t) = j.resume (S.resume σ t l.id p) := by
  rw [Journal.attend, hreader]

/-- Nothing is noted down for what the writer does. -/
theorem Breaks.attend (h : l.Breaks now event) (j : Journal) : j.attend S l σ event = j := by
  cases h <;> rfl

theorem Breaks.isReply (h : l.Breaks now event) : event.isReply = false := by
  cases h <;> rfl

/-! ### The frames -/

/-- The reader takes in a frame. -/
theorem Holds.cut {frame rest : Bytes} (h : l.Holds frame rest) {j : Journal}
    (hcut : Journal.Cut j.arrived j.frames l.reader l.incoming) {reader' : ReaderStage}
    (hbegun : reader'.begun = []) (hstage : reader'.isAwaiting = false) :
    Journal.Cut (j.attend S l σ (.read t)).arrived (j.attend S l σ (.read t)).frames reader'
      rest := by
  obtain ⟨deadline, timer, hreader⟩ := h.reader
  rw [hreader, h.incoming] at hcut
  have hframes : (j.intakes ++ [l.intake S t σ frame]).map Intake.frame = j.frames ++ [frame] := by
    rw [List.map_append]
    rfl
  rw [h.attend, Journal.frames, hframes]
  exact hcut.take hbegun hstage

/-- The frames go on to be the first of what has arrived. -/
theorem Moves.cut (h : Moves S now l σ event l' σ') {j : Journal}
    (hcut : Journal.Cut j.arrived j.frames l.reader l.incoming) :
    Journal.Cut (j.attend S l σ event).arrived (j.attend S l σ event).frames l'.reader
      l'.incoming := by
  cases h with
  | arrives bytes => exact hcut.arrive bytes
  | hangsUp | collects | chokes | announces | writes | finishes => exact hcut
  | breaks hbreaks =>
    rw [hbreaks.attend]
    exact hcut
  | measures t deadline hreader hincoming hlength =>
    rw [attend_of_measures hreader]
    rw [hreader, hincoming] at hcut
    exact hcut.measure hlength
  | rejects t _ hholds => exact hholds.cut hcut rfl rfl
  | misreads t _ hholds => exact hholds.cut hcut rfl rfl
  | begins t _ hholds =>
    exact hholds.cut hcut (ReaderStage.begun_ofTurn ..) (ReaderStage.isAwaiting_ofTurn ..)
  | fails hfails =>
    rw [hfails.attend]
    exact hcut.stop _ _
  | rings deadline hreader =>
    rw [hreader] at hcut
    exact hcut.ring deadline
  | resumes t hreader =>
    rw [attend_of_routing hreader, Journal.frames_resume]
    rw [hreader] at hcut
    exact hcut.goesOn rfl (ReaderStage.begun_ofTurn ..) (ReaderStage.isAwaiting_ofTurn ..)
  | replies hreader =>
    rw [hreader] at hcut
    exact hcut.goesOn rfl rfl rfl
  | loses | concludes => exact hcut.stop _ _
  | goesOn timer _ hreader =>
    rw [hreader] at hcut
    exact ⟨hcut.valid, hcut.first, fun _ => hcut.whole rfl, nofun⟩

/-! ### What is read -/

variable {first : StreamDecoder}

/-- The frame that the reader takes in is read with the decoder that it has. -/
theorem Moves.readsAll (h : Moves S now l σ event l' σ') {j : Journal} {isOpen : Bool}
    (hreads : Intake.ReadsAll S l.id first j.intakes l.decoder)
    (hstands : Journal.Stands isOpen j.own j.intakes l.reader) :
    Intake.ReadsAll S l.id first (j.attend S l σ event).intakes l'.decoder := by
  cases h with
  | arrives | hangsUp | collects | chokes | announces | writes | finishes | rings | replies
  | loses | concludes | goesOn => exact hreads
  | breaks hbreaks =>
    rw [hbreaks.attend]
    exact hreads
  | measures t deadline hreader =>
    rw [attend_of_measures hreader]
    exact hreads
  | fails hfails =>
    rw [hfails.attend]
    exact hreads
  | rejects t _ hholds hdecrypt =>
    rw [hholds.attend]
    refine .snoc hreads ?_
    rw [intake, hdecrypt]
    exact .unopened hdecrypt
  | misreads t _ hholds hdecrypt hunpack =>
    rw [hholds.attend]
    refine .snoc hreads ?_
    simp only [intake, hdecrypt, hunpack]
    exact .malformed t hdecrypt hunpack
  | begins t _ hholds hdecrypt hunpack =>
    rw [hholds.attend]
    refine .snoc hreads ?_
    simp only [intake, hdecrypt, hunpack]
    exact .message hdecrypt hunpack (.begun σ t)
  | resumes t hreader =>
    rw [hreader] at hstands
    cases hstands with
    | routing hintakes _ hnext =>
      -- The frame that is being routed is the last, and was opened already.
      rw [hintakes] at hreads
      obtain ⟨decoder, hbefore, hlast⟩ := hreads.of_snoc
      rw [attend_of_routing hreader, Journal.resume, hintakes, List.modifyLast_concat]
      cases hlast with
      | message hdecrypt hunpack hturns =>
        exact .snoc hbefore (.message hdecrypt hunpack (.resumed hturns hnext σ t))

/-! ### What the reader does with it -/

variable {box : Outbox}

/-- The reader does with the frames, and with the replies to them, what it should. -/
theorem Moves.stands (h : Moves S now l σ event l' σ') {j : Journal}
    (hbox : σ.outboxes.get? l.id = some box)
    (hstands : Journal.Stands box.isOpen j.own j.intakes l.reader) :
    Journal.Stands box.isOpen (j.note S l σ σ' event).own (j.note S l σ σ' event).intakes
      l'.reader := by
  -- Nothing is counted as a reply but what the reader hands over.
  have unplaced (hevent : event.isReply = false) : (j.note S l σ σ' event).own = j.own := by
    rw [Journal.own_note, hevent]
    exact List.append_nil _
  cases h with
  | arrives | hangsUp | collects | chokes | announces | writes | finishes =>
    rw [unplaced rfl]
    exact hstands
  | breaks hbreaks =>
    rw [unplaced hbreaks.isReply, Journal.intakes_note, hbreaks.attend]
    exact hstands
  | measures t deadline hreader hincoming hlength =>
    obtain ⟨hstay, hown⟩ := hstands.of_isAwaiting (by rw [hreader]; rfl)
    rw [unplaced rfl, Journal.intakes_note, attend_of_measures hreader]
    exact .awaiting hstay hown
  | rings deadline hreader =>
    obtain ⟨hstay, hown⟩ := hstands.of_isAwaiting (by rw [hreader]; rfl)
    rw [unplaced rfl]
    exact .awaiting hstay hown
  | fails hfails =>
    obtain ⟨hstay, hown⟩ := hstands.of_isAwaiting hfails.isAwaiting
    rw [unplaced hfails.isReply, Journal.intakes_note, hfails.attend]
    exact .failed hstay hown
  | rejects t _ hholds hdecrypt =>
    obtain ⟨hstay, hown⟩ := hstands.of_isAwaiting hholds.isAwaiting
    rw [unplaced rfl, Journal.intakes_note, hholds.attend]
    simp only [intake, hdecrypt]
    refine .rejected rfl hstay ?_
    rw [repliesTo_snoc, Reading.replies, List.append_nil, hown]
  | misreads t _ hholds hdecrypt hunpack =>
    obtain ⟨hstay, hown⟩ := hstands.of_isAwaiting hholds.isAwaiting
    rw [unplaced rfl, Journal.intakes_note, hholds.attend]
    simp only [intake, hdecrypt, hunpack]
    refine .replying rfl hstay rfl ?_
    rw [repliesTo_snoc, Reading.replies, hown]
  | begins t _ hholds hdecrypt hunpack =>
    obtain ⟨hstay, hown⟩ := hstands.of_isAwaiting hholds.isAwaiting
    rw [unplaced rfl, Journal.intakes_note, hholds.attend]
    simp only [intake, hdecrypt, hunpack]
    refine .ofTurn [] rfl hstay ?_ now
    rw [repliesTo_snoc, hown]
    simp [Reading.replies]
  | resumes t hreader =>
    rw [hreader] at hstands
    cases hstands with
    | routing hintakes hstay hnext hown =>
      rw [unplaced rfl, Journal.intakes_note, attend_of_routing hreader,
        Journal.resume, hintakes, List.modifyLast_concat]
      refine .ofTurn _ rfl hstay ?_ _
      rw [hintakes, repliesTo_snoc] at hown
      rw [← List.append_assoc, hown, repliesTo_snoc, List.append_assoc, ← Reading.replies_concat]
  | @replies m rest outcome since hreader hqueued =>
    have hplaced : σ.placed (σ.enqueue l.id m) l.id = [m] := by
      refine State.placed_of_append ?_
      rw [State.waiting_enqueue, if_pos ⟨rfl, hqueued⟩]
    rw [Journal.own_note, hplaced]
    rw [hreader] at hstands
    cases hstands with
    | replying hintakes hstay houtcome hown =>
      refine .replying hintakes hstay houtcome ?_
      rw [List.append_assoc]
      exact hown
  | loses hreader hclosed =>
    rw [hreader] at hstands
    rw [State.delivery_of_get? hbox, Outbox.delivery_eq_closed_iff] at hclosed
    cases hstands with
    | replying hintakes hstay houtcome hown =>
      rw [Journal.own_note, State.placed_of_outboxes rfl, ite_self, List.append_nil]
      exact .lost hintakes hstay houtcome hclosed hown
  | goesOn timer _ hreader hstays =>
    rw [hreader] at hstands
    cases hstands with
    | @replying before x _ _ _ hintakes hstay houtcome hown =>
      rw [unplaced rfl]
      refine .awaiting (fun y hy => ?_) (by rwa [List.append_nil] at hown)
      rcases List.mem_append.1 (hintakes ▸ hy) with hbefore | hlast
      · exact hstay y hbefore
      · -- An outcome that does not close the connection is that it stays.
        rw [List.mem_singleton.1 hlast, Intake.Stays, houtcome]
        simpa [Outcome.closes] using hstays
  | concludes _ hreader hcloses =>
    rw [hreader] at hstands
    cases hstands with
    | replying hintakes hstay houtcome hown =>
      rw [unplaced rfl]
      exact .concluded hintakes hstay houtcome hcloses (by rwa [List.append_nil] at hown)

/-- A text that is no message removes the connection. -/
theorem Moves.purged (h : Moves S now l σ event l' σ') {j : Journal} {isOpen : Bool}
    (hstands : Journal.Stands isOpen j.own j.intakes l.reader)
    (hpurged : ∀ x ∈ j.intakes, x.reading.isMalformed → σ.registry.contains l.id = false) :
    ∀ x ∈ (j.attend S l σ event).intakes, x.reading.isMalformed →
      σ'.registry.contains l.id = false := by
  -- The connection is not registered again.
  have hgone (hbefore : σ.registry.contains l.id = false) : σ'.registry.contains l.id = false :=
    Registry.free_of_imp h.course.2.registrySource.contains hbefore
  have hsame (hattend : j.attend S l σ event = j) :
      ∀ x ∈ (j.attend S l σ event).intakes, x.reading.isMalformed →
        σ'.registry.contains l.id = false := by
    rw [hattend]
    exact fun x hx hmalformed => hgone (hpurged x hx hmalformed)
  have hsound {before : List Intake} {last : Intake} (hbefore : before ⊆ j.intakes)
      (hlast : last.reading.isMalformed = false) :
      ∀ x ∈ before ++ [last], x.reading.isMalformed → σ'.registry.contains l.id = false := by
    intro x hx hmalformed
    rcases List.mem_append.1 hx with hx | hx
    · exact hgone (hpurged x (hbefore hx) hmalformed)
    · rw [List.mem_singleton.1 hx, hlast] at hmalformed
      cases hmalformed
  cases h with
  | arrives | hangsUp | collects | chokes | announces | writes | finishes | rings | replies
  | loses | concludes | goesOn => exact fun x hx hmalformed => hgone (hpurged x hx hmalformed)
  | breaks hbreaks => exact hsame (hbreaks.attend j)
  | measures _ _ hreader => exact hsame (attend_of_measures hreader j)
  | fails hfails => exact hsame (hfails.attend j)
  | rejects _ _ hholds hdecrypt =>
    rw [hholds.attend]
    exact hsound (List.Subset.refl _) (by rw [intake, hdecrypt]; rfl)
  | misreads =>
    intro _ _ _
    rw [State.registry_purge, Registry.contains_delete, decide_eq_false (by simp), Bool.false_and]
  | begins _ _ hholds hdecrypt hunpack =>
    rw [hholds.attend]
    exact hsound (List.Subset.refl _) (by simp only [intake, hdecrypt, hunpack]; rfl)
  | resumes t hreader =>
    rw [hreader] at hstands
    cases hstands with
    | routing hintakes =>
      rw [attend_of_routing hreader, Journal.resume, hintakes, List.modifyLast_concat]
      exact hsound (hintakes ▸ List.subset_append_left _ _) rfl

/-- Nobody is left alone with a queue by what happens on the session. -/
theorem Moves.released_eq (h : Moves S now l σ event l' σ') : l'.released = l.released := by
  cases h <;> rfl

end Link

/-! ### What a journal tells -/

/-- What a journal says of its session, and of what the session shares with others. -/
structure Journal.Tells (S : Service) (j : Journal) (l : Link) (σ : State) : Prop where
  /-- The frames that the reader took in are the first of what has arrived. -/
  cut : Cut j.arrived j.frames l.reader l.incoming
  /-- Each of them was opened in its place in the stream, and read as what it holds. -/
  reads : Intake.ReadsAll S l.id j.first.decoder j.intakes l.decoder
  /-- The reader has placed the replies to them in the queue, in their order, and the writer writes
  what is placed there in its order. -/
  queue : ∃ box, σ.outboxes.get? l.id = some box ∧
    Stands box.isOpen j.own j.intakes l.reader ∧
      Link.Writing j.first.encoder j.messages box l.released l.writer l.encoder l.sent
  /-- Nobody is left alone with a queue before the reader has ended and the connection is removed. -/
  released : l.released = true → l.reader.hasEnded ∧ σ.registry.contains l.id = false
  /-- A text that is no message has removed the connection. -/
  purged : ∀ x ∈ j.intakes, x.reading.isMalformed → σ.registry.contains l.id = false

namespace Journal.Tells

variable {S : Service} {now : Nat} {j : Journal} {l l' : Link} {σ σ' : State} {event : LinkEvent}

/-- A session that begins, on a connection with an empty queue. -/
theorem opening {box : Outbox} (id : ConnId) (session : Session) (peer : Peer) (now idle : Nat)
    (hbox : σ.outboxes.get? id = some box) (hopen : box.isOpen = true)
    (hempty : box.waiting = []) :
    (Journal.opening (Link.start id session peer now idle)).Tells S
      (Link.start id session peer now idle) σ where
  cut := .opening _ _
  reads := .nil
  queue := ⟨box, hbox, .awaiting (List.forall_mem_nil _) rfl, .start _ _ hopen hempty⟩
  released := nofun
  purged := List.forall_mem_nil _

/-- Whatever happens on the session. -/
theorem step (h : j.Tells S l σ) (hmoves : l.Moves S now σ event l' σ') :
    (j.note S l σ σ' event).Tells S l' σ' := by
  obtain ⟨box, hbox, hstands, hwriting⟩ := h.queue
  obtain ⟨hid, hcourse⟩ := hmoves.course
  obtain ⟨box', hbox', hclosed, hwriting'⟩ := hmoves.accounts hbox hwriting h.released
  refine ⟨?_, ?_, ⟨box', hbox', ?_, ?_⟩, ?_, ?_⟩
  · exact hmoves.cut h.cut
  · rw [hid, Journal.first_note]
    exact hmoves.readsAll h.reads hstands
  · exact (hmoves.stands hbox hstands).mono hclosed
  · rw [Journal.messages_note, Journal.first_note]
    exact hwriting'
  · intro hleft
    obtain ⟨hended, hgone⟩ := h.released (hmoves.released_eq ▸ hleft)
    rw [hid]
    exact ⟨(hcourse.of_hasEnded hended).1,
      Registry.free_of_imp hcourse.registrySource.contains hgone⟩
  · rw [hid]
    exact hmoves.purged hstands h.purged

/-- Whatever others do in the meantime. -/
theorem others (h : j.Tells S l σ) (hfeeds : σ.Feeds σ' l.id)
    (hregistry : σ'.registry.contains l.id → σ.registry.contains l.id) (closing : Bool) :
    (j.place false (σ.placed σ' l.id)).Tells S { l with closing } σ' := by
  have hgone := Registry.free_of_imp hregistry
  obtain ⟨box, hbox, hstands, hwriting⟩ := h.queue
  obtain ⟨box', hbox', hclosed, hwriting'⟩ :=
    hwriting.accounts_of_feeds hbox hfeeds fun hleft => (h.released hleft).2
  refine ⟨h.cut, h.reads, ⟨box', hbox', ?_, ?_⟩, fun hleft => ?_, fun x hx hmalformed => ?_⟩
  · rw [Journal.own_place, if_neg (by decide), List.append_nil]
    exact hstands.mono hclosed
  · rw [Journal.messages_place]
    exact hwriting'
  · obtain ⟨hended, hbefore⟩ := h.released hleft
    exact ⟨hended, hgone hbefore⟩
  · exact hgone (h.purged x hx hmalformed)

/-- The reader has ended, and the connection is removed. -/
theorem release (h : j.Tells S l σ) (hended : l.reader.hasEnded)
    (houtboxes : σ'.outboxes = σ.outboxes) (hgone : σ'.registry.contains l.id = false) :
    j.Tells S { l with released := true } σ' := by
  obtain ⟨box, hbox, hstands, hwriting⟩ := h.queue
  refine ⟨h.cut, h.reads, ⟨box, ?_, hstands, hwriting.release⟩, fun _ => ⟨hended, hgone⟩,
    fun _ _ _ => hgone⟩
  rw [houtboxes]
  exact hbox

end Journal.Tells

end Relay
