import Relay.Proofs.Link.Idle

/-!
# `Relay.Proofs.Link.Deadlines`: frames that come in time

A connection must not be silent for too long before a length comes, and a body has its own deadline,
which is set when its length is there (`Scene.inTime`). These two limits are not all. The timer of the
silent connection runs on while the body is waited for, so a body may be cut off before its own
deadline (`Scene.cut_off_before_deadline`). If the whole frame comes before the connection was silent
for too long (`Scene.inIdleTime`), the reader has time left whenever it waits (`Scene.HasTime`), and
frames are taken in and routed (`Scene.timely_frames_routed`).
-/

set_option autoImplicit false

namespace Relay

/-- In settings that pass, no limit is zero. -/
theorem Config.timeouts_pos {config : Config} (h : config.validate = .ok ()) :
    0 < config.idleTimeoutMs.toNat ∧ 0 < config.partTimeoutMs.toNat := by
  have hidle : (decide (config.idleTimeoutMs = 0), .idleTimeoutZero) ∈ config.violations := by
    simp [violations]
  have hpart : (decide (config.partTimeoutMs = 0), .partTimeoutZero) ∈ config.violations := by
    simp [violations]
  have hidle := of_decide_eq_false (eq_false_of_mem_violations h hidle)
  have hpart := of_decide_eq_false (eq_false_of_mem_violations h hpart)
  rw [← UInt64.toNat_inj] at hidle hpart
  exact ⟨Nat.pos_of_ne_zero hidle, Nat.pos_of_ne_zero hpart⟩

namespace Scene

variable (S : Service)

/-! ### What is in time -/

/-- Whether an event keeps to the two limits. While a length is waited for, time passes up to before
the connection was silent for too long, and while a body is waited for, up to before the deadline of
the body. A reader that was busy is back before the connection was silent for too long. -/
def inTime (s : Scene) : Event → Bool
  | .tick later =>
    match s.link.reader with
    | .awaiting .length _ => later < s.deadline S
    | .awaiting (.body _ limit) _ => later < limit
    | _ => true
  | .own .conclude | .late .conclude =>
    match s.link.reader with
    | .replying [] outcome _ => outcome.closes || s.now < s.deadline S
    | _ => true
  | _ => true

/-- Whether an event keeps to the first limit while the rest of a frame is waited for, too. -/
def inIdleTime (s : Scene) : Event → Bool
  | .tick later => !s.link.reader.isAwaiting || later < s.deadline S
  | _ => true

variable {S} {s s' : Scene} {h : List (Scene × Event)} {event : Event}

theorem lt_deadline_of_inTime {outcome : Outcome} {since : Nat} (hin : s.inTime S event)
    (hevent : event.link? = some .conclude) (hreader : s.link.reader = .replying [] outcome since)
    (hstays : outcome.closes = false) : s.now < s.deadline S := by
  cases event with
  | own e | late e =>
    cases hevent
    simpa [inTime, hreader, hstays] using hin
  | note | others | close | release | tick => cases hevent

/-! ### Time that is left -/

/-- The reader has not ended because of the time, and while it waits there is time left. -/
structure HasTime (S : Service) (s : Scene) : Prop where
  goesOn : ∀ what : WireStep, s.link.reader ≠ .ended (.error (.timeout what))
  idle : ∀ (part : FramePart) (timer : Nat), s.link.reader = .awaiting part timer →
    s.now < s.deadline S
  body : ∀ (size limit timer : Nat), s.link.reader = .awaiting (.body size limit) timer →
    s.now < limit

theorem hasTime_start {id : ConnId} {session : Session} {peer : Peer} {σ : State} {origin : Nat}
    (hidle : 0 < Link.idleLimit S) : (Scene.start S id session peer σ origin).HasTime S where
  goesOn _ := nofun
  idle _ _ _ := by
    simp only [deadline, Scene.start, Link.start, Activity.idleDeadline, millis]
    omega
  body _ _ _ := nofun

/-- The reader is as it was while time passes. -/
theorem HasTime.tick {later : Nat} (h : s.HasTime S)
    (hnext : s.next? S (.tick later) = some s') (hin : s.inTime S (.tick later))
    (hidle : s.inIdleTime S (.tick later)) : s'.HasTime S := by
  obtain rfl := eq_of_next?_tick hnext
  constructor
  case goesOn => exact h.goesOn
  case idle =>
    intro part timer hreader
    have hreader : s.link.reader = .awaiting part timer := hreader
    show later < s.deadline S
    simpa [inIdleTime, hreader, ReaderStage.isAwaiting] using hidle
  case body =>
    intro size limit timer hreader
    have hreader : s.link.reader = .awaiting (.body size limit) timer := hreader
    simpa [inTime, hreader] using hin

/-- A step of the session is taken at one time. -/
theorem HasTime.acts {e : LinkEvent} {l : Link} (h : s.HasTime S)
    (hpart : 0 < Link.partLimit S) (hinput : ∀ what, s.link.inputEnd ≠ some (.timeout what))
    (hin : s.inTime S event) (hforward : s.deadline S ≤ s'.deadline S)
    (hevent : event.link? = some e)
    (hstep : s.link.step? S s.now s.shared e = some (l, s'.shared))
    (hlink : s'.link.reader = l.reader) (hnow : s'.now = s.now) : s'.HasTime S := by
  constructor
  case goesOn =>
    intro what hended
    cases Link.timesOut_of_step? hstep (hinput what) (h.goesOn what) (hlink ▸ hended) with
    | silent hreader hdeadline => exact Nat.not_lt.2 hdeadline (h.idle _ _ hreader)
    | late hreader hdeadline => exact Nat.not_lt.2 hdeadline (h.body _ _ _ hreader)
  case idle =>
    intro part timer hreader
    rw [hnow]
    refine Nat.lt_of_lt_of_le ?_ hforward
    cases Link.awaits_of_step? hstep (hlink ▸ hreader) with
    | same _ hbefore => exact h.idle _ _ hbefore
    | measures _ hbefore => exact h.idle _ _ hbefore
    | rings hbefore => exact h.idle _ _ hbefore
    | begins hbefore hstays => exact lt_deadline_of_inTime hin hevent hbefore hstays
  case body =>
    intro size limit timer hreader
    rw [hnow]
    cases Link.awaits_of_step? hstep (hlink ▸ hreader) with
    | same _ hbefore => exact h.body _ _ _ hbefore
    | measures => exact Nat.lt_add_of_pos_right (Nat.mul_pos hpart (by decide))
    | rings hbefore => exact h.body _ _ _ hbefore

/-- Events that are in time leave time. -/
theorem HasTime.next (h : s.HasTime S) (hpart : 0 < Link.partLimit S)
    (hinput : ∀ what, s.link.inputEnd ≠ some (.timeout what)) (hnext : s.next? S event = some s')
    (hin : s.inTime S event) (hidle : s.inIdleTime S event) : s'.HasTime S := by
  have hforward := deadline_le_of_next? hnext
  cases course_of_next? hnext with
  | acts hevent hstep hlink hnow =>
    obtain ⟨activity, hlink⟩ := hlink
    exact h.acts hpart hinput hin hforward hevent hstep (by rw [hlink]) hnow
  | passes _ hreader =>
    rcases now_of_next? hnext with hnow | rfl
    · constructor
      case goesOn => simpa only [hreader] using h.goesOn
      case idle =>
        intro part timer hbefore
        rw [hnow]
        exact Nat.lt_of_lt_of_le (h.idle part timer (hreader ▸ hbefore)) hforward
      case body =>
        intro size limit timer hbefore
        rw [hnow]
        exact h.body size limit timer (hreader ▸ hbefore)
    · exact h.tick hnext hin hidle

/-- While there is time, a reader that nobody asks to end waits until it takes something in, and keeps
what has arrived. -/
theorem HasTime.waits {part : FramePart} {timer : Nat} (h : s.HasTime S)
    (hnext : s.next? S event = some s') (hreader : s.link.reader = .awaiting part timer)
    (hclosing : s.link.closing = false) (hread : ∀ t, event.link? ≠ some (.read t)) :
    (∃ timer', s'.link.reader = .awaiting part timer') ∧ s.link.incoming <+: s'.link.incoming := by
  cases course_of_next? hnext with
  | passes _ hsame hincoming =>
    exact ⟨⟨timer, hsame.trans hreader⟩, hincoming ▸ List.prefix_refl _⟩
  | acts hevent hstep hlink =>
    obtain ⟨activity, hlink⟩ := hlink
    rw [hlink]
    have hmoves := Link.moves_of_step? hstep
    generalize s'.shared = σ at hmoves
    cases hmoves with
    | arrives bytes => exact ⟨⟨timer, hreader⟩, List.prefix_append _ _⟩
    | hangsUp | collects | chokes | announces | writes | breaks | finishes =>
      exact ⟨⟨timer, hreader⟩, List.prefix_refl _⟩
    | rings deadline hbefore =>
      cases hreader.symm.trans hbefore
      exact ⟨⟨deadline, rfl⟩, List.prefix_refl _⟩
    | measures t | rejects t | misreads t | begins t => exact absurd hevent (hread t)
    | resumes _ hbefore => cases hreader.symm.trans hbefore
    | replies hbefore | loses hbefore => cases hreader.symm.trans hbefore
    | goesOn _ _ hbefore => cases hreader.symm.trans hbefore
    | concludes _ hbefore => cases hreader.symm.trans hbefore
    | fails hfails =>
      cases hfails with
      | input t | invalid t => exact absurd hevent (hread t)
      | closer _ hasked => cases hclosing.symm.trans hasked
      | silent hbefore hdeadline => exact absurd (h.idle _ _ hbefore) (Nat.not_lt.2 hdeadline)
      | late hbefore hdeadline => exact absurd (h.body _ _ _ hbefore) (Nat.not_lt.2 hdeadline)

/-! ### Taking a frame in -/

/-- A length that is there is taken in, and from then on its body has the time of a body. -/
theorem next?_measures {timer : Nat} {length : UInt32} {rest : Bytes} (t : Moment)
    (hreader : s.link.reader = .awaiting .length timer)
    (hincoming : s.link.incoming = word32 length ++ rest) (hlength : isFrameLength length) :
    ∃ s', s.next? S (.own (.read t)) = some s' ∧ s'.link.incoming = rest ∧
      s'.link.reader =
        .awaiting (.body length.toNat (s.now + millis (Link.partLimit S))) timer := by
  have hsize : (word32 length).length = frameLengthSize := length_word32 length
  have hlong : ¬ s.link.incoming.length < frameLengthSize := by
    rw [hincoming, List.length_append, hsize]
    exact Nat.not_lt.2 (Nat.le_add_right _ _)
  have htake : s.link.incoming.take frameLengthSize = word32 length := by
    rw [hincoming, List.take_left' hsize]
  have hdrop : s.link.incoming.drop frameLengthSize = rest := by
    rw [hincoming, List.drop_left' hsize]
  rw [next?, Link.step?, Link.read?, hreader]
  dsimp only
  rw [if_neg hlong, htake, ofWord32_word32, if_pos hlength]
  exact ⟨_, rfl, hdrop, rfl⟩

/-- A body that is there is taken in, and if it opens to a message, that is routed. -/
theorem next?_routes {limit timer : Nat} {frame rest text : Bytes} {decoder : StreamDecoder}
    {m : Message} (t : Moment) (hreader : s.link.reader = .awaiting (.body frame.length limit) timer)
    (hincoming : s.link.incoming = frame ++ rest)
    (hdecrypt : s.link.decoder.decrypt frame = .ok (text, decoder))
    (hunpack : Message.unpack text = .ok m) :
    ∃ s', s.next? S (.own (.read t)) = some s' ∧ s'.link.incoming = rest ∧
      s'.link.decoder = decoder ∧ s'.shared = (S.begin s.shared t s.link.id m).state ∧
      s'.link.reader = .ofTurn (S.begin s.shared t s.link.id m) [] s.now := by
  have hlong : ¬ s.link.incoming.length < frame.length := by
    rw [hincoming, List.length_append]
    exact Nat.not_lt.2 (Nat.le_add_right _ _)
  have htake : s.link.incoming.take frame.length = frame := by
    rw [hincoming, List.take_left' rfl]
  have hdrop : s.link.incoming.drop frame.length = rest := by
    rw [hincoming, List.drop_left' rfl]
  rw [next?, Link.step?, Link.read?, hreader]
  dsimp only
  rw [if_neg hlong, htake, hdrop, Link.openFrame, Link.touch, hdecrypt]
  dsimp only
  rw [hunpack]
  dsimp only
  rw [Link.proceed_eq]
  exact ⟨_, rfl, rfl, rfl, rfl, rfl⟩

/-! ### Whole runs -/

/-- Whether all events are in time, for the whole of each frame. -/
def Timely (S : Service) (h : List (Scene × Event)) : Prop :=
  ∀ e ∈ h, e.1.inTime S e.2 ∧ e.1.inIdleTime S e.2

theorem Timely.append {h₁ h₂ : List (Scene × Event)} (h₁timely : Timely S h₁)
    (h₂timely : Timely S h₂) : Timely S (h₁ ++ h₂) := by
  intro e he
  rcases List.mem_append.1 he with he | he
  · exact h₁timely e he
  · exact h₂timely e he

theorem Timely.left {h₁ h₂ : List (Scene × Event)} (htimely : Timely S (h₁ ++ h₂)) :
    Timely S h₁ :=
  fun e he => htimely e (List.mem_append_left _ he)

section

variable {id : ConnId} {session : Session} {peer : Peer} {σ : State} {origin : Nat}

/-- As long as all events are in time there is time left. -/
theorem Run.hasTime (hvalid : S.config.validate = .ok ())
    (hrun : Run S (Scene.start S id session peer σ origin) h s) (htimely : Timely S h) :
    s.HasTime S := by
  obtain ⟨hidle, hpart⟩ := Config.timeouts_pos hvalid
  induction hrun with
  | start => exact hasTime_start hidle
  | snoc hrun hnext ih =>
    obtain ⟨hin, hwhole⟩ :=
      htimely _ (List.mem_append_right _ (List.mem_singleton_self _))
    exact (ih htimely.left).next hpart hrun.inputEnd_ne_timeout hnext hin hwhole

/-- As long as all events are in time, a reader that nobody asks to end waits until it takes something
in, and keeps what has arrived. -/
theorem Run.waits {part : FramePart} {timer : Nat} {h' : List (Scene × Event)}
    (hvalid : S.config.validate = .ok ())
    (hrun : Run S (Scene.start S id session peer σ origin) h s) (htimely : Timely S h)
    (hreader : s.link.reader = .awaiting part timer) (hlater : Run S s h' s')
    (hlaterTimely : Timely S h')
    (hundisturbed : ∀ e ∈ h', e.1.link.closing = false ∧ ∀ t, e.2.link? ≠ some (.read t)) :
    (∃ timer', s'.link.reader = .awaiting part timer') ∧ s.link.incoming <+: s'.link.incoming := by
  induction hlater with
  | start => exact ⟨⟨timer, hreader⟩, List.prefix_refl _⟩
  | snoc hlater hnext ih =>
    obtain ⟨⟨timer', hwaits⟩, hkept⟩ :=
      ih hlaterTimely.left fun e he => hundisturbed e (List.mem_append_left _ he)
    obtain ⟨hclosing, hread⟩ :=
      hundisturbed _ (List.mem_append_right _ (List.mem_singleton_self _))
    have htime := (hrun.trans hlater).hasTime hvalid (htimely.append hlaterTimely.left)
    obtain ⟨hnow, hprefix⟩ := htime.waits hnext hwaits hclosing hread
    exact ⟨hnow, hkept.trans hprefix⟩

end

/-- What may be relied on about frames that come in time. -/
structure Serves (S : Service) (s : Scene) : Prop where
  /-- The reader has not ended because of the time. -/
  goesOn : ∀ what : WireStep, s.link.reader ≠ .ended (.error (.timeout what))
  /-- As long as events are in time, a reader that nobody asks to end waits for a part of a frame until
  it takes it in, and what has arrived is kept. -/
  waits : ∀ (part : FramePart) (timer : Nat) (h : List (Scene × Event)) (s' : Scene),
    s.link.reader = .awaiting part timer → Run S s h s' → Timely S h →
    (∀ e ∈ h, e.1.link.closing = false ∧ ∀ t, e.2.link? ≠ some (.read t)) →
      (∃ timer', s'.link.reader = .awaiting part timer') ∧ s.link.incoming <+: s'.link.incoming
  /-- A length that is there can be taken in, and then its body is waited for, -/
  measures : ∀ (t : Moment) (timer : Nat) (length : UInt32) (rest : Bytes),
    s.link.reader = .awaiting .length timer → s.link.incoming = word32 length ++ rest →
    isFrameLength length →
      ∃ s', s.next? S (.own (.read t)) = some s' ∧ s'.link.incoming = rest ∧
        s'.link.reader =
          .awaiting (.body length.toNat (s.now + millis (Link.partLimit S))) timer
  /-- and a body that is there can be taken in, and if it opens to a message, that is routed. -/
  routes : ∀ (t : Moment) (limit timer : Nat) (frame rest text : Bytes) (decoder : StreamDecoder)
    (m : Message), s.link.reader = .awaiting (.body frame.length limit) timer →
    s.link.incoming = frame ++ rest → s.link.decoder.decrypt frame = .ok (text, decoder) →
    Message.unpack text = .ok m →
      ∃ s', s.next? S (.own (.read t)) = some s' ∧ s'.link.incoming = rest ∧
        s'.link.decoder = decoder ∧ s'.shared = (S.begin s.shared t s.link.id m).state ∧
        s'.link.reader = .ofTurn (S.begin s.shared t s.link.id m) [] s.now

/-- If whole frames come in time, then whatever else happens and in whatever order, the reader does
not end because of the time: each frame is waited for, taken in and routed. -/
theorem timely_frames_routed {id : ConnId} {session : Session} {peer : Peer} {σ : State}
    {origin : Nat} (hvalid : S.config.validate = .ok ())
    (hrun : Run S (Scene.start S id session peer σ origin) h s) (htimely : Timely S h) :
    s.Serves S where
  goesOn := (hrun.hasTime hvalid htimely).goesOn
  waits _ _ _ _ hreader hlater hlaterTimely hundisturbed :=
    hrun.waits hvalid htimely hreader hlater hlaterTimely hundisturbed
  measures t _ _ _ hreader hincoming hlength := next?_measures t hreader hincoming hlength
  routes t _ _ _ _ _ _ _ hreader hincoming hdecrypt hunpack :=
    next?_routes t hreader hincoming hdecrypt hunpack

end Scene

namespace Sample

/-- A registration, as it is sent on the session of `scene`. -/
def frame : Bytes :=
  let m := preamble .register guest
  framed (aead.encrypt (.zero keySize) (.zero nonceSize) (m.head ++ m.body))

end Sample

namespace Scene

/-- A length comes a second before the connection was silent for too long, and its body within that
second. The message is routed. -/
theorem timely_frames_routed_barely :
    ∃ (h : List (Scene × Event)) (s : Scene),
      h.map Prod.snd = [.tick (millis 59000), .own (.arrive (Sample.frame.take frameLengthSize)),
        .own (.read ⟨1, .none⟩), .tick (millis 59999),
        .own (.arrive (Sample.frame.drop frameLengthSize)), .own (.read ⟨2, .none⟩)] ∧
      Sample.relay.config.validate = .ok () ∧ Run Sample.relay Sample.scene h s ∧
      Timely Sample.relay h ∧ (∃ p, s.link.reader = .routing p [] (millis 59999)) ∧
      s.Serves Sample.relay := by
  let events : List Event :=
    [.tick (millis 59000), .own (.arrive (Sample.frame.take frameLengthSize)),
      .own (.read ⟨1, .none⟩), .tick (millis 59999),
      .own (.arrive (Sample.frame.drop frameLengthSize)), .own (.read ⟨2, .none⟩)]
  have hall : (Sample.scene.follow? Sample.relay events).any fun run =>
      (run.1.all fun e => e.1.inTime Sample.relay e.2 && e.1.inIdleTime Sample.relay e.2) &&
        match run.2.link.reader with
        | .routing _ replies since => replies = [] && since = millis 59999
        | .awaiting .. | .replying .. | .ended _ => false := by
    decide +kernel
  have hvalid : Sample.relay.config.validate = .ok () := by decide +kernel
  obtain ⟨h, s, hevents, hrun, hchecks⟩ := exists_run_of_follow? hall
  obtain ⟨htimely, hreader⟩ := Bool.and_eq_true_iff.1 hchecks
  have htimely : Timely Sample.relay h := fun e he =>
    Bool.and_eq_true_iff.1 (List.all_eq_true.1 htimely e he)
  refine ⟨h, s, hevents, hvalid, hrun, htimely, ?_, timely_frames_routed hvalid hrun htimely⟩
  split at hreader
  · rename_i p replies since hrouting
    obtain ⟨hreplies, hsince⟩ := Bool.and_eq_true_iff.1 hreader
    exact ⟨p, of_decide_eq_true hreplies ▸ of_decide_eq_true hsince ▸ hrouting⟩
  all_goals cases hreader

/-- A length comes a millisecond before the connection was silent for too long. Its body comes with
three seconds to spare, but by then the reader has ended, since the connection was silent. -/
theorem cut_off_before_deadline :
    ∃ (h : List (Scene × Event)) (s : Scene),
      h.map Prod.snd = [.tick (millis 59999),
        .own (.arrive (Sample.frame.take frameLengthSize)), .own (.read ⟨1, .none⟩),
        .tick (millis 60000), .own .ring, .tick (millis 61000),
        .own (.arrive (Sample.frame.drop frameLengthSize))] ∧
      Sample.relay.config.validate = .ok () ∧ Run Sample.relay Sample.scene h s ∧
      (∀ e ∈ h, e.1.inTime Sample.relay e.2 ∧ e.1.link.closing = false) ∧
      s.now < millis 59999 + millis (Link.partLimit Sample.relay) ∧
      s.link.incoming = Sample.frame.drop frameLengthSize ∧
      s.link.reader = .ended (.error (.timeout .idleWait)) := by
  let events : List Event :=
    [.tick (millis 59999), .own (.arrive (Sample.frame.take frameLengthSize)),
      .own (.read ⟨1, .none⟩), .tick (millis 60000), .own .ring, .tick (millis 61000),
      .own (.arrive (Sample.frame.drop frameLengthSize))]
  have hall : (Sample.scene.follow? Sample.relay events).any fun run =>
      (run.1.all fun e => e.1.inTime Sample.relay e.2 && !e.1.link.closing) &&
        (run.2.now < millis 59999 + millis (Link.partLimit Sample.relay) &&
          (run.2.link.incoming = Sample.frame.drop frameLengthSize &&
            match run.2.link.reader with
            | .ended (.error (.timeout .idleWait)) => true
            | _ => false)) := by
    decide +kernel
  have hvalid : Sample.relay.config.validate = .ok () := by decide +kernel
  obtain ⟨h, s, hevents, hrun, hchecks⟩ := exists_run_of_follow? hall
  simp only [Bool.and_eq_true, List.all_eq_true, Bool.not_eq_true', decide_eq_true_eq] at hchecks
  obtain ⟨hlimits, hnow, hincoming, hreader⟩ := hchecks
  refine ⟨h, s, hevents, hvalid, hrun, hlimits, hnow, hincoming, ?_⟩
  split at hreader
  · assumption
  · cases hreader

end Scene

end Relay
