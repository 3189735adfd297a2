import Relay.Proofs.Link.Moves

/-!
# `Relay.Proofs.Link.Timing`: when something is due on a session

`Link.Moves` leaves open to which times a session sets what is due. Here they are given. Activity is
noted down when a frame was read or written to its end (`touches`, `activity_of_step?`), and the
record of activity is the same in whatever order times are noted down (`Activity.foldl_touch`). A
reader that waits after a step waited before with the same timer, or `Link.Awaits` says what it waits
for and to when its timer is set (`awaits_of_step?`). That a reader gives up because of the time has
one of two reasons (`timeout_of_step?`).
-/

set_option autoImplicit false

namespace Relay

/-! ### The record of activity -/

namespace Activity

/-- The record of a session that began at one time and was last active at another. -/
def asOf (origin latest : Nat) : Activity := ⟨origin, (latest - origin) / millis 1⟩

theorem asOf_self (origin : Nat) : asOf origin origin = ⟨origin, 0⟩ := by
  rw [asOf, Nat.sub_self, Nat.zero_div]

/-- The record keeps the latest time. -/
theorem touch_asOf (origin latest time : Nat) :
    (asOf origin latest).touch time = asOf origin (max latest time) := by
  simp only [touch, asOf, millis, mk.injEq, true_and]
  omega

/-- Whatever the order in which times are noted down, the record keeps the latest. -/
theorem foldl_touch (origin latest : Nat) (times : List Nat) :
    times.foldl touch (asOf origin latest) = asOf origin (times.foldl max latest) := by
  induction times generalizing latest with
  | nil => rfl
  | cons time rest ih => rw [List.foldl_cons, List.foldl_cons, touch_asOf, ih]

theorem idleDeadline_asOf (origin latest idle : Nat) :
    (asOf origin latest).idleDeadline idle =
      origin + millis ((latest - origin) / millis 1) + millis idle := rfl

end Activity

namespace Link

variable {S : Service} {now timer : Nat} {l l' : Link} {σ σ' : State} {t : Moment}
  {event : LinkEvent} {part : FramePart}

/-! ### Activity -/

/-- Whether a frame is read or written to its end by an event. -/
def touches (l : Link) : LinkEvent → Bool
  | .read _ =>
    match l.reader with
    | .awaiting (.body size _) _ => size ≤ l.incoming.length
    | _ => false
  | .taken =>
    match l.writer with
    | .body _ _ => true
    | _ => false
  | _ => false

theorem activity_openFrame (l : Link) (frame : Bytes) :
    (l.openFrame S now t σ frame).1.activity = l.activity := by
  unfold openFrame
  split
  · rfl
  · dsimp only
    split
    · rfl
    · rw [proceed_eq]

/-- Activity is noted down when a frame was read or written to its end, and at no other time. -/
theorem activity_of_step? (h : l.step? S now σ event = some (l', σ')) :
    l'.activity = if l.touches event then l.activity.touch now else l.activity := by
  cases event with
  | read t =>
    simp only [step?, read?] at h
    unfold touches
    split at h
    · rename_i hreader
      rw [hreader]
      split at h
      · obtain ⟨e, -, heq⟩ := Option.map_eq_some_iff.1 h
        cases heq
        rfl
      · split at h <;> cases h <;> rfl
    · rename_i size deadline timer hreader
      rw [hreader]
      split at h
      · rename_i hshort
        obtain ⟨e, -, heq⟩ := Option.map_eq_some_iff.1 h
        cases heq
        simp only [decide_eq_true_eq, if_neg (Nat.not_le.2 hshort)]
        rfl
      · rename_i hlong
        simp only [decide_eq_true_eq, if_pos (Nat.le_of_not_lt hlong)]
        have hopen := congrArg (fun next => next.1.activity) (Option.some.inj h)
        exact hopen.symm.trans (activity_openFrame _ _)
    · cases h
  | taken =>
    obtain ⟨next, htaken, heq⟩ := Option.map_eq_some_iff.1 h
    cases heq
    unfold taken? at htaken
    unfold touches
    split at htaken
    · rename_i hwriter
      rw [hwriter]
      cases htaken
      rfl
    · rename_i hwriter
      rw [hwriter]
      cases htaken
      rfl
    · cases htaken
  | _ => cases moves_of_step? h <;> rfl

/-! ### What a reader waits for -/

/-- What a reader waits for after an event, and to when its timer is set. -/
inductive Awaits (S : Service) (now : Nat) (l : Link) : LinkEvent → FramePart → Nat → Prop where
  /-- It waits as before. -/
  | same (event : LinkEvent) {part : FramePart} {timer : Nat}
      (hreader : l.reader = .awaiting part timer) : Awaits S now l event part timer
  /-- It has taken in the length of a frame. The timer runs on. -/
  | measures (t : Moment) {timer : Nat} {length : UInt32} (hreader : l.reader = .awaiting .length timer)
      (hlong : frameLengthSize ≤ l.incoming.length) :
      Awaits S now l (.read t) (.body length.toNat (now + millis (partLimit S))) timer
  /-- The timer has gone off too early. -/
  | rings {part : FramePart} {timer : Nat} (hreader : l.reader = .awaiting part timer)
      (htimer : timer ≤ now) (hearly : now < l.activity.idleDeadline (idleLimit S)) :
      Awaits S now l .ring part (l.activity.idleDeadline (idleLimit S))
  /-- It is done with a frame. -/
  | begins {outcome : Outcome} {since : Nat} (hreader : l.reader = .replying [] outcome since)
      (hstays : outcome.closes = false) :
      Awaits S now l .conclude .length (l.activity.idleDeadline (idleLimit S))

/-- A reader that opens a frame does not wait for one. -/
theorem reader_openFrame_ne_awaiting (l : Link) (frame : Bytes) (part : FramePart) (timer : Nat) :
    (l.openFrame S now t σ frame).1.reader ≠ .awaiting part timer := by
  intro h
  unfold openFrame at h
  split at h
  · cases h
  · dsimp only at h
    split at h
    · cases h
    · rw [proceed_eq] at h
      dsimp only at h
      unfold ReaderStage.ofTurn at h
      split at h <;> cases h

/-- Only three kinds of events change what a reader waits for. -/
theorem Moves.awaiting_cases (h : Moves S now l σ event l' σ')
    (hafter : l'.reader = .awaiting part timer) :
    l.reader = .awaiting part timer ∨ (∃ t, event = .read t) ∨ event = .ring ∨
      event = .conclude := by
  cases h with
  | arrives | hangsUp | collects | chokes | announces | writes | breaks | finishes =>
    exact .inl hafter
  | measures t => exact .inr (.inl ⟨t, rfl⟩)
  | rings => exact .inr (.inr (.inl rfl))
  | goesOn => exact .inr (.inr (.inr rfl))
  | begins t => exact .inr (.inl ⟨t, rfl⟩)
  | resumes =>
    dsimp only at hafter
    unfold ReaderStage.ofTurn at hafter
    split at hafter <;> cases hafter
  | _ => cases hafter

/-- There is nothing else that a reader may wait for. -/
theorem awaits_of_step? (h : l.step? S now σ event = some (l', σ'))
    (hafter : l'.reader = .awaiting part timer) : l.Awaits S now event part timer := by
  rcases (moves_of_step? h).awaiting_cases hafter with hsame | ⟨t, rfl⟩ | rfl | rfl
  case inl => exact .same event hsame
  case inr.inl =>
    simp only [step?, read?] at h
    split at h
    · rename_i hreader
      split at h
      · obtain ⟨e, -, heq⟩ := Option.map_eq_some_iff.1 h
        cases heq
        cases hafter
      · rename_i hlong
        split at h
        · cases h
          cases hafter
          exact .measures t hreader (Nat.le_of_not_lt hlong)
        · cases h
          cases hafter
    · split at h
      · obtain ⟨e, -, heq⟩ := Option.map_eq_some_iff.1 h
        cases heq
        cases hafter
      · have hopen := congrArg (fun next => next.1.reader) (Option.some.inj h)
        exact absurd (hopen.trans hafter) (reader_openFrame_ne_awaiting _ _ _ _)
    · cases h
  case inr.inr.inl =>
    obtain ⟨next, hring, heq⟩ := Option.map_eq_some_iff.1 h
    cases heq
    unfold ring? at hring
    split at hring
    · rename_i hreader
      split at hring
      · rename_i htimer
        dsimp only at hring
        split at hring
        · cases hring
          cases hafter
        · rename_i hearly
          cases hring
          cases hafter
          exact .rings hreader htimer (Nat.lt_of_not_le hearly)
      · cases hring
    · cases hring
  case inr.inr.inr =>
    simp only [step?, conclude?] at h
    split at h
    · rename_i hreader
      split at h
      · cases h
        cases hafter
      · rename_i hstays
        cases h
        cases hafter
        exact .begins hreader (Bool.eq_false_iff.2 hstays)
    · cases h

/-! ### Giving up because of the time -/

/-- The input of a session does not end because of the time. -/
theorem inputEnd_ne_timeout_of_step? (h : l.step? S now σ event = some (l', σ')) {what : WireStep}
    (hinput : l.inputEnd ≠ some (.timeout what)) : l'.inputEnd ≠ some (.timeout what) := by
  cases event with
  | hangUp broken =>
    simp only [step?] at h
    split at h
    · cases h
    · cases h
      intro hend
      cases broken <;> cases hend
  | _ => cases moves_of_step? h <;> exact hinput

/-- Why a reader ends because of the time. -/
inductive TimesOut (S : Service) (now : Nat) (l : Link) : LinkEvent → WireStep → Prop where
  /-- The connection has been silent for too long. -/
  | silent {part : FramePart} {timer : Nat} (hreader : l.reader = .awaiting part timer)
      (hdeadline : l.activity.idleDeadline (idleLimit S) ≤ now) : TimesOut S now l .ring .idleWait
  /-- A body has not come in time. -/
  | late {size deadline timer : Nat} (hreader : l.reader = .awaiting (.body size deadline) timer)
      (hdeadline : deadline ≤ now) (hshort : l.incoming.length < size) :
      TimesOut S now l .giveUp .frameBodyRead

/-- There is no other reason. -/
theorem timesOut_of_step? (h : l.step? S now σ event = some (l', σ')) {what : WireStep}
    (hinput : l.inputEnd ≠ some (.timeout what))
    (hbefore : l.reader ≠ .ended (.error (.timeout what)))
    (hafter : l'.reader = .ended (.error (.timeout what))) : l.TimesOut S now event what := by
  cases moves_of_step? h with
  | arrives | hangsUp | collects | chokes | announces | writes | breaks | finishes =>
    exact absurd hafter hbefore
  | begins | resumes =>
    dsimp only at hafter
    unfold ReaderStage.ofTurn at hafter
    split at hafter <;> cases hafter
  | fails hfails =>
    cases hafter
    cases hfails with
    | input _ _ hend => exact absurd hend hinput
    | silent hreader hdeadline => exact .silent hreader hdeadline
    | late hreader hdeadline hshort => exact .late hreader hdeadline hshort
  | _ => cases hafter

end Link

end Relay
