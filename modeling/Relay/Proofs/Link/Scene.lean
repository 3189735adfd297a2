import Relay.Proofs.Link.Timing

/-!
# `Relay.Proofs.Link.Scene`: a session among others, as time passes

A `Scene` is one session with what connections share and the time. Whatever the others do to what
they share, whatever the session does and however time passes, in any order, is a run; the sessions of
a relay are among them (`Server.staged_of_start`). The halves of the session note activity down by
themselves: a half that has read or written a frame may come to it only later, when the other half has
noted down a later time already (`Event.late`, `Event.note`).

`latest` is the time of the latest activity that was noted down in a run, and it is what the record
of activity holds (`Run.activity_eq`).
-/

set_option autoImplicit false

namespace Relay

/-- A session, what connections share, and the time. -/
structure Scene where
  /-- The session. -/
  link : Link
  /-- What connections share. -/
  shared : State
  /-- The time. -/
  now : Nat

namespace Scene

/-- What may happen next. -/
inductive Event where
  /-- Something happens on the session. If it is activity, that is noted down at once. -/
  | own (event : LinkEvent)
  /-- Something happens on the session, and if it is activity, that is not noted down yet. -/
  | late (event : LinkEvent)
  /-- Activity at an earlier time is noted down. -/
  | note (time : Nat)
  /-- Others change what connections share. -/
  | others (σ : State)
  /-- The permit to close is left. -/
  | close
  /-- Nobody can put messages into the queue any more. -/
  | release
  /-- Time passes. -/
  | tick (later : Nat)

/-- What happens on the session itself. -/
def Event.link? : Event → Option LinkEvent
  | own event | late event => some event
  | note _ | others _ | close | release | tick _ => none

variable (S : Service)

/-- What an event makes of a scene, if it can happen. -/
def next? (s : Scene) : Event → Option Scene
  | .own event =>
    (s.link.step? S s.now s.shared event).map fun next => ⟨next.1, next.2, s.now⟩
  | .late event =>
    (s.link.step? S s.now s.shared event).map fun next =>
      ⟨{ next.1 with activity := s.link.activity }, next.2, s.now⟩
  | .note time => if time ≤ s.now then some { s with link := s.link.touch time } else none
  | .others σ => some { s with shared := σ }
  | .close => some { s with link.closing := true }
  | .release => some { s with link.released := true }
  | .tick later => if s.now ≤ later then some { s with now := later } else none

/-- A session that begins. -/
def start (id : ConnId) (session : Session) (peer : Peer) (σ : State) (now : Nat) : Scene :=
  ⟨Link.start id session peer now (Link.idleLimit S), σ, now⟩

/-- When the connection will have been silent for too long, as far as activity was noted down. -/
def deadline (s : Scene) : Nat := s.link.activity.idleDeadline (Link.idleLimit S)

/-- Events that follow on one another, each with the scene in which it happens, from the first scene
to the last. -/
inductive Run (first : Scene) : List (Scene × Event) → Scene → Prop where
  | start : Run first [] first
  | snoc {h : List (Scene × Event)} {s s' : Scene} {event : Event} (hrun : Run first h s)
      (hnext : s.next? S event = some s') : Run first (h ++ [(s, event)]) s'

/-- Follows events one after the other, if all of them can happen. -/
def follow? (s : Scene) : List Event → Option (List (Scene × Event) × Scene)
  | [] => some ([], s)
  | event :: rest =>
    (s.next? S event).bind fun s' =>
      (follow? s' rest).map fun run => ((s, event) :: run.1, run.2)

/-- The times of activity that an event notes down. -/
def notes (s : Scene) : Event → List Nat
  | .own event => if s.link.touches event then [s.now] else []
  | .note time => [time]
  | .late _ | .others _ | .close | .release | .tick _ => []

/-- The times of activity that were noted down, in the order in which they were. -/
def noted (h : List (Scene × Event)) : List Nat := h.flatMap fun e => e.1.notes e.2

/-- The time of the latest activity that was noted down since the session began. -/
def latest (origin : Nat) (h : List (Scene × Event)) : Nat := (noted h).foldl max origin

variable {S} {first s s' : Scene} {h : List (Scene × Event)} {event : Event}

/-! ### Runs -/

/-- What holds at first and is kept by every event holds at last. -/
theorem Run.invariant {P : List (Scene × Event) → Scene → Prop} (hstart : P [] first)
    (hstep : ∀ (h : List (Scene × Event)) (s : Scene) (event : Event) (s' : Scene),
      Run S first h s → P h s → s.next? S event = some s' → P (h ++ [(s, event)]) s')
    (hrun : Run S first h s) : P h s := by
  induction hrun with
  | start => exact hstart
  | snoc hrun hnext ih => exact hstep _ _ _ _ hrun ih hnext

theorem Run.trans {middle : Scene} {h₁ h₂ : List (Scene × Event)} (h₁run : Run S first h₁ middle)
    (h₂run : Run S middle h₂ s) : Run S first (h₁ ++ h₂) s := by
  induction h₂run with
  | start =>
    rw [List.append_nil]
    exact h₁run
  | snoc _ hnext ih =>
    rw [← List.append_assoc]
    exact ih.snoc hnext

/-- Events that are followed make a run of just these events. -/
theorem run_of_follow? {events : List Event} (hfollow : first.follow? S events = some (h, s)) :
    Run S first h s ∧ h.map Prod.snd = events := by
  induction events generalizing first h with
  | nil =>
    cases hfollow
    exact ⟨.start, rfl⟩
  | cons event rest ih =>
    obtain ⟨s', hnext, hrest⟩ := Option.bind_eq_some_iff.1 hfollow
    obtain ⟨⟨h', last⟩, hfollows, heq⟩ := Option.map_eq_some_iff.1 hrest
    cases heq
    obtain ⟨hrun, hevents⟩ := ih hfollows
    exact ⟨(Run.start.snoc hnext).trans hrun, by rw [List.map_cons, hevents]⟩

/-- If following events leads to a run that passes a test, there is such a run. -/
theorem exists_run_of_follow? {events : List Event} {P : List (Scene × Event) × Scene → Bool}
    (hall : (first.follow? S events).any P) :
    ∃ (h : List (Scene × Event)) (s : Scene),
      h.map Prod.snd = events ∧ Run S first h s ∧ P (h, s) := by
  obtain ⟨⟨h, s⟩, hfollow, hpasses⟩ := (Option.any_eq_true _ _).1 hall
  obtain ⟨hrun, hevents⟩ := run_of_follow? hfollow
  exact ⟨h, s, hevents, hrun, hpasses⟩

theorem noted_append (h h' : List (Scene × Event)) : noted (h ++ h') = noted h ++ noted h' :=
  List.flatMap_append

theorem latest_snoc (origin : Nat) (h : List (Scene × Event)) (s : Scene) (event : Event) :
    latest origin (h ++ [(s, event)]) = (s.notes event).foldl max (latest origin h) := by
  rw [latest, noted_append, List.foldl_append, noted, noted, List.flatMap_singleton, latest, noted]

/-! ### What an event does -/

/-- The session takes a step of its own, or its reader and its input stay as they are. -/
inductive Course (S : Service) (s : Scene) (event : Event) (s' : Scene) : Prop where
  | acts {e : LinkEvent} {l : Link} (hevent : event.link? = some e)
      (hstep : s.link.step? S s.now s.shared e = some (l, s'.shared))
      (hlink : ∃ activity, s'.link = { l with activity }) (hnow : s'.now = s.now)
  | passes (hevent : event.link? = none) (hreader : s'.link.reader = s.link.reader)
      (hincoming : s'.link.incoming = s.link.incoming)
      (hinput : s'.link.inputEnd = s.link.inputEnd)

theorem eq_of_next?_note {time : Nat} (hnext : s.next? S (.note time) = some s') :
    s' = { s with link := s.link.touch time } := by
  rw [next?] at hnext
  split at hnext
  · exact (Option.some.inj hnext).symm
  · cases hnext

theorem eq_of_next?_tick {later : Nat} (hnext : s.next? S (.tick later) = some s') :
    s' = { s with now := later } := by
  rw [next?] at hnext
  split at hnext
  · exact (Option.some.inj hnext).symm
  · cases hnext

theorem course_of_next? (hnext : s.next? S event = some s') : s.Course S event s' := by
  cases event with
  | own e =>
    obtain ⟨⟨l, σ⟩, hstep, rfl⟩ := Option.map_eq_some_iff.1 hnext
    exact .acts rfl hstep ⟨l.activity, rfl⟩ rfl
  | late e =>
    obtain ⟨⟨l, σ⟩, hstep, rfl⟩ := Option.map_eq_some_iff.1 hnext
    exact .acts rfl hstep ⟨_, rfl⟩ rfl
  | note time =>
    obtain rfl := eq_of_next?_note hnext
    exact .passes rfl rfl rfl rfl
  | tick later =>
    obtain rfl := eq_of_next?_tick hnext
    exact .passes rfl rfl rfl rfl
  | others | close | release =>
    cases hnext
    exact .passes rfl rfl rfl rfl

/-- Only time that passes changes the time. -/
theorem now_of_next? (hnext : s.next? S event = some s') :
    s'.now = s.now ∨ event = .tick s'.now := by
  cases event with
  | tick later =>
    obtain rfl := eq_of_next?_tick hnext
    exact .inr rfl
  | note time =>
    obtain rfl := eq_of_next?_note hnext
    exact .inl rfl
  | own | late =>
    obtain ⟨_, -, rfl⟩ := Option.map_eq_some_iff.1 hnext
    exact .inl rfl
  | others | close | release =>
    cases hnext
    exact .inl rfl

/-- The record of activity after an event. -/
theorem activity_of_next? (hnext : s.next? S event = some s') :
    s'.link.activity = (s.notes event).foldl Activity.touch s.link.activity := by
  cases event with
  | own e =>
    obtain ⟨⟨l, σ⟩, hstep, rfl⟩ := Option.map_eq_some_iff.1 hnext
    rw [notes]
    show l.activity = _
    rw [Link.activity_of_step? hstep]
    split <;> rfl
  | late e =>
    obtain ⟨⟨l, σ⟩, hstep, rfl⟩ := Option.map_eq_some_iff.1 hnext
    rfl
  | note time =>
    obtain rfl := eq_of_next?_note hnext
    rfl
  | tick later =>
    obtain rfl := eq_of_next?_tick hnext
    rfl
  | others | close | release =>
    cases hnext
    rfl

/-- Noting down activity never moves the deadline backwards. -/
theorem idleDeadline_le_foldl_touch (activity : Activity) (times : List Nat) (idle : Nat) :
    activity.idleDeadline idle ≤ (times.foldl Activity.touch activity).idleDeadline idle := by
  induction times generalizing activity with
  | nil => exact Nat.le_refl _
  | cons time rest ih => exact Nat.le_trans (activity.idleDeadline_le_touch time idle) (ih _)

/-- The deadline never moves backwards. -/
theorem deadline_le_of_next? (hnext : s.next? S event = some s') : s.deadline S ≤ s'.deadline S := by
  rw [deadline, deadline, activity_of_next? hnext]
  exact idleDeadline_le_foldl_touch ..

section

variable {id : ConnId} {session : Session} {peer : Peer} {σ : State} {origin : Nat}

/-- The record of activity holds the latest time that was noted down. -/
theorem Run.activity_eq (hrun : Run S (Scene.start S id session peer σ origin) h s) :
    s.link.activity = Activity.asOf origin (latest origin h) := by
  refine hrun.invariant
    (P := fun h s => s.link.activity = Activity.asOf origin (latest origin h)) ?_ ?_
  · exact (Activity.asOf_self origin).symm
  · intro h s event s' _ ih hnext
    rw [activity_of_next? hnext, ih, Activity.foldl_touch, latest_snoc]

/-- The input of a session does not end because of the time. -/
theorem Run.inputEnd_ne_timeout (hrun : Run S (Scene.start S id session peer σ origin) h s)
    (what : WireStep) : s.link.inputEnd ≠ some (.timeout what) := by
  refine hrun.invariant (P := fun _ s => s.link.inputEnd ≠ some (.timeout what)) (by nofun) ?_
  intro h s event s' _ ih hnext
  cases course_of_next? hnext with
  | passes _ _ _ hinput => rwa [hinput]
  | acts _ hstep hlink =>
    obtain ⟨activity, hlink⟩ := hlink
    rw [hlink]
    exact Link.inputEnd_ne_timeout_of_step? hstep ih

end

end Scene

end Relay
