import Mathlib.Data.List.Perm.Basic
import Relay.Proofs.Link.Scene
import Relay.Proofs.Link.Step
import Relay.Proofs.Traffic.Execution

/-!
# `Relay.Proofs.Link.Idle`: how long a connection may be silent

The deadline of a silent connection follows the latest activity, which both halves of the session note
down, and it never moves backwards. The timer of the reader does not follow it: it is set when the
reader begins to wait and again when it goes off. Since it is never set to later than the deadline
(`Scene.Armed`), a reader that looks at the deadline whenever the timer goes off neither ends too
early nor waits too long. `Scene.Slides` is what may be relied on.
-/

set_option autoImplicit false

namespace Relay

theorem ReaderStage.exists_of_isAwaiting {r : ReaderStage} (h : r.isAwaiting) :
    ∃ (part : FramePart) (timer : Nat), r = .awaiting part timer := by
  cases r with
  | awaiting part timer => exact ⟨part, timer, rfl⟩
  | routing | replying | ended => cases h

namespace Scene

variable {S : Service} {s s' : Scene} {h : List (Scene × Event)} {event : Event}

/-- The timer of a reader that waits is set to no later than the deadline. -/
def Armed (S : Service) (s : Scene) : Prop :=
  ∀ (part : FramePart) (timer : Nat), s.link.reader = .awaiting part timer → timer ≤ s.deadline S

/-- The timer is set to the deadline as it is then, and later the deadline only moves forward. -/
theorem Armed.next (h : s.Armed S) (hnext : s.next? S event = some s') : s'.Armed S := by
  intro part timer hreader
  refine Nat.le_trans ?_ (deadline_le_of_next? hnext)
  cases course_of_next? hnext with
  | passes _ hsame => exact h part timer (hsame ▸ hreader)
  | acts _ hstep hlink =>
    obtain ⟨activity, hlink⟩ := hlink
    rw [hlink] at hreader
    cases Link.awaits_of_step? hstep hreader with
    | same _ hbefore => exact h _ _ hbefore
    | measures _ hbefore => exact h _ _ hbefore
    | rings | begins => exact Nat.le_refl _

/-- Time does not pass beyond the timer of a reader that waits. -/
def Punctual (h : List (Scene × Event)) : Prop :=
  ∀ (s : Scene) (later : Nat), (s, Event.tick later) ∈ h →
    ∀ (part : FramePart) (timer : Nat), s.link.reader = .awaiting part timer → later ≤ timer

/-- The timer goes off. The reader ends if the deadline has come, and else sets the timer again, to
the deadline. -/
theorem next?_ring {part : FramePart} {timer : Nat} (hreader : s.link.reader = .awaiting part timer)
    (htimer : timer ≤ s.now) :
    ∃ s', s.next? S (.own .ring) = some s' ∧ s'.link.reader =
      if s.deadline S ≤ s.now then .ended (.error (.timeout .idleWait))
      else .awaiting part (s.deadline S) := by
  rw [next?, Link.step?, Link.ring?, hreader]
  dsimp only
  rw [if_pos htimer]
  by_cases hdeadline : s.deadline S ≤ s.now
  · rw [if_pos hdeadline]
    exact ⟨_, by rw [if_pos (show s.link.activity.idleDeadline _ ≤ s.now from hdeadline)]; rfl, rfl⟩
  · rw [if_neg hdeadline]
    exact ⟨_, by rw [if_neg (show ¬ s.link.activity.idleDeadline _ ≤ s.now from hdeadline)]; rfl, rfl⟩

/-- While a reader waits and nothing is noted down, the deadline stays where it is, and time passes
up to it at most. -/
theorem Run.now_le (harmed : s.Armed S) (hrun : Run S s h s') (hpunctual : Punctual h)
    (hwaits : ∀ e ∈ h, e.1.link.reader.isAwaiting) (hquiet : noted h = []) :
    s'.Armed S ∧ s'.deadline S = s.deadline S ∧ s'.now ≤ max s.now (s.deadline S) := by
  induction hrun with
  | start => exact ⟨harmed, rfl, Nat.le_max_left _ _⟩
  | @snoc h u u' event hrun hnext ih =>
    rw [noted_append, List.append_eq_nil_iff] at hquiet
    obtain ⟨hearlier, hlast⟩ := hquiet
    have hlast : u.notes event = [] := (List.flatMap_singleton ..).symm.trans hlast
    obtain ⟨harmed, hdeadline, hnow⟩ := ih
      (fun s later hmem => hpunctual s later (List.mem_append_left _ hmem))
      (fun e he => hwaits e (List.mem_append_left _ he)) hearlier
    have hsame : u'.deadline S = u.deadline S := by
      rw [deadline, activity_of_next? hnext, hlast]
      rfl
    refine ⟨harmed.next hnext, hsame.trans hdeadline, ?_⟩
    have hmem : (u, event) ∈ h ++ [(u, event)] :=
      List.mem_append_right _ (List.mem_singleton_self _)
    rcases now_of_next? hnext with hstill | rfl
    · rw [hstill]
      exact hnow
    · obtain ⟨part, timer, hreader⟩ := ReaderStage.exists_of_isAwaiting (hwaits _ hmem)
      have htimer := hpunctual u u'.now hmem part timer hreader
      have hlimit := harmed part timer hreader
      rw [← hdeadline]
      exact Nat.le_trans (Nat.le_trans htimer hlimit) (Nat.le_max_right _ _)

/-- What may be relied on about the deadline of a silent connection, after a run since the session
began. -/
structure Slides (S : Service) (origin : Nat) (h : List (Scene × Event)) (s : Scene) : Prop where
  /-- The deadline follows the latest activity, in whole milliseconds since the session began, -/
  deadline : s.deadline S = origin + millis ((latest origin h - origin) / millis 1) +
    millis (Link.idleLimit S)
  /-- whatever the order in which activity is noted down. -/
  anyOrder : ∀ times : List Nat, times.Perm (noted h) →
    (times.foldl Activity.touch { origin }).idleDeadline (Link.idleLimit S) = s.deadline S
  /-- It never moves backwards. -/
  forward : ∀ (event : Event) (s' : Scene), s.next? S event = some s' →
    s.deadline S ≤ s'.deadline S
  /-- The reader ends because the connection is silent only when its timer goes off and the deadline
  has come as it is by then. -/
  timesOut : ∀ (event : Event) (s' : Scene), s.next? S event = some s' →
    s.link.reader ≠ .ended (.error (.timeout .idleWait)) →
    s'.link.reader = .ended (.error (.timeout .idleWait)) →
      event.link? = some .ring ∧ s.link.reader.isAwaiting ∧ s.deadline S ≤ s.now
  /-- As long as the reader waits its timer is set, and to no later than the deadline. -/
  armed : ∀ (part : FramePart) (timer : Nat), s.link.reader = .awaiting part timer →
    timer ≤ s.deadline S
  /-- When the timer goes off the reader ends if the deadline has come, and else the timer is set to
  the deadline. -/
  rings : ∀ (part : FramePart) (timer : Nat), s.link.reader = .awaiting part timer →
    timer ≤ s.now → ∃ s', s.next? S (.own .ring) = some s' ∧ s'.link.reader =
      if s.deadline S ≤ s.now then .ended (.error (.timeout .idleWait))
      else .awaiting part (s.deadline S)
  /-- If timers go off on time, the reader does not wait past the deadline without activity. -/
  expires : ∀ (h' : List (Scene × Event)) (s' : Scene), Run S s h' s' → Punctual h' →
    (∀ e ∈ h', e.1.link.reader.isAwaiting) → noted h' = [] →
      s'.deadline S = s.deadline S ∧ s'.now ≤ max s.now (s.deadline S)

/-- Whatever the halves of a session do and in whatever order, and however time passes: the deadline
of the silent connection is given by the latest activity that either half has noted down, it never
moves backwards, and it is what the reader goes by, although the timer of the reader may have been set
before others moved the deadline. -/
theorem idle_deadline_slides {id : ConnId} {session : Session} {peer : Peer} {σ : State}
    {origin : Nat} (hrun : Run S (Scene.start S id session peer σ origin) h s) :
    s.Slides S origin h := by
  have hactivity := hrun.activity_eq
  have harmed : s.Armed S := by
    refine hrun.invariant (P := fun _ s => s.Armed S) ?_ fun _ _ _ _ _ ih hnext => ih.next hnext
    intro part timer hreader
    cases hreader
    simp [Scene.deadline, Scene.start, Link.start, Activity.idleDeadline, millis]
  constructor
  case deadline => rw [Scene.deadline, hactivity, Activity.idleDeadline_asOf]
  case anyOrder =>
    intro times hperm
    rw [Scene.deadline, hactivity, ← Activity.asOf_self, Activity.foldl_touch, latest,
      hperm.foldl_eq]
  case forward => exact fun event s' hnext => deadline_le_of_next? hnext
  case timesOut =>
    intro event s' hnext hbefore hafter
    cases course_of_next? hnext with
    | passes _ hreader => exact absurd (hreader.symm.trans hafter) hbefore
    | acts hevent hstep hlink =>
      obtain ⟨activity, hlink⟩ := hlink
      rw [hlink] at hafter
      cases Link.timesOut_of_step? hstep (hrun.inputEnd_ne_timeout _) hbefore hafter with
      | silent hreader hdeadline => exact ⟨hevent, by rw [hreader]; rfl, hdeadline⟩
  case armed => exact harmed
  case rings => exact fun part timer => next?_ring
  case expires =>
    intro h' s' hlater hpunctual hwaits hquiet
    exact (hlater.now_le harmed hpunctual hwaits hquiet).2

end Scene

namespace Sample

/-- A session on connection 0, for which a message waits. -/
def scene : Scene :=
  let session : Session := ⟨⟨aead, .zero keySize, 0⟩, ⟨aead, .zero keySize, 0⟩⟩
  let σ := match first.state.connect 0 outboundCapacity 0 with
    | .ok σ => σ.enqueue 0 (relay.message ⟨0, .none⟩ .broadcast guest.id)
    | .error _ => first.state
  Scene.start relay 0 session {} σ 0

end Sample

namespace Scene

/-- After half a minute a message is written, and then an earlier time is noted down. The timer goes
off after a minute, too early, and then half a minute later. -/
theorem idle_deadline_slides_writing :
    ∃ (h : List (Scene × Event)) (s : Scene),
      h.map Prod.snd = [.tick (millis 30000 + 400), .own .collect, .own .taken, .own .taken,
        .note 10, .tick (millis 60000), .own .ring, .tick (millis 90000), .own .ring] ∧
      Run Sample.relay Sample.scene h s ∧ noted h = [millis 30000 + 400, 10] ∧
      s.deadline Sample.relay = millis 90000 ∧
      s.link.reader = .ended (.error (.timeout .idleWait)) ∧ s.Slides Sample.relay 0 h := by
  let events : List Event := [.tick (millis 30000 + 400), .own .collect, .own .taken, .own .taken,
    .note 10, .tick (millis 60000), .own .ring, .tick (millis 90000), .own .ring]
  have hall : (Sample.scene.follow? Sample.relay events).any fun run =>
      noted run.1 = [millis 30000 + 400, 10] && run.2.deadline Sample.relay = millis 90000 &&
        match run.2.link.reader with
        | .ended (.error (.timeout .idleWait)) => true
        | _ => false := by
    decide +kernel
  obtain ⟨h, s, hevents, hrun, hchecks⟩ := exists_run_of_follow? hall
  rw [Bool.and_eq_true, Bool.and_eq_true, decide_eq_true_eq, decide_eq_true_eq] at hchecks
  obtain ⟨⟨hnoted, hdeadline⟩, hreader⟩ := hchecks
  refine ⟨h, s, hevents, hrun, hnoted, hdeadline, ?_, idle_deadline_slides hrun⟩
  split at hreader
  · assumption
  · cases hreader

end Scene

end Relay
