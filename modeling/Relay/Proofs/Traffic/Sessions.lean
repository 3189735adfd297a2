import Relay.Proofs.Routing.Effect
import Relay.Proofs.Traffic.Execution

/-!
# `Relay.Proofs.Traffic.Sessions`: who is logged in where

However the steps of different connections mix, the registry stays in order. `Traffic.Sound` is the
invariant: the two tables of the registry agree, whoever is on a connection is in the directory, and
a connection stands at `secureEstablished` only while its preamble is under way. The last one is
what makes a connection without a call either fresh or logged in.

`sound_settle` says that a step of routing keeps it, whichever it is, and `Moves.sound` the same of
any event. The life of a connection is a run in which it is registered all the time (`Lives`); in it
the phase never goes back (`Run.rank_le`) and at most one preamble is let through.
-/

set_option autoImplicit false

namespace Relay

namespace Traffic

open Service (RegistryEffect)

variable {S : Service} {first last s s' : Traffic} {h : List (Step S)} {event : Event}

/-! ### The directory only grows -/

/-- The directory stays as it is or gets one more user. -/
theorem Moves.directory_cases (hmoves : Moves S s event s') :
    s'.state.store.directory = s.state.store.directory ∨
      ∃ (name : Username) (record : String) (user : User),
        s.state.store.directory.enrol name record = .ok (user, s'.state.store.directory) := by
  cases hmoves with
  | connect hopen =>
    obtain ⟨_, _, -, -, rfl⟩ := State.connect_eq_ok hopen
    exact .inl rfl
  | @receive conn t m =>
    exact .inl (congrArg Store.directory (S.beginning_begin s.state t conn m).store_eq)
  | @resume conn t call =>
    exact (S.resumption_resume s.state t conn call.pending).directory_cases
  | disconnect => exact .inl rfl
  | abort => exact .inl rfl
  | collect => exact .inl rfl
  | close => exact .inl rfl
  | draw => exact .inl rfl
  | stop => exact .inl rfl

theorem Moves.mem_users (hmoves : Moves S s event s') {user : User}
    (huser : user ∈ s.state.store.directory.users) :
    user ∈ s'.state.store.directory.users := by
  rcases hmoves.directory_cases with hsame | ⟨_, _, _, henrol⟩
  · rw [hsame]
    exact huser
  · exact ((Directory.enrol_eq_ok henrol).2 user).2 (.inr huser)

theorem Run.mem_users (hrun : Run S first h last) {user : User}
    (huser : user ∈ first.state.store.directory.users) :
    user ∈ last.state.store.directory.users :=
  hrun.invariant (P := fun _ s => user ∈ s.state.store.directory.users) huser
    fun _ step _ hbefore => step.moves.mem_users hbefore

/-! ### The invariant -/

/-- The sessions are in order. -/
structure Sound (s : Traffic) : Prop where
  /-- The two tables of the registry agree. -/
  consistent : s.state.registry.Consistent
  /-- Whoever is on a connection is in the directory. -/
  registered : ∀ (conn : ConnId) (user : User),
    s.state.registry.user? conn = some user → user ∈ s.state.store.directory.users
  /-- A connection whose preamble was let through has not finished with it. -/
  underway : ∀ conn : ConnId, s.state.registry.phase? conn = some .secureEstablished →
    ∃ call : Call, s.calls.get? conn = some call ∧ call.pending.isPreamble

theorem Opening.sound (hopening : Opening S s) : Sound s := by
  obtain ⟨lifetime, hregistry⟩ := hopening.registry
  constructor
  · rw [hregistry]
    exact Registry.consistent_empty lifetime
  · intro conn user huser
    simp [hregistry, Registry.user?, Registry.get?] at huser
  · intro conn hphase
    simp [hregistry, Registry.phase?, Registry.get?] at hphase

/-- Whatever a step of routing does, sessions that were in order stay in order. -/
theorem sound_settle (hs : Sound s) {conn : ConnId} {preamble : Prop} {turn : Turn}
    (heffect : RegistryEffect s.state conn preamble turn)
    (hpreamble : s.state.registry.phase? conn = some .secureEstablished → preamble)
    (husers : ∀ user ∈ s.state.store.directory.users, user ∈ turn.state.store.directory.users)
    (m : Message) (user : Option User) (replies : List Message) :
    Sound (s.settle conn m user replies turn) := by
  constructor
  · exact heffect.consistent hs.consistent
  · intro other user huser
    rcases heffect.user?_cases huser with hold | hnew
    · exact husers user (hs.registered other user hold)
    · exact husers user hnew
  · intro other hphase
    change turn.state.registry.phase? other = some .secureEstablished at hphase
    -- Other connections keep their phase and their message. On this one, a preamble that has been
    -- let through either goes on waiting or has brought the connection to its last phase or its
    -- end.
    rw [get?_calls_settle]
    by_cases hother : other = conn
    · subst hother
      rw [if_pos rfl]
      cases heffect with
      | kept hregistry hnext =>
        rw [hregistry] at hphase
        obtain ⟨p, hp, hwaiting⟩ := hnext (hpreamble hphase)
        rw [hwaiting]
        exact ⟨_, rfl, hp⟩
      | removed hregistry =>
        rw [hregistry, Registry.phase?_delete, if_pos rfl] at hphase
        cases hphase
      | established _ _ hp hwaiting =>
        rw [hwaiting]
        exact ⟨_, rfl, hp⟩
      | loggedIn _ hbind hregistry =>
        rw [hregistry, Registry.phase?_logIn hbind, if_pos rfl] at hphase
        cases hphase
    · rw [heffect.phase?_of_ne hother] at hphase
      rw [if_neg hother]
      exact hs.underway other hphase

/-- A connection that is removed leaves the others in order, whether its message is still under way
or is dropped. -/
theorem sound_purge (hs : Sound s) (conn : ConnId) {calls : Table Call}
    (hcalls : ∀ other, other ≠ conn → calls.get? other = s.calls.get? other) :
    Sound { state := s.state.purge conn, calls } := by
  constructor
  · exact Registry.consistent_delete hs.consistent conn
  · intro other user huser
    exact hs.registered other user (Registry.user?_of_delete huser)
  · intro other hphase
    rw [State.registry_purge, Registry.phase?_delete] at hphase
    split at hphase
    · cases hphase
    · rename_i hother
      obtain ⟨call, hcall, hp⟩ := hs.underway other hphase
      exact ⟨call, (hcalls other hother).trans hcall, hp⟩

/-- Every event leaves sessions that were in order in order. -/
theorem Moves.sound (hmoves : Moves S s event s') (hs : Sound s) : Sound s' := by
  have husers (user : User) (huser : user ∈ s.state.store.directory.users) :=
    hmoves.mem_users huser
  cases hmoves with
  | @connect conn _ _ _ hopen =>
    obtain ⟨box, registry, -, hadd, rfl⟩ := State.connect_eq_ok hopen
    constructor
    · exact Registry.consistent_add hs.consistent hadd
    · intro other user huser
      exact hs.registered other user ((Registry.user?_add hadd other).symm.trans huser)
    · intro other hphase
      change registry.phase? other = some .secureEstablished at hphase
      rw [Registry.phase?_add hadd] at hphase
      split at hphase
      · cases hphase
      · exact hs.underway other hphase
  | disconnect conn => exact sound_purge hs conn fun _ _ => rfl
  | @receive conn t m hidle =>
    refine sound_settle hs (S.beginning_begin s.state t conn m).registryEffect ?_ husers _ _ _
    intro hphase
    -- A preamble that was let through would still be under way.
    obtain ⟨call, hcall, -⟩ := hs.underway conn hphase
    rw [hidle] at hcall
    cases hcall
  | @resume conn t call hcall =>
    refine sound_settle hs (S.resumption_resume s.state t conn call.pending).registryEffect ?_
      husers _ _ _
    intro hphase
    obtain ⟨_, hcall', hp⟩ := hs.underway conn hphase
    rw [hcall] at hcall'
    cases hcall'
    exact hp
  | abort conn =>
    refine sound_purge hs conn fun other hother => ?_
    rw [Table.get?_erase, if_neg hother]
  | collect => exact ⟨hs.consistent, hs.registered, hs.underway⟩
  | close => exact ⟨hs.consistent, hs.registered, hs.underway⟩
  | draw => exact ⟨hs.consistent, hs.registered, hs.underway⟩
  | stop => exact ⟨hs.consistent, hs.registered, hs.underway⟩

theorem Run.sound (hrun : Run S first h last) (hfirst : Sound first) : Sound last :=
  hrun.invariant (P := fun _ s => Sound s) hfirst fun _ step _ hbefore => step.moves.sound hbefore

/-! ### The life of a connection -/

/-- A connection is registered whenever one of the steps begins. -/
def Lives (conn : ConnId) (life : List (Step S)) : Prop :=
  ∀ step ∈ life, step.before.state.registry.contains conn

/-- A connection that is registered after steps of its life was registered before them. -/
theorem Lives.contains_first {life : List (Step S)} {conn : ConnId} (hlives : Lives conn life)
    (hrun : Run S s life last) (hlast : last.state.registry.contains conn) :
    s.state.registry.contains conn := by
  cases life with
  | nil =>
    rw [← run_nil_iff.1 hrun]
    exact hlast
  | cons step life =>
    rw [← List.nil_append (step :: life)] at hrun
    obtain ⟨hstep, -⟩ := run_append_cons_iff.1 hrun
    rw [← run_nil_iff.1 hstep]
    exact hlives step List.mem_cons_self

/-- A message comes in on a connection and gets past the check for log-ins and registrations. -/
def Step.Opens (step : Step S) (conn : ConnId) : Prop :=
  ∃ (t : Moment) (m : Message),
    step.event = .receive conn t m ∧ Service.Opens step.before.state conn m

theorem Step.Opens.phase_before {step : Step S} {conn : ConnId} (hopens : step.Opens conn) :
    step.before.state.registry.phase? conn = some .connected := by
  obtain ⟨t, m, -, hopens⟩ := hopens
  exact hopens.phase

/-- A connection that stays is as far as it was, or farther. -/
theorem Moves.rank_le (hmoves : Moves S s event s') {conn : ConnId} {before after : Phase}
    (hbefore : s.state.registry.phase? conn = some before)
    (hafter : s'.state.registry.phase? conn = some after) : before.rank ≤ after.rank := by
  have same (hsame : s'.state.registry.phase? conn = s.state.registry.phase? conn) :
      before.rank ≤ after.rank := by
    rw [hsame, hbefore] at hafter
    cases hafter
    exact Nat.le_refl _
  -- A connection that is still there was not the one that was removed.
  have purged (other : ConnId)
      (hpurged : s'.state.registry = s.state.registry.delete other) :
      before.rank ≤ after.rank := by
    apply same
    rw [hpurged, Registry.phase?_delete] at hafter ⊢
    split at hafter
    · cases hafter
    · rename_i hother
      rw [if_neg hother]
  cases hmoves with
  | @connect other _ _ _ hopen =>
    obtain ⟨box, registry, -, hadd, rfl⟩ := State.connect_eq_ok hopen
    apply same
    show registry.phase? conn = _
    rw [Registry.phase?_add hadd]
    split
    · rename_i hconn
      rw [hconn, Registry.phase?, Registry.get?_of_add hadd] at hbefore
      cases hbefore
    · rfl
  | disconnect other => exact purged other rfl
  | @receive other t m =>
    exact (S.beginning_begin s.state t other m).registryEffect.rank_le hbefore hafter
  | @resume other t call =>
    exact (S.resumption_resume s.state t other call.pending).registryEffect.rank_le hbefore hafter
  | abort other => exact purged other rfl
  | collect => exact same rfl
  | close => exact same rfl
  | draw => exact same rfl
  | stop => exact same rfl

/-- Where a first message was let through, no other will be. -/
theorem Step.Opens.phase_after {step : Step S} {conn : ConnId} (hopens : step.Opens conn) :
    step.after.state.registry.phase? conn ≠ some .connected := by
  obtain ⟨t, m, hevent, hopens⟩ := hopens
  obtain ⟨s, event, s', hmoves⟩ := step
  dsimp only at hevent hopens
  subst hevent
  cases hmoves
  exact (S.beginning_begin s.state t conn m).phase_of_opens hopens

/-- In its life a connection never goes back. -/
theorem Run.rank_le {life : List (Step S)} (hrun : Run S s life last) {conn : ConnId}
    (hlives : Lives conn life) {before after : Phase}
    (hbefore : s.state.registry.phase? conn = some before)
    (hafter : last.state.registry.phase? conn = some after) : before.rank ≤ after.rank := by
  -- Induction on the steps. The connection is registered before each of them, so it has a phase
  -- there to compare with.
  induction hrun generalizing after with
  | start =>
    rw [hbefore] at hafter
    cases hafter
    exact Nat.le_refl _
  | @snoc life step hrun ih =>
    obtain ⟨c, hc⟩ := (Table.contains_iff _ _).1
      (hlives step (List.mem_append_right _ List.mem_cons_self))
    have hbetween : step.before.state.registry.phase? conn = some c.phase :=
      congrArg (Option.map Connection.phase) hc
    exact Nat.le_trans
      (ih (fun x hx => hlives x (List.mem_append_left _ hx)) hbetween)
      (step.moves.rank_le hbetween hafter)

/-- In the life of a connection, one preamble at most is let through. -/
theorem Run.pairwise_not_opens {life : List (Step S)} (hrun : Run S s life last) {conn : ConnId}
    (hlives : Lives conn life) :
    life.Pairwise fun x y => ¬ (x.Opens conn ∧ y.Opens conn) := by
  -- Induction on the steps: what is new is that the last one does not come after another.
  induction hrun with
  | start => exact List.Pairwise.nil
  | @snoc life step hrun ih =>
    have hearlier : Lives conn life := fun x hx => hlives x (List.mem_append_left _ hx)
    refine List.pairwise_append.2 ⟨ih hearlier, List.pairwise_singleton _ _, ?_⟩
    rintro x hx y hy ⟨hxopens, hyopens⟩
    obtain rfl := List.mem_singleton.1 hy
    obtain ⟨a, b, rfl⟩ := List.append_of_mem hx
    obtain ⟨-, hbetween⟩ := run_append_cons_iff.1 hrun
    have hlivesBetween : Lives conn b := fun z hz => hearlier z (by simp [hz])
    -- Right after the first of the two, the connection is registered and has left the start.
    have hregistered := hlivesBetween.contains_first hbetween (hlives y (by simp))
    obtain ⟨c, hc⟩ := (Table.contains_iff _ _).1 hregistered
    have hafter : x.after.state.registry.phase? conn = some c.phase :=
      congrArg (Option.map Connection.phase) hc
    -- It never goes back, so it would not be at the start for the second.
    have hrank := hbetween.rank_le hlivesBetween hafter hyopens.phase_before
    apply hxopens.phase_after
    rw [hafter]
    cases hphase : c.phase with
    | connected => rfl
    | secureEstablished =>
      rw [hphase] at hrank
      cases hrank
    | loggedIn =>
      rw [hphase] at hrank
      cases hrank

/-! ### Sessions -/

/-- Nobody is on a fresh connection. -/
theorem Sound.nobody (hs : Sound s) {conn : ConnId}
    (hphase : s.state.registry.phase? conn = some .connected) :
    s.state.registry.user? conn = none := hs.consistent.nobody hphase

/-- A connection whose message is not under way is fresh, or it is logged in and has a user. -/
theorem Sound.idle (hs : Sound s) {conn : ConnId} {c : Connection}
    (hc : s.state.registry.get? conn = some c) (hidle : s.calls.get? conn = none) :
    (c.phase = .connected ∧ c.user = none) ∨
      (c.phase = .loggedIn ∧ ∃ user : User, c.user = some user) := by
  have hbound := hs.consistent.bound_iff conn c hc
  cases hphase : c.phase with
  | connected =>
    left
    have hfresh : s.state.registry.phase? conn = some .connected := by
      simp [Registry.phase?, hc, hphase]
    have hnobody := hs.nobody hfresh
    rw [Registry.user?, hc] at hnobody
    exact ⟨rfl, hnobody⟩
  | secureEstablished =>
    obtain ⟨call, hcall, -⟩ := hs.underway conn (by simp [Registry.phase?, hc, hphase])
    rw [hidle] at hcall
    cases hcall
  | loggedIn =>
    right
    exact ⟨rfl, Option.isSome_iff_exists.1 (hbound.2 hphase)⟩

/-- No user is on two connections. -/
theorem Sound.conn_unique (hs : Sound s) {conn other : ConnId} {user user' : User}
    (huser : s.state.registry.user? conn = some user)
    (huser' : s.state.registry.user? other = some user') (hid : user.id = user'.id) :
    conn = other := by
  have hconn := (hs.consistent.indexed user.id conn).2 ⟨user, huser, rfl⟩
  have hother := (hs.consistent.indexed user.id other).2 ⟨user', huser', hid.symm⟩
  rw [hconn] at hother
  exact Option.some.inj hother

/-- What may be relied on about who is logged in where. -/
structure InOrder (S : Service) (s : Traffic) : Prop where
  /-- A user is indexed under a connection exactly when the connection is registered and the user is
  on it. -/
  indexed : ∀ (user : UserId) (conn : ConnId),
    s.state.registry.sessions.get? user = some conn ↔
      ∃ u : User, s.state.registry.user? conn = some u ∧ u.id = user
  /-- No user is on two connections. -/
  unique : ∀ (conn other : ConnId) (u v : User), s.state.registry.user? conn = some u →
    s.state.registry.user? other = some v → u.id = v.id → conn = other
  /-- Whoever is on a connection is in the directory, under the same id and name. -/
  registered : ∀ (conn : ConnId) (u : User),
    s.state.registry.user? conn = some u → u ∈ s.state.store.directory.users
  /-- A connection without a message under way is fresh, or it is logged in and has a user. -/
  idle : ∀ (conn : ConnId) (c : Connection),
    s.state.registry.get? conn = some c → s.calls.get? conn = none →
      (c.phase = .connected ∧ c.user = none) ∨
        (c.phase = .loggedIn ∧ ∃ u : User, c.user = some u)
  /-- From here on, no connection goes back as long as it lives. -/
  forward : ∀ (life : List (Step S)) (last : Traffic) (conn : ConnId), Run S s life last →
    Lives conn life → ∀ before after : Phase, s.state.registry.phase? conn = some before →
      last.state.registry.phase? conn = some after → before.rank ≤ after.rank
  /-- From here on, at most one log-in or registration gets past the check of preambles in the life
  of a connection. -/
  once : ∀ (life : List (Step S)) (last : Traffic) (conn : ConnId), Run S s life last →
    Lives conn life → life.Pairwise fun x y => ¬ (x.Opens conn ∧ y.Opens conn)

/-- The sessions are in order in every state that a relay comes to, however the steps of its
connections mix. -/
theorem sessions_in_order (hopening : Opening S first) (hrun : Run S first h s) :
    InOrder S s := by
  have hs := hrun.sound hopening.sound
  constructor
  · exact hs.consistent.indexed
  · intro conn other u v hu hv hid
    exact hs.conn_unique hu hv hid
  · exact hs.registered
  · intro conn c hc hidle
    exact hs.idle hc hidle
  · intro life last conn hlife hlives before after hbefore hafter
    exact hlife.rank_le hlives hbefore hafter
  · intro life last conn hlife hlives
    exact hlife.pairwise_not_opens hlives

/-- Two log-ins of the administrator race for the store: the second is refused, and the session of
the first stays in order. -/
theorem sessions_in_order_race :
    ∃ (h : List (Step Sample.relay)) (s : Traffic),
      h.map Step.event =
        [.connect 5 8 0, .connect 7 8 0,
          .receive 5 ⟨1, .none⟩ (Sample.preamble .logIn Sample.admin),
          .receive 7 ⟨2, .none⟩ (Sample.preamble .logIn Sample.admin),
          .resume 5 ⟨3, .none⟩, .resume 7 ⟨4, .none⟩] ∧
      Opening Sample.relay Sample.first ∧ Run Sample.relay Sample.first h s ∧
      s.state.registry.user? 5 = some Sample.admin ∧ s.state.registry.phase? 7 = none ∧
      InOrder Sample.relay s := by
  let events : List Event :=
    [.connect 5 8 0, .connect 7 8 0,
      .receive 5 ⟨1, .none⟩ (Sample.preamble .logIn Sample.admin),
      .receive 7 ⟨2, .none⟩ (Sample.preamble .logIn Sample.admin),
      .resume 5 ⟨3, .none⟩, .resume 7 ⟨4, .none⟩]
  have hsome : (Sample.first.follow? Sample.relay events).isSome := by decide +kernel
  obtain ⟨⟨h, s⟩, hfollow⟩ := Option.isSome_iff_exists.1 hsome
  obtain ⟨hrun, hevents⟩ := run_of_follow? hfollow
  have hlast := check_of_follow? hfollow (fun s =>
    s.state.registry.user? 5 = some Sample.admin && s.state.registry.phase? 7 = none)
    (by decide +kernel)
  simp only [Bool.and_eq_true, decide_eq_true_eq] at hlast
  exact ⟨h, s, hevents, Sample.opening, hrun, hlast.1, hlast.2,
    sessions_in_order Sample.opening hrun⟩

end Traffic

end Relay
