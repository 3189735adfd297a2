import Relay.Proofs.Traffic.Custody
import Relay.Proofs.Traffic.Shutdown

/-!
# `Relay.Proofs.Traffic.Purge`: what is kept after all messages were removed

A shutdown removes all messages. No lock holds up the messages that were let through before and are
still under way: one of them may have been found to have a recipient already, and it is kept after
the others were removed (`kept_after_stop`). `purged_of_clears` says that nothing else is. Such a
message came in before shutdown began, and it was still under way when the messages were removed
(`Straggles`); there is at most one on every connection. Without any, the mailbox stays empty for
good.

Three facts lead there. The mark of shutdown is set as long as all messages are to be removed
(`Run.shuttingDown_of_clearance`). From then on nothing is let through, so that whatever is under
way later was under way then (`Run.call_of_shuttingDown`). And a message that has been kept is no
longer under way (`Step.Keeps.idle`).
-/

set_option autoImplicit false

namespace Relay

/-- What asks to be kept waits for its recipient or to be kept. -/
theorem Pending.Serves.of_proceed {m : Message} {user : Option User} {p : Pending}
    (h : p.Serves m user) (hflag : m.flag = .proceed) : p = .recipient m ∨ p = .keeping m := by
  cases h with
  | recipient => exact .inl rfl
  | keeping => exact .inr rfl
  | _ hother => exact absurd (hflag.symm.trans hother) (by decide)

namespace Traffic

variable {S : Service} {first last s : Traffic} {h h₁ h₂ : List (Step S)} {step : Step S}
  {conn : ConnId} {call : Call} {m : Message}

/-! ### What is under way -/

/-- Whatever is under way came in at an earlier step, and was let through then. -/
theorem Run.exists_let_through (hrun : Run S first h last) (hopening : Opening S first)
    (hcall : last.calls.get? conn = some call) :
    ∃ step ∈ h, ∃ (t : Moment) (p : Pending), step.event = .receive conn t call.message ∧
      (S.begin step.before.state t conn call.message).next = .waiting p := by
  induction hrun generalizing call with
  | start =>
    rw [hopening.calls] at hcall
    cases hcall
  | @snoc h step _ ih =>
    have earlier {call : Call} (hcall : step.before.calls.get? conn = some call) :
        ∃ step' ∈ h ++ [step], ∃ (t : Moment) (p : Pending),
          step'.event = .receive conn t call.message ∧
            (S.begin step'.before.state t conn call.message).next = .waiting p := by
      obtain ⟨step', hstep', hlet⟩ := ih hcall
      exact ⟨step', List.mem_append_left _ hstep', hlet⟩
    rcases step.moves.call_cases hcall with
      hold | ⟨t, m, p, hevent, -, hnext, rfl⟩ | ⟨t, before, p, -, hbefore, -, rfl⟩
    · exact earlier hold
    · exact ⟨step, List.mem_append_right _ List.mem_cons_self, t, p, hevent, hnext⟩
    · have hlet := earlier hbefore
      exact hlet

/-- When all messages are to be removed, shutdown has begun. -/
theorem Run.shuttingDown_of_clearance (hrun : Run S first h last) (hopening : Opening S first)
    (hcall : last.calls.get? conn = some call) (hpending : call.pending = .clearance) :
    last.state.shuttingDown = true := by
  induction hrun generalizing call with
  | start =>
    rw [hopening.calls] at hcall
    cases hcall
  | @snoc h step _ ih =>
    rcases step.moves.call_cases hcall with
      hold | ⟨t, m, p, -, -, hnext, rfl⟩ | ⟨t, before, p, hevent, hbefore, hnext, rfl⟩
    · exact step.shuttingDown (ih hold hpending)
    · -- No message waits for this as soon as it comes in.
      obtain ⟨-, hfirst, -⟩ := (S.beginning_begin step.before.state t conn m).serves hnext
      rw [show p = .clearance from hpending] at hfirst
      cases hfirst
    · rw [show p = .clearance from hpending] at hnext
      have hresumes : step.Resumes conn t before := ⟨hevent, hbefore⟩
      rw [hresumes.after]
      rcases (S.resumption_resume step.before.state t conn before.pending).shuttingDown_cases with
        ⟨-, hnot⟩ | ⟨user, -, -, hset, -⟩
      · exact absurd hnext hnot
      · exact hset

/-- When the relay is shutting down, whatever is under way was under way before. -/
theorem Step.call_of_shuttingDown (step : Step S) (hdown : step.before.state.shuttingDown = true)
    (hcall : step.after.calls.get? conn = some call) :
    ∃ before : Call, step.before.calls.get? conn = some before ∧
      before.message = call.message := by
  rcases step.moves.call_cases hcall with
    hold | ⟨t, m, p, -, -, hnext, -⟩ | ⟨t, before, p, -, hbefore, -, rfl⟩
  · exact ⟨call, hold, rfl⟩
  · have hup := (S.beginning_begin step.before.state t conn m).up_of_waiting hnext
    rw [hup] at hdown
    cases hdown
  · exact ⟨before, hbefore, rfl⟩

theorem Run.call_of_shuttingDown (hrun : Run S s h last) (hdown : s.state.shuttingDown = true)
    (hcall : last.calls.get? conn = some call) :
    ∃ before : Call, s.calls.get? conn = some before ∧ before.message = call.message := by
  induction hrun generalizing call with
  | start => exact ⟨call, hcall, rfl⟩
  | @snoc h step hbefore ih =>
    obtain ⟨between, hbetween, hsame⟩ :=
      step.call_of_shuttingDown (hbefore.shuttingDown hdown) hcall
    obtain ⟨before, hfirst, hmessage⟩ := ih hbetween
    exact ⟨before, hfirst, hmessage.trans hsame⟩

/-! ### What is kept and what is removed -/

/-- A message that has been kept is no longer under way. -/
theorem Step.Keeps.idle (hkeeps : step.Keeps conn m) : step.after.calls.get? conn = none := by
  obtain ⟨t, call, hresumes, hpending, -⟩ := hkeeps
  have hresumption := S.resumption_resume step.before.state t conn call.pending
  rw [hpending] at hresumption
  have hnext := hresumption.next_of_keeping
  rw [← hpending] at hnext
  rw [hresumes.after, get?_calls_settle, if_pos rfl, hnext]

/-- When all messages were removed, there is none. -/
theorem Step.Clears.messages (hclears : step.Clears) :
    step.after.state.store.mailbox.messages = [] := by
  obtain ⟨conn, t, call, hresumes, hpending, hstore⟩ := hclears
  rw [hresumes.after, hpending]
  show (S.resume step.before.state t conn .clearance).state.store.mailbox.messages = []
  simp [Service.resume, hstore]

theorem Step.Clears.stops (hclears : step.Clears) : step.Stops := by
  obtain ⟨conn, t, call, hresumes, hpending, -⟩ := hclears
  exact Step.stops_iff.2 ⟨conn, t, call, hresumes, hpending⟩

/-- Whatever was kept was kept in one of the steps. -/
theorem exists_keeps_of_mem_keptBy {x : StoredMessage} (hx : x ∈ keptBy h) :
    ∃ step ∈ h, ∃ (conn : ConnId) (m : Message), step.Keeps conn m ∧ x = step.stored m := by
  obtain ⟨step, hstep, hkept⟩ := List.mem_flatMap.1 hx
  cases step.mailboxEffect with
  | @added conn m hkeeps =>
    rw [hkeeps.kept, List.mem_singleton] at hkept
    exact ⟨step, hstep, conn, m, hkeeps, hkept⟩
  | same hnone =>
    rw [hnone] at hkept
    cases hkept
  | removed hnone =>
    rw [hnone] at hkept
    cases hkept
  | cleared hnone =>
    rw [hnone] at hkept
    cases hkept

/-- When the relay is shutting down, one message at most is kept for every connection. -/
theorem Run.pairwise_not_keeps (hrun : Run S s h last) (hdown : s.state.shuttingDown = true)
    (conn : ConnId) :
    h.Pairwise fun x y => ∀ m n : Message, ¬ (x.Keeps conn m ∧ y.Keeps conn n) := by
  induction hrun with
  | start => exact List.Pairwise.nil
  | @snoc h step hrun ih =>
    refine List.pairwise_append.2 ⟨ih, List.pairwise_singleton _ _, ?_⟩
    intro x hx y hy m n hboth
    obtain rfl := List.mem_singleton.1 hy
    obtain ⟨a, b, rfl⟩ := List.append_of_mem hx
    obtain ⟨hbefore, hbetween⟩ := run_append_cons_iff.1 hrun
    -- After the first of the two, nothing is under way on the connection any more.
    obtain ⟨t, call, hresumes, -⟩ := hboth.2
    obtain ⟨before, hcall, -⟩ := hbetween.call_of_shuttingDown
      (x.shuttingDown (hbefore.shuttingDown hdown)) hresumes.call
    rw [hboth.1.idle] at hcall
    cases hcall

/-! ### After the messages were removed -/

/-- A message that is to be kept is still under way. It was let through before shutdown began. -/
structure Straggles (h : List (Step S)) (s : Traffic) (conn : ConnId) (m : Message) : Prop where
  flag : m.flag = .proceed
  call : ∃ call : Call, s.calls.get? conn = some call ∧ call.message = m ∧
    (call.pending = .recipient m ∨ call.pending = .keeping m)
  accepted : ∃ step ∈ h, step.before.state.shuttingDown = false ∧
    ∃ author : User, step.Accepts conn m author

/-- A message under way that is to be kept was let through before shutdown began. -/
theorem Run.straggles (hrun : Run S first h last) (hopening : Opening S first)
    (hcall : last.calls.get? conn = some call) (hflag : call.message.flag = .proceed) :
    Straggles h last conn call.message := by
  obtain ⟨step, hstep, t, p, hevent, hnext⟩ := hrun.exists_let_through hopening hcall
  have hbegins := S.beginning_begin step.before.state t conn call.message
  have hserves := (hrun.genuine hopening hcall).serves
  refine ⟨hflag, ⟨call, hcall, rfl, hserves.of_proceed hflag⟩, step, hstep,
    hbegins.up_of_waiting hnext, ?_⟩
  obtain ⟨-, -, ⟨hopens, -⟩ | ⟨author, hauth, -⟩⟩ := hbegins.serves hnext
  · have hpreamble := hopens.operation
    rw [hflag] at hpreamble
    cases hpreamble
  · exact ⟨author, t, hevent, hauth⟩

/-- What may be relied on when all messages have been removed at a step, and more steps were taken
since. -/
structure Purged (before : List (Step S)) (clear : Step S) (since : List (Step S)) (s : Traffic) :
    Prop where
  /-- The relay was told to stop. -/
  stops : clear.Stops
  /-- There was no message left. -/
  empty : clear.after.state.store.mailbox.messages = []
  /-- Whatever is there now was kept since then, and was under way at the time. -/
  late : ∀ x ∈ s.state.store.mailbox.messages, ∃ keep ∈ since, ∃ (conn : ConnId) (m : Message),
    keep.Keeps conn m ∧ x = keep.stored m ∧ Straggles before clear.after conn m
  /-- It is one message at most for every connection. -/
  once : ∀ conn : ConnId,
    since.Pairwise fun x y => ∀ m n : Message, ¬ (x.Keeps conn m ∧ y.Keeps conn n)
  /-- If nothing was under way that is to be kept, there is no message now. -/
  forGood : (∀ (conn : ConnId) (call : Call), clear.after.calls.get? conn = some call →
    call.message.flag ≠ .proceed) → s.state.store.mailbox.messages = []

/-- In any run, when the administrator has shut the relay down and all messages were removed, only
messages are kept that were let through before shutdown began and that were still under way. -/
theorem purged_of_clears {clear : Step S} (hopening : Opening S first)
    (hrun : Run S first (h₁ ++ clear :: h₂) last) (hclears : clear.Clears) :
    Purged h₁ clear h₂ last := by
  obtain ⟨h₁run, h₂run⟩ := run_append_cons_iff.1 hrun
  have hthrough : Run S first (h₁ ++ [clear]) clear.after := h₁run.snoc
  have hdown : clear.before.state.shuttingDown = true := by
    obtain ⟨conn, t, call, hresumes, hpending, -⟩ := hclears
    exact h₁run.shuttingDown_of_clearance hopening hresumes.call hpending
  -- The step that removed the messages came after shutdown had begun, so it let nothing through.
  have hstraggles {conn : ConnId} {call : Call} (hcall : clear.after.calls.get? conn = some call)
      (hflag : call.message.flag = .proceed) : Straggles h₁ clear.after conn call.message := by
    obtain ⟨hflag, hcall, step, hstep, hup, haccepts⟩ := hthrough.straggles hopening hcall hflag
    rcases List.mem_append.1 hstep with hstep | hstep
    · exact ⟨hflag, hcall, step, hstep, hup, haccepts⟩
    · rw [List.mem_singleton.1 hstep, hdown] at hup
      cases hup
  have hlate : ∀ x ∈ last.state.store.mailbox.messages, ∃ keep ∈ h₂, ∃ (conn : ConnId)
      (m : Message), keep.Keeps conn m ∧ x = keep.stored m ∧ Straggles h₁ clear.after conn m := by
    intro x hx
    rcases h₂run.mem_messages hx with hold | hkept
    · rw [hclears.messages] at hold
      cases hold
    · obtain ⟨keep, hkeep, conn, m, hkeeps, rfl⟩ := exists_keeps_of_mem_keptBy hkept
      refine ⟨keep, hkeep, conn, m, hkeeps, rfl, ?_⟩
      -- What is kept is under way, and was under way when the messages were removed.
      obtain ⟨a, b, rfl⟩ := List.append_of_mem hkeep
      obtain ⟨t, call, hresumes, hpending, -⟩ := hkeeps
      have hbetween := (run_append_cons_iff.1 h₂run).1
      have hgenuine := (hthrough.trans hbetween).genuine hopening hresumes.call
      obtain ⟨rfl, hflag, -⟩ := (hgenuine.serves_of_pending hpending).of_keeping
      obtain ⟨earlier, hearlier, hmessage⟩ :=
        hbetween.call_of_shuttingDown (clear.shuttingDown hdown) hresumes.call
      exact hmessage ▸ hstraggles hearlier (hmessage ▸ hflag)
  exact {
    stops := hclears.stops
    empty := hclears.messages
    late := hlate
    once := fun conn => h₂run.pairwise_not_keeps (clear.shuttingDown hdown) conn
    forGood := by
      intro hnone
      rw [List.eq_nil_iff_forall_not_mem]
      intro x hx
      obtain ⟨-, -, conn, m, -, -, hflag, ⟨call, hcall, hmessage, -⟩, -⟩ := hlate x hx
      exact hnone conn call hcall (hmessage ▸ hflag) }

/-- The administrator and a guest are logged in, and the guest writes to the administrator. The
recipient has been found when the administrator shuts the relay down. All messages are removed, and
then the message of the guest is kept. -/
def straggling : List Event :=
  Sample.conversation.take 11 ++
    [.receive 6 ⟨9, .none⟩ (Sample.request .proceed 6 Sample.guest UserId.admin [1]),
      .resume 6 ⟨10, .none⟩,
      .receive 5 ⟨11, .none⟩ (Sample.request .shutdown 5 Sample.admin UserId.toRelay []),
      .resume 5 ⟨12, .none⟩] ++
    .resume 5 ⟨13, .none⟩ :: [.resume 6 ⟨14, .none⟩]

/-- The message of the guest is there in the end. -/
theorem exists_straggling :
    ∃ (h₁ h₂ : List (Step Sample.relay)) (clear : Step Sample.relay) (last : Traffic),
      (h₁ ++ clear :: h₂).map Step.event = straggling ∧
      Run Sample.relay Sample.first (h₁ ++ clear :: h₂) last ∧ clear.Clears ∧
      last.state.store.mailbox.messages = [⟨0, 100, Sample.guest.id, UserId.admin, [1]⟩] := by
  have hsome : (Sample.first.follow? Sample.relay straggling).isSome := by decide +kernel
  obtain ⟨⟨h, last⟩, hfollow⟩ := Option.isSome_iff_exists.1 hsome
  obtain ⟨hrun, hevents⟩ := run_of_follow? hfollow
  have hlast := check_of_follow? hfollow (fun s =>
    s.state.store.mailbox.messages = [⟨0, 100, Sample.guest.id, UserId.admin, [1]⟩])
    (by decide +kernel)
  obtain ⟨h₁, h₂, clear, rfl, hevent, hbefore⟩ := split_of_follow? hfollow
  have hpending := check_of_follow? hbefore (fun s =>
    (s.calls.get? 5).map Call.pending = some .clearance) (by decide +kernel)
  obtain ⟨call, hresumes⟩ := clear.resumes_of_event hevent
  have hclearance := of_decide_eq_true hpending
  rw [hresumes.call] at hclearance
  exact ⟨h₁, h₂, clear, last, hevents, hrun,
    ⟨5, _, call, hresumes, Option.some.inj hclearance, rfl⟩, of_decide_eq_true hlast⟩

/-- All messages are removed, and what is there later had straggled. -/
theorem purged_of_clears_straggling :
    ∃ (h₁ h₂ : List (Step Sample.relay)) (clear : Step Sample.relay) (last : Traffic),
      (h₁ ++ clear :: h₂).map Step.event = straggling ∧
      Opening Sample.relay Sample.first ∧
      Run Sample.relay Sample.first (h₁ ++ clear :: h₂) last ∧ clear.Clears ∧
      Purged h₁ clear h₂ last := by
  obtain ⟨h₁, h₂, clear, last, hevents, hrun, hclears, -⟩ := exists_straggling
  exact ⟨h₁, h₂, clear, last, hevents, Sample.opening, hrun, hclears,
    purged_of_clears Sample.opening hrun hclears⟩

/-- A relay that was told to stop may hold messages: one that straggled, or all of them if they
could not be removed. -/
theorem kept_after_stop :
    (∃ (h₁ h₂ : List (Step Sample.relay)) (stop : Step Sample.relay) (last : Traffic),
      (h₁ ++ stop :: h₂).map Step.event = straggling ∧
      Opening Sample.relay Sample.first ∧
      Run Sample.relay Sample.first (h₁ ++ stop :: h₂) last ∧ stop.Stops ∧
      stop.after.state.store.mailbox.messages = [] ∧
      last.state.store.mailbox.messages = [⟨0, 100, Sample.guest.id, UserId.admin, [1]⟩]) ∧
    ∃ (h : List (Step Sample.relay)) (stop : Step Sample.relay),
      (h ++ [stop]).map Step.event = Sample.conversation.take 14 ++
        [.receive 5 ⟨12, .none⟩ (Sample.request .shutdown 5 Sample.admin UserId.toRelay []),
          .resume 5 ⟨13, .none⟩,
          .resume 5 ⟨14, fun op => if op = .deleteAllMessages then some (.hash "out of order")
            else none⟩] ∧
      Run Sample.relay Sample.first (h ++ [stop]) stop.after ∧ stop.Stops ∧
      stop.after.state.store.mailbox.messages =
        [⟨0, 100, UserId.admin, Sample.guest.id, [1, 2, 3]⟩] := by
  constructor
  · obtain ⟨h₁, h₂, clear, last, hevents, hrun, hclears, hlast⟩ := exists_straggling
    exact ⟨h₁, h₂, clear, last, hevents, Sample.opening, hrun, hclears.stops, hclears.messages,
      hlast⟩
  · let earlier : List Event := Sample.conversation.take 14 ++
      [.receive 5 ⟨12, .none⟩ (Sample.request .shutdown 5 Sample.admin UserId.toRelay []),
        .resume 5 ⟨13, .none⟩]
    let t : Moment := ⟨14, fun op => if op = .deleteAllMessages then some (.hash "out of order")
      else none⟩
    have hsome : (Sample.first.follow? Sample.relay (earlier ++ [.resume 5 t])).isSome := by
      decide +kernel
    obtain ⟨⟨h, last⟩, hfollow⟩ := Option.isSome_iff_exists.1 hsome
    obtain ⟨hrun, hevents⟩ := run_of_follow? hfollow
    have hlast := check_of_follow? hfollow (fun s => s.state.store.mailbox.messages =
      [⟨0, 100, UserId.admin, Sample.guest.id, [1, 2, 3]⟩]) (by decide +kernel)
    obtain ⟨h₁, stop, rfl, hevent, hbefore, rfl⟩ := snoc_of_follow? hfollow
    have hpending := check_of_follow? hbefore (fun s =>
      (s.calls.get? 5).map Call.pending = some .clearance) (by decide +kernel)
    obtain ⟨call, hresumes⟩ := stop.resumes_of_event hevent
    have hclearance := of_decide_eq_true hpending
    rw [hresumes.call] at hclearance
    have hstops : stop.Stops :=
      Step.stops_iff.2 ⟨5, t, call, hresumes, Option.some.inj hclearance⟩
    exact ⟨h₁, stop, hevents, hrun, hstops, of_decide_eq_true hlast⟩

end Traffic

end Relay
