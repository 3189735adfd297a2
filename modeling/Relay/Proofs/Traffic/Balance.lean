import Relay.Proofs.Routing.Tally
import Relay.Proofs.Traffic.Announcement
import Relay.Proofs.Traffic.Handover

/-!
# `Relay.Proofs.Traffic.Balance`: the counters and what was done

What a step of routing counts is known from `Service.Resumption.exists_accounts`, as a list of fates.
Here it is said what the list stands for in a run. Its length is the number of messages that the step
deals with: one if a relayed message is dealt with, and one for everybody else if an announcement is
made (`Step.Resumes.handled_eq`). Those in it that say that a message was put into a queue are as many
as the messages that were placed in queues (`Step.Resumes.length_placements`).

Every step is of one of three kinds, and each of them changes the counters in one way (`Step.tally`),
so that the balance of a run is an induction over its steps (`Run.balanced`).
-/

set_option autoImplicit false

namespace Relay

/-- The number of pairs in a list that is made of one list for each id. -/
theorem sum_length_append (keys : List ConnId) (f g : ConnId → List Message) :
    (keys.map fun conn => (f conn ++ g conn).length).sum =
      (keys.map fun conn => (f conn).length).sum +
        (keys.flatMap fun conn => (g conn).map fun m => (conn, m)).length := by
  induction keys with
  | nil => rfl
  | cons conn rest ih =>
    rw [List.map_cons, List.sum_cons, ih, List.map_cons, List.sum_cons, List.flatMap_cons,
      List.length_append, List.length_append, List.length_map]
    omega

/-- A list that is made of one list for each of different ids, at one of them. -/
theorem filter_flatMap_pair {keys : List ConnId} (hnodup : keys.Nodup) (f : ConnId → List Message)
    (conn : ConnId) :
    ((keys.flatMap fun other => (f other).map fun m => (other, m)).filter
      fun e => e.1 = conn).map Prod.snd = if conn ∈ keys then f conn else [] := by
  induction keys with
  | nil => rfl
  | cons other rest ih =>
    obtain ⟨hfresh, hrest⟩ := List.nodup_cons.1 hnodup
    rw [List.flatMap_cons, List.filter_append, List.map_append, ih hrest]
    by_cases hconn : other = conn
    · subst hconn
      simp [hfresh, List.filter_map, Function.comp_def]
    · have hne : ¬ conn = other := fun h => hconn h.symm
      simp [hconn, hne, List.filter_map, Function.comp_def]

namespace Pending

/-- Only a relayed message and an announcement are handed over. -/
theorem Serves.handled_eq_zero {p : Pending} {m : Message} {user : Option User}
    (h : p.Serves m user) (hrelayed : m.flag.isRelayed = false) (hbroadcast : m.flag ≠ .broadcast)
    (σ : State) (next : Progress) : Service.handled σ p next = 0 := by
  cases h with
  | recipient hflag =>
    rw [hrelayed] at hflag
    cases hflag
  | keeping hflag =>
    rw [hflag] at hrelayed
    cases hrelayed
  | announcer hflag => exact absurd hflag hbroadcast
  | _ => rfl

end Pending

namespace Service

variable {S : Service} {σ : State} {t : Moment} {conn : ConnId} {m : Message} {p : Pending}
  {turn : Turn}

/-- Nothing is dealt with as long as routing goes on, and nothing if the message is refused. -/
theorem handled_of_ne_stay {next : Progress} (h : next ≠ .finished .stay) :
    handled σ p next = 0 := by
  unfold handled
  split
  · exact absurd rfl h
  · exact absurd rfl h
  · exact absurd rfl h
  · rfl

/-- A step after which the connection does not simply stay counts nothing. -/
theorem Resumption.metrics_eq_of_ne_stay (h : S.Resumption σ t conn p turn)
    (hnext : turn.next ≠ .finished .stay) : turn.state.metrics = σ.metrics := by
  obtain ⟨counted, haccounts, hlength⟩ := h.exists_accounts
  rw [handled_of_ne_stay hnext] at hlength
  rw [haccounts.metrics, List.eq_nil_of_length_eq_zero hlength]
  rfl

/-- The remaining steps of a message that is refused count nothing. -/
theorem Completes.metrics_eq {r : Routed} (h : S.Completes conn turn r)
    (hrefused : r.outcome ≠ .stay) : r.state.metrics = turn.state.metrics := by
  induction h with
  | finished => rfl
  | @resumed turn p r t hnext hrest ih =>
    rw [ih hrefused]
    refine (S.resumption_resume turn.state t conn p).metrics_eq_of_ne_stay fun hstay => ?_
    -- A step after which the connection stays is the last, and then the message is not refused.
    cases hrest with
    | finished hlast =>
      cases hstay.symm.trans hlast
      exact hrefused rfl
    | resumed _ hmore => cases hstay.symm.trans hmore

/-- A message that is refused is counted as routed, and in no other way. -/
theorem Routes.metrics_eq {r : Routed} (h : S.Routes σ conn m r) (hrefused : r.outcome ≠ .stay) :
    r.state.metrics = σ.metrics.count (.dispatched (.ofFlag m.flag)) := by
  obtain ⟨t, hcompletes⟩ := h
  exact (hcompletes.metrics_eq hrefused).trans (S.beginning_begin σ t conn m).metrics_eq

end Service

namespace Traffic

variable {S : Service} {first last : Traffic} {h : List (Step S)} {step : Step S}
  {conn : ConnId} {t : Moment} {call : Call}

namespace Step

/-! ### What is counted over a run -/

/-- Whether a message comes in. -/
def isReceive (step : Step S) : Bool :=
  match step.event with
  | .receive .. => true
  | _ => false

/-- The messages that a step places in queues, with the connections of the queues. -/
def placements (step : Step S) : List (ConnId × Message) :=
  step.before.state.outboxes.keys.flatMap fun conn =>
    (step.placed conn).map fun m => (conn, m)

/-- The sessions that an announcement goes to that is let through in a step: those of everybody but
the administrator. There are none if no announcement is let through. -/
def audience (step : Step S) : List (UserId × ConnId) :=
  match step.event with
  | .resume conn t =>
    match step.before.calls.get? conn with
    | some call =>
      if call.message.flag = .broadcast ∧
          (S.resume step.before.state t conn call.pending).next = .finished .stay then
        Service.audience step.before.state UserId.admin
      else []
    | none => []
  | _ => []

/-! ### What a step counts -/

/-- In which way a step changes the counters. -/
inductive Tally (step : Step S) : Prop where
  /-- A message comes in. -/
  | receives {conn : ConnId} {t : Moment} {m : Message} (hevent : step.event = .receive conn t m)
      (hmetrics : step.after.state.metrics =
        step.before.state.metrics.count (.dispatched (.ofFlag m.flag)))
  /-- Routing goes on. -/
  | resumes {conn : ConnId} {t : Moment} {call : Call} {counted : List Series}
      (hresumes : step.Resumes conn t call)
      (haccounts : step.before.state.Accounts step.after.state counted)
      (hlength : counted.length = Service.handled step.before.state call.pending
        (S.resume step.before.state t conn call.pending).next)
  /-- Nothing is routed. -/
  | passes (hreceive : ∀ (conn : ConnId) (t : Moment) (m : Message), step.event ≠ .receive conn t m)
      (hresume : ∀ (conn : ConnId) (t : Moment), step.event ≠ .resume conn t)
      (hmetrics : step.after.state.metrics = step.before.state.metrics)

/-- There is no other way. -/
theorem tally (step : Step S) : step.Tally := by
  by_cases hreceive : ∃ (conn : ConnId) (t : Moment) (m : Message), step.event = .receive conn t m
  · obtain ⟨conn, t, m, hevent⟩ := hreceive
    refine .receives hevent ?_
    rw [step.after_of_receive hevent]
    exact (S.beginning_begin step.before.state t conn m).metrics_eq
  by_cases hresume : ∃ (conn : ConnId) (t : Moment), step.event = .resume conn t
  · obtain ⟨conn, t, hevent⟩ := hresume
    obtain ⟨call, hresumes⟩ := step.resumes_of_event hevent
    obtain ⟨counted, haccounts, hlength⟩ :=
      (S.resumption_resume step.before.state t conn call.pending).exists_accounts
    refine .resumes hresumes ?_ hlength
    rw [hresumes.after]
    exact haccounts
  push Not at hreceive hresume
  refine .passes hreceive hresume ?_
  obtain ⟨s, event, s', hmoves⟩ := step
  cases hmoves with
  | receive t m => exact absurd rfl (hreceive _ t m)
  | resume t => exact absurd rfl (hresume _ t)
  | connect hopen =>
    obtain ⟨box, registry, -, -, rfl⟩ := State.connect_eq_ok hopen
    rfl
  | _ => rfl

/-! ### What the counters stand for -/

/-- In a step of routing, what is placed comes last in its queue, and nothing leaves. -/
theorem Resumes.waiting_eq (hresumes : step.Resumes conn t call) (other : ConnId) :
    step.after.state.waiting other = step.before.state.waiting other ++ step.placed other := by
  obtain ⟨added, hwaiting, -⟩ :=
    (S.resumption_resume step.before.state t conn call.pending).queue_cases other
  rw [hresumes.placed, State.placed_of_append hwaiting, hresumes.after]
  exact hwaiting

/-- The messages that are placed are those that wait in addition. -/
theorem Resumes.length_placements (hresumes : step.Resumes conn t call) {counted : List Series}
    (haccounts : step.before.state.Accounts step.after.state counted) :
    step.placements.length = counted.count .relayed := by
  have hload := haccounts.load
  rw [State.load, haccounts.keys, List.map_congr_left fun other _ =>
    congrArg List.length (hresumes.waiting_eq other), sum_length_append, State.load] at hload
  exact Nat.add_left_cancel hload

/-- Nothing is placed where nothing is routed. -/
theorem placements_eq_nil (hevent : ∀ (conn : ConnId) (t : Moment), step.event ≠ .resume conn t) :
    step.placements = [] := by
  simp only [placements, placed_eq_nil hevent, List.map_nil, List.flatMap_eq_nil_iff, implies_true]

theorem relayed?_eq_none (hevent : ∀ (conn : ConnId) (t : Moment), step.event ≠ .resume conn t) :
    step.relayed? = none := by
  refine Option.eq_none_iff_forall_ne_some.2 fun ⟨author, m⟩ hrelayed => ?_
  obtain ⟨conn, t, _, hresumes, -⟩ := relayed?_eq_some_iff.1 hrelayed
  exact hevent conn t hresumes.event

theorem audience_eq_nil (hevent : ∀ (conn : ConnId) (t : Moment), step.event ≠ .resume conn t) :
    step.audience = [] := by
  unfold audience
  split
  · rename_i conn t h
    exact absurd h (hevent conn t)
  · rfl

theorem Resumes.audience_eq (hresumes : step.Resumes conn t call) :
    step.audience = if call.message.flag = .broadcast ∧
        (S.resume step.before.state t conn call.pending).next = .finished .stay then
      Service.audience step.before.state UserId.admin else [] := by
  simp only [audience, hresumes.event, hresumes.call]

theorem Resumes.relayed?_eq (hresumes : step.Resumes conn t call) :
    step.relayed? = if call.message.flag.isRelayed ∧
        (S.resume step.before.state t conn call.pending).next = .finished .stay then
      call.user.map fun author => (author, call.message) else none := by
  simp only [relayed?, hresumes.event, hresumes.call]

/-- The messages that a step deals with are the relayed message that is dealt with in it, or the
copies of the announcement that is let through. -/
theorem Resumes.handled_eq (hresumes : step.Resumes conn t call)
    (hrun : Run S first h step.before) (hopening : Opening S first) :
    Service.handled step.before.state call.pending
        (S.resume step.before.state t conn call.pending).next =
      step.relayed?.toList.length + step.audience.length := by
  have hserves := (hrun.genuine hopening hresumes.call).serves
  have hresumption := S.resumption_resume step.before.state t conn call.pending
  rw [hresumes.relayed?_eq, hresumes.audience_eq]
  generalize S.resume step.before.state t conn call.pending = turn at hresumption
  by_cases hstay : turn.next = .finished .stay
  case neg =>
    rw [Service.handled_of_ne_stay hstay, if_neg fun h => hstay h.2, if_neg fun h => hstay h.2]
    rfl
  simp only [hstay, and_true]
  by_cases hrelayed : call.message.flag.isRelayed = true
  · have hother : call.message.flag ≠ .broadcast := fun heq => by
      rw [heq] at hrelayed
      cases hrelayed
    rw [if_pos hrelayed, if_neg hother]
    rcases (hserves.of_isRelayed hrelayed).1 with hpending | ⟨hpending, -⟩
    · rw [hpending] at hserves ⊢
      obtain ⟨-, -, author, hauthor⟩ := hserves.of_recipient
      rw [hauthor]
      rfl
    · rw [hpending] at hserves ⊢
      obtain ⟨-, -, -, author, hauthor⟩ := hserves.of_keeping
      rw [hauthor]
      rfl
  · rw [if_neg hrelayed]
    by_cases hbroadcast : call.message.flag = .broadcast
    · rw [if_pos hbroadcast]
      obtain ⟨author, hpending, -⟩ := hserves.of_broadcast hbroadcast
      rw [hpending] at hresumption ⊢
      -- An announcement that is let through is the administrator's.
      cases hresumption with
      | refuse => cases hstay
      | announce hadmin =>
        rw [← hadmin]
        exact (Nat.zero_add _).symm
    · rw [if_neg hbroadcast]
      exact hserves.handled_eq_zero (Bool.eq_false_iff.2 hrelayed) hbroadcast _ _

theorem isReceive_eq_false
    (hevent : ∀ (conn : ConnId) (t : Moment) (m : Message), step.event ≠ .receive conn t m) :
    step.isReceive = false := by
  unfold isReceive
  split
  · rename_i conn t m h
    exact absurd h (hevent conn t m)
  · rfl

/-- What a step adds to what is counted as routed. -/
theorem total_dispatches (step : Step S) :
    step.after.state.metrics.total Series.dispatches =
      step.before.state.metrics.total Series.dispatches + [step].countP isReceive := by
  rw [List.countP_singleton]
  cases step.tally with
  | receives hevent hmetrics =>
    have hthis : step.isReceive = true := by simp only [isReceive, hevent]
    rw [hmetrics, Metrics.total_count, Series.count_dispatches, hthis, if_pos rfl]
  | resumes hresumes haccounts =>
    have hthis := step.isReceive_eq_false fun conn t m h => by
      rw [hresumes.event] at h
      cases h
    rw [hthis, if_neg Bool.false_ne_true, haccounts.metrics]
    refine (Metrics.total_congr fun s hs => ?_).trans (Int.add_zero _).symm
    exact Metrics.get_countAll_of_notMem _ fun hcounted =>
      Series.notMem_fates_of_mem_dispatches hs (haccounts.fates s hcounted)
  | passes hreceive _ hmetrics =>
    rw [hmetrics, step.isReceive_eq_false hreceive, if_neg Bool.false_ne_true]
    exact (Int.add_zero _).symm

/-- What a step adds to what is counted as put into a queue. -/
theorem get_relayed (step : Step S) :
    step.after.state.metrics.get .relayed =
      step.before.state.metrics.get .relayed + step.placements.length := by
  cases step.tally with
  | receives hevent hmetrics =>
    have hnone := step.placements_eq_nil fun conn t h => by
      rw [hevent] at h
      cases h
    rw [hmetrics, Metrics.count, Metrics.get_add, if_neg Series.noConfusion, hnone]
    rfl
  | resumes hresumes haccounts =>
    rw [haccounts.metrics, Metrics.get_countAll, hresumes.length_placements haccounts]
  | passes _ hresume hmetrics =>
    rw [hmetrics, step.placements_eq_nil hresume]
    exact (Int.add_zero _).symm

/-- The fates that are counted in a step are those of the messages that it deals with. -/
theorem exists_countAll (hrun : Run S first h step.before) (hopening : Opening S first) :
    ∃ counted : List Series, (∀ s ∈ counted, s ∈ Series.fates) ∧
      counted.length = step.relayed?.toList.length + step.audience.length ∧
      ∀ s ∈ Series.fates, step.after.state.metrics.get s =
        (step.before.state.metrics.countAll counted).get s := by
  have hnothing (hresume : ∀ (conn : ConnId) (t : Moment), step.event ≠ .resume conn t) :
      0 = step.relayed?.toList.length + step.audience.length := by
    rw [step.relayed?_eq_none hresume, step.audience_eq_nil hresume]
    rfl
  cases step.tally with
  | @receives _ _ m hevent hmetrics =>
    refine ⟨[], nofun, hnothing fun conn t h => ?_, fun s hs => ?_⟩
    · rw [hevent] at h
      cases h
    · have hother : s ≠ .dispatched (.ofFlag m.flag) := by
        rintro rfl
        exact Series.dispatched_notMem_fates _ hs
      rw [hmetrics, Metrics.count, Metrics.get_add, if_neg hother, Int.add_zero]
      rfl
  | resumes hresumes haccounts hlength =>
    exact ⟨_, haccounts.fates, hlength.trans (hresumes.handled_eq hrun hopening),
      fun s _ => by rw [haccounts.metrics]⟩
  | passes _ hresume hmetrics =>
    exact ⟨[], nofun, hnothing hresume, fun s _ => by rw [hmetrics]; rfl⟩

/-- The messages that are placed in the queue of a connection, as they are placed there. -/
theorem filter_placements (step : Step S) (conn : ConnId) :
    (step.placements.filter fun e => e.1 = conn).map Prod.snd = step.placed conn := by
  have hnodup : step.before.state.outboxes.keys.Nodup := step.before.state.outboxes.keys_nodup
  rw [placements, filter_flatMap_pair hnodup]
  split
  · rfl
  · rename_i hnone
    cases step.tally with
    | resumes hresumes haccounts =>
      -- There was no queue before the step, and there is none after it.
      have hgone : conn ∉ step.after.state.outboxes.keys := by rwa [haccounts.keys]
      rw [Table.mem_keys_iff, Table.contains, Option.isSome_iff_ne_none, not_not] at hgone
      have hnothing : step.after.state.waiting conn = [] := by rw [State.waiting, hgone]
      rw [placed, State.placed, hnothing, List.drop_nil]
    | receives hevent =>
      exact (placed_eq_nil (fun conn t h => by rw [hevent] at h; cases h) conn).symm
    | passes _ hresume => exact (placed_eq_nil hresume conn).symm

end Step

/-! ### The balance -/

/-- What the counters stand for after some steps. -/
structure Balanced (h : List (Step S)) (metrics : Metrics) : Prop where
  /-- Over all operations, as many messages are counted as routed as have come in. -/
  dispatched : metrics.total Series.dispatches = h.countP Step.isReceive
  /-- As many are counted as put into a queue as were placed in queues. -/
  relayed : metrics.get .relayed = (h.flatMap Step.placements).length
  /-- Together with those that were not, over all reasons, these are the relayed messages that were
  dealt with, whether their recipient is known or not, and for each announcement that was let through
  one copy for everybody who was authenticated at that moment but the administrator. -/
  handled : metrics.get .relayed + metrics.total Series.drops =
    (h.filterMap Step.relayed?).length + (h.flatMap Step.audience).length

/-- What may be relied on about the counters in a step, after some others. -/
structure Step.Counts (step : Step S) : Prop where
  /-- What is placed in the queue of a connection is found among all that is placed. -/
  placements : ∀ conn : ConnId,
    (step.placements.filter fun e => e.1 = conn).map Prod.snd = step.placed conn
  /-- An announcement that is let through is for everybody who is authenticated but the
  administrator, and for each of them once. -/
  audience : ∀ (conn : ConnId) (t : Moment) (call : Call), step.Resumes conn t call →
    call.message.flag = .broadcast →
    (S.resume step.before.state t conn call.pending).next = .finished .stay →
      (step.audience.map Prod.snd).Nodup ∧ ∀ (id : UserId) (other : ConnId),
        (id, other) ∈ step.audience ↔ id ≠ UserId.admin ∧
          ∃ user : User, step.before.state.registry.user? other = some user ∧ user.id = id
  /-- When a message comes in it is counted as routed, and in no other way. -/
  receives : ∀ (conn : ConnId) (t : Moment) (m : Message), step.event = .receive conn t m →
    step.after.state.metrics = step.before.state.metrics.count (.dispatched (.ofFlag m.flag))
  /-- When a message is refused later, nothing is counted. -/
  refused : ∀ (conn : ConnId) (t : Moment) (call : Call), step.Resumes conn t call →
    (S.resume step.before.state t conn call.pending).next ≠ .finished .stay →
      step.after.state.metrics = step.before.state.metrics
  /-- A step that deals with no relayed message and lets no announcement through counts nothing as
  put into a queue or not. -/
  others : step.relayed? = none → step.audience = [] → ∀ s ∈ Series.fates,
    step.after.state.metrics.get s = step.before.state.metrics.get s

theorem total_fates (metrics : Metrics) :
    metrics.total Series.fates = metrics.get .relayed + metrics.total Series.drops :=
  metrics.total_cons _ _

theorem Run.balanced (hrun : Run S first h last) (hopening : Opening S first) :
    Balanced h last.state.metrics := by
  refine hrun.invariant (P := fun h s => Balanced h s.state.metrics) ?_ ?_
  · obtain ⟨_, _, _, _, _, _, _, rfl⟩ := hopening.eq
    exact ⟨rfl, rfl, rfl⟩
  · intro h step hrun ⟨hdispatched, hrelayed, hhandled⟩
    rw [← total_fates] at hhandled
    constructor
    case dispatched =>
      rw [step.total_dispatches, hdispatched, List.countP_append, Int.natCast_add]
    case relayed =>
      rw [step.get_relayed, hrelayed, List.flatMap_append, List.flatMap_singleton,
        List.length_append, Int.natCast_add]
    case handled =>
      obtain ⟨counted, hfates, hlength, hcounted⟩ := step.exists_countAll hrun hopening
      rw [← total_fates, Metrics.total_congr hcounted,
        Metrics.total_countAll _ Series.nodup_fates hfates, hhandled, hlength, List.filterMap_append,
        List.flatMap_append, List.flatMap_singleton, List.length_append, List.length_append,
        List.filterMap_cons, List.filterMap_nil]
      cases step.relayed? with
      | none => simp only [Option.toList_none, List.length_nil]; omega
      | some _ => simp only [Option.toList_some, List.length_singleton]; omega

/-- What a step counts agrees with what it does. -/
theorem Step.counts (hrun : Run S first h step.before) (hopening : Opening S first) :
    step.Counts := by
  constructor
  case placements => exact step.filter_placements
  case audience =>
    intro conn t call hresumes hflag hstay
    rw [hresumes.audience_eq, if_pos ⟨hflag, hstay⟩]
    have hconsistent := (hrun.sound hopening.sound).consistent
    exact ⟨Service.nodup_audience hconsistent _, fun id other =>
      Service.mem_audience_iff hconsistent id⟩
  case receives =>
    intro conn t m hevent
    rw [step.after_of_receive hevent]
    exact (S.beginning_begin step.before.state t conn m).metrics_eq
  case refused =>
    intro conn t call hresumes hnext
    rw [hresumes.after]
    exact (S.resumption_resume step.before.state t conn call.pending).metrics_eq_of_ne_stay hnext
  case others =>
    intro hrelayed haudience s hs
    obtain ⟨counted, -, hlength, hcounted⟩ := step.exists_countAll hrun hopening
    rw [hrelayed, haudience] at hlength
    rw [hcounted s hs, List.eq_nil_of_length_eq_zero hlength]
    rfl

/-- After every run, whatever queues fill, are closed or disappear in it, the counters agree with what
was done. As many messages are counted as routed as came in; as many as put into a queue as were
placed in queues by relaying and announcing; and those that were put into a queue or not are the
relayed messages that were dealt with and the copies of the announcements that were let through. A
message that is refused is counted as routed and in no other way, in the run, and also when it is
routed after the run. -/
theorem counters_balance (hopening : Opening S first) (hrun : Run S first h last) :
    Balanced h last.state.metrics ∧
    (∀ (h₁ h₂ : List (Step S)) (step : Step S), h = h₁ ++ step :: h₂ → step.Counts) ∧
    ∀ (conn : ConnId) (m : Message) (r : Routed), S.Routes last.state conn m r →
      r.outcome ≠ .stay →
        r.state.metrics = last.state.metrics.count (.dispatched (.ofFlag m.flag)) := by
  refine ⟨hrun.balanced hopening, ?_, fun conn m r hroutes => hroutes.metrics_eq⟩
  rintro h₁ h₂ step rfl
  exact step.counts (run_append_cons_iff.1 hrun).1 hopening

/-- The administrator writes to the guest and to somebody unknown and makes an announcement, and the
guest is refused to make one. Seven messages have come in with the log-ins and the registration; two
are put into the guest's queue, and one is not put anywhere. -/
theorem counters_balance_conversation :
    ∃ (h : List (Step Sample.relay)) (last : Traffic),
      h.map Step.event = Sample.conversation.take 14 ++
        [.receive 5 ⟨12, .none⟩ (Sample.request .proceed 5 Sample.admin 99 [4]),
          .resume 5 ⟨13, .none⟩,
          .receive 5 ⟨14, .none⟩ (Sample.request .broadcast 5 Sample.admin UserId.toRelay [5]),
          .resume 5 ⟨15, .none⟩,
          .receive 6 ⟨16, .none⟩ (Sample.request .broadcast 6 Sample.guest UserId.toRelay [6]),
          .resume 6 ⟨17, .none⟩] ∧
      Opening Sample.relay Sample.first ∧ Run Sample.relay Sample.first h last ∧
      last.state.metrics.total Series.dispatches = 7 ∧ last.state.metrics.get .relayed = 2 ∧
      last.state.metrics.total Series.drops = 1 ∧ last.state.registry.contains 6 = false ∧
      Balanced h last.state.metrics ∧
      ∀ (h₁ h₂ : List (Step Sample.relay)) (step : Step Sample.relay), h = h₁ ++ step :: h₂ →
        step.Counts := by
  let events : List Event := Sample.conversation.take 14 ++
    [.receive 5 ⟨12, .none⟩ (Sample.request .proceed 5 Sample.admin 99 [4]),
      .resume 5 ⟨13, .none⟩,
      .receive 5 ⟨14, .none⟩ (Sample.request .broadcast 5 Sample.admin UserId.toRelay [5]),
      .resume 5 ⟨15, .none⟩,
      .receive 6 ⟨16, .none⟩ (Sample.request .broadcast 6 Sample.guest UserId.toRelay [6]),
      .resume 6 ⟨17, .none⟩]
  have hsome : (Sample.first.follow? Sample.relay events).isSome := by decide +kernel
  obtain ⟨⟨h, last⟩, hfollow⟩ := Option.isSome_iff_exists.1 hsome
  obtain ⟨hrun, hevents⟩ := run_of_follow? hfollow
  have hlast := check_of_follow? hfollow (fun s =>
    s.state.metrics.total Series.dispatches = 7 && s.state.metrics.get .relayed = 2 &&
      s.state.metrics.total Series.drops = 1 && s.state.registry.contains 6 = false)
    (by decide +kernel)
  simp only [Bool.and_eq_true, decide_eq_true_eq] at hlast
  obtain ⟨⟨⟨hdispatches, hrelayed⟩, hdrops⟩, hgone⟩ := hlast
  obtain ⟨hbalanced, hcounts, -⟩ := counters_balance Sample.opening hrun
  exact ⟨h, last, hevents, Sample.opening, hrun, hdispatches, hrelayed, hdrops, hgone, hbalanced,
    hcounts⟩

end Traffic

end Relay
