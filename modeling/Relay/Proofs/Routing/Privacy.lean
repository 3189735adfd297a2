import Relay.Proofs.Routing.Core
import Relay.Proofs.Routing.Dialogue
import Relay.Proofs.Store.Mailbox

/-!
# `Relay.Proofs.Routing.Privacy`: messages of others cannot be noticed

Two states are alike for a user if they differ only in what the user may not see of the mailbox
(`State.AlikeFor`). A step on behalf of the user leads from alike states to alike states and gives
the same replies (`begin_alike`, `resume_alike`). So do all steps of a message (`completeAt_alike`)
and all messages of a connection that only the user can use (`dialogue_alike`).

The two runs go in step. What they wait for is the same in both but for the numbers of the messages
that a fetch is about to remove. These are the numbers of the same messages (`Progress.AlikeFor`),
because a fetch reads and removes what the user may see.
-/

set_option autoImplicit false

namespace Relay

/-- Two states have the same core, and their mailboxes differ only in numbers and in messages that a
user neither wrote nor is to receive. -/
structure State.AlikeFor (user : UserId) (σ τ : State) : Prop where
  core : τ.core = σ.core
  view : τ.store.mailbox.viewOf user = σ.store.mailbox.viewOf user

/-- Routing goes on in the same way in two states. If messages are to be removed, they are the same
of those that the user may see. -/
inductive Progress.AlikeFor (user : UserId) (σ τ : State) : Progress → Progress → Prop where
  | same {next : Progress} (hnext : ∀ ids : List UInt64, next ≠ .waiting (.consumption ids)) :
      AlikeFor user σ τ next next
  | consumption {ids ids' : List UInt64}
      (hview : (τ.store.mailbox.delete ids').viewOf user =
        (σ.store.mailbox.delete ids).viewOf user) :
      AlikeFor user σ τ (.waiting (.consumption ids)) (.waiting (.consumption ids'))

/-- Two turns give the same replies and go on in the same way. -/
structure Turn.AlikeFor (user : UserId) (a b : Turn) : Prop where
  state : a.state.AlikeFor user b.state
  replies : b.replies = a.replies
  next : Progress.AlikeFor user a.state b.state a.next b.next

/-- Two messages come to the same outcome and the same replies. -/
structure Routed.AlikeFor (user : UserId) (r r' : Routed) : Prop where
  outcome : r'.outcome = r.outcome
  replies : r'.replies = r.replies
  state : r.state.AlikeFor user r'.state

/-- The numbers of messages are enough: for some more messages, and for the one under way. -/
structure Turn.HasRoom (turn : Turn) (n : Nat) : Prop where
  finished : ∀ outcome : Outcome, turn.next = .finished outcome →
    turn.state.store.mailbox.HasRoom n
  waiting : ∀ p : Pending, turn.next = .waiting p → turn.state.store.mailbox.HasRoom (n + 1)

/-- Nobody but a user can use a connection: nobody else is on it, and nobody can log in there. -/
structure State.IsOnlyFor (σ : State) (conn : ConnId) (user : UserId) : Prop where
  phase : σ.registry.phase? conn ≠ some .connected
  user : ∀ u : User, σ.registry.user? conn = some u → u.id = user

instance (σ τ : State) (user : UserId) : Decidable (σ.AlikeFor user τ) :=
  decidable_of_iff (τ.core = σ.core ∧
      τ.store.mailbox.viewOf user = σ.store.mailbox.viewOf user)
    ⟨fun h => ⟨h.1, h.2⟩, fun h => ⟨h.core, h.view⟩⟩

namespace Progress.AlikeFor

variable {user : UserId} {σ τ : State} {next : Progress}

theorem finished (outcome : Outcome) :
    Progress.AlikeFor user σ τ (.finished outcome) (.finished outcome) := by
  apply same
  intro ids hnext
  cases hnext

theorem of_finished {outcome : Outcome} (h : Progress.AlikeFor user σ τ (.finished outcome) next) :
    next = .finished outcome := by
  cases h with
  | same => rfl

theorem of_waiting {p : Pending} (h : Progress.AlikeFor user σ τ (.waiting p) next) :
    ∃ p' : Pending, next = .waiting p' := by
  cases h with
  | same => exact ⟨p, rfl⟩
  | consumption => exact ⟨_, rfl⟩

end Progress.AlikeFor

namespace State.AlikeFor

variable {σ τ : State} {user : UserId}

/-- What is done to the mailboxes leaves the cores alone. -/
theorem withMailbox (h : σ.AlikeFor user τ) {b b' : Mailbox}
    (hview : b'.viewOf user = b.viewOf user) :
    State.AlikeFor user { σ with store.mailbox := b } { τ with store.mailbox := b' } :=
  ⟨h.core, hview⟩

theorem purge (h : σ.AlikeFor user τ) (conn : ConnId) :
    (σ.purge conn).AlikeFor user (τ.purge conn) :=
  ⟨congrArg (State.purge · conn) h.core, h.view⟩

theorem deliver (h : σ.AlikeFor user τ) (m : Message) :
    (Service.deliver σ m).AlikeFor user (Service.deliver τ m) := by
  constructor
  · rw [← Service.deliver_core τ, h.core, Service.deliver_core σ]
  · rw [Service.store_deliver, Service.store_deliver]
    exact h.view

end State.AlikeFor

/-- The connection of a user is for nobody else. -/
theorem State.isOnlyFor_of_user? {σ : State} {conn : ConnId} {user : User}
    (hσ : σ.registry.Consistent) (huser : σ.registry.user? conn = some user) :
    σ.IsOnlyFor conn user.id := by
  constructor
  · intro hphase
    obtain ⟨c, hc, hbound⟩ := (Registry.user?_eq_some_iff _ _ _).1 huser
    have hloggedIn : c.phase = .loggedIn :=
      (hσ.bound_iff conn c hc).1 (Option.isSome_of_eq_some hbound)
    obtain ⟨c', hc', hconnected⟩ := (Registry.phase?_eq_some_iff _ _ _).1 hphase
    rw [hc] at hc'
    cases hc'
    rw [hloggedIn] at hconnected
    cases hconnected
  · intro other hother
    rw [huser] at hother
    cases hother
    rfl

namespace Service

variable {S : Service} {σ τ : State} {t : Moment} {conn : ConnId} {m : Message} {p p' : Pending}
  {user : UserId} {viewer : User} {n n' : Nat} {r : Routed}

/-! ### One step -/

/-- Turns with the same core go on in the same way, unless they are about to remove messages. -/
theorem turn_alike {a b : Turn} (hcore : b.core = a.core)
    (hview : b.state.store.mailbox.viewOf user = a.state.store.mailbox.viewOf user)
    (hnext : ∀ ids : List UInt64, a.next ≠ .waiting (.consumption ids)) : a.AlikeFor user b := by
  obtain ⟨hstate, hreplies, hsame⟩ := Turn.mk.inj hcore
  refine ⟨⟨hstate, hview⟩, hreplies, ?_⟩
  rw [hsame]
  exact .same hnext

/-- A message that comes in is begun with in the same way. -/
theorem begin_alike (halike : σ.AlikeFor user τ) (t : Moment) (conn : ConnId) (m : Message) :
    (S.begin σ t conn m).AlikeFor user (S.begin τ t conn m) := by
  apply turn_alike
  · rw [← S.begin_core τ, halike.core, S.begin_core σ]
  · rw [(S.beginning_begin σ t conn m).store_eq, (S.beginning_begin τ t conn m).store_eq]
    exact halike.view
  · intro ids hnext
    obtain ⟨-, hfirst, -⟩ := (S.beginning_begin σ t conn m).serves hnext
    cases hfirst

/-- The replies to a fetch do not tell the numbers of the messages. -/
theorem fetchedMessages_unnumbered (requester : UserId) (messages : List StoredMessage) :
    S.fetchedMessages requester (messages.map StoredMessage.unnumbered) =
      S.fetchedMessages requester messages := by
  apply List.ext_getElem
  · simp [fetchedMessages]
  · intro index _ _
    simp [fetchedMessages]

/-- A fetch finds the same in both states, and is about to remove the same. -/
theorem selection_alike (halike : σ.AlikeFor viewer.id τ) (hσ : σ.store.mailbox.HasRoom n)
    (hτ : τ.store.mailbox.HasRoom n') (request : FetchRequest) :
    (S.resume σ t conn (.selection viewer request)).AlikeFor viewer.id
      (S.resume τ t conn (.selection viewer request)) := by
  have hquery (m : StoredMessage) (h : (request.query viewer.id).selects m) :
      m.concerns viewer.id := FetchRequest.concerns_of_selects h
  -- But for the numbers, both find the same.
  have hfound : (τ.store.mailbox.select (request.query viewer.id)).map StoredMessage.unnumbered =
      (σ.store.mailbox.select (request.query viewer.id)).map StoredMessage.unnumbered := by
    rw [Mailbox.map_select _ hquery, Mailbox.map_select _ hquery, halike.view]
  have hreplies : S.fetchedMessages viewer.id
      (τ.store.mailbox.select (request.query viewer.id)) =
        S.fetchedMessages viewer.id (σ.store.mailbox.select (request.query viewer.id)) := by
    rw [← fetchedMessages_unnumbered, hfound, fetchedMessages_unnumbered]
  have hremoved : (τ.store.mailbox.delete (consumed viewer.id
        (τ.store.mailbox.select (request.query viewer.id)))).viewOf viewer.id =
      (σ.store.mailbox.delete (consumed viewer.id
        (σ.store.mailbox.select (request.query viewer.id)))).viewOf viewer.id := by
    unfold consumed
    rw [Mailbox.viewOf_delete hτ _ _ _ fun _ => rfl, Mailbox.viewOf_delete hσ _ _ _ fun _ => rfl,
      halike.view]
  cases hstore : t.outage .messages with
  | some e =>
    simp only [resume, Outage.attempt, hstore]
    exact ⟨halike.purge conn, rfl, .finished _⟩
  | none =>
    by_cases hnone : σ.store.mailbox.select (request.query viewer.id) = []
    · have hnone' : τ.store.mailbox.select (request.query viewer.id) = [] := by
        rw [hnone] at hfound
        exact List.map_eq_nil_iff.1 hfound
      simp only [resume, Outage.attempt, hstore, hnone, hnone']
      exact ⟨halike, rfl, .finished _⟩
    · have hsome' : τ.store.mailbox.select (request.query viewer.id) ≠ [] := by
        intro hnone'
        rw [hnone'] at hfound
        exact hnone (List.map_eq_nil_iff.1 hfound.symm)
      rw [resume_selection hstore hnone, resume_selection hstore hsome']
      exact ⟨halike, hreplies, .consumption hremoved⟩

/-- A step that is decided by the core leaves the mailbox as it is. -/
theorem mailbox_resume (hp : p.isOfCore) :
    (S.resume σ t conn p).state.store.mailbox = σ.store.mailbox := by
  rcases (S.resumption_resume σ t conn p).mailbox_cases with
    ⟨hsame, -⟩ | ⟨_, rfl, -⟩ | ⟨_, rfl, -⟩ | ⟨rfl, -⟩
  · exact hsame
  · cases hp
  · cases hp
  · cases hp

/-- A step that is decided by the core leads to the same in both states. -/
theorem core_alike (halike : σ.AlikeFor user τ) (hp : p.isOfCore) :
    (S.resume σ t conn p).AlikeFor user (S.resume τ t conn p) := by
  apply turn_alike
  · rw [← S.resume_core τ t conn hp, halike.core, S.resume_core σ t conn hp]
  · rw [mailbox_resume hp, mailbox_resume hp]
    exact halike.view
  · intro ids hnext
    obtain ⟨_, _, rfl, -⟩ := (S.resumption_resume σ t conn p).of_next_consumption hnext
    cases hp

/-- A message is kept in both states, under a number that may differ. -/
theorem keeping_alike (halike : σ.AlikeFor user τ) (kept : Message) :
    (S.resume σ t conn (.keeping kept)).AlikeFor user (S.resume τ t conn (.keeping kept)) := by
  simp only [resume]
  cases t.outage .addMessage with
  | some => exact ⟨halike.deliver kept, rfl, .finished _⟩
  | none =>
    have hview :
        (τ.store.mailbox.add kept.timestamp kept.sender kept.recipient kept.body).2.viewOf user =
          (σ.store.mailbox.add kept.timestamp kept.sender kept.recipient
            kept.body).2.viewOf user := by
      rw [Mailbox.viewOf_add, Mailbox.viewOf_add, halike.view]
    exact ⟨(halike.withMailbox hview).deliver kept, rfl, .finished _⟩

/-- What was fetched is removed from both. -/
theorem consumption_alike (halike : σ.AlikeFor user τ) {ids ids' : List UInt64}
    (hview : (τ.store.mailbox.delete ids').viewOf user =
      (σ.store.mailbox.delete ids).viewOf user) :
    (S.resume σ t conn (.consumption ids)).AlikeFor user
      (S.resume τ t conn (.consumption ids')) := by
  simp only [resume]
  cases t.outage .deleteMessages with
  | some => exact ⟨halike, rfl, .finished _⟩
  | none => exact ⟨halike.withMailbox hview, rfl, .finished _⟩

/-- Everything is removed from both. -/
theorem clearance_alike (halike : σ.AlikeFor user τ) :
    (S.resume σ t conn .clearance).AlikeFor user (S.resume τ t conn .clearance) := by
  simp only [resume]
  cases t.outage .deleteAllMessages with
  | some => exact ⟨halike.purge conn, rfl, .finished _⟩
  | none =>
    have hview : τ.store.mailbox.clear.viewOf user = σ.store.mailbox.clear.viewOf user := rfl
    exact ⟨(halike.withMailbox hview).purge conn, rfl, .finished _⟩

/-- Whatever a user waits for, the answer of the store leads to the same in both states. -/
theorem resume_alike (S : Service) (halike : σ.AlikeFor viewer.id τ)
    (hp : Progress.AlikeFor viewer.id σ τ (.waiting p) (.waiting p'))
    (hserves : p.Serves m (some viewer)) (hσ : σ.store.mailbox.HasRoom n)
    (hτ : τ.store.mailbox.HasRoom n') (t : Moment) (conn : ConnId) :
    (S.resume σ t conn p).AlikeFor viewer.id (S.resume τ t conn p') := by
  cases hp with
  | consumption hview => exact consumption_alike halike hview
  | same hnext =>
    cases hserves with
    | recipient => exact core_alike halike rfl
    | keeping => exact keeping_alike halike m
    | announcer => exact core_alike halike rfl
    | listing => exact core_alike halike rfl
    | target => exact core_alike halike rfl
    | selection => exact selection_alike halike hσ hτ _
    | consumption => exact absurd rfl (hnext _)
    | stopper => exact core_alike halike rfl
    | clearance => exact clearance_alike halike

/-- A message takes one number at most. -/
theorem resume_hasRoom (S : Service) (h : σ.store.mailbox.HasRoom (n + 1)) (t : Moment)
    (conn : ConnId) (p : Pending) : (S.resume σ t conn p).HasRoom n := by
  have hresumption := S.resumption_resume σ t conn p
  have room {b : Mailbox} (hb : b.HasRoom (n + 1))
      (hsame : (S.resume σ t conn p).state.store.mailbox = b) :
      (S.resume σ t conn p).HasRoom n :=
    ⟨fun _ _ => hsame ▸ hb.mono (Nat.le_succ n), fun _ _ => hsame ▸ hb⟩
  rcases hresumption.mailbox_cases with
    ⟨hsame, -⟩ | ⟨kept, rfl, -, hadd⟩ | ⟨ids, -, -, hdelete⟩ | ⟨-, -, hclear⟩
  · exact room h hsame
  · refine ⟨fun _ _ => hadd ▸ h.add _ _ _ _, fun p hnext => ?_⟩
    rw [hresumption.next_of_keeping] at hnext
    cases hnext
  · have hroom : (σ.store.mailbox.delete ids).HasRoom (n + 1) :=
      h.of_sublist List.filter_sublist rfl
    exact room hroom hdelete
  · have hroom : σ.store.mailbox.clear.HasRoom (n + 1) := h.of_sublist (List.nil_sublist _) rfl
    exact room hroom hclear

/-! ### All steps of a message -/

/-- From alike turns, all remaining steps lead to the same. -/
theorem completeAt_alike {clock : Nat → Moment} {a b : Turn} (halike : a.AlikeFor user b)
    (hserves : ∀ p : Pending, a.next = .waiting p →
      ∃ viewer : User, viewer.id = user ∧ p.Serves m (some viewer))
    (ha : a.HasRoom n) (hb : b.HasRoom n') :
    (S.completeAt clock conn a).AlikeFor user (S.completeAt clock conn b) ∧
      (S.completeAt clock conn a).state.store.mailbox.HasRoom n ∧
      (S.completeAt clock conn b).state.store.mailbox.HasRoom n' := by
  -- The induction follows the steps of the first; the second takes a step whenever it does.
  fun_induction Service.completeAt S clock conn a generalizing b with
  | case1 clock a outcome hnext =>
    have hnext' : b.next = .finished outcome := (hnext ▸ halike.next).of_finished
    rw [completeAt_of_finished hnext']
    exact ⟨⟨rfl, halike.replies, halike.state⟩, ha.finished outcome hnext,
      hb.finished outcome hnext'⟩
  | case2 clock a p hnext next _ =>
    rename_i ih
    obtain ⟨viewer, rfl, hviewer⟩ := hserves p hnext
    obtain ⟨p', hnext'⟩ := (hnext ▸ halike.next).of_waiting
    have hwait : Progress.AlikeFor viewer.id a.state b.state (.waiting p) (.waiting p') := by
      rw [← hnext, ← hnext']
      exact halike.next
    have hroom := ha.waiting p hnext
    have hroom' := hb.waiting p' hnext'
    have hstep := S.resume_alike halike.state hwait hviewer hroom hroom' (clock 0) conn
    rw [completeAt_of_waiting hnext']
    apply ih
    · refine ⟨hstep.state, ?_, hstep.next⟩
      exact congrArg₂ (· ++ ·) halike.replies hstep.replies
    · intro q hq
      have hresumption := S.resumption_resume a.state (clock 0) conn p
      exact ⟨viewer, rfl, (hresumption.serves hviewer hq).1⟩
    · have hafter := S.resume_hasRoom hroom (clock 0) conn p
      exact ⟨hafter.finished, hafter.waiting⟩
    · have hafter := S.resume_hasRoom hroom' (clock 0) conn p'
      exact ⟨hafter.finished, hafter.waiting⟩

/-- A message that comes in takes no number yet. -/
theorem begin_hasRoom (S : Service) (h : σ.store.mailbox.HasRoom (n + 1)) (t : Moment)
    (conn : ConnId) (m : Message) : (S.begin σ t conn m).HasRoom n := by
  have hsame : (S.begin σ t conn m).state.store = σ.store := (S.beginning_begin σ t conn m).store_eq
  have hroom : (S.begin σ t conn m).state.store.mailbox.HasRoom (n + 1) := hsame ▸ h
  exact ⟨fun _ _ => hroom.mono (Nat.le_succ n), fun _ _ => hroom⟩

/-- A message on a connection that only the user can use comes to the same. -/
theorem routeAt_alike (S : Service) (halike : σ.AlikeFor user τ) (honly : σ.IsOnlyFor conn user)
    (hσ : σ.store.mailbox.HasRoom (n + 1)) (hτ : τ.store.mailbox.HasRoom (n' + 1))
    (m : TimedMessage) :
    (S.routeAt σ conn m).AlikeFor user (S.routeAt τ conn m) ∧
      (S.routeAt σ conn m).state.store.mailbox.HasRoom n ∧
      (S.routeAt τ conn m).state.store.mailbox.HasRoom n' := by
  apply completeAt_alike (m := m.message) (begin_alike halike (m.clock 0) conn m.message)
  · intro p hnext
    obtain ⟨-, -, ⟨hopens, -⟩ | ⟨viewer, hauth, hserves⟩⟩ :=
      (S.beginning_begin σ (m.clock 0) conn m.message).serves hnext
    · exact absurd hopens.phase honly.phase
    · exact ⟨viewer, honly.user viewer hauth.bound, hserves⟩
  · exact S.begin_hasRoom hσ (m.clock 0) conn m.message
  · exact S.begin_hasRoom hτ (m.clock 0) conn m.message

/-- Whatever is routed on a connection that only the user can use, nobody else gets to use it. -/
theorem isOnlyFor_of_routes (h : S.Routes σ conn m r) (honly : σ.IsOnlyFor conn user) :
    r.state.IsOnlyFor conn user := by
  have kept (hregistry : r.state.registry = σ.registry) : r.state.IsOnlyFor conn user :=
    ⟨hregistry ▸ honly.phase, hregistry ▸ honly.user⟩
  have removed (hregistry : r.state.registry = σ.registry.delete conn) :
      r.state.IsOnlyFor conn user := by
    constructor
    · simp [hregistry, Registry.phase?_delete]
    · simp [hregistry, Registry.user?_delete]
  cases ending_of_routes h with
  | unregistered _ _ hregistry => exact kept hregistry
  | refused _ _ hregistry => exact removed hregistry
  | closed _ hregistry => exact removed hregistry
  | loggedIn _ hopens => exact absurd hopens.phase honly.phase
  | answered _ _ hregistry => exact kept hregistry

/-! ### All messages of a connection -/

/-- Whatever messages come in on a connection that only the user can use, all of them come to the
same in alike states. -/
theorem dialogue_alike (S : Service) (requests : List TimedMessage) (halike : σ.AlikeFor user τ)
    (honly : σ.IsOnlyFor conn user) (hσ : σ.store.mailbox.HasRoom requests.length)
    (hτ : τ.store.mailbox.HasRoom requests.length) :
    List.Forall₂ (Routed.AlikeFor user) (S.dialogue conn σ requests)
      (S.dialogue conn τ requests) := by
  induction requests generalizing σ τ with
  | nil => exact .nil
  | cons m requests ih =>
    obtain ⟨hrouted, hroom, hroom'⟩ := S.routeAt_alike halike honly hσ hτ m
    have hroutes : S.Routes σ conn m.message (S.routeAt σ conn m) :=
      routes_iff_exists_clock.2 ⟨m.clock, rfl⟩
    exact .cons hrouted (ih hrouted.state (isOnlyFor_of_routes hroutes honly) hroom hroom')

end Service

end Relay
