import Relay.Proofs.Routing.Effect

/-!
# `Relay.Proofs.Routing.Course`: what a message comes to in the end

A message is routed in several steps, and each of them reads the clock and meets the outages of the
store at a time of its own. `Service.Routes` takes them one after the other without anything in
between; `Service.route` is the case in which all of them are taken at once (`routes_route`).

`Service.Midway` says what holds whenever routing waits. A log-in or a registration has moved its
connection on and has done nothing else. A request that can still be refused has done nothing at
all. A request that cannot be refused any more has left the registry alone. `Service.Ending` lists
what routing comes to from there (`ending_of_routes`): a refusal, which leaves everything as it was
but the registration of the connection; the end of the connection for another reason; a log-in; or
an answer, after which the registry is as before.
-/

set_option autoImplicit false

namespace Relay

/-- All that connections share is the same in both states, the registry left aside. -/
structure State.SameShared (σ τ : State) : Prop where
  store : τ.store = σ.store
  shuttingDown : τ.shuttingDown = σ.shuttingDown
  outboxes : τ.outboxes = σ.outboxes

theorem State.SameShared.trans {σ τ υ : State} (h : σ.SameShared τ) (h' : τ.SameShared υ) :
    σ.SameShared υ :=
  ⟨h'.store.trans h.store, h'.shuttingDown.trans h.shuttingDown, h'.outboxes.trans h.outboxes⟩

/-- What a message waits for first can still be refused. -/
theorem Pending.isRefusable_of_isFirst {p : Pending} (h : p.isFirst) : p.isRefusable := by
  cases p <;> first | rfl | cases h

namespace Service

variable (S : Service)

/-! ### All steps of a message -/

/-- What the remaining steps of a message come to, each of them taken at a time of its own. -/
inductive Completes (conn : ConnId) : Turn → Routed → Prop where
  | finished {turn : Turn} {outcome : Outcome} (hnext : turn.next = .finished outcome) :
      Completes conn turn ⟨turn.state, turn.replies, outcome⟩
  | resumed {turn : Turn} {p : Pending} {r : Routed} (t : Moment) (hnext : turn.next = .waiting p)
      (hrest : Completes conn
        { S.resume turn.state t conn p with
          replies := turn.replies ++ (S.resume turn.state t conn p).replies } r) :
      Completes conn turn r

/-- What routing a message comes to, whenever its steps are taken. -/
def Routes (σ : State) (conn : ConnId) (m : Message) (r : Routed) : Prop :=
  ∃ t : Moment, S.Completes conn (S.begin σ t conn m) r

/-- Steps that are all taken at one time are taken. -/
theorem completes_complete (t : Moment) (conn : ConnId) (turn : Turn) :
    S.Completes conn turn (S.complete t conn turn) := by
  fun_induction Service.complete S t conn turn with
  | case1 turn outcome hnext => exact .finished hnext
  | case2 turn p hnext next _ ih => exact .resumed t hnext ih

theorem routes_route (σ : State) (t : Moment) (conn : ConnId) (m : Message) :
    S.Routes σ conn m (S.route σ t conn m) :=
  ⟨t, S.completes_complete t conn _⟩

/-! ### Where routing stands -/

/-- What holds of a step after which routing waits. -/
inductive Midway (σ : State) (conn : ConnId) (m : Message) : Turn → Prop where
  /-- A log-in or a registration has moved its connection on. -/
  | preamble {τ : State} {p : Pending} (hopens : Opens σ conn m) (hserves : p.Serves m none)
      (hregistry : τ.registry = σ.registry.advance conn .secureEstablished)
      (hsame : σ.SameShared τ) : Midway σ conn m (Turn.wait τ p)
  /-- A request that may be refused has done nothing yet. -/
  | request {user : User} {τ : State} {p : Pending} (hauth : S.Authorized σ conn m user)
      (hserves : p.Serves m (some user)) (hregistry : τ.registry = σ.registry)
      (hsame : σ.SameShared τ) (hp : p.isRefusable) : Midway σ conn m (Turn.wait τ p)
  /-- A request is carried out. -/
  | committed {user : User} {τ : State} {replies : List Message} {p : Pending}
      (hauth : S.Authorized σ conn m user) (hserves : p.Serves m (some user))
      (hregistry : τ.registry = σ.registry) (hp : p.isRefusable = false)
      (hreplies : ∀ reply ∈ replies, reply.flag ≠ .error) :
      Midway σ conn m ⟨τ, replies, .waiting p⟩

/-- What routing comes to. -/
inductive Ending (σ : State) (conn : ConnId) (m : Message) (r : Routed) : Prop where
  /-- The connection is not registered. -/
  | unregistered (hgone : σ.registry.get? conn = none) (houtcome : r.outcome = .finishWithError)
      (hregistry : r.state.registry = σ.registry) (hsame : σ.SameShared r.state)
      (hreplies : r.replies = [])
  /-- The message is refused, and its connection is removed. -/
  | refused {reply : Message} (hlive : σ.registry.contains conn)
      (houtcome : r.outcome = .finishWithError)
      (hregistry : r.state.registry = σ.registry.delete conn) (hsame : σ.SameShared r.state)
      (hreplies : r.replies = [reply])
  /-- The connection is removed for another reason. -/
  | closed (houtcome : r.outcome = .finish ∨ r.outcome = .finishToReconnect ∨ r.outcome = .shutdown)
      (hregistry : r.state.registry = σ.registry.delete conn)
  /-- A user is bound to the connection. -/
  | loggedIn {user : User} {bound : Registry} (houtcome : r.outcome = .stay)
      (hopens : Opens σ conn m) (hflag : m.flag = .logIn)
      (hbind : (σ.registry.advance conn .secureEstablished).bind conn user = .ok bound)
      (hregistry : r.state.registry = bound.advance conn .loggedIn)
      (hreplies : ∀ reply ∈ r.replies, reply.flag ≠ .error)
  /-- A request is answered; where the answer is an error, nothing was done. -/
  | answered {user : User} (houtcome : r.outcome = .stay) (hauth : S.Authorized σ conn m user)
      (hregistry : r.state.registry = σ.registry)
      (hreplies : ∀ reply ∈ r.replies, reply.flag = .error →
        r.replies = [reply] ∧ σ.SameShared r.state)

variable {S} {σ : State} {t : Moment} {conn : ConnId} {m : Message} {turn next : Turn} {p : Pending}
  {r : Routed}

theorem contains_of_phase? {r : Registry} {phase : Phase} (h : r.phase? conn = some phase) :
    r.contains conn := by
  obtain ⟨c, hc, -⟩ := (Registry.phase?_eq_some_iff _ _ _).1 h
  exact (Table.contains_iff _ _).2 ⟨c, hc⟩

theorem Opens.contains (h : Opens σ conn m) : σ.registry.contains conn :=
  contains_of_phase? h.phase

theorem Authorized.contains {user : User} (h : S.Authorized σ conn m user) :
    σ.registry.contains conn := Registry.contains_of_user? h.bound

/-- A message that has come in waits, or routing it has ended. -/
theorem Beginning.midway_or_ending (h : S.Beginning σ t conn m turn) :
    S.Midway σ conn m turn ∨
      ∃ outcome, turn.next = .finished outcome ∧
        S.Ending σ conn m ⟨turn.state, turn.replies, outcome⟩ := by
  have hsame : σ.SameShared (σ.count (.dispatched (.ofFlag m.flag))) := ⟨rfl, rfl, rfl⟩
  cases h with
  | unregistered hgone =>
    have hgone : σ.registry.get? conn = none := Option.map_eq_none_iff.1 hgone
    exact .inr ⟨_, rfl, .unregistered hgone rfl rfl hsame rfl⟩
  | refuse hphase =>
    exact .inr ⟨_, rfl, .refused (contains_of_phase? hphase) rfl rfl ⟨rfl, rfl, rfl⟩ rfl⟩
  | preamble hopens hserves => exact .inl (.preamble hopens hserves rfl ⟨rfl, rfl, rfl⟩)
  | finish => exact .inr ⟨_, rfl, .closed (.inl rfl) rfl⟩
  | early hauth =>
    refine .inr ⟨_, rfl, .answered rfl hauth rfl fun reply hreply _ => ?_⟩
    obtain rfl := List.mem_singleton.1 hreply
    exact ⟨rfl, hsame⟩
  | session hauth hserves hfirst =>
    exact .inl (.request hauth hserves rfl hsame (Pending.isRefusable_of_isFirst hfirst))

/-- An error is the only reply of its step, which changes nothing that connections share but the
registry. -/
theorem Resumption.of_error {τ : State} (h : S.Resumption τ t conn p next) {reply : Message}
    (hreply : reply ∈ next.replies) (herror : reply.flag = .error) :
    next.replies = [reply] ∧ τ.SameShared next.state := by
  -- No other reply is mistaken for an error.
  have other {flag : Flag} {recipient : UserId} {body : Bytes} (hflag : flag ≠ .error)
      (hreply : reply ∈ [{ S.message t flag recipient with body }]) : False := by
    obtain rfl := List.mem_singleton.1 hreply
    exact hflag herror
  cases h with
  | refuse =>
    obtain rfl := List.mem_singleton.1 hreply
    exact ⟨rfl, rfl, rfl, rfl⟩
  | unknownRecipient =>
    obtain rfl := List.mem_singleton.1 hreply
    exact ⟨rfl, rfl, rfl, rfl⟩
  | unknownTarget =>
    obtain rfl := List.mem_singleton.1 hreply
    exact ⟨rfl, rfl, rfl, rfl⟩
  | logIn => exact (other (by decide) hreply).elim
  | enrol => exact (other (by decide) hreply).elim
  | nothing => exact (other (by decide) hreply).elim
  | list =>
    simp only [Turn.answer, directoryPages, List.mem_mapIdx] at hreply
    obtain ⟨index, hindex, rfl⟩ := hreply
    exact absurd herror (by decide : Flag.fetchUsers ≠ Flag.error)
  | select =>
    obtain ⟨stored, -, hflag, -⟩ := mem_fetchedMessages hreply
    rw [hflag] at herror
    exact absurd herror (by decide : Flag.fetchMessages ≠ Flag.error)
  | _ => cases hreply

/-! ### From one step to the end -/

/-- A log-in or a registration for which the store answers waits on, or routing it has ended. -/
theorem Resumption.midway_or_ending_of_preamble {τ : State} (h : S.Resumption τ t conn p next)
    (hopens : Opens σ conn m) (hserves : p.Serves m none)
    (hregistry : τ.registry = σ.registry.advance conn .secureEstablished)
    (hsame : σ.SameShared τ) :
    S.Midway σ conn m next ∨
      ∃ outcome, next.next = .finished outcome ∧
        S.Ending σ conn m ⟨next.state, next.replies, outcome⟩ := by
  have hdelete : τ.registry.delete conn = σ.registry.delete conn := by
    rw [hregistry, Registry.delete_advance]
  have hwaits (q : Pending) (hnext : next.next = .waiting q) : q.Serves m none :=
    (h.serves hserves hnext).1
  cases h with
  | refuse =>
    exact .inr ⟨_, rfl, .refused hopens.contains rfl hdelete (hsame.trans ⟨rfl, rfl, rfl⟩) rfl⟩
  | logIn _ _ hbind =>
    rw [hregistry] at hbind
    refine .inr ⟨_, rfl, .loggedIn rfl hopens hserves.of_credentials.1 hbind rfl
      fun reply hreply => ?_⟩
    obtain rfl := List.mem_singleton.1 hreply
    exact (by decide : Flag.loggedIn ≠ Flag.error)
  | seat => exact .inl (.preamble hopens (hwaits _ rfl) hregistry hsame)
  | hash =>
    exact .inl (.preamble hopens (hwaits _ rfl) hregistry (hsame.trans ⟨rfl, rfl, rfl⟩))
  | enrol => exact .inr ⟨_, rfl, .closed (.inr (.inl rfl)) hdelete⟩
  | _ => cases hserves

/-- A request that can be refused and for which the store answers waits on, or routing it has
ended. -/
theorem Resumption.midway_or_ending_of_request {τ : State} {user : User}
    (h : S.Resumption τ t conn p next) (hauth : S.Authorized σ conn m user)
    (hserves : p.Serves m (some user)) (hregistry : τ.registry = σ.registry)
    (hsame : σ.SameShared τ) (hp : p.isRefusable) :
    S.Midway σ conn m next ∨
      ∃ outcome, next.next = .finished outcome ∧
        S.Ending σ conn m ⟨next.state, next.replies, outcome⟩ := by
  have hwaits (q : Pending) (hnext : next.next = .waiting q) : q.Serves m (some user) :=
    (h.serves hserves hnext).1
  have hanswered (hstay : next.next = .finished .stay)
      (hkept : next.state.registry = τ.registry) :
      ∃ outcome, next.next = .finished outcome ∧
        S.Ending σ conn m ⟨next.state, next.replies, outcome⟩ := by
    refine ⟨_, hstay, .answered rfl hauth (hkept.trans hregistry) fun reply hreply herror => ?_⟩
    obtain ⟨honly, hshared⟩ := h.of_error hreply herror
    exact ⟨honly, hsame.trans hshared⟩
  cases h with
  | refuse =>
    exact .inr ⟨_, rfl, .refused hauth.contains rfl (congrArg (Registry.delete · conn) hregistry)
      (hsame.trans ⟨rfl, rfl, rfl⟩) rfl⟩
  | unknownRecipient => exact .inr (hanswered rfl rfl)
  | toKeep => exact .inl (.committed hauth (hwaits _ rfl) hregistry rfl (List.forall_mem_nil _))
  | signal => exact .inr (hanswered rfl (registry_deliver _ _))
  | announce => exact .inr (hanswered rfl (S.registry_announce _ _ _ _))
  | list => exact .inr (hanswered rfl rfl)
  | unknownTarget => exact .inr (hanswered rfl rfl)
  | toSelect => exact .inl (.request hauth (hwaits _ rfl) hregistry hsame rfl)
  | nothing => exact .inr (hanswered rfl rfl)
  | select =>
    refine .inl (.committed hauth (hwaits _ rfl) hregistry rfl fun reply hreply => ?_)
    obtain ⟨stored, -, hflag, -⟩ := mem_fetchedMessages hreply
    rw [hflag]
    decide
  | stop => exact .inl (.committed hauth (hwaits _ rfl) hregistry rfl (List.forall_mem_nil _))
  | keep => cases hp
  | notKeep => cases hp
  | consume => cases hp
  | notConsume => cases hp
  | clear => cases hp
  | notClear => cases hp
  | _ => cases hserves

/-- A request that is carried out does not reply any more and leaves the registry as it is, unless
it ends its connection. -/
theorem Resumption.of_not_isRefusable {τ : State} (h : S.Resumption τ t conn p next)
    (hp : p.isRefusable = false) :
    next.replies = [] ∧
      (next.next = .finished .stay ∧ next.state.registry = τ.registry ∨
        next.next = .finished .shutdown ∧
          next.state.registry = τ.registry.delete conn) := by
  cases h with
  | refuse _ hrefusable =>
    rw [hp] at hrefusable
    cases hrefusable
  | keep => exact ⟨rfl, .inl ⟨rfl, registry_deliver _ _⟩⟩
  | notKeep => exact ⟨rfl, .inl ⟨rfl, registry_deliver _ _⟩⟩
  | consume => exact ⟨rfl, .inl ⟨rfl, rfl⟩⟩
  | notConsume => exact ⟨rfl, .inl ⟨rfl, rfl⟩⟩
  | clear => exact ⟨rfl, .inr ⟨rfl, rfl⟩⟩
  | notClear => exact ⟨rfl, .inr ⟨rfl, rfl⟩⟩
  | _ => cases hp

/-- Nothing follows when routing has finished. -/
theorem Completes.of_finished {outcome : Outcome} (h : S.Completes conn turn r)
    (hnext : turn.next = .finished outcome) : r = ⟨turn.state, turn.replies, outcome⟩ := by
  cases h with
  | finished hfinished =>
    rw [hnext] at hfinished
    cases hfinished
    rfl
  | resumed _ hwaiting =>
    rw [hnext] at hwaiting
    cases hwaiting

/-- From where routing waits it goes on to the end. -/
theorem Midway.ending (h : S.Midway σ conn m turn) (hr : S.Completes conn turn r) :
    S.Ending σ conn m r := by
  -- Induction on the remaining steps. Each of them leads to a place where routing waits again, or
  -- it is the last.
  induction hr with
  | finished hnext => cases h <;> cases hnext
  | resumed t hnext hrest ih =>
    cases h with
    | preamble hopens hserves hregistry hsame =>
      cases hnext
      rcases (S.resumption_resume _ t conn _).midway_or_ending_of_preamble hopens hserves hregistry
        hsame with hmidway | ⟨outcome, hfinished, hending⟩
      · exact ih hmidway
      · obtain rfl := hrest.of_finished hfinished
        exact hending
    | request hauth hserves hregistry hsame hp =>
      cases hnext
      rcases (S.resumption_resume _ t conn _).midway_or_ending_of_request hauth hserves hregistry
        hsame hp with hmidway | ⟨outcome, hfinished, hending⟩
      · exact ih hmidway
      · obtain rfl := hrest.of_finished hfinished
        exact hending
    | committed hauth hserves hregistry hp hreplies =>
      cases hnext
      obtain ⟨hnone, ⟨hstay, hkept⟩ | ⟨hshutdown, hremoved⟩⟩ :=
        (S.resumption_resume _ t conn _).of_not_isRefusable hp
      · obtain rfl := hrest.of_finished hstay
        refine .answered rfl hauth (hkept.trans hregistry) fun reply hreply herror => ?_
        rw [hnone, List.append_nil] at hreply
        exact absurd herror (hreplies reply hreply)
      · obtain rfl := hrest.of_finished hshutdown
        exact .closed (.inr (.inr rfl)) (hregistry ▸ hremoved)

/-- However a message is routed, it comes to one of the endings. -/
theorem ending_of_routes (h : S.Routes σ conn m r) : S.Ending σ conn m r := by
  obtain ⟨t, hcompletes⟩ := h
  rcases (S.beginning_begin σ t conn m).midway_or_ending with hmidway | ⟨outcome, hnext, hending⟩
  · exact hmidway.ending hcompletes
  · obtain rfl := hcompletes.of_finished hnext
    exact hending

end Service

end Relay
