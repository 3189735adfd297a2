import Relay.Proofs.Link.Welcome
import Relay.Proofs.Server.Course
import Relay.Proofs.Server.Custody

/-!
# `Relay.Proofs.Server.Welcome`: the welcome of a client among what others send

`Server.history` follows a relay along a run and notes down what is placed in the queue of each
connection from the moment that it is registered. `Server.Attended` is what every event keeps, of
whatever kind it is: the registry is consistent, readers work for the users of their connections, and
the log-in on a connection has come as far as `Welcome` says.

A client is not promised that its welcome comes first. Until the log-in is answered, nothing is
placed in its queue. From then on the user can be found, while the welcome is still in the hands of
the reader, and it goes into the queue behind whatever others have placed by then
(`Server.Welcomes`). So it is the first message just if nobody has (`welcome_overtaken`).
-/

set_option autoImplicit false

namespace Relay

/-- The session of a worker is on the connection whose id the worker holds. -/
theorem Worker.lease?_of_link? {worker : Worker} {l : Link} (h : worker.link? = some l) :
    worker.lease? = some l.id := by
  cases worker with
  | serving link | flushing link =>
    cases h
    rfl
  | refusing | greeting | unwinding | ended => cases h

/-- There is one session on a connection at a time. -/
theorem Custody.eq_of_id {limit : UInt32} {s : Server} (h : Custody limit none s) {l k : Link}
    (hl : l ∈ s.links) (hk : k ∈ s.links) (hid : l.id = k.id) : l = k := by
  obtain ⟨v, hv, hvlink⟩ := Server.mem_links_iff.1 hl
  obtain ⟨w, hw, hwlink⟩ := Server.mem_links_iff.1 hk
  obtain ⟨place, hplace⟩ := List.mem_iff_getElem?.1 hv
  obtain ⟨index, hindex⟩ := List.mem_iff_getElem?.1 hw
  -- Both workers hold the id, so that they are one.
  have hlease := hid ▸ Worker.lease?_of_link? hvlink
  obtain rfl := h.index_eq hindex hplace (Worker.lease?_of_link? hwlink) hlease
  obtain rfl : v = w := Option.some.inj (hplace.symm.trans hindex)
  exact Option.some.inj (hvlink.symm.trans hwlink)

/-- Where one session is new or has taken a step, every other is as it was, on another connection. -/
theorem Custody.mem_of_ne {limit : UInt32} {s s' : Server} (h : Custody limit none s') {l k : Link}
    (hl : l ∈ s'.links) (hlinks : ∀ k ∈ s'.links, k = l ∨ k ∈ s.links) (hk : k ∈ s'.links)
    (hne : k ≠ l) : k ∈ s.links ∧ k.id ≠ l.id :=
  ⟨(hlinks k hk).resolve_left hne, fun hid => hne (h.eq_of_id hk hl hid)⟩

namespace Server

/-! ### What is placed in the queues -/

/-- What was placed in the queues since their connections were registered, with what an event
places. -/
def logged (s s' : Server) (log : ConnId → List Message) (conn : ConnId) : List Message :=
  if s.shared.registry.contains conn then log conn ++ s.shared.placed s'.shared conn else []

/-- What was placed in the queues since their connections were registered, in the order in which it
was placed, with what a list of events places. -/
def history (s : Server) (log : ConnId → List Message) : List Event → ConnId → List Message
  | [] => log
  | event :: rest =>
    match s.step? event with
    | none => log
    | some s' => s'.history (s.logged s' log) rest

/-! ### The invariant -/

/-- Readers work for the users of their connections, and log-ins have come as far as is known from
what was placed in the queues. -/
structure Attended (s : Server) (log : ConnId → List Message) : Prop where
  consistent : s.shared.registry.Consistent
  serves : ∀ l ∈ s.links, l.Serves s.shared.registry
  welcome : ∀ l ∈ s.links, s.shared.registry.contains l.id →
    Welcome l.reader (s.shared.registry.user? l.id) (log l.id)

namespace Attended

variable {s s' : Server} {log : ConnId → List Message} {limit : UInt32} {l k : Link}

/-- A session that goes on as it was, on a connection that was registered and whose user is the
same. -/
theorem serves_of_same (h : s.Attended log) (hl : l ∈ s.links) (hsame : l.SameReader k)
    (hlive : s'.shared.registry.contains k.id → s.shared.registry.contains k.id ∧
      s'.shared.registry.user? k.id = s.shared.registry.user? k.id) :
    k.Serves s'.shared.registry := by
  intro p replies since hrouting
  rw [hsame.reader] at hrouting
  obtain ⟨m, user, hp, huser⟩ := h.serves l hl p replies since hrouting
  refine ⟨m, user, hp, fun hk => ?_⟩
  obtain ⟨hbefore, hsameUser⟩ := hlive hk
  rw [hsameUser, hsame.id]
  exact huser (hsame.id ▸ hbefore)

/-- Nothing is placed in the queue of such a session. -/
theorem welcome_of_same (h : s.Attended log) (hl : l ∈ s.links) (hsame : l.SameReader k)
    (hlive : s.shared.registry.contains k.id)
    (huser : s'.shared.registry.user? k.id = s.shared.registry.user? k.id)
    (hnothing : s.shared.placed s'.shared k.id = []) :
    Welcome k.reader (s'.shared.registry.user? k.id) (s.logged s' log k.id) := by
  rw [logged, if_pos hlive, hnothing, List.append_nil, huser, hsame.reader, hsame.id]
  exact h.welcome l hl (hsame.id ▸ hlive)

/-- Where sessions go on as they were, it is enough to look at the registry and the queues. -/
theorem of_sameLinks (h : s.Attended log) (hlinks : s.SameLinks s')
    (hconsistent : s'.shared.registry.Consistent)
    (hlive : ∀ conn, s'.shared.registry.contains conn → s.shared.registry.contains conn ∧
      s'.shared.registry.user? conn = s.shared.registry.user? conn)
    (hnothing : ∀ conn, s.shared.placed s'.shared conn = []) : s'.Attended (s.logged s' log) := by
  refine ⟨hconsistent, fun k hk => ?_, fun k hk hregistered => ?_⟩
  · obtain ⟨l, hl, hsame⟩ := hlinks k hk
    exact h.serves_of_same hl hsame (hlive k.id)
  · obtain ⟨l, hl, hsame⟩ := hlinks k hk
    obtain ⟨hbefore, huser⟩ := hlive k.id hregistered
    exact h.welcome_of_same hl hsame hbefore huser (hnothing k.id)

/-- One session takes a step, and the others go on as they were. -/
theorem of_linkStep (h : s.Attended log) (hcustody : Custody limit none s') (hl : l ∈ s.links)
    (hk : k ∈ s'.links) (hlinks : ∀ j ∈ s'.links, j = k ∨ j ∈ s.links) (hid : k.id = l.id)
    (hstep : Link.Course s.host.service s.now l s.shared k s'.shared) :
    s'.Attended (s.logged s' log) := by
  refine ⟨hstep.registrySource.consistent h.consistent, fun j hj => ?_, fun j hj hregistered => ?_⟩
  · by_cases hjk : j = k
    · rw [hjk]
      exact hstep.serves hid h.consistent (h.serves l hl)
    · obtain ⟨hold, hne⟩ := hcustody.mem_of_ne hk hlinks hj hjk
      exact hstep.serves_of_ne (hid ▸ hne) (h.serves j hold)
  · have hlive := hstep.registrySource.contains hregistered
    rw [logged, if_pos hlive]
    by_cases hjk : j = k
    · rw [hjk, hid] at hregistered hlive ⊢
      exact hstep.welcome h.consistent (h.serves l hl) hregistered (h.welcome l hl hlive)
    · obtain ⟨hold, hne⟩ := hcustody.mem_of_ne hk hlinks hj hjk
      exact hstep.welcome_of_ne h.consistent (h.serves l hl) (hid ▸ hne) (h.welcome j hold hlive)

theorem of_course (h : s.Attended log) (hcourse : s.Course s') (hcustody : Custody limit none s') :
    s'.Attended (s.logged s' log) := by
  cases hcourse with
  | keeps hlinks hshared =>
    refine h.of_sameLinks hlinks ?_ (fun conn hconn => ?_) fun conn =>
      State.placed_of_outboxes hshared.outboxes conn
    · rw [hshared.registry]
      exact h.consistent
    · rw [hshared.registry] at hconn ⊢
      exact ⟨hconn, rfl⟩
  | @greets l hnext hlinks hreader box registry hempty hadd hregistry houtboxes _ =>
    have huser (conn : ConnId) :
        s'.shared.registry.user? conn = s.shared.registry.user? conn := by
      rw [hregistry, Registry.user?_add hadd]
    have hlive {k : Link} (hid : k.id ≠ l.id) (hk : s'.shared.registry.contains k.id) :
        s.shared.registry.contains k.id := by
      rwa [hregistry, Registry.contains_add hadd, decide_eq_false hid, Bool.false_or] at hk
    refine ⟨?_, fun k hk => ?_, fun k hk hregistered => ?_⟩
    · rw [hregistry]
      exact Registry.consistent_add h.consistent hadd
    · by_cases hkl : k = l
      · subst hkl
        exact Link.serves_of_isAwaiting hreader _
      · obtain ⟨hold, hid⟩ := hcustody.mem_of_ne hnext hlinks hk hkl
        exact h.serves_of_same hold (.refl k) fun hk => ⟨hlive hid hk, huser k.id⟩
    · by_cases hkl : k = l
      · subst hkl
        have hfree := Registry.free_of_add hadd
        rw [logged, hfree, huser, Registry.nobody_of_free hfree]
        exact .awaited (ReaderStage.replies_of_isAwaiting hreader)
      · obtain ⟨hold, hid⟩ := hcustody.mem_of_ne hnext hlinks hk hkl
        refine h.welcome_of_same hold (.refl k) (hlive hid hregistered) (huser k.id)
          (State.placed_of_suffix (State.suffix_of_get? ?_))
        rw [houtboxes, Table.get?_insert, if_neg hid]
  | steps hl hnext hlinks hid hstep => exact h.of_linkStep hcustody hl hnext hlinks hid hstep
  | unregisters id hlinks hregistry houtboxes _ =>
    refine h.of_sameLinks hlinks ?_ (fun conn hconn => ?_) fun conn =>
      State.placed_of_outboxes houtboxes conn
    · rw [hregistry]
      exact Registry.consistent_delete h.consistent id
    · rw [hregistry, Registry.contains_delete, Bool.and_eq_true, decide_eq_true_eq] at hconn
      rw [hregistry, Registry.user?_delete, if_neg hconn.1]
      exact ⟨hconn.2, rfl⟩
  | releases id hlinks hregistry houtboxes _ =>
    refine h.of_sameLinks hlinks ?_ (fun conn hconn => ?_) fun conn => State.placed_of_suffix ?_
    · rw [hregistry]
      exact h.consistent
    · rw [hregistry] at hconn ⊢
      exact ⟨hconn, rfl⟩
    · by_cases hconn : conn = id
      · simp only [State.waiting, houtboxes, Table.get?_erase, if_pos hconn]
        exact List.nil_suffix
      · exact State.suffix_of_get? (by rw [houtboxes, Table.get?_erase, if_neg hconn])

/-- In a run, what was placed is followed along with the relay. -/
theorem of_run? {events : List Event} (h : s.Attended log) (hcustody : Custody limit none s)
    (hrun : s.run? events = some s') : s'.Attended (s.history log events) := by
  -- Induction on the events, from the state that the first of them leads to.
  induction events generalizing s log with
  | nil =>
    cases hrun
    exact h
  | cons event events ih =>
    obtain ⟨next, hstep, hrest⟩ := Option.bind_eq_some_iff.1 hrun
    have hcustody' := (hcustody.follows_step? hstep).custody
    rw [history, hstep]
    exact ih (h.of_course (course_of_step? hstep).2 hcustody') hcustody' hrest

theorem start (suite : Suite) (passwords : PasswordScheme) (config : Config) (seed : Key)
    (store : Store) (e : Entropy) (log : ConnId → List Message) :
    (Server.start suite passwords config seed store e).Attended log := by
  have hlinks : (Server.start suite passwords config seed store e).links = [] := rfl
  refine ⟨Registry.consistent_empty _, ?_, ?_⟩
  · rw [hlinks]
    exact List.forall_mem_nil _
  · rw [hlinks]
    exact List.forall_mem_nil _

/-- When a log-in is answered, nothing was placed before, and nothing is with the answer. The reader
has the welcome in hand. -/
theorem answers (h : s.Attended log) (hcourse : s.Course s')
    {conn : ConnId} {user : User} (hlive : s.shared.registry.contains conn)
    (hnobody : s.shared.registry.user? conn = none)
    (hbound : s'.shared.registry.user? conn = some user) :
    s.logged s' log conn = [] ∧ ∃ l ∈ s'.links, l.id = conn ∧
      ∃ (welcome : Message) (since : Nat), welcome.Welcomes user ∧
        l.reader = .replying [welcome] .stay since := by
  -- Only routing brings a user to a connection.
  have same (huser : s'.shared.registry.user? conn = s.shared.registry.user? conn) : False := by
    rw [huser, hnobody] at hbound
    cases hbound
  cases hcourse with
  | keeps _ hshared => exact (same (by rw [hshared.registry])).elim
  | greets _ _ _ _ hadd hregistry => exact (same (by rw [hregistry, Registry.user?_add hadd])).elim
  | unregisters id _ hregistry =>
    rw [hregistry] at hbound
    exact absurd (hnobody.symm.trans (Registry.user?_of_delete hbound)) nofun
  | releases _ _ hregistry => exact (same (by rw [hregistry])).elim
  | @steps l l' hl hnext _ hid hstep =>
    by_cases hconn : conn = l.id
    · subst hconn
      have hafter := Registry.contains_of_user? hbound
      have hwelcome := h.welcome l hl hlive
      rw [hnobody] at hwelcome
      generalize hlog : log l.id = placed at hwelcome
      cases hwelcome with
      | awaited hreplies =>
        obtain ⟨hnothing, ⟨hstill, -⟩ | ⟨bound, welcome, since, hbound', hwelcomes, hreader⟩⟩ :=
          hstep.of_nobody h.consistent (h.serves l hl) hafter hnobody hreplies
        · rw [hstill] at hbound
          cases hbound
        · obtain rfl : bound = user := Option.some.inj (hbound'.symm.trans hbound)
          rw [logged, if_pos hlive, hlog, hnothing]
          exact ⟨rfl, l', hnext, hid, welcome, since, hwelcomes, hreader⟩
    · exact (same (hstep.registrySource.user?_of_ne hconn)).elim

end Attended

/-- When the reader has handed the welcome over, it is the message that was placed last. -/
theorem Course.logged_of_welcome {s s' : Server} {limit : UInt32} {l k : Link}
    (hcourse : s.Course s') (hcustody : Custody limit none s) (log : ConnId → List Message)
    (hl : l ∈ s.links) (hk : k ∈ s'.links) (hid : k.id = l.id)
    (hlive : s.shared.registry.contains l.id) {welcome : Message} {since : Nat}
    (hbefore : l.reader = .replying [welcome] .stay since)
    (hafter : k.reader = .replying [] .stay since) :
    s.logged s' log l.id = log l.id ++ [welcome] := by
  -- The session has taken a step, since its reader is elsewhere.
  have hmoved {j : Link} (hj : j ∈ s.links) (hjk : j.SameReader k) : False := by
    obtain rfl := hcustody.eq_of_id hj hl (hjk.id.symm.trans hid)
    rw [hjk.reader, hbefore] at hafter
    cases hafter
  have hsame (hlinks : s.SameLinks s') : False := by
    obtain ⟨j, hj, hjk⟩ := hlinks k hk
    exact hmoved hj hjk
  cases hcourse with
  | keeps hlinks => exact (hsame hlinks).elim
  | unregisters _ hlinks => exact (hsame hlinks).elim
  | releases _ hlinks => exact (hsame hlinks).elim
  | greets hnext hlinks hreader =>
    rcases hlinks k hk with rfl | hold
    · rw [hafter] at hreader
      cases hreader
    · exact (hmoved hold (.refl k)).elim
  | @steps j j' hj hnext hlinks hjid hstep =>
    rcases hlinks k hk with rfl | hold
    · obtain rfl := hcustody.eq_of_id hj hl (hjid.symm.trans hid)
      rcases hstep.of_welcome hbefore with ⟨hstays | hended, -⟩ | ⟨-, hplaced⟩
      · exact (hmoved hj ⟨hjid, hstays⟩).elim
      · rw [hafter] at hended
        cases hended
      · rw [logged, if_pos hlive, hplaced]
    · exact (hmoved hold (.refl k)).elim

/-! ### What may be relied on -/

/-- What may be relied on about the welcome of clients, given what was placed in their queues. -/
structure Welcomes (s : Server) (log : ConnId → List Message) : Prop where
  /-- Nothing is placed before a user is on the connection, and nothing but messages of others before
  the welcome. -/
  stages : ∀ l ∈ s.links, s.shared.registry.contains l.id →
    Welcome l.reader (s.shared.registry.user? l.id) (log l.id)
  /-- When a log-in is answered, nothing was placed yet, and the welcome is what the reader places
  next. -/
  answers : ∀ (event : Event) (s' : Server), s.step? event = some s' →
    ∀ (conn : ConnId) (user : User), s.shared.registry.contains conn →
      s.shared.registry.user? conn = none → s'.shared.registry.user? conn = some user →
        s.logged s' log conn = [] ∧ ∃ l ∈ s'.links, l.id = conn ∧
          ∃ (welcome : Message) (since : Nat), welcome.Welcomes user ∧
            l.reader = .replying [welcome] .stay since
  /-- When the welcome is handed over, it comes behind what was placed since then. -/
  hands : ∀ (event : Event) (s' : Server), s.step? event = some s' →
    ∀ l ∈ s.links, s.shared.registry.contains l.id → ∀ (welcome : Message) (since : Nat),
      l.reader = .replying [welcome] .stay since → ∀ k ∈ s'.links, k.id = l.id →
        k.reader = .replying [] .stay since → s.logged s' log l.id = log l.id ++ [welcome]

end Server

/-- In every run of a relay, whatever happens and in whatever order, a client who logs in finds only
messages of others before its welcome, and only such as were placed between the answer and the
hand-over. -/
theorem welcomed_after_others {suite : Suite} {passwords : PasswordScheme} {config : Config} {seed : Key}
    {store : Store} {e : Entropy} {events : List Event} {s : Server}
    (hrun : (Server.start suite passwords config seed store e).run? events = some s) :
    s.Welcomes ((Server.start suite passwords config seed store e).history (fun _ => []) events) := by
  have hstart := Custody.start suite passwords config seed store e
  have hattended :=
    (Server.Attended.start suite passwords config seed store e fun _ => []).of_run? hstart hrun
  have hcustody := hstart.of_run? hrun
  constructor
  · exact hattended.welcome
  · intro event s' hstep conn user
    exact hattended.answers (Server.course_of_step? hstep).2
  · intro event s' hstep l hl hlive welcome since hbefore k hk hid
    exact (Server.course_of_step? hstep).2.logged_of_welcome hcustody _ hl hk hid hlive hbefore

namespace Sample

/-- A guest registers, the administrator and the guest log in, and the guest's welcome is still in
the hands of the reader. -/
def answered : List Event :=
  [.begin, .check] ++ greeting 0 ++ sends 0 (preamble .register guest) ++
    [onLink 0 (.resume ⟨3, .none⟩), onLink 0 (.resume ⟨4, .none⟩), onLink 0 (.resume ⟨5, .none⟩)] ++
    greeting 1 ++ sends 1 (preamble .logIn admin) ++
    [onLink 1 (.resume ⟨6, .none⟩), onLink 1 .reply, onLink 1 .conclude] ++
    greeting 2 ++ sends 2 (preamble .logIn guest) ++ [onLink 2 (.resume ⟨7, .none⟩)]

/-- The administrator writes to the guest. -/
def written : List Event :=
  sends 1 (request .proceed 1 admin guest.id [1, 2, 3]) ++
    [onLink 1 (.resume ⟨8, .none⟩), onLink 1 (.resume ⟨9, .none⟩)]

end Sample

/-- The administrator writes to a guest whose welcome is in the hands of the reader. -/
theorem welcomed_after_others_between :
    ∃ s : Server, Sample.server.run? (Sample.answered ++ Sample.written) = some s ∧
      (s.shared.waiting 2).map Message.flag = [.proceed] ∧
      s.Welcomes (Sample.server.history (fun _ => []) (Sample.answered ++ Sample.written)) := by
  have hevents : (Sample.server.run? (Sample.answered ++ Sample.written)).any fun s =>
      (s.shared.waiting 2).map Message.flag = [.proceed] := by
    decide +kernel
  obtain ⟨s, hrun, hqueue⟩ := (Option.any_eq_true _ _).1 hevents
  exact ⟨s, hrun, of_decide_eq_true hqueue, welcomed_after_others hrun⟩

/-- The welcome of the guest is not the first message in the queue of its connection. -/
theorem welcome_overtaken :
    ∃ s : Server,
      Sample.server.run? (Sample.answered ++ Sample.written ++ [Sample.onLink 2 .reply]) = some s ∧
      s.shared.registry.user? 2 = some Sample.guest ∧
      (Sample.server.history (fun _ => [])
        (Sample.answered ++ Sample.written ++ [Sample.onLink 2 .reply]) 2).map Message.flag =
          [.proceed, .loggedIn] := by
  have hevents : (Sample.server.run?
      (Sample.answered ++ Sample.written ++ [Sample.onLink 2 .reply])).any fun s =>
        s.shared.registry.user? 2 = some Sample.guest := by
    decide +kernel
  obtain ⟨s, hrun, hguest⟩ := (Option.any_eq_true _ _).1 hevents
  exact ⟨s, hrun, of_decide_eq_true hguest, by decide +kernel⟩

end Relay
