import Relay.Proofs.Link.Moves
import Relay.Proofs.Routing.Effect

/-!
# `Relay.Proofs.Link.Step`: what a step of a session does

The reader and the writer of a session take many kinds of steps (`Link.Moves`), but there are only
few things that they do to each other and to what connections share. `Link.Course` lists them, and
`course_of_step?` says that there is nothing else: the reader waits, ends, refuses bytes that are no
message, takes a step of routing or hands a reply over; the writer writes what it has, or takes
something out of a queue.

`Link.RegistrySource` is what is left of it for the registry alone. From it follows that a session
never registers a connection (`RegistrySource.contains`), and that the users of other connections
stay where they are (`RegistrySource.user?_of_ne`).
-/

set_option autoImplicit false

namespace Relay

/-- The tables that connections share are the same in both states. -/
structure State.SameTables (σ τ : State) : Prop where
  registry : τ.registry = σ.registry
  outboxes : τ.outboxes = σ.outboxes
  store : τ.store = σ.store

/-- The tables and the mark of shutdown are the same in both states. -/
structure State.SameContents (σ τ : State) : Prop extends State.SameTables σ τ where
  shuttingDown : τ.shuttingDown = σ.shuttingDown

theorem State.SameTables.refl (σ : State) : σ.SameTables σ := ⟨rfl, rfl, rfl⟩

theorem State.SameContents.refl (σ : State) : σ.SameContents σ := ⟨.refl σ, rfl⟩

/-- Where the same waits, nothing was added. -/
theorem State.suffix_of_get? {σ τ : State} {conn : ConnId}
    (h : τ.outboxes.get? conn = σ.outboxes.get? conn) : τ.waiting conn <:+ σ.waiting conn := by
  have hsame : τ.waiting conn = σ.waiting conn := by simp only [waiting, h]
  exact hsame ▸ List.suffix_rfl

/-- Messages were taken out of queues at their front, or all that waited in them was lost; nothing
else has changed in what connections share. -/
structure State.Drains (σ τ : State) : Prop where
  registry : τ.registry = σ.registry
  store : τ.store = σ.store
  shuttingDown : τ.shuttingDown = σ.shuttingDown
  queues : ∀ conn, τ.waiting conn <:+ σ.waiting conn

theorem State.Drains.trans {σ τ υ : State} (h : σ.Drains τ) (h' : τ.Drains υ) : σ.Drains υ :=
  ⟨h'.registry.trans h.registry, h'.store.trans h.store,
    h'.shuttingDown.trans h.shuttingDown, fun conn => (h'.queues conn).trans (h.queues conn)⟩

/-- An operation that takes messages out of a queue at its front drains it. -/
theorem State.drains_modify {f : Outbox → Outbox}
    (hf : ∀ box : Outbox, (f box).waiting <:+ box.waiting) (σ : State) (conn : ConnId) :
    σ.Drains { σ with outboxes := σ.outboxes.modify conn f } := by
  refine ⟨rfl, rfl, rfl, fun other => ?_⟩
  by_cases hother : other = conn
  · simp only [waiting, Table.get?_modify, hother]
    cases σ.outboxes.get? conn with
    | none => exact List.suffix_rfl
    | some box => exact hf box
  · exact suffix_of_get? (by rw [Table.get?_modify, if_neg hother])

namespace ReaderStage

/-- Whether a reader waits for a frame. -/
def isAwaiting : ReaderStage → Bool
  | awaiting .. => true
  | routing .. | replying .. | ended _ => false

/-- Whether a reader has ended. -/
def hasEnded : ReaderStage → Bool
  | ended _ => true
  | awaiting .. | routing .. | replying .. => false

/-- The replies that a reader has in hand. -/
def replies : ReaderStage → List Message
  | routing _ replies _ | replying replies .. => replies
  | awaiting .. | ended _ => []

theorem replies_of_isAwaiting {r : ReaderStage} (h : r.isAwaiting) : r.replies = [] := by
  cases r with
  | awaiting => rfl
  | routing | replying | ended => cases h

theorem replies_of_hasEnded {r : ReaderStage} (h : r.hasEnded) : r.replies = [] := by
  cases r with
  | ended => rfl
  | awaiting | routing | replying => cases h

/-- How a reader ends: with an error, as long as it waits for a frame or has replies in hand, or
with an outcome after which nothing is read, once all replies are handed over. -/
inductive Ends (r r' : ReaderStage) : Prop where
  | fails {e : WireError} (hbefore : r.isAwaiting ∨
        ∃ (m : Message) (rest : List Message) (outcome : Outcome) (since : Nat),
          r = replying (m :: rest) outcome since)
      (hafter : r' = ended (.error e))
  | concludes {outcome : Outcome} {since : Nat} (hbefore : r = replying [] outcome since)
      (hcloses : outcome.closes) (hafter : r' = ended (.ok outcome))

end ReaderStage

namespace Link

variable {S : Service} {now : Nat} {l l' : Link} {σ σ' : State} {t : Moment}

/-- What a step of a session does to its reader and to what connections share. -/
inductive Course (S : Service) (now : Nat) (l : Link) (σ : State) (l' : Link) (σ' : State) :
    Prop where
  /-- The reader stays where it is. -/
  | stays (hreader : l'.reader = l.reader) (hshared : σ.SameContents σ')
  /-- The reader waits for what is next. It waited before, or is done with a frame. -/
  | waits (hbefore : l.reader.isAwaiting ∨
        ∃ (outcome : Outcome) (since : Nat), l.reader = .replying [] outcome since)
      (hreader : l'.reader.isAwaiting) (hshared : σ.SameContents σ')
      (hstays : ∀ (outcome : Outcome) (since : Nat),
        l.reader = .replying [] outcome since → outcome.closes = false)
  /-- The reader ends. -/
  | ends (hreader : l'.reader.hasEnded) (hshared : σ.SameContents σ')
      (hends : l.reader.Ends l'.reader)
  /-- What has arrived is no message. -/
  | malformed (t : Moment) (hbefore : l.reader.isAwaiting)
      (hreader : l'.reader = .replying [S.malformedReply t] .finishWithError now)
      (hstate : σ' = σ.purge l.id)
  /-- The routing of a message begins. -/
  | begins (t : Moment) {text : Bytes} {m : Message} (hbefore : l.reader.isAwaiting)
      (hunpack : Message.unpack text = .ok m)
      (hreader : l'.reader = .ofTurn (S.begin σ t l.id m) [] now)
      (hstate : σ' = (S.begin σ t l.id m).state)
  /-- The routing of a message goes on. -/
  | resumes (t : Moment) {p : Pending} {replies : List Message} {since : Nat}
      (hbefore : l.reader = .routing p replies since)
      (hreader : l'.reader = .ofTurn (S.resume σ t l.id p) replies since)
      (hstate : σ' = (S.resume σ t l.id p).state)
  /-- A reply is put into the queue. -/
  | replies {m : Message} {rest : List Message} {outcome : Outcome} {since : Nat}
      (hbefore : l.reader = .replying (m :: rest) outcome since)
      (hqueued : σ.delivery l.id = .queued) (hreader : l'.reader = .replying rest outcome since)
      (hstate : σ' = σ.enqueue l.id m)
  /-- The writer takes messages out of a queue. -/
  | takes (hreader : l'.reader = l.reader) (hdrains : σ.Drains σ')

/-! ### Every step is one of them -/

theorem Holds.isAwaiting {frame rest : Bytes} (h : l.Holds frame rest) : l.reader.isAwaiting := by
  obtain ⟨deadline, timer, hreader⟩ := h.reader
  rw [hreader]
  rfl

/-- Only a reader that waits for a frame gives up. -/
theorem Fails.isAwaiting {event : LinkEvent} {e : WireError} (h : l.Fails S now event e) :
    l.reader.isAwaiting := by
  cases h with
  | input _ hreader | invalid _ hreader | closer hreader | silent hreader | late hreader =>
    rw [hreader]
    rfl

/-- A reader that waits for a frame goes on to wait, for the rest of it or for longer. -/
theorem Course.goesOn (hbefore : l.reader.isAwaiting) (hreader : l'.reader.isAwaiting) :
    Course S now l σ l' σ := by
  refine .waits (.inl hbefore) hreader (.refl σ) fun outcome since hreplying => ?_
  rw [hreplying] at hbefore
  cases hbefore

/-- A reader that waits for a frame gives up. -/
theorem Course.failsAwaiting {e : WireError} (hbefore : l.reader.isAwaiting)
    (hafter : l'.reader = .ended (.error e)) : Course S now l σ l' σ :=
  .ends (hafter ▸ rfl) (.refl σ) (.fails (.inl hbefore) hafter)

theorem drains_stopWriting (l : Link) (σ : State) : σ.Drains (l.stopWriting σ).2 :=
  State.drains_modify (fun _ => List.nil_suffix) σ l.id

theorem drains_dropNext (l : Link) (σ : State) :
    σ.Drains { σ with outboxes := σ.outboxes.modify l.id Outbox.dropNext } :=
  State.drains_modify (fun box => List.tail_suffix box.waiting) σ l.id

theorem Moves.course {event : LinkEvent} (h : Moves S now l σ event l' σ') :
    l'.id = l.id ∧ Course S now l σ l' σ' := by
  cases h with
  | arrives | hangsUp | announces | writes | finishes => exact ⟨rfl, .stays rfl (.refl σ)⟩
  | measures _ _ hreader | rings _ hreader =>
    exact ⟨rfl, .goesOn (by rw [hreader]; rfl) rfl⟩
  | rejects _ _ hholds => exact ⟨rfl, .failsAwaiting hholds.isAwaiting rfl⟩
  | fails hfails => exact ⟨rfl, .failsAwaiting hfails.isAwaiting rfl⟩
  | misreads t _ hholds => exact ⟨rfl, .malformed t hholds.isAwaiting rfl rfl⟩
  | begins t _ hholds _ hunpack => exact ⟨rfl, .begins t hholds.isAwaiting hunpack rfl rfl⟩
  | resumes t hreader => exact ⟨rfl, .resumes t hreader rfl rfl⟩
  | replies hreader hqueued => exact ⟨rfl, .replies hreader hqueued rfl rfl⟩
  | loses hreader => exact ⟨rfl, .ends rfl (.refl σ) (.fails (.inr ⟨_, _, _, _, hreader⟩) rfl)⟩
  | goesOn _ _ hreader hstays =>
    refine ⟨rfl, .waits (.inr ⟨_, _, hreader⟩) rfl ⟨⟨rfl, rfl, rfl⟩, rfl⟩ ?_⟩
    intro outcome since hreplying
    obtain ⟨-, rfl, -⟩ := ReaderStage.replying.inj (hreader.symm.trans hreplying)
    exact hstays
  | concludes _ hreader hcloses =>
    exact ⟨rfl, .ends rfl ⟨⟨rfl, rfl, rfl⟩, rfl⟩ (.concludes hreader hcloses rfl)⟩
  | collects => exact ⟨rfl, .takes rfl (l.drains_dropNext σ)⟩
  | chokes =>
    -- What was taken out is not sealed, and the rest is lost with it.
    exact ⟨rfl, .takes rfl ((l.drains_dropNext σ).trans (l.drains_stopWriting _))⟩
  | breaks => exact ⟨rfl, .takes rfl (l.drains_stopWriting σ)⟩

/-- A step of a session is one on its own connection, and it is one of a few kinds. -/
theorem course_of_step? {event : LinkEvent} (h : l.step? S now σ event = some (l', σ')) :
    l'.id = l.id ∧ Course S now l σ l' σ' := (moves_of_step? h).course

/-! ### The registry -/

/-- Where the registry after a step of a session comes from. -/
inductive RegistrySource (S : Service) (conn : ConnId) (σ σ' : State) : Prop where
  /-- It is the one before the step. -/
  | kept (hregistry : σ'.registry = σ.registry)
  /-- The connection is removed. -/
  | purged (hregistry : σ'.registry = σ.registry.delete conn)
  /-- The routing of a message begins. -/
  | begun (t : Moment) (m : Message) (hstate : σ' = (S.begin σ t conn m).state)
  /-- The routing of a message goes on. -/
  | resumed (t : Moment) (p : Pending) (hstate : σ' = (S.resume σ t conn p).state)

/-- A session never registers a connection. -/
theorem RegistrySource.contains {conn other : ConnId} (h : RegistrySource S conn σ σ')
    (hlive : σ'.registry.contains other) : σ.registry.contains other := by
  cases h with
  | kept hregistry => exact hregistry ▸ hlive
  | purged hregistry => exact Registry.contains_of_delete (hregistry ▸ hlive)
  | begun t m hstate =>
    exact (S.beginning_begin σ t conn m).registryEffect.contains (hstate ▸ hlive)
  | resumed t p hstate =>
    exact (S.resumption_resume σ t conn p).registryEffect.contains (hstate ▸ hlive)

/-- Other connections have the users that they had. -/
theorem RegistrySource.user?_of_ne {conn other : ConnId} (h : RegistrySource S conn σ σ')
    (hne : other ≠ conn) : σ'.registry.user? other = σ.registry.user? other := by
  cases h with
  | kept hregistry => rw [hregistry]
  | purged hregistry => rw [hregistry, Registry.user?_delete, if_neg hne]
  | begun t m hstate =>
    rw [hstate]
    exact (S.beginning_begin σ t conn m).registryEffect.user?_of_ne hne
  | resumed t p hstate =>
    rw [hstate]
    exact (S.resumption_resume σ t conn p).registryEffect.user?_of_ne hne

/-- Who is on a connection stays on it, as long as it is registered. -/
theorem RegistrySource.user?_of_bound {conn other : ConnId} (h : RegistrySource S conn σ σ')
    {user : User} (hbound : σ.registry.user? other = some user)
    (hlive : σ'.registry.contains other) : σ'.registry.user? other = some user := by
  cases h with
  | kept hregistry => rw [hregistry, hbound]
  | purged hregistry =>
    rw [hregistry, Registry.contains_delete, Bool.and_eq_true, decide_eq_true_eq] at hlive
    rw [hregistry, Registry.user?_delete, if_neg hlive.1, hbound]
  | begun t m hstate =>
    rw [hstate] at hlive ⊢
    exact (S.beginning_begin σ t conn m).registryEffect.user?_of_bound hbound hlive
  | resumed t p hstate =>
    rw [hstate] at hlive ⊢
    exact (S.resumption_resume σ t conn p).registryEffect.user?_of_bound hbound hlive

theorem RegistrySource.consistent {conn : ConnId} (h : RegistrySource S conn σ σ')
    (hσ : σ.registry.Consistent) : σ'.registry.Consistent := by
  cases h with
  | kept hregistry => exact hregistry ▸ hσ
  | purged hregistry => exact hregistry ▸ Registry.consistent_delete hσ conn
  | begun t m hstate =>
    exact hstate ▸ (S.beginning_begin σ t conn m).registryEffect.consistent hσ
  | resumed t p hstate =>
    exact hstate ▸ (S.resumption_resume σ t conn p).registryEffect.consistent hσ

theorem Course.registrySource (h : Course S now l σ l' σ') : RegistrySource S l.id σ σ' := by
  cases h with
  | stays _ hshared => exact .kept hshared.registry
  | waits _ _ hshared => exact .kept hshared.registry
  | ends _ hshared => exact .kept hshared.registry
  | malformed _ _ _ hstate => exact .purged (congrArg State.registry hstate)
  | begins t _ _ _ hstate => exact .begun t _ hstate
  | resumes t _ _ hstate => exact .resumed t _ hstate
  | replies _ _ _ hstate => exact .kept (by rw [hstate, State.registry_enqueue])
  | takes _ hdrains => exact .kept hdrains.registry

/-- A step of a session is one on its own connection, and it changes the registry only by removing
the connection and by routing. -/
theorem registrySource_of_step? {event : LinkEvent} (h : l.step? S now σ event = some (l', σ')) :
    l'.id = l.id ∧ RegistrySource S l.id σ σ' := by
  obtain ⟨hid, hcourse⟩ := course_of_step? h
  exact ⟨hid, hcourse.registrySource⟩

end Link

end Relay
