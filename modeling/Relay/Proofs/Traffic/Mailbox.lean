import Mathlib.Data.List.Nodup
import Relay.Proofs.Traffic.Store

/-!
# `Relay.Proofs.Traffic.Mailbox`: numbers and fetches

What has to be known of a run before a message can be followed through the mailbox. Three invariants
lead there:

- `Run.numbered`: the messages that were kept have different numbers, and the mailbox holds some of
  them, in the order in which they were kept. Numbers are words of 64 bits, so this holds as long as
  no more messages were kept than there are words.
- `Run.user?_of_call`: the user of a message under way is still on the connection, if connections
  are removed only when no message is under way on them (`Orderly`).
- `Run.exists_fetching`: a fetch that waits for messages to be removed has read them at an earlier
  step, it has replied with them, and it was under way ever since.
-/

set_option autoImplicit false

namespace Relay

namespace Traffic

variable {S : Service} {first last s s' : Traffic} {h : List (Step S)} {step : Step S}
  {event : Event} {conn : ConnId} {t : Moment} {call : Call}

/-! ### Numbers -/

/-- All messages that were kept, in order. -/
def keptBy (h : List (Step S)) : List StoredMessage := h.flatMap Step.kept

@[simp] theorem keptBy_append (h₁ h₂ : List (Step S)) :
    keptBy (h₁ ++ h₂) = keptBy h₁ ++ keptBy h₂ := List.flatMap_append

@[simp] theorem keptBy_cons (step : Step S) (h : List (Step S)) :
    keptBy (step :: h) = step.kept ++ keptBy h := List.flatMap_cons

/-- A step keeps one message at most. -/
theorem length_keptBy_le (h : List (Step S)) : (keptBy h).length ≤ h.length := by
  induction h with
  | nil => exact Nat.le_refl _
  | cons step h ih =>
    have hone : step.kept.length ≤ 1 := by
      cases step.mailboxEffect with
      | same hkept => simp [hkept]
      | added hkeeps => simp [hkeeps.kept]
      | removed hkept => simp [hkept]
      | cleared hkept => simp [hkept]
    rw [keptBy_cons, List.length_append, List.length_cons]
    omega

/-- Every message that was kept has a number of its own. -/
structure Numbered (h : List (Step S)) (s : Traffic) : Prop where
  /-- Numbers are given in turn. -/
  nextId : s.state.store.mailbox.nextId.toNat = (keptBy h).length % UInt64.size
  /-- The next number is higher than all that were given. -/
  below : ∀ x ∈ keptBy h, x.id.toNat < (keptBy h).length
  distinct : (keptBy h).Pairwise fun x y => x.id ≠ y.id
  /-- The mailbox holds messages that were kept, each once. -/
  messages : s.state.store.mailbox.messages.Sublist (keptBy h)

namespace Numbered

/-- A step that keeps nothing may take messages out. -/
theorem of_sublist (hbefore : Numbered h step.before) (hkept : step.kept = [])
    (hnext : step.after.state.store.mailbox.nextId = step.before.state.store.mailbox.nextId)
    (hsub : step.after.state.store.mailbox.messages.Sublist
      step.before.state.store.mailbox.messages) : Numbered (h ++ [step]) step.after := by
  have hsame : keptBy (h ++ [step]) = keptBy h := by simp [keptBy, hkept]
  constructor
  · rw [hsame, hnext]
    exact hbefore.nextId
  · rw [hsame]
    exact hbefore.below
  · rw [hsame]
    exact hbefore.distinct
  · rw [hsame]
    exact hsub.trans hbefore.messages

/-- A message that is kept gets a number that no other has, unless the numbers are used up. -/
theorem of_keeps (hbefore : Numbered h step.before) {m : Message} (hkeeps : step.Keeps conn m)
    (hmailbox : step.after.state.store.mailbox = (step.before.state.store.mailbox.add
      m.timestamp m.sender m.recipient m.body).2)
    (hfew : (keptBy h).length + 1 ≤ UInt64.size) : Numbered (h ++ [step]) step.after := by
  have hmore : keptBy (h ++ [step]) = keptBy h ++ [step.stored m] := by
    simp [keptBy, hkeeps.kept]
  have hid : (step.stored m).id.toNat = (keptBy h).length :=
    hbefore.nextId.trans (Nat.mod_eq_of_lt hfew)
  constructor
  · rw [hmailbox, hmore, Mailbox.nextId_add, UInt64.toNat_add, hbefore.nextId,
      List.length_append, List.length_singleton]
    exact Nat.mod_add_mod _ _ _
  · intro x hx
    rw [hmore, List.mem_append, List.mem_singleton] at hx
    rw [hmore, List.length_append, List.length_singleton]
    rcases hx with hold | rfl
    · exact Nat.lt_succ_of_lt (hbefore.below x hold)
    · omega
  · rw [hmore, List.pairwise_append]
    refine ⟨hbefore.distinct, List.pairwise_singleton _ _, ?_⟩
    intro x hx y hy heq
    rw [List.mem_singleton.1 hy] at heq
    have hlt := hbefore.below x hx
    rw [heq, hid] at hlt
    exact Nat.lt_irrefl _ hlt
  · rw [hmailbox, hmore, Mailbox.messages_add]
    exact hbefore.messages.append (List.Sublist.refl _)

theorem mem_keptBy (hn : Numbered h s) {x : StoredMessage}
    (hx : x ∈ s.state.store.mailbox.messages) : x ∈ keptBy h := hn.messages.subset hx

/-- A message that was kept is known by its number. -/
theorem eq_of_id (hn : Numbered h s) {x y : StoredMessage} (hx : x ∈ keptBy h)
    (hy : y ∈ keptBy h) (hid : x.id = y.id) : x = y := by
  have hnodup : ((keptBy h).map StoredMessage.id).Nodup := List.pairwise_map.2 hn.distinct
  exact List.inj_on_of_nodup_map hnodup hx hy hid

/-- The mailbox holds no message twice. -/
theorem nodup (hn : Numbered h s) : s.state.store.mailbox.messages.Nodup :=
  (hn.distinct.sublist hn.messages).imp fun hid heq => hid (congrArg StoredMessage.id heq)

end Numbered

theorem Run.numbered (hrun : Run S first h last) (hopening : Opening S first)
    (hfew : (keptBy h).length ≤ UInt64.size) : Numbered h last := by
  -- The bound goes into the invariant, for it is a bound on each of the shorter runs as well.
  revert hfew
  refine hrun.invariant
    (P := fun h s => (keptBy h).length ≤ UInt64.size → Numbered h s) ?_ ?_
  · intro _
    have hmailbox := hopening.store.1
    refine ⟨?_, List.forall_mem_nil _, List.Pairwise.nil, ?_⟩
    · rw [hmailbox]
      rfl
    · rw [hmailbox]
      exact List.nil_sublist _
  · intro h step _ ih hfew
    rw [keptBy_append, List.length_append] at hfew
    have hbefore := ih (by omega)
    cases step.mailboxEffect with
    | same hkept hmailbox =>
      refine hbefore.of_sublist hkept (by rw [hmailbox]) ?_
      rw [hmailbox]
    | added hkeeps hmailbox =>
      refine hbefore.of_keeps hkeeps hmailbox ?_
      rw [keptBy_cons, hkeeps.kept] at hfew
      exact hfew
    | removed hkept _ hmailbox =>
      refine hbefore.of_sublist hkept (by rw [hmailbox, Mailbox.nextId_delete]) ?_
      rw [hmailbox]
      exact List.filter_sublist
    | cleared hkept _ hmailbox =>
      refine hbefore.of_sublist hkept (by rw [hmailbox, Mailbox.nextId_clear]) ?_
      rw [hmailbox]
      exact List.nil_sublist _

/-! ### Who is on a connection while a message is under way -/

/-- Connections are removed only when no message is under way on them. -/
def Orderly (h : List (Step S)) : Prop :=
  ∀ step ∈ h, ∀ conn : ConnId, step.event = .disconnect conn →
    step.before.calls.get? conn = none

theorem Orderly.mono {h' : List (Step S)} (horderly : Orderly h) (hsub : h' ⊆ h) : Orderly h' :=
  fun step hstep => horderly step (hsub hstep)

/-- As long as a message is under way on a connection, nobody comes or goes there. -/
theorem Moves.user?_of_call (hmoves : Moves S s event s')
    (horderly : ∀ conn : ConnId, event = .disconnect conn → s.calls.get? conn = none)
    (hcall : s'.calls.get? conn = some call) :
    s'.state.registry.user? conn = s.state.registry.user? conn := by
  -- A step of routing on the connection itself goes on to wait.
  have settled (other : ConnId) (m : Message) (user : Option User) (replies : List Message)
      (turn : Turn) {preamble : Prop}
      (heffect : Service.RegistryEffect s.state other preamble turn)
      (hcall : (s.settle other m user replies turn).calls.get? conn = some call) :
      turn.state.registry.user? conn = s.state.registry.user? conn := by
    rw [get?_calls_settle] at hcall
    split at hcall
    · split at hcall
      · cases hcall
      · rename_i hnext
        exact heffect.user?_of_waiting hnext
    · rename_i hconn
      exact heffect.user?_of_ne hconn
  cases hmoves with
  | connect hopen =>
    obtain ⟨_, _, -, hadd, rfl⟩ := State.connect_eq_ok hopen
    exact Registry.user?_add hadd conn
  | disconnect other =>
    have hidle := horderly other rfl
    -- The connection that is removed is another one, since a message is under way on this one.
    rw [State.registry_purge, Registry.user?_delete, if_neg]
    intro hconn
    rw [← hconn, hcall] at hidle
    cases hidle
  | @receive other t m =>
    exact settled _ _ _ _ _ (S.beginning_begin s.state t other m).registryEffect hcall
  | @resume other t earlier =>
    exact settled _ _ _ _ _
      (S.resumption_resume s.state t other earlier.pending).registryEffect hcall
  | abort other =>
    rw [Table.get?_erase] at hcall
    split at hcall
    · cases hcall
    · rename_i hconn
      rw [State.registry_purge, Registry.user?_delete, if_neg hconn]
  | collect => rfl
  | close => rfl
  | draw => rfl
  | stop => rfl

/-- The user of a message under way is still on the connection. -/
theorem Run.user?_of_call (hrun : Run S first h last) (hopening : Opening S first)
    (horderly : Orderly h) (hcall : last.calls.get? conn = some call) :
    last.state.registry.user? conn = call.user := by
  revert horderly conn call
  refine hrun.invariant
    (P := fun h s => ∀ {conn : ConnId} {call : Call}, Orderly h → s.calls.get? conn = some call →
      s.state.registry.user? conn = call.user) ?_ ?_
  · intro conn call _ hcall
    rw [hopening.calls] at hcall
    cases hcall
  · intro h step _ ih conn call horderly hcall
    have hearlier : Orderly h := horderly.mono (List.subset_append_left _ _)
    -- The registry has not changed for the connection, so it is enough to look at the step before.
    rw [step.moves.user?_of_call
      (horderly step (List.mem_append_right _ List.mem_cons_self)) hcall]
    rcases step.moves.call_cases hcall with
      hold | ⟨t, m, p, -, -, -, rfl⟩ | ⟨t, earlier, p, -, hwaits, -, rfl⟩
    · exact ih hearlier hold
    · rfl
    · show _ = earlier.user
      exact ih hearlier hwaits

/-! ### Fetches -/

/-- A fetch of a viewer finds messages. -/
def Step.Reads (step : Step S) (conn : ConnId) (viewer : User) (request : FetchRequest)
    (found : List StoredMessage) : Prop :=
  ∃ (t : Moment) (call : Call), step.Resumes conn t call ∧
    call.pending = .selection viewer request ∧ t.outage .messages = none ∧
    found = step.before.state.store.mailbox.select (request.query viewer.id)

/-- A fetch that finds messages replies with them, and waits for those that the viewer received to be
removed. -/
theorem Step.Reads.exists_call {viewer : User} {request : FetchRequest}
    {found : List StoredMessage} (hreads : step.Reads conn viewer request found)
    (hsome : found ≠ []) (hrun : Run S first h step.before) (hopening : Opening S first) :
    ∃ call : Call, step.after.calls.get? conn = some call ∧ call.message.flag = .fetchMessages ∧
      call.user = some viewer ∧ call.replies = S.fetchedMessages viewer.id found ∧
      call.pending = .consumption (Service.consumed viewer.id found) := by
  obtain ⟨t, earlier, hresumes, hselection, hstore, rfl⟩ := hreads
  have hgenuine := hrun.genuine hopening hresumes.call
  have hserves := hgenuine.serves_of_pending hselection
  have hnothing : earlier.replies = [] := hgenuine.no_replies (by rw [hselection]; exact nofun)
  have hafter := step.after_of_resume hresumes.event hresumes.call
  rw [hselection, S.resume_selection hstore hsome, hnothing] at hafter
  obtain ⟨huser, hflag, -⟩ := hserves.of_selection
  rw [hafter, get?_calls_settle, if_pos rfl]
  exact ⟨_, rfl, hflag, huser, rfl, rfl⟩

/-- A fetch of a viewer has replied with what it found in one of the steps, and has been under way
ever since. -/
def Fetching (h : List (Step S)) (conn : ConnId) (call : Call) (viewer : User)
    (found : List StoredMessage) : Prop :=
  ∃ (h₁ h₂ : List (Step S)) (read : Step S) (request : FetchRequest),
    h = h₁ ++ read :: h₂ ∧ read.Reads conn viewer request found ∧
      ∀ step ∈ h₂, step.before.calls.get? conn = some call

/-- A fetch that waits for messages to be removed has replied with what it found. What is to be
removed is what the viewer received. -/
theorem Run.exists_fetching (hrun : Run S first h last) (hopening : Opening S first)
    (hcall : last.calls.get? conn = some call) {ids : List UInt64}
    (hpending : call.pending = .consumption ids) :
    ∃ (viewer : User) (found : List StoredMessage), Fetching h conn call viewer found ∧
      call.user = some viewer ∧ call.replies = S.fetchedMessages viewer.id found ∧
      ids = Service.consumed viewer.id found := by
  revert conn call
  refine hrun.invariant
    (P := fun h s => ∀ {conn : ConnId} {call : Call}, s.calls.get? conn = some call →
      call.pending = .consumption ids →
      ∃ (viewer : User) (found : List StoredMessage), Fetching h conn call viewer found ∧
        call.user = some viewer ∧ call.replies = S.fetchedMessages viewer.id found ∧
        ids = Service.consumed viewer.id found) ?_ ?_
  · intro conn call hcall
    rw [hopening.calls] at hcall
    cases hcall
  · intro h step hrun ih conn call hcall hpending
    rcases step.moves.call_cases hcall with
      hold | ⟨t, m, p, -, -, hnext, rfl⟩ | ⟨t, earlier, p, hevent, hearlier, hnext, rfl⟩
    · -- The fetch was waiting already. One more step has gone by.
      obtain ⟨viewer, found, ⟨h₁, h₂, read, request, rfl, hreads, hsince⟩, hfound⟩ :=
        ih hold hpending
      refine ⟨viewer, found, ⟨h₁, h₂ ++ [step], read, request, ?_, hreads, ?_⟩, hfound⟩
      · rw [List.append_assoc, List.cons_append]
      · intro x hx
        rcases List.mem_append.1 hx with hx | hx
        · exact hsince x hx
        · rw [List.mem_singleton.1 hx]
          exact hold
    · -- No message waits for this as soon as it comes in.
      obtain ⟨-, hfirst, -⟩ := (S.beginning_begin step.before.state t conn m).serves hnext
      rw [show p = .consumption ids from hpending] at hfirst
      cases hfirst
    · -- The fetch has read in this very step. It had not replied before.
      rw [show p = .consumption ids from hpending] at hnext
      obtain ⟨viewer, request, hselection, hstore, hreplies, hids⟩ :=
        (S.resumption_resume step.before.state t conn earlier.pending).of_next_consumption hnext
      have hgenuine := hrun.genuine hopening hearlier
      have hserves := hgenuine.serves_of_pending hselection
      refine ⟨viewer, _, ⟨h, [], step, request, rfl,
        ⟨t, earlier, ⟨hevent, hearlier⟩, hselection, hstore, rfl⟩, List.forall_mem_nil _⟩,
        hserves.of_selection.1, ?_, hids⟩
      rw [hgenuine.no_replies (by rw [hselection]; exact nofun), hreplies, List.nil_append]

end Traffic

end Relay
