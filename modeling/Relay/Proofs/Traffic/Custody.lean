import Mathlib.Data.List.Forall2
import Relay.Proofs.Traffic.Mailbox

/-!
# `Relay.Proofs.Traffic.Custody`: a message in the mailbox is neither lost nor delivered twice

A message that was kept stays in the mailbox until its recipient fetches it or the administrator
shuts the relay down, whatever else happens on other connections in between. `Custody` says what is
promised of such a message, and `custody_of_keeps` proves it for every run.

A fetch reads, replies and removes in separate steps. Two facts tie them together. The numbers of
messages are their own, so a fetch removes only what it has read (`Fetching.count_eq_one`), and each
message that it has read is one of its replies (`Service.HandsBack`). And a user is on one connection
at a time, so no second fetch of the same user comes in between (`Step.not_returns_of_call`). Once a
message has gone, nothing is kept under its number again, so no later fetch finds it
(`Step.not_returns_of_gone`). A fetch of the recipient that has found the message takes it out when it
ends, unless the store fails (`Step.Delivers.gone`).
-/

set_option autoImplicit false

namespace Relay

/-! ### What a fetch replies -/

namespace Service

/-- A reply hands over a message that was kept. -/
structure HandsBack (S : Service) (user : User) (x : StoredMessage) (reply : Message) : Prop where
  flag : reply.flag = .fetchMessages
  timestamp : reply.timestamp = x.timestamp
  sender : reply.sender = x.author
  recipient : reply.recipient = user.id
  token : reply.token = S.relayToken
  body : reply.body = x.body

/-- There is one reply for each message that was found, in their order. -/
theorem forall₂_fetchedMessages (S : Service) (user : User) (found : List StoredMessage) :
    List.Forall₂ (S.HandsBack user) found (S.fetchedMessages user.id found) := by
  rw [List.forall₂_iff_get]
  refine ⟨List.length_mapIdx.symm, fun i hfound hreply => ?_⟩
  simp only [fetchedMessages, List.get_eq_getElem, List.getElem_mapIdx]
  exact ⟨rfl, rfl, rfl, rfl, rfl, rfl⟩

end Service

namespace Traffic

variable {S : Service} {first last s s' : Traffic} {h h₁ h₂ : List (Step S)} {step : Step S}
  {conn : ConnId} {t : Moment} {call : Call} {x : StoredMessage}

/-! ### What a fetch finds -/

namespace Step

/-- A fetch of the recipient of a message finds it. -/
def Returns (step : Step S) (x : StoredMessage) : Prop :=
  ∃ (conn : ConnId) (viewer : User) (request : FetchRequest) (found : List StoredMessage),
    step.Reads conn viewer request found ∧ viewer.id = x.recipient ∧ x ∈ found

/-- A fetch of the recipient of a message asks for it: for everything that the recipient received,
or for what its author wrote, later than a watermark that the message is later than. -/
def Selects (step : Step S) (x : StoredMessage) : Prop :=
  ∃ (conn : ConnId) (viewer : User) (request : FetchRequest) (found : List StoredMessage),
    step.Reads conn viewer request found ∧ viewer.id = x.recipient ∧ x ∈ found ∧
      (request.mode = FetchRequest.toMe ∨
        (request.mode = FetchRequest.fromUser ∧ request.target = x.author)) ∧
      request.after < x.timestamp

/-- A step ends a fetch of the recipient of a message, and just one of the replies was the
message. -/
structure Delivers (step : Step S) (conn : ConnId) (t : Moment) (call : Call) (viewer : User)
    (found : List StoredMessage) (x : StoredMessage) : Prop where
  resumes : step.Resumes conn t call
  flag : call.message.flag = .fetchMessages
  user : call.user = some viewer
  recipient : viewer.id = x.recipient
  /-- What was found has been handed over, with one reply for each message in its place, -/
  replies : List.Forall₂ (S.HandsBack viewer) found call.replies
  /-- and one of the places is that of the message. -/
  once : found.count x = 1
  /-- What the viewer received of it is now to be removed. -/
  pending : call.pending = .consumption (Service.consumed viewer.id found)
  /-- The step adds no reply. -/
  nothing : step.replies = []

/-- A fetch that has replied with what it found, and waits for it to be removed, ends by delivering
each message of the viewer. -/
theorem Delivers.of_call {viewer : User} {found : List StoredMessage}
    (hresumes : step.Resumes conn t call) (hflag : call.message.flag = .fetchMessages)
    (huser : call.user = some viewer) (hreplies : call.replies = S.fetchedMessages viewer.id found)
    (hpending : call.pending = .consumption (Service.consumed viewer.id found))
    (hrecipient : viewer.id = x.recipient) (honce : found.count x = 1) :
    step.Delivers conn t call viewer found x := by
  have hturn := S.resumption_resume step.before.state t conn call.pending
  rw [hpending] at hturn
  exact {
    resumes := hresumes
    flag := hflag
    user := huser
    recipient := hrecipient
    replies := hreplies ▸ S.forall₂_fetchedMessages viewer found
    once := honce
    pending := hpending
    nothing := by rw [hresumes.replies, hpending, hturn.next_of_consumption.1] }

theorem Delivers.mem_found {viewer : User} {found : List StoredMessage}
    (hdelivers : step.Delivers conn t call viewer found x) : x ∈ found := by
  apply List.count_pos_iff.1
  rw [hdelivers.once]
  exact Nat.one_pos

/-- Unless the store fails, the message is taken out. -/
theorem Delivers.gone {viewer : User} {found : List StoredMessage}
    (hdelivers : step.Delivers conn t call viewer found x)
    (hstore : t.outage .deleteMessages = none) :
    x ∉ step.after.state.store.mailbox.messages := by
  have hturn := S.resumption_resume step.before.state t conn call.pending
  rw [step.after_of_resume hdelivers.resumes.event hdelivers.resumes.call]
  show x ∉ (S.resume step.before.state t conn call.pending).state.store.mailbox.messages
  generalize S.resume step.before.state t conn call.pending = turn at hturn
  rw [hdelivers.pending] at hturn
  have hconsumed : x.id ∈ Service.consumed viewer.id found := by
    refine List.mem_map_of_mem (List.mem_filter.2 ⟨hdelivers.mem_found, ?_⟩)
    exact decide_eq_true hdelivers.recipient.symm
  cases hturn with
  | refuse _ hrefusable => cases hrefusable
  | consume => exact fun hx => ((Mailbox.mem_messages_delete _ _ _).1 hx).2 hconsumed
  | notConsume hfails => exact absurd hstore hfails

theorem Reads.mem_messages {viewer : User} {request : FetchRequest} {found : List StoredMessage}
    (hreads : step.Reads conn viewer request found) (hx : x ∈ found) :
    x ∈ step.before.state.store.mailbox.messages := by
  obtain ⟨t, call, -, -, -, rfl⟩ := hreads
  exact ((Mailbox.mem_select _ _ _).1 hx).1

theorem Selects.returns (hselects : step.Selects x) : step.Returns x := by
  obtain ⟨conn, viewer, request, found, hreads, hviewer, hx, -⟩ := hselects
  exact ⟨conn, viewer, request, found, hreads, hviewer, hx⟩

/-- What a fetch finds is what it asks for. -/
theorem Returns.selects (hreturns : step.Returns x) (hrun : Run S first h step.before)
    (hopening : Opening S first) : step.Selects x := by
  obtain ⟨conn, viewer, request, found, hreads, hviewer, hx⟩ := hreturns
  obtain ⟨t, call, hresumes, hpending, -, hfound⟩ := id hreads
  have hserves := (hrun.genuine hopening hresumes.call).serves_of_pending hpending
  have hmode := FetchRequest.mode_of_parse? hserves.of_selection.2.2
  have hwanted := hx
  rw [hfound, Mailbox.mem_select] at hwanted
  replace hwanted := hwanted.2
  refine ⟨conn, viewer, request, found, hreads, hviewer, hx, ?_⟩
  -- A request is of one of two modes. Each looks for messages with a query of its own.
  unfold FetchRequest.query at hwanted
  split at hwanted
  · rename_i htoMe
    simp only [MailboxQuery.selects, Bool.and_eq_true, decide_eq_true_eq] at hwanted
    exact ⟨.inl htoMe, hwanted.2⟩
  · rename_i htoMe
    simp only [MailboxQuery.selects, Bool.and_eq_true, decide_eq_true_eq] at hwanted
    exact ⟨.inr ⟨hmode.resolve_left htoMe, hwanted.1.1.symm⟩, hwanted.2⟩

end Step

/-! ### What takes a message out -/

/-- A message whose number a fetch is about to remove is one that the fetch found. It was found
once, and the viewer received it. -/
theorem Fetching.count_eq_one {viewer : User} {found : List StoredMessage}
    (hfetching : Fetching h conn call viewer found) (hrun : Run S first h last)
    (hopening : Opening S first) (hfew : (keptBy h).length ≤ UInt64.size)
    (hx : x ∈ last.state.store.mailbox.messages)
    (hid : x.id ∈ Service.consumed viewer.id found) :
    found.count x = 1 ∧ viewer.id = x.recipient := by
  have hnow := hrun.numbered hopening hfew
  obtain ⟨h₁, h₂, read, request, rfl, hreads, -⟩ := hfetching
  rw [keptBy_append, List.length_append] at hfew
  have hthen := (run_append_cons_iff.1 hrun).1.numbered hopening (by omega)
  simp only [Service.consumed, List.mem_map, List.mem_filter, decide_eq_true_eq] at hid
  obtain ⟨y, ⟨hy, hrecipient⟩, hid⟩ := hid
  -- The message that was found under the number is the one that has it now.
  have hykept : y ∈ keptBy (h₁ ++ read :: h₂) := by
    rw [keptBy_append]
    exact List.mem_append_left _ (hthen.mem_keptBy (hreads.mem_messages hy))
  obtain rfl := hnow.eq_of_id hykept (hnow.mem_keptBy hx) hid
  have hnodup : found.Nodup := by
    obtain ⟨_, _, -, -, -, rfl⟩ := hreads
    exact Mailbox.nodup_select hthen.nodup _
  exact ⟨List.count_eq_one_of_mem hnodup hy, hrecipient.symm⟩

/-- A message leaves the mailbox when all messages are removed, or at the end of a fetch of its
recipient that replied with it once. -/
theorem Step.removes (hrun : Run S first h step.before) (hopening : Opening S first)
    (hfew : (keptBy h).length ≤ UInt64.size)
    (hx : x ∈ step.before.state.store.mailbox.messages)
    (hgone : x ∉ step.after.state.store.mailbox.messages) :
    step.Clears ∨
      ∃ (conn : ConnId) (t : Moment) (call : Call) (viewer : User) (found : List StoredMessage),
        step.Delivers conn t call viewer found x ∧ Fetching h conn call viewer found := by
  cases step.mailboxEffect with
  | same _ hmailbox =>
    rw [hmailbox] at hgone
    exact absurd hx hgone
  | added _ hmailbox =>
    rw [hmailbox, Mailbox.messages_add, List.mem_append] at hgone
    exact absurd (.inl hx) hgone
  | cleared _ hclears => exact .inl hclears
  | @removed conn _ _ hconsumes hmailbox =>
    right
    obtain ⟨t, call, hresumes, hpending, -⟩ := hconsumes
    have hserves := (hrun.genuine hopening hresumes.call).serves_of_pending hpending
    obtain ⟨viewer, found, hfetching, huser, hreplies, rfl⟩ :=
      hrun.exists_fetching hopening hresumes.call hpending
    rw [hmailbox, Mailbox.mem_messages_delete] at hgone
    have hid : x.id ∈ Service.consumed viewer.id found := by
      by_contra hid
      exact hgone ⟨hx, hid⟩
    obtain ⟨honce, hrecipient⟩ := hfetching.count_eq_one hrun hopening hfew hx hid
    refine ⟨conn, t, call, viewer, found, ?_, hfetching⟩
    exact .of_call hresumes hserves.of_consumption huser hreplies hpending hrecipient honce

/-- What is in the mailbox was in it before, or was kept since. -/
theorem Run.mem_messages (hrun : Run S s h last)
    (hx : x ∈ last.state.store.mailbox.messages) :
    x ∈ s.state.store.mailbox.messages ∨ x ∈ keptBy h := by
  revert x
  refine hrun.invariant
    (P := fun h s' => ∀ {x : StoredMessage}, x ∈ s'.state.store.mailbox.messages →
      x ∈ s.state.store.mailbox.messages ∨ x ∈ keptBy h) ?_ ?_
  · intro x hx
    exact .inl hx
  · intro h step _ ih x hx
    rw [keptBy_append, List.mem_append]
    have later (hx : x ∈ step.before.state.store.mailbox.messages) :
        x ∈ s.state.store.mailbox.messages ∨ x ∈ keptBy h ∨ x ∈ keptBy [step] :=
      (ih hx).imp id .inl
    cases step.mailboxEffect with
    | same _ hmailbox =>
      rw [hmailbox] at hx
      exact later hx
    | added hkeeps =>
      rw [hkeeps.mailbox, List.mem_append] at hx
      rcases hx with hold | hnew
      · exact later hold
      · rw [keptBy_cons, hkeeps.kept]
        exact .inr (.inr (List.mem_append_left _ hnew))
    | removed _ _ hmailbox =>
      rw [hmailbox, Mailbox.mem_messages_delete] at hx
      exact later hx.1
    | cleared _ _ hmailbox =>
      rw [hmailbox] at hx
      cases hx

/-- What is no longer in the mailbox is found by no later fetch, unless it is kept anew. -/
theorem Step.not_returns_of_gone (hrun : Run S s h step.before)
    (hgone : x ∉ s.state.store.mailbox.messages) (hkept : x ∉ keptBy h) : ¬ step.Returns x := by
  rintro ⟨conn, viewer, request, found, hreads, -, hmem⟩
  rcases hrun.mem_messages (hreads.mem_messages hmem) with hthere | hanew
  · exact hgone hthere
  · exact hkept hanew

/-! ### One fetch at a time -/

/-- While a fetch of the recipient of a message is about to remove what it has read, no other fetch
of the recipient finds the message. -/
theorem Step.not_returns_of_call (hrun : Run S first h step.before) (hopening : Opening S first)
    (horderly : Orderly h) (hcall : step.before.calls.get? conn = some call) {ids : List UInt64}
    (hpending : call.pending = .consumption ids) {viewer : User} (huser : call.user = some viewer)
    (hviewer : viewer.id = x.recipient) : ¬ step.Returns x := by
  rintro ⟨other, reader, request, found, ⟨t, call', hresumes, hselection, -, -⟩, hreader, -⟩
  have hserves := (hrun.genuine hopening hresumes.call).serves_of_pending hselection
  -- Both users are the recipient, who is on one connection.
  have hhere := hrun.user?_of_call hopening horderly hcall
  have hthere := hrun.user?_of_call hopening horderly hresumes.call
  rw [huser] at hhere
  rw [hserves.of_selection.1] at hthere
  obtain rfl := (hrun.sound hopening.sound).conn_unique hhere hthere
    (hviewer.trans hreader.symm)
  have hsame := hresumes.call
  rw [hcall] at hsame
  cases hsame
  rw [hpending] at hselection
  cases hselection

/-! ### A message that is kept -/

/-- What was kept before and after a message that is kept has other numbers. -/
theorem keptBy_ids {keep : Step S} {m : Message} (hkeeps : keep.Keeps conn m)
    (hrun : Run S first (h₁ ++ keep :: h₂) last) (hopening : Opening S first)
    (hfew : (keptBy (h₁ ++ keep :: h₂)).length ≤ UInt64.size) :
    (∀ y ∈ keptBy h₁, y.id ≠ (keep.stored m).id) ∧
      ∀ y ∈ keptBy h₂, (keep.stored m).id ≠ y.id := by
  have hdistinct := (hrun.numbered hopening hfew).distinct
  rw [keptBy_append, keptBy_cons, hkeeps.kept, List.singleton_append, List.pairwise_append,
    List.pairwise_cons] at hdistinct
  -- The numbers before, the number of the message, and the numbers after are all different.
  obtain ⟨-, ⟨hafter, -⟩, hbefore⟩ := hdistinct
  exact ⟨fun y hy => hbefore y hy _ List.mem_cons_self, hafter⟩

/-- A fetch that found a message came after the step in which the message was kept. -/
theorem split_of_found {keep read : Step S} {a b : List (Step S)}
    (hsplit : h₁ ++ keep :: h₂ = a ++ read :: b) (hkept : x ∈ keptBy a)
    (hearlier : x ∉ keptBy h₁) :
    ∃ c : List (Step S), a = h₁ ++ keep :: c ∧ h₂ = c ++ read :: b := by
  rcases List.append_eq_append_iff.1 hsplit with ⟨c, rfl, hc⟩ | ⟨c, rfl, -⟩
  · cases c with
    | nil =>
      rw [List.append_nil] at hkept
      exact absurd hkept hearlier
    | cons z c =>
      rw [List.cons_append, List.cons.injEq] at hc
      obtain ⟨rfl, rfl⟩ := hc
      exact ⟨c, rfl, rfl⟩
  · rw [keptBy_append] at hearlier
    exact absurd (List.mem_append_left _ hkept) hearlier

/-- What is promised of a message that is kept in a step, in whatever steps follow. -/
structure Custody (keep : Step S) (h : List (Step S)) (last : Traffic) (x : StoredMessage) :
    Prop where
  /-- It is for another user than its author. -/
  foreign : x.author ≠ x.recipient
  /-- It is in the mailbox. -/
  stored : x ∈ keep.after.state.store.mailbox.messages
  /-- It stays there as it is until its recipient asks for it or all messages are removed. -/
  retained : x ∈ last.state.store.mailbox.messages ∨ (∃ read ∈ h, read.Selects x) ∨
    ∃ step ∈ h, step.Clears
  /-- All messages are removed only when the administrator shuts the relay down. -/
  cleared : ∀ step ∈ h, step.Clears →
    ∃ (conn : ConnId) (t : Moment) (call : Call) (admin : User), step.Resumes conn t call ∧
      call.message.flag = .shutdown ∧ call.user = some admin ∧ admin.id = UserId.admin
  /-- If a step takes it out without taking all messages out, the step ends a fetch of its
  recipient. That fetch has replied with it once. No other fetch of the recipient finds it from then
  on, nor did any since that fetch has read it. -/
  delivered : ∀ (a b : List (Step S)) (step : Step S), h = a ++ step :: b →
    x ∈ step.before.state.store.mailbox.messages →
    x ∉ step.after.state.store.mailbox.messages → ¬ step.Clears →
    ∃ (conn : ConnId) (t : Moment) (call : Call) (viewer : User) (found : List StoredMessage)
      (a₁ a₂ : List (Step S)) (read : Step S) (request : FetchRequest),
      step.Delivers conn t call viewer found x ∧ a = a₁ ++ read :: a₂ ∧
        read.Reads conn viewer request found ∧ ∀ other ∈ a₂ ++ step :: b, ¬ other.Returns x
  /-- As long as it is there, a fetch of its recipient that asks for it finds it. -/
  found : ∀ (a b : List (Step S)) (read : Step S) (conn : ConnId) (viewer : User)
    (request : FetchRequest) (found : List StoredMessage), h = a ++ read :: b →
    read.Reads conn viewer request found → x ∈ read.before.state.store.mailbox.messages →
    viewer.id = x.recipient →
    (request.mode = FetchRequest.toMe ∨
      (request.mode = FetchRequest.fromUser ∧ request.target = x.author)) →
    request.after < x.timestamp → x ∈ found
  /-- When a fetch of its recipient that has found it comes to its end, just one of the replies was
  the message, and it is taken out, unless the store fails. -/
  taken : ∀ (a b c : List (Step S)) (read step : Step S) (conn : ConnId) (t : Moment) (call : Call)
    (viewer : User) (request : FetchRequest) (found : List StoredMessage),
    h = a ++ read :: (b ++ step :: c) → read.Reads conn viewer request found → x ∈ found →
    viewer.id = x.recipient → (∀ other ∈ b, other.before.calls.get? conn = some call) →
    step.Resumes conn t call →
    step.Delivers conn t call viewer found x ∧
      (t.outage .deleteMessages = none → x ∉ step.after.state.store.mailbox.messages)
  /-- A fetch of anybody else does not take it out. -/
  listed : ∀ (a b : List (Step S)) (step : Step S) (conn : ConnId) (t : Moment) (call : Call)
    (viewer : User), h = a ++ step :: b → step.Resumes conn t call →
    call.message.flag = .fetchMessages → call.user = some viewer → viewer.id ≠ x.recipient →
    x ∈ step.before.state.store.mailbox.messages → x ∈ step.after.state.store.mailbox.messages
  /-- A fetch that had read before the message was kept does not take it out when it comes to its
  end. If it is a fetch of the recipient, the message is there then, unless all were removed. -/
  between : ∀ (a b : List (Step S)) (step : Step S) (conn : ConnId) (t : Moment) (call : Call)
    (ids : List UInt64), keep.before.calls.get? conn = some call →
    call.pending = .consumption ids → h = a ++ step :: b →
    (∀ other ∈ a, other.before.calls.get? conn = some call) → step.Resumes conn t call →
    (x ∈ step.before.state.store.mailbox.messages →
      x ∈ step.after.state.store.mailbox.messages) ∧
    ∀ viewer : User, call.user = some viewer → viewer.id = x.recipient →
      x ∈ step.after.state.store.mailbox.messages ∨ ∃ other ∈ a, other.Clears

section

variable {keep : Step S} {m : Message}

theorem Step.Keeps.foreign (hkeeps : keep.Keeps conn m) (hrun : Run S first h keep.before)
    (hopening : Opening S first) : m.sender ≠ m.recipient := by
  obtain ⟨t, call, hresumes, hpending, -⟩ := hkeeps
  obtain ⟨rfl, -, hother, -⟩ :=
    ((hrun.genuine hopening hresumes.call).serves_of_pending hpending).of_keeping
  exact hother.symm

/-- What comes before a step that follows. -/
theorem before_of_later {a b : List (Step S)}
    (hrun : Run S first (h₁ ++ keep :: (a ++ step :: b)) last) :
    Run S first (h₁ ++ keep :: a) step.before := by
  rw [← List.cons_append, ← List.append_assoc] at hrun
  exact (run_append_cons_iff.1 hrun).1

theorem orderly_of_later {a b : List (Step S)} (horderly : Orderly (h₁ ++ keep :: (a ++ b))) :
    Orderly (h₁ ++ keep :: a) := by
  refine horderly.mono ?_
  rw [← List.cons_append, ← List.append_assoc]
  exact List.subset_append_left _ _

theorem few_of_later {a b : List (Step S)}
    (hfew : (keptBy (h₁ ++ keep :: (a ++ b))).length ≤ UInt64.size) :
    (keptBy (h₁ ++ keep :: a)).length ≤ UInt64.size := by
  rw [← List.cons_append, ← List.append_assoc, keptBy_append, List.length_append] at hfew
  omega

/-- A step that takes a message out after it was kept, and not all messages, ends a fetch that has
read the message since. -/
theorem exists_read_of_removes (hkeeps : keep.Keeps conn m) (hopening : Opening S first)
    (hrun : Run S first (h₁ ++ keep :: h) step.before)
    (hfew : (keptBy (h₁ ++ keep :: h)).length ≤ UInt64.size)
    (hx : keep.stored m ∈ step.before.state.store.mailbox.messages)
    (hgone : keep.stored m ∉ step.after.state.store.mailbox.messages)
    (hclears : ¬ step.Clears) :
    ∃ (conn : ConnId) (t : Moment) (call : Call) (viewer : User) (found : List StoredMessage),
      step.Delivers conn t call viewer found (keep.stored m) ∧
        Fetching h conn call viewer found := by
  obtain ⟨conn', t, call, viewer, found, hdelivers, a, b, read, request, hsplit, hreads, hsince⟩ :=
    (Step.removes hrun hopening hfew hx hgone).resolve_left hclears
  have hread : keep.stored m ∈ keptBy a := by
    rw [hsplit] at hrun hfew
    rw [keptBy_append, List.length_append] at hfew
    have hnumbered := (run_append_cons_iff.1 hrun).1.numbered hopening (by omega)
    exact hnumbered.mem_keptBy (hreads.mem_messages hdelivers.mem_found)
  have hearlier : keep.stored m ∉ keptBy h₁ := by
    intro hmem
    exact (keptBy_ids hkeeps hrun hopening hfew).1 _ hmem rfl
  obtain ⟨c, rfl, rfl⟩ := split_of_found hsplit hread hearlier
  exact ⟨conn', t, call, viewer, found, hdelivers, c, b, read, request, rfl, hreads, hsince⟩

/-- A message that was kept stays until its recipient asks for it or all messages are removed. -/
theorem retained_of_keeps (hkeeps : keep.Keeps conn m) (hopening : Opening S first)
    (hrun : Run S first (h₁ ++ keep :: h₂) last)
    (hfew : (keptBy (h₁ ++ keep :: h₂)).length ≤ UInt64.size) :
    keep.stored m ∈ last.state.store.mailbox.messages ∨
      (∃ read ∈ h₂, read.Selects (keep.stored m)) ∨ ∃ step ∈ h₂, step.Clears := by
  -- Induction on the steps after the message was kept.
  obtain ⟨hbefore, hafter⟩ := run_append_cons_iff.1 hrun
  revert hfew
  clear hrun
  refine hafter.invariant
    (P := fun h s => (keptBy (h₁ ++ keep :: h)).length ≤ UInt64.size →
      keep.stored m ∈ s.state.store.mailbox.messages ∨
        (∃ read ∈ h, read.Selects (keep.stored m)) ∨ ∃ step ∈ h, step.Clears) ?_ ?_
  · intro _
    rw [hkeeps.mailbox]
    exact .inl (List.mem_append_right _ List.mem_cons_self)
  · intro h step hrun ih hfew
    have hfew := few_of_later hfew
    have hrun : Run S first (h₁ ++ keep :: h) step.before :=
      run_append_cons_iff.2 ⟨hbefore, hrun⟩
    rcases ih hfew with hx | ⟨read, hread, hselects⟩ | ⟨clear, hclear, hclears⟩
    · by_cases hgone : keep.stored m ∈ step.after.state.store.mailbox.messages
      · exact .inl hgone
      · by_cases hclears : step.Clears
        · exact .inr (.inr ⟨step, List.mem_append_right _ List.mem_cons_self, hclears⟩)
        · obtain ⟨_, _, _, viewer, found, hdelivers, a, b, read, request, rfl, hreads, -⟩ :=
            exists_read_of_removes hkeeps hopening hrun hfew hx hgone hclears
          -- The fetch that takes the message out had asked for it.
          have hreturns : read.Returns (keep.stored m) :=
            ⟨_, viewer, request, found, hreads, hdelivers.recipient, hdelivers.mem_found⟩
          have hselects := hreturns.selects (before_of_later hrun) hopening
          exact .inr (.inl ⟨read, by simp, hselects⟩)
    · exact .inr (.inl ⟨read, List.mem_append_left _ hread, hselects⟩)
    · exact .inr (.inr ⟨clear, List.mem_append_left _ hclear, hclears⟩)

/-- A message that is taken out, but not with all messages, has been delivered, and is not delivered
again. -/
theorem delivered_of_keeps (hkeeps : keep.Keeps conn m) (hopening : Opening S first)
    {a b : List (Step S)} (hrun : Run S first (h₁ ++ keep :: (a ++ step :: b)) last)
    (horderly : Orderly (h₁ ++ keep :: (a ++ step :: b)))
    (hfew : (keptBy (h₁ ++ keep :: (a ++ step :: b))).length ≤ UInt64.size)
    (hx : keep.stored m ∈ step.before.state.store.mailbox.messages)
    (hgone : keep.stored m ∉ step.after.state.store.mailbox.messages)
    (hclears : ¬ step.Clears) :
    ∃ (conn : ConnId) (t : Moment) (call : Call) (viewer : User) (found : List StoredMessage)
      (a₁ a₂ : List (Step S)) (read : Step S) (request : FetchRequest),
      step.Delivers conn t call viewer found (keep.stored m) ∧ a = a₁ ++ read :: a₂ ∧
        read.Reads conn viewer request found ∧
        ∀ other ∈ a₂ ++ step :: b, ¬ other.Returns (keep.stored m) := by
  have hbefore := before_of_later hrun
  have hearlier := orderly_of_later horderly
  obtain ⟨conn', t, call, viewer, found, hdelivers, a₁, a₂, read, request, rfl, hreads, hsince⟩ :=
    exists_read_of_removes hkeeps hopening hbefore (few_of_later hfew) hx hgone hclears
  have hpending := hdelivers.pending
  refine ⟨conn', t, call, viewer, found, a₁, a₂, read, request, hdelivers, rfl, hreads,
    fun other hother => ?_⟩
  rcases List.mem_append.1 hother with hbetween | hother
  · -- The fetch is under way, so the recipient is on its connection.
    obtain ⟨c, d, rfl⟩ := List.append_of_mem hbetween
    have hsplit : a₁ ++ read :: (c ++ other :: d) = (a₁ ++ read :: c) ++ other :: d := by simp
    rw [hsplit] at hbefore hearlier
    exact Step.not_returns_of_call (before_of_later hbefore) hopening (orderly_of_later hearlier)
      (hsince other hbetween) hpending hdelivers.user hdelivers.recipient
  rcases List.mem_cons.1 hother with rfl | hlater
  · exact Step.not_returns_of_call hbefore hopening hearlier hdelivers.resumes.call hpending
      hdelivers.user hdelivers.recipient
  · -- The message has gone, and no other is kept under its number.
    obtain ⟨c, d, rfl⟩ := List.append_of_mem hlater
    obtain ⟨_, hafter⟩ := run_append_cons_iff.1 hrun
    obtain ⟨_, hhere⟩ := run_append_cons_iff.1 hafter
    refine Step.not_returns_of_gone (run_append_cons_iff.1 hhere).1 hgone fun hanew => ?_
    exact (keptBy_ids hkeeps hrun hopening hfew).2 _ (by simp [hanew]) rfl

/-- What is in the mailbox is found by whoever asks for it. -/
theorem Step.Reads.mem_found {read : Step S} {viewer : User} {request : FetchRequest}
    {found : List StoredMessage} (hreads : read.Reads conn viewer request found)
    (hx : x ∈ read.before.state.store.mailbox.messages) (hviewer : viewer.id = x.recipient)
    (hmode : request.mode = FetchRequest.toMe ∨
      (request.mode = FetchRequest.fromUser ∧ request.target = x.author))
    (hafter : request.after < x.timestamp) : x ∈ found := by
  obtain ⟨t, call, -, -, -, rfl⟩ := hreads
  refine (Mailbox.mem_select _ _ _).2 ⟨hx, ?_⟩
  unfold FetchRequest.query
  rcases hmode with htoMe | ⟨hfromUser, htarget⟩
  · rw [if_pos htoMe]
    simp [MailboxQuery.selects, hviewer, hafter]
  · rw [if_neg (by rw [hfromUser]; decide)]
    simp [MailboxQuery.selects, hviewer, htarget, hafter]

/-- A fetch of the recipient that has found a message which was kept delivers it when it ends. -/
theorem taken_of_keeps (hopening : Opening S first) {a b c : List (Step S)} {read : Step S}
    (hrun : Run S first (h₁ ++ keep :: (a ++ read :: (b ++ step :: c))) last)
    (hfew : (keptBy (h₁ ++ keep :: (a ++ read :: (b ++ step :: c)))).length ≤ UInt64.size)
    {viewer : User} {request : FetchRequest} {found : List StoredMessage}
    (hreads : read.Reads conn viewer request found) (hx : x ∈ found)
    (hviewer : viewer.id = x.recipient)
    (hsince : ∀ other ∈ b, other.before.calls.get? conn = some call)
    (hresumes : step.Resumes conn t call) : step.Delivers conn t call viewer found x := by
  have hbefore := before_of_later hrun
  obtain ⟨call', hcall, hflag, huser, hreplies, hpending⟩ :=
    hreads.exists_call (List.ne_nil_of_mem hx) hbefore hopening
  -- The call of the fetch is the one that has been under way ever since.
  obtain ⟨_, hrest⟩ := run_append_cons_iff.1 hrun
  obtain ⟨_, hthen⟩ := run_append_cons_iff.1 hrest
  obtain rfl : call' = call := by
    refine Option.some.inj (hcall.symm.trans ?_)
    cases b with
    | nil =>
      rw [← run_nil_iff.1 (run_append_cons_iff.1 hthen).1]
      exact hresumes.call
    | cons other b =>
      have hthen : Run S read.after ([] ++ other :: (b ++ step :: c)) last := hthen
      obtain ⟨hnone, -⟩ := run_append_cons_iff.1 hthen
      rw [← run_nil_iff.1 hnone]
      exact hsince other List.mem_cons_self
  have hnodup : found.Nodup := by
    obtain ⟨_, _, -, -, -, rfl⟩ := hreads
    exact Mailbox.nodup_select (hbefore.numbered hopening (few_of_later hfew)).nodup _
  exact .of_call hresumes hflag huser hreplies hpending hviewer
    (List.count_eq_one_of_mem hnodup hx)

/-- A fetch of anybody else leaves a message that was kept. -/
theorem listed_of_keeps (hkeeps : keep.Keeps conn m) (hopening : Opening S first)
    (hrun : Run S first (h₁ ++ keep :: h) step.before)
    (hfew : (keptBy (h₁ ++ keep :: h)).length ≤ UInt64.size)
    {other : ConnId} (hresumes : step.Resumes other t call)
    (hflag : call.message.flag = .fetchMessages) {viewer : User} (huser : call.user = some viewer)
    (hviewer : viewer.id ≠ m.recipient)
    (hx : keep.stored m ∈ step.before.state.store.mailbox.messages) :
    keep.stored m ∈ step.after.state.store.mailbox.messages := by
  by_contra hgone
  -- Only a fetch of the recipient or a shutdown takes a message out, and the step is neither.
  by_cases hclears : step.Clears
  · obtain ⟨_, _, _, _, hresumes', hshutdown, -⟩ := hclears.shutdown hrun hopening
    obtain ⟨-, -, rfl⟩ := hresumes.unique hresumes'
    rw [hflag] at hshutdown
    cases hshutdown
  · obtain ⟨_, _, _, recipient, _, hdelivers, -⟩ :=
      exists_read_of_removes hkeeps hopening hrun hfew hx hgone hclears
    obtain ⟨-, -, rfl⟩ := hresumes.unique hdelivers.resumes
    obtain rfl : viewer = recipient := Option.some.inj (huser.symm.trans hdelivers.user)
    exact hviewer hdelivers.recipient

/-- A fetch that was under way when a message was kept leaves the message. -/
theorem between_of_keeps (hkeeps : keep.Keeps conn m) (hopening : Opening S first)
    (hrun : Run S first (h₁ ++ keep :: h) step.before) (horderly : Orderly (h₁ ++ keep :: h))
    (hfew : (keptBy (h₁ ++ keep :: h)).length ≤ UInt64.size) {other : ConnId} {ids : List UInt64}
    (hpending : call.pending = .consumption ids)
    (hsince : ∀ step' ∈ h, step'.before.calls.get? other = some call)
    (hresumes : step.Resumes other t call) :
    (keep.stored m ∈ step.before.state.store.mailbox.messages →
      keep.stored m ∈ step.after.state.store.mailbox.messages) ∧
    ∀ viewer : User, call.user = some viewer → viewer.id = m.recipient →
      keep.stored m ∈ step.after.state.store.mailbox.messages ∨ ∃ step' ∈ h, step'.Clears := by
  have hleft (hx : keep.stored m ∈ step.before.state.store.mailbox.messages) :
      keep.stored m ∈ step.after.state.store.mailbox.messages := by
    by_contra hgone
    by_cases hclears : step.Clears
    · obtain ⟨_, _, _, hresumes', hclearance, -⟩ := hclears
      obtain ⟨-, -, rfl⟩ := hresumes.unique hresumes'
      rw [hpending] at hclearance
      cases hclearance
    · obtain ⟨_, _, _, _, _, hdelivers, a, b, read, _, rfl, hreads, -⟩ :=
        exists_read_of_removes hkeeps hopening hrun hfew hx hgone hclears
      obtain ⟨rfl, -, rfl⟩ := hresumes.unique hdelivers.resumes
      -- The fetch had read before the message was kept, and it reads once.
      obtain ⟨_, _, hreader, hselection, -⟩ := hreads
      have hsame := hsince read (by simp)
      rw [hreader.call] at hsame
      cases hsame
      rw [hpending] at hselection
      cases hselection
  refine ⟨hleft, fun viewer huser hviewer => ?_⟩
  rcases retained_of_keeps hkeeps hopening hrun hfew with hx | ⟨read, hread, hselects⟩ | hclear
  · exact .inl (hleft hx)
  · obtain ⟨c, d, rfl⟩ := List.append_of_mem hread
    have hnot : ¬ read.Returns (keep.stored m) :=
      Step.not_returns_of_call (before_of_later hrun) hopening (orderly_of_later horderly)
        (hsince read hread) hpending huser hviewer
    exact absurd hselects.returns hnot
  · exact .inr hclear

/-- As long as connections are removed only when no message is under way on them, a message that was
kept is in the mailbox until it has been delivered, and it is delivered once: `Custody` says how.

Messages are told apart by their numbers, which are words of 64 bits. So no more messages may have
been kept than there are words. -/
theorem custody_of_keeps (hopening : Opening S first)
    (hrun : Run S first (h₁ ++ keep :: h₂) last) (horderly : Orderly (h₁ ++ keep :: h₂))
    (hfew : (keptBy (h₁ ++ keep :: h₂)).length ≤ UInt64.size) (hkeeps : keep.Keeps conn m) :
    Custody keep h₂ last (keep.stored m) where
  foreign := hkeeps.foreign (run_append_cons_iff.1 hrun).1 hopening
  stored := by
    rw [hkeeps.mailbox]
    exact List.mem_append_right _ List.mem_cons_self
  retained := retained_of_keeps hkeeps hopening hrun hfew
  cleared := by
    intro step hstep hclears
    obtain ⟨a, b, rfl⟩ := List.append_of_mem hstep
    exact hclears.shutdown (before_of_later hrun) hopening
  delivered := by
    rintro a b step rfl hx hgone hclears
    exact delivered_of_keeps hkeeps hopening hrun horderly hfew hx hgone hclears
  found := by
    rintro a b read other viewer request found - hreads hx hviewer hmode hafter
    exact hreads.mem_found hx hviewer hmode hafter
  taken := by
    rintro a b c read step other t call viewer request found rfl hreads hx hviewer hsince hresumes
    have hdelivers := taken_of_keeps hopening hrun hfew hreads hx hviewer hsince hresumes
    exact ⟨hdelivers, hdelivers.gone⟩
  listed := by
    rintro a b step other t call viewer rfl hresumes hflag huser hviewer hx
    exact listed_of_keeps hkeeps hopening (before_of_later hrun) (few_of_later hfew) hresumes hflag
      huser hviewer hx
  between := by
    rintro a b step other t call ids - hpending rfl hsince hresumes
    exact between_of_keeps hkeeps hopening (before_of_later hrun) (orderly_of_later horderly)
      (few_of_later hfew) hpending hsince hresumes

end

/-- What the administrator wrote to a guest is kept. The guest asks for messages, and the step that
ends the fetch takes the message out, after one of the replies was the message. -/
theorem custody_of_keeps_conversation :
    ∃ (h₁ h₂ : List (Step Sample.relay)) (keep fetch : Step Sample.relay) (m : Message),
      (h₁ ++ keep :: (h₂ ++ [fetch])).map Step.event =
        Sample.conversation ++ [.resume 6 ⟨14, .none⟩, .resume 6 ⟨15, .none⟩] ∧
      Opening Sample.relay Sample.first ∧
      Run Sample.relay Sample.first (h₁ ++ keep :: (h₂ ++ [fetch])) fetch.after ∧
      Orderly (h₁ ++ keep :: (h₂ ++ [fetch])) ∧
      (keptBy (h₁ ++ keep :: (h₂ ++ [fetch]))).length ≤ UInt64.size ∧
      m.body = [1, 2, 3] ∧ keep.event = .resume 5 ⟨11, .none⟩ ∧ keep.Keeps 5 m ∧
      keep.stored m ∈ fetch.before.state.store.mailbox.messages ∧
      keep.stored m ∉ fetch.after.state.store.mailbox.messages ∧ ¬ fetch.Clears ∧
      Custody keep (h₂ ++ [fetch]) fetch.after (keep.stored m) ∧
      ∃ (call : Call) (found : List StoredMessage),
        fetch.Delivers 6 ⟨15, .none⟩ call Sample.guest found (keep.stored m) := by
  let m := Sample.request .proceed 5 Sample.admin Sample.guest.id [1, 2, 3]
  let fetching := Sample.conversation ++ [.resume 6 ⟨14, .none⟩]
  have hsome : (Sample.first.follow? Sample.relay (fetching ++ [.resume 6 ⟨15, .none⟩])).isSome := by
    decide +kernel
  obtain ⟨⟨h, last⟩, hfollow⟩ := Option.isSome_iff_exists.1 hsome
  obtain ⟨hrun, hevents⟩ := run_of_follow? hfollow
  have hempty := check_of_follow? hfollow (fun s => s.state.store.mailbox.messages = [])
    (by decide +kernel)
  obtain ⟨h, fetch, rfl, hlast, hbefore, rfl⟩ := snoc_of_follow? hfollow
  have hthen := check_of_follow? hbefore (fun s =>
    (s.calls.get? 6).any fun call =>
      call.user = some Sample.guest && call.pending = .consumption [0]) (by decide +kernel)
  -- The message is kept in the middle of what comes before.
  have hcut : Sample.first.follow? Sample.relay (Sample.conversation.take 13 ++
      .resume 5 ⟨11, .none⟩ :: (Sample.conversation.drop 14 ++ [.resume 6 ⟨14, .none⟩])) =
        some (h, fetch.before) := hbefore
  obtain ⟨h₁, h₂, keep, rfl, hevent, hearlier⟩ := split_of_follow? hcut
  have hkeeping := check_of_follow? hearlier (fun s =>
    (s.calls.get? 5).map Call.pending = some (.keeping m) && s.state.store.mailbox.nextId = 0)
    (by decide +kernel)
  simp only [Bool.and_eq_true, decide_eq_true_eq] at hkeeping
  obtain ⟨hpending, hnumber⟩ := hkeeping
  obtain ⟨call, hresumes⟩ := keep.resumes_of_event hevent
  have hkeeps : keep.Keeps 5 m := by
    rw [hresumes.call] at hpending
    exact ⟨_, call, hresumes, Option.some.inj hpending, rfl⟩
  have hrun : Run Sample.relay Sample.first (h₁ ++ keep :: (h₂ ++ [fetch])) fetch.after := by
    rwa [List.append_assoc] at hrun
  rw [List.append_assoc, List.cons_append] at hevents
  have horderly : Orderly (h₁ ++ keep :: (h₂ ++ [fetch])) := by
    intro step hstep conn hdisconnect
    have hmem := List.mem_map_of_mem (f := Step.event) hstep
    rw [hevents, hdisconnect] at hmem
    simp [fetching, Sample.conversation] at hmem
  have hfew : (keptBy (h₁ ++ keep :: (h₂ ++ [fetch]))).length ≤ UInt64.size := by
    have hlength := length_keptBy_le (h₁ ++ keep :: (h₂ ++ [fetch]))
    rw [← List.length_map Step.event, hevents] at hlength
    exact Nat.le_trans hlength (by decide)
  have hcustody := custody_of_keeps Sample.opening hrun horderly hfew hkeeps
  have hstored := check_of_follow? hbefore (fun s =>
    s.state.store.mailbox.messages = [⟨0, m.timestamp, m.sender, m.recipient, m.body⟩])
    (by decide +kernel)
  have hthere : keep.stored m ∈ fetch.before.state.store.mailbox.messages := by
    rw [of_decide_eq_true hstored, Step.stored, hnumber]
    exact List.mem_cons_self
  have hgone : keep.stored m ∉ fetch.after.state.store.mailbox.messages := by
    rw [of_decide_eq_true hempty]
    exact List.not_mem_nil
  obtain ⟨waiting, hcall, hwaits⟩ := (Option.any_eq_true _ _).1 hthen
  simp only [Bool.and_eq_true, decide_eq_true_eq] at hwaits
  have hclears : ¬ fetch.Clears := by
    rintro ⟨conn, t, other, hother, hclearance, -⟩
    obtain ⟨-, -, rfl⟩ := hother.unique ⟨hlast, hcall⟩
    rw [hwaits.2] at hclearance
    cases hclearance
  obtain ⟨conn, t, other, viewer, found, -, -, -, -, hdelivers, -⟩ :=
    hcustody.delivered h₂ [] fetch rfl hthere hgone hclears
  obtain ⟨rfl, rfl, rfl⟩ := hdelivers.resumes.unique ⟨hlast, hcall⟩
  obtain rfl : viewer = Sample.guest := Option.some.inj (hdelivers.user.symm.trans hwaits.1)
  exact ⟨h₁, h₂, keep, fetch, m, hevents, Sample.opening, hrun, horderly, hfew, rfl, hevent, hkeeps,
    hthere, hgone, hclears, hcustody, other, found, hdelivers⟩

end Traffic

end Relay
