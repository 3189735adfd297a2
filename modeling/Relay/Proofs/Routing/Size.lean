import Relay.Proofs.Routing.Effect
import Relay.Proofs.Store.Directory
import Relay.Proofs.Wire.Delivery

/-!
# `Relay.Proofs.Routing.Size`: nothing that routing sends is too large

A message can be sent if its body fits (`Message.Sendable.of_fits`): then it is packed, sealed into a
frame that the other end accepts, and only the end of the stream's counter can come in between. So
what is to be shown of a step of routing is about bodies. `State.Fits` says that those in the store
and in the queues fit, and `Turn.Fits` that those of the reply and of what waits do as well. Every
step of routing keeps it (`Beginning.fits`, `Resumption.fits`), if the message that comes in fits.

The messages of a reply are numbered (`Reply.Numbered`). A reply is made in one step, so this is
about one step too (`Resumption.next_of_consumption`).

The relay's own bodies are short by themselves. A page of the directory takes up most of the room: as
many records as there is room for. A body that a client wrote is kept in the store and comes back in
the reply to a fetch, which is why the store is part of the invariant.
-/

set_option autoImplicit false

namespace Relay

/-! ### One message -/

/-- A message can be sent, and is accepted at the other end. -/
structure Message.Sendable (m : Message) : Prop where
  /-- It is packed. -/
  packs : ∃ text, m.pack = .ok text
  /-- It is sealed, unless the counter of the stream is at its end. -/
  seals : ∀ s : StreamEncoder, s.counter.toNat < streamLimit →
    ∃ frame, s.sealMessage m = .ok (frame, s.advanced)
  /-- Its frame has a length that frames have. -/
  framed : ∀ (s next : StreamEncoder) (frame : Bytes), s.sealMessage m = .ok (frame, next) →
    1 ≤ frame.length ∧ frame.length ≤ maxFrameSize
  /-- A peer who reads the frame gets it as a whole, and what follows it is left. -/
  accepted : ∀ (s next : StreamEncoder) (frame rest : Bytes) (p : Peer) (idle part : Nat),
    s.sealMessage m = .ok (frame, next) → p.pending = Relay.framed frame ++ rest →
      ∃ q : Peer, p.readFrame idle part = (.ok frame, q) ∧ q.pending = rest

theorem Message.Sendable.of_fits {m : Message} (h : m.fits) : m.Sendable := by
  constructor
  case packs =>
    have hle : m.body.length ≤ maxBodySize := of_decide_eq_true h
    exact ⟨_, (m.pack_eq_ok_iff _).2 ⟨hle, rfl⟩⟩
  case seals =>
    intro s hcounter
    have hcases := s.sealCases m
    generalize s.sealMessage m = result at hcases ⊢
    cases hcases with
    | tooLarge hlarge =>
      rw [h] at hlarge
      cases hlarge
    | exhausted _ hend => exact absurd hcounter hend
    | sealed _ _ => exact ⟨_, rfl⟩
  case framed =>
    intro s next frame hseal
    exact (StreamEncoder.length_of_sealMessage hseal).1
  case accepted =>
    intro s next frame rest p idle part hseal hpending
    obtain ⟨hsize, -⟩ := StreamEncoder.length_of_sealMessage hseal
    obtain ⟨q, hread, hrest, -⟩ := Peer.readFrame_framed idle part hsize hpending
    exact ⟨q, hread, hrest⟩

/-- The only way in which a message that fits is not sealed. -/
theorem Message.error_of_fits {m : Message} {s : StreamEncoder} {e : WireError} (h : m.fits)
    (herror : s.sealMessage m = .error e) :
    e = .crypto .encrypt ∧ ¬ s.counter.toNat < streamLimit := by
  have hcases := s.sealCases m
  rw [herror] at hcases
  cases hcases with
  | tooLarge hlarge =>
    rw [h] at hlarge
    cases hlarge
  | exhausted _ hend => exact ⟨rfl, hend⟩

/-! ### Many messages -/

/-- Blocks are no longer than asked for. -/
theorem length_le_of_mem_blocks {α : Type} {size : Nat} {items block : List α}
    (h : block ∈ blocks size items) : block.length ≤ size := by
  fun_induction blocks size items with
  | case1 => cases h
  | case2 items hitems ih =>
    rcases List.mem_cons.1 h with rfl | hrest
    · exact List.length_take_le _ _
    · exact ih hrest

/-- There are no more blocks than items. -/
theorem length_blocks_le {α : Type} (size : Nat) (items : List α) :
    (blocks size items).length ≤ items.length := by
  fun_induction blocks size items with
  | case1 => exact Nat.zero_le _
  | case2 items hitems ih =>
    have hpos : 0 < items.length := List.length_pos_of_ne_nil fun hnil => hitems (.inl hnil)
    have hsize : 0 < size := Nat.pos_of_ne_zero fun hzero => hitems (.inr hzero)
    rw [List.length_drop] at ih
    rw [List.length_cons]
    omega

theorem DirectoryRecord.length_pack (r : DirectoryRecord) : r.pack.length = size := by
  simp only [pack, List.length_append, length_word32, List.length_singleton, r.name.length_eq, size]

/-- Records that are put together take up as much room as each of them does. -/
theorem DirectoryRecord.length_flatMap_pack {α : Type} (f : α → DirectoryRecord) (items : List α) :
    (items.flatMap fun item => (f item).pack).length = items.length * size := by
  induction items with
  | nil => exact (Nat.zero_mul size).symm
  | cons item items ih =>
    rw [List.flatMap_cons, List.length_append, length_pack, ih, List.length_cons, Nat.succ_mul,
      Nat.add_comm]

/-! ### A reply -/

/-- Each message of a reply has its place for its index and the length of the reply for its count,
as far as there are numbers for them. -/
def Reply.Numbered (messages : List Message) : Prop :=
  ∀ (i : Nat) (m : Message), messages[i]? = some m →
    m.index = UInt32.ofNat i ∧ m.count = UInt32.ofNat messages.length

/-- The messages of a reply fit and are numbered. There are numbers for all of them, unless they were
fetched out of the store. -/
structure Reply.Fits (messages : List Message) : Prop where
  fits : ∀ m ∈ messages, m.fits
  numbered : Reply.Numbered messages
  few : messages.length < UInt32.size ∨ ∀ m ∈ messages, m.flag = .fetchMessages

namespace Reply

variable {messages : List Message} {m : Message}

theorem Numbered.mapIdx {α : Type} {items : List α} {f : Nat → α → Message}
    (h : ∀ i item, (f i item).index = UInt32.ofNat i ∧
      (f i item).count = UInt32.ofNat items.length) : Numbered (items.mapIdx f) := by
  intro i m hget
  rw [List.getElem?_mapIdx] at hget
  obtain ⟨item, -, rfl⟩ := Option.map_eq_some_iff.1 hget
  rw [List.length_mapIdx]
  exact h i item

/-- Where there are numbers for all, the index of each is below the count. -/
theorem Numbered.index_lt_count (h : Numbered messages) (hfew : messages.length < UInt32.size)
    (hm : m ∈ messages) : m.index < m.count := by
  obtain ⟨i, hi, rfl⟩ := List.mem_iff_getElem.1 hm
  obtain ⟨hindex, hcount⟩ := h i _ (List.getElem?_eq_getElem hi)
  rw [hindex, hcount, UInt32.lt_iff_toNat_lt, UInt32.toNat_ofNat_of_lt' hfew,
    UInt32.toNat_ofNat_of_lt' (Nat.lt_trans hi hfew)]
  exact hi

/-- From as many messages on as there are numbers, the numbers do not suffice. -/
theorem Numbered.exists_index_eq_count (h : Numbered messages)
    (hmany : UInt32.size ≤ messages.length) : ∃ m ∈ messages, m.index = m.count := by
  let i := messages.length % UInt32.size
  have hi : i < messages.length := Nat.lt_of_lt_of_le (Nat.mod_lt _ (by decide)) hmany
  obtain ⟨hindex, hcount⟩ := h i _ (List.getElem?_eq_getElem hi)
  refine ⟨messages[i], List.getElem_mem hi, ?_⟩
  rw [hindex, hcount, ← UInt32.toNat_inj, UInt32.toNat_ofNat', UInt32.toNat_ofNat']
  exact Nat.mod_mod _ _

theorem Fits.nil : Fits [] := ⟨nofun, nofun, .inl (by decide)⟩

theorem Fits.singleton (h : m.fits) (hindex : m.index = 0) (hcount : m.count = 1) : Fits [m] := by
  have hfew : 1 < UInt32.size := by decide
  refine ⟨List.forall_mem_singleton.2 h, fun i m' hget => ?_, .inl hfew⟩
  cases i with
  | zero =>
    cases hget
    exact ⟨hindex, hcount⟩
  | succ i => cases hget

end Reply

/-! ### The state and a step -/

/-- Whether the message that routing waits with fits. -/
def Pending.fits : Pending → Bool
  | recipient m | keeping m | announcer _ m => m.fits
  | credentials .. | seats .. | hashing .. | enrolment .. | listing .. | target .. | selection ..
  | consumption .. | stopper .. | clearance => true

/-- Whatever is kept and whatever waits in a queue fits, and the users are numbered. -/
structure State.Fits (σ : State) : Prop where
  stored : ∀ kept ∈ σ.store.mailbox.messages, kept.body.length ≤ Message.maxBodySize
  queued : ∀ conn, ∀ m ∈ σ.waiting conn, m.fits
  directory : σ.store.directory.InOrder

/-- What has been replied to a message that waits. Only a fetch replies before it is through: it waits
for the messages that it found to be removed. -/
def Pending.Follows (p : Pending) (replies : List Message) : Prop :=
  replies = [] ∨ ∃ ids : List UInt64, p = .consumption ids

/-- What a step of routing leaves fits, and so does the reply that it goes on with. -/
structure Turn.Fits (replies : List Message) (turn : Turn) : Prop where
  state : turn.state.Fits
  reply : Reply.Fits (replies ++ turn.replies)
  next : ∀ p, turn.next = .waiting p → p.fits ∧ p.Follows (replies ++ turn.replies)

theorem State.Fits.of_same {σ τ : State} (h : σ.Fits) (hstore : τ.store = σ.store)
    (houtboxes : τ.outboxes = σ.outboxes) : τ.Fits := by
  refine ⟨hstore ▸ h.stored, fun conn m hm => h.queued conn m ?_, hstore ▸ h.directory⟩
  rwa [State.waiting, houtboxes] at hm

namespace Service

variable {S : Service} {σ : State} {t : Moment} {conn : ConnId} {m : Message} {p : Pending}
  {turn : Turn}

/-- What waits is part of the message that is served. -/
theorem fits_of_serves {user : Option User} (h : p.Serves m user) (hm : m.fits) : p.fits := by
  cases h <;> first | exact hm | rfl

/-- A reply of the relay's own fits if its body does. -/
theorem fits_own (t : Moment) (flag : Flag) (recipient : UserId) {body : Bytes}
    (h : body.length ≤ Message.maxBodySize) :
    Reply.Fits [{ S.message t flag recipient with body }] := .singleton (decide_eq_true h) rfl rfl

theorem fits_errorReply (t : Moment) (offending : Flag) (recipient : UserId) :
    Reply.Fits [S.errorReply t offending recipient] := by
  refine S.fits_own t .error recipient ?_
  rw [Flag.bytes, length_word32]
  decide

theorem Refusal.fits {reply : Message} (h : S.Refusal t reply) : Reply.Fits [reply] := by
  cases h with
  | error offending recipient => exact S.fits_errorReply t offending recipient
  | unauthenticated => exact S.fits_own t .unauthenticated UserId.toAnonymous (Nat.zero_le _)
  | accessDenied user => exact S.fits_own t .accessDenied user.id (Nat.zero_le _)

theorem fits_malformedReply (t : Moment) : Reply.Fits [S.malformedReply t] :=
  S.fits_own t .error UserId.toAnonymous (Nat.zero_le _)

/-- A page holds as many records as there is room for, and there are fewer pages than numbers. -/
theorem fits_directoryPages (requester : UserId) {users : List User}
    (hfew : users.length < UInt32.size) : Reply.Fits (S.directoryPages σ t requester users) where
  fits reply hreply := by
    simp only [directoryPages, List.mem_mapIdx] at hreply
    obtain ⟨i, hi, rfl⟩ := hreply
    have hpage := length_le_of_mem_blocks (List.getElem_mem hi)
    refine decide_eq_true ?_
    dsimp only
    generalize (blocks usersPerPage users)[i] = page at hpage
    rw [DirectoryRecord.length_flatMap_pack]
    exact Nat.le_trans (Nat.mul_le_mul_right _ hpage) (Nat.div_mul_le_self _ _)
  numbered := .mapIdx fun _ _ => ⟨rfl, rfl⟩
  few := by
    simp only [directoryPages, List.length_mapIdx]
    exact .inl (Nat.lt_of_le_of_lt (length_blocks_le usersPerPage users) hfew)

/-- What is fetched fits if it was kept so. -/
theorem fits_fetchedMessages (requester : UserId) {found : List StoredMessage}
    (hfound : ∀ kept ∈ found, kept.body.length ≤ Message.maxBodySize) :
    Reply.Fits (S.fetchedMessages requester found) where
  fits reply hreply := by
    simp only [fetchedMessages, List.mem_mapIdx] at hreply
    obtain ⟨i, hi, rfl⟩ := hreply
    exact decide_eq_true (hfound _ (List.getElem_mem hi))
  numbered := .mapIdx fun _ _ => ⟨rfl, rfl⟩
  few := by
    refine .inr fun reply hreply => ?_
    simp only [fetchedMessages, List.mem_mapIdx] at hreply
    obtain ⟨i, hi, rfl⟩ := hreply
    rfl

theorem length_marker (request : FetchRequest) : request.marker.length = 13 := by
  simp [FetchRequest.marker]

/-! ### The two kinds of steps -/

/-- A message that fits comes in. -/
theorem Beginning.fits (h : S.Beginning σ t conn m turn) (hσ : σ.Fits) (hm : m.fits) :
    turn.Fits [] := by
  have hstate : turn.state.Fits := hσ.of_same h.store_eq h.outboxes_eq
  have hreply : Reply.Fits turn.replies := by
    cases h with
    | refuse _ hrefusal => exact hrefusal.fits
    | early => exact S.fits_errorReply t m.flag _
    | unregistered | preamble | finish | session => exact .nil
  refine ⟨hstate, hreply, fun p hnext => ?_⟩
  obtain ⟨hnone, -, ⟨-, hserves⟩ | ⟨user, -, hserves⟩⟩ := h.serves hnext
  · exact ⟨fits_of_serves hserves hm, .inl hnone⟩
  · exact ⟨fits_of_serves hserves hm, .inl hnone⟩

/-- What a step leaves fits, whatever the store answers. -/
theorem Resumption.fits_state (h : S.Resumption σ t conn p turn) (hσ : σ.Fits) (hp : p.fits) :
    turn.state.Fits := by
  constructor
  case stored =>
    intro kept hkept
    rcases h.mailbox_cases with ⟨hsame, -⟩ | ⟨m, rfl, -, hadd⟩ | ⟨ids, -, -, hdelete⟩ |
      ⟨-, -, hclear⟩
    · exact hσ.stored kept (hsame ▸ hkept)
    · -- The one message that is new is the one that waited.
      rw [hadd, Mailbox.messages_add] at hkept
      rcases List.mem_append.1 hkept with hold | hnew
      · exact hσ.stored kept hold
      · rw [List.mem_singleton.1 hnew]
        exact of_decide_eq_true hp
    · rw [hdelete, Mailbox.mem_messages_delete] at hkept
      exact hσ.stored kept hkept.1
    · rw [hclear, Mailbox.messages_clear] at hkept
      cases hkept
  case queued =>
    intro other m hm
    obtain ⟨added, hwaiting, hadded⟩ := h.queue_cases other
    rw [hwaiting] at hm
    rcases List.mem_append.1 hm with hold | hnew
    · exact hσ.queued other m hold
    · rcases hadded m hnew with ⟨rfl | rfl, -⟩ | ⟨author, asked, user, rfl, -, -, rfl⟩
      · exact hp
      · exact hp
      · exact hp
  case directory =>
    rcases h.directory_cases with hsame | ⟨name, record, user, henrol⟩
    · exact hsame ▸ hσ.directory
    · exact hσ.directory.of_enrol henrol

/-- What a step replies fits, whatever the store answers. -/
theorem Resumption.fits_replies (h : S.Resumption σ t conn p turn) (hσ : σ.Fits) :
    Reply.Fits turn.replies := by
  cases h with
  | refuse _ _ hrefusal => exact hrefusal.fits
  | logIn =>
    refine S.fits_own t .loggedIn _ ?_
    rw [Octets.length_eq]
    decide
  | enrol => exact S.fits_own t .registered _ (Nat.zero_le _)
  | unknownRecipient => exact S.fits_errorReply t _ _
  | unknownTarget => exact S.fits_errorReply t .fetchMessages _
  | list => exact S.fits_directoryPages _ hσ.directory.length_lt_size
  | nothing =>
    refine S.fits_own t .fetchMessages _ ?_
    rw [length_marker]
    decide
  | select =>
    exact S.fits_fetchedMessages _ fun kept hkept =>
      hσ.stored kept ((Mailbox.mem_select _ _ _).1 hkept).1
  | _ => exact .nil

/-- What goes on waiting fits. -/
theorem Resumption.fits_next (h : S.Resumption σ t conn p turn) (hp : p.fits) {q : Pending}
    (hnext : turn.next = .waiting q) : q.fits ∧ q.Follows turn.replies := by
  -- Only what is to be kept goes on waiting with a message.
  cases h with
  | toKeep =>
    cases hnext
    exact ⟨hp, .inl rfl⟩
  | select =>
    cases hnext
    exact ⟨rfl, .inr ⟨_, rfl⟩⟩
  | seat | hash | toSelect | stop =>
    cases hnext
    exact ⟨rfl, .inl rfl⟩
  | _ => cases hnext

/-- The store answers. -/
theorem Resumption.fits {replies : List Message} (h : S.Resumption σ t conn p turn) (hσ : σ.Fits)
    (hp : p.fits) (hreplies : Reply.Fits replies) (hfollows : p.Follows replies) :
    turn.Fits replies := by
  have hstate := h.fits_state hσ hp
  rcases hfollows with rfl | ⟨ids, rfl⟩
  · exact ⟨hstate, h.fits_replies hσ, fun q hnext => h.fits_next hp hnext⟩
  · -- The reply is complete, and nothing is added to it.
    obtain ⟨hnone, hfinished⟩ := h.next_of_consumption
    refine ⟨hstate, ?_, fun q hnext => ?_⟩
    · rwa [hnone, List.append_nil]
    · rw [hfinished] at hnext
      cases hnext

end Service

end Relay
