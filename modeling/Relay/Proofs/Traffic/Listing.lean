import Relay.Proofs.Message.Codec
import Relay.Proofs.Routing.Size
import Relay.Proofs.Traffic.Privileges

/-!
# `Relay.Proofs.Traffic.Listing`: a listing of the users is the directory

The users are listed on pages of records. A client that takes the bodies of all pages, one after the
other, cuts them into records and unpacks these gets the directory back: every user once, by
ascending id, and whether the user is on a connection. `Lists` says this and what is known of the
pages themselves, and `users_listed` proves it for every state that a relay comes to.

Two facts about `blocks` carry the proof. Put together again, blocks are what was cut
(`flatten_blocks`); so the pages hold the records in the order of the directory. And pieces of one
size that were put together are the blocks of this size (`blocks_flatMap`); so cutting finds the
records where they were put, although a page is cut into records at other places than the directory
was cut into pages.
-/

set_option autoImplicit false

namespace Relay

/-! ### Blocks -/

section Blocks

variable {α β : Type} {size : Nat}

theorem blocks_nil (size : Nat) : blocks size ([] : List α) = [] := by
  rw [blocks, if_pos (.inl rfl)]

/-- As long as something is left, the next block is cut off. -/
theorem blocks_of_ne_nil (hsize : size ≠ 0) {items : List α} (hitems : items ≠ []) :
    blocks size items = items.take size :: blocks size (items.drop size) := by
  rw [blocks, if_neg (not_or.2 ⟨hitems, hsize⟩)]

/-- Blocks that are put together again are what was cut. -/
theorem flatten_blocks (hsize : size ≠ 0) (items : List α) :
    (blocks size items).flatten = items := by
  fun_induction blocks size items with
  | case1 items hnone => rw [hnone.resolve_right hsize, List.flatten_nil]
  | case2 items hsome ih => rw [List.flatten_cons, ih, List.take_append_drop]

/-- There are as many blocks as it takes to have room for all items. -/
theorem length_blocks (hsize : size ≠ 0) (items : List α) :
    (blocks size items).length = (items.length + (size - 1)) / size := by
  fun_induction blocks size items with
  | case1 items hnone =>
    have hroom : size - 1 < size := by omega
    rw [hnone.resolve_right hsize, List.length_nil, List.length_nil, Nat.zero_add,
      Nat.div_eq_of_lt hroom]
  | case2 items hsome ih =>
    have hpos : 0 < items.length := List.length_pos_of_ne_nil fun hnil => hsome (.inl hnil)
    rw [List.length_cons, ih, List.length_drop]
    rcases Nat.lt_or_ge items.length size with hless | hmore
    · -- The last block, with room to spare.
      have hone : items.length + (size - 1) = items.length - 1 + size := by omega
      have hrest : items.length - size + (size - 1) < size := by omega
      have hlast : items.length - 1 < size := by omega
      rw [hone, Nat.add_div_right _ (by omega), Nat.div_eq_of_lt hrest, Nat.div_eq_of_lt hlast]
    · have hmove : items.length + (size - 1) = items.length - size + (size - 1) + size := by omega
      rw [hmove, Nat.add_div_right _ (by omega)]

/-- A block that is followed by another is full. -/
theorem length_of_getElem?_blocks {items block : List α} {i : Nat}
    (hget : (blocks size items)[i]? = some block) (hmore : i + 1 < (blocks size items).length) :
    block.length = size := by
  fun_induction blocks size items generalizing i with
  | case1 => cases hget
  | case2 items hsome ih =>
    rw [List.length_cons] at hmore
    cases i with
    | zero =>
      cases hget
      -- If this were all, there would be no other block.
      have hrest : items.drop size ≠ [] := by
        intro hnil
        rw [hnil, blocks_nil] at hmore
        exact absurd hmore (Nat.lt_irrefl _)
      rw [Ne, List.drop_eq_nil_iff] at hrest
      rw [List.length_take]
      omega
    | succ i => exact ih hget (by omega)

/-- Pieces of one size that were put together are found again. -/
theorem blocks_flatMap (hsize : size ≠ 0) {f : β → List α} (hf : ∀ item, (f item).length = size)
    (items : List β) : blocks size (items.flatMap f) = items.map f := by
  induction items with
  | nil => exact blocks_nil size
  | cons item rest ih =>
    have hitem : f item ++ rest.flatMap f ≠ [] := by
      intro hnil
      have hlength := hf item
      rw [(List.append_eq_nil_iff.1 hnil).1] at hlength
      exact hsize hlength.symm
    rw [List.flatMap_cons, blocks_of_ne_nil hsize hitem, List.take_left' (hf item),
      List.drop_left' (hf item), ih, List.map_cons]

end Blocks

/-! ### Records -/

/-- A record is unpacked as it was packed. -/
theorem DirectoryRecord.unpack_pack (r : DirectoryRecord) : unpack r.pack = .ok r := by
  have hid : Message.slice r.pack 0 4 = word32 r.id := by
    rw [pack, List.append_assoc, Message.slice_append_zero (length_word32 _)]
  have hconnected : Message.slice r.pack 4 1 = [if r.connected then 1 else 0] := by
    rw [pack, List.append_assoc, Message.slice_append (Nat.le_of_eq (length_word32 _)),
      length_word32, Message.slice_append_zero (List.length_singleton ..)]
  have hname : Message.slice r.pack 5 nameSize = r.name.bytes := by
    have hbefore : (word32 r.id ++ [if r.connected then (1 : UInt8) else 0]).length = 5 := by
      rw [List.length_append, length_word32, List.length_singleton]
    rw [pack, Message.slice_append (Nat.le_of_eq hbefore), hbefore, Nat.sub_self, Message.slice,
      List.drop_zero, List.take_of_length_le (Nat.le_of_eq r.name.length_eq)]
  have hlong : ¬ r.pack.length < size := by
    rw [r.length_pack]
    exact Nat.lt_irrefl _
  rw [unpack, dif_neg hlong]
  congr 1
  ext1
  · simp only [hid, ofWord32_word32]
  · simp only [hconnected]
    cases r.connected <;> rfl
  · ext1
    exact hname

/-! ### Pages -/

/-- Somebody is on a live connection, logged in, under the given id. -/
def Registry.HasSession (r : Registry) (id : UserId) : Prop :=
  ∃ (conn : ConnId) (user : User), r.phase? conn = some .loggedIn ∧ r.user? conn = some user ∧
    user.id = id

/-- The index of sessions tells who is on a connection. -/
theorem Registry.isOnline_iff {r : Registry} (hr : r.Consistent) (id : UserId) :
    r.isOnline id ↔ r.HasSession id := by
  rw [isOnline, Table.contains_iff]
  constructor
  · rintro ⟨conn, hconn⟩
    obtain ⟨user, huser, hid⟩ := (hr.indexed id conn).1 hconn
    obtain ⟨c, hc, hbound⟩ := (user?_eq_some_iff r conn user).1 huser
    have hphase := (hr.bound_iff conn c hc).1 (by rw [hbound]; rfl)
    exact ⟨conn, user, (phase?_eq_some_iff r conn _).2 ⟨c, hc, hphase⟩, huser, hid⟩
  · rintro ⟨conn, user, -, huser, hid⟩
    exact ⟨conn, (hr.indexed id conn).2 ⟨user, huser, hid⟩⟩

/-- Messages list the users of a state. -/
structure Lists (S : Service) (σ : State) (t : Moment) (requester : UserId)
    (replies : List Message) : Prop where
  /-- There are as many as it takes at seven users each. -/
  count : replies.length = (σ.store.directory.users.length + 6) / 7
  /-- They are numbered in their order, and each says how many they are. -/
  numbered : ∀ (i : Nat) (m : Message), replies[i]? = some m →
    m.index.toNat = i ∧ m.count.toNat = replies.length
  /-- They are from the relay to the user who asked. -/
  headed : ∀ m ∈ replies, m.flag = .fetchUsers ∧ m.timestamp = t.now ∧
    m.FromRelay S.relayToken ∧ m.recipient = requester
  /-- Each body is a whole number of records, and it fits. -/
  whole : ∀ m ∈ replies, 21 ∣ m.body.length ∧ m.body.length ≤ 160
  /-- All but the last are full. -/
  full : ∀ (i : Nat) (m : Message), replies[i]? = some m → i + 1 < replies.length →
    m.body.length = 7 * 21
  total : (replies.flatMap Message.body).length = σ.store.directory.users.length * 21
  /-- Cut into records, the bodies are the users of the directory, each with whether the user is on
  a connection. -/
  decoded : ∃ records : List DirectoryRecord,
    (blocks 21 (replies.flatMap Message.body)).map DirectoryRecord.unpack = records.map .ok ∧
      records.map (fun r => ⟨r.id, r.name⟩) = σ.store.directory.users ∧
      ∀ r ∈ records, r.connected ↔ σ.registry.HasSession r.id
  /-- The users stand by ascending id, so that nobody is there twice. -/
  ascending : (σ.store.directory.users.map User.id).Pairwise (· < ·)

namespace Service

variable {S : Service} {σ : State} {t : Moment} {conn : ConnId} {m : Message} {user : User}

/-- The record of a user, as a page has it. -/
def recordOf (σ : State) (u : User) : DirectoryRecord := ⟨u.id, σ.registry.isOnline u.id, u.name⟩

/-- The bodies of the pages are the records of the users on them. -/
theorem body_directoryPages (requester : UserId) (users : List User) :
    (S.directoryPages σ t requester users).map Message.body =
      (blocks usersPerPage users).map fun page => page.flatMap fun u => (recordOf σ u).pack := by
  apply List.ext_getElem?
  intro i
  rw [directoryPages, List.getElem?_map, List.getElem?_mapIdx, List.getElem?_map, Option.map_map]
  rfl

/-- One after the other, they are the records of all users. -/
theorem bodies_directoryPages (requester : UserId) (users : List User) :
    (S.directoryPages σ t requester users).flatMap Message.body =
      users.flatMap fun u => (recordOf σ u).pack := by
  have hpages : (blocks usersPerPage users).flatten = users := flatten_blocks (by decide) users
  calc (S.directoryPages σ t requester users).flatMap Message.body
    _ = (blocks usersPerPage users).flatMap
          fun page => page.flatMap fun u => (recordOf σ u).pack := by
      rw [List.flatMap_def, S.body_directoryPages, ← List.flatMap_def]
    _ = (blocks usersPerPage users).flatten.flatMap fun u => (recordOf σ u).pack := by
      rw [List.flatten_eq_flatMap, List.flatMap_assoc]
      rfl
    _ = users.flatMap fun u => (recordOf σ u).pack := by rw [hpages]

/-- The body of a page is the records of a block of users. -/
theorem page_of_getElem? {requester : UserId} {users : List User} {i : Nat} {reply : Message}
    (hget : (S.directoryPages σ t requester users)[i]? = some reply) :
    ∃ page : List User, (blocks usersPerPage users)[i]? = some page ∧
      reply.body = page.flatMap fun u => (recordOf σ u).pack := by
  rw [directoryPages, List.getElem?_mapIdx] at hget
  obtain ⟨page, hpage, rfl⟩ := Option.map_eq_some_iff.1 hget
  exact ⟨page, hpage, rfl⟩

theorem length_directoryPages (requester : UserId) (users : List User) :
    (S.directoryPages σ t requester users).length = (blocks usersPerPage users).length :=
  List.length_mapIdx

/-- The pages list the users, if the directory is in order and the index of sessions is right. -/
theorem lists_directoryPages (hdirectory : σ.store.directory.InOrder)
    (hregistry : σ.registry.Consistent) (requester : UserId) :
    Lists S σ t requester (S.directoryPages σ t requester σ.store.directory.users) := by
  have hrecords := S.bodies_directoryPages (σ := σ) (t := t) requester σ.store.directory.users
  constructor
  case count =>
    rw [length_directoryPages]
    exact length_blocks (by decide) _
  case numbered =>
    intro i reply hget
    have hfew : (S.directoryPages σ t requester σ.store.directory.users).length < UInt32.size := by
      rw [length_directoryPages]
      exact Nat.lt_of_le_of_lt (length_blocks_le _ _) hdirectory.length_lt_size
    have hnumbered := (S.fits_directoryPages (σ := σ) (t := t) requester
      hdirectory.length_lt_size).numbered
    obtain ⟨hindex, hcount⟩ := hnumbered i reply hget
    obtain ⟨hi, -⟩ := List.getElem?_eq_some_iff.1 hget
    rw [hindex, hcount, UInt32.toNat_ofNat_of_lt' (Nat.lt_trans hi hfew),
      UInt32.toNat_ofNat_of_lt' hfew]
    exact ⟨rfl, rfl⟩
  case headed =>
    intro reply hreply
    rw [directoryPages, List.mem_mapIdx] at hreply
    obtain ⟨index, hindex, rfl⟩ := hreply
    exact ⟨rfl, rfl, ⟨rfl, rfl⟩, rfl⟩
  case whole =>
    intro reply hreply
    obtain ⟨i, hget⟩ := List.getElem?_of_mem hreply
    obtain ⟨page, hpage, hbody⟩ := page_of_getElem? hget
    have hroom := length_le_of_mem_blocks (List.mem_of_getElem? hpage)
    rw [hbody, DirectoryRecord.length_flatMap_pack]
    refine ⟨Nat.dvd_mul_left 21 _, ?_⟩
    exact Nat.le_trans (Nat.mul_le_mul_right 21 hroom) (by decide)
  case full =>
    intro i reply hget hmore
    obtain ⟨page, hpage, hbody⟩ := page_of_getElem? hget
    rw [length_directoryPages] at hmore
    rw [hbody, DirectoryRecord.length_flatMap_pack, length_of_getElem?_blocks hpage hmore]
    rfl
  case total =>
    rw [hrecords, DirectoryRecord.length_flatMap_pack]
    rfl
  case decoded =>
    refine ⟨σ.store.directory.users.map (recordOf σ), ?_, ?_, ?_⟩
    · have hcut : blocks 21 (σ.store.directory.users.flatMap fun u => (recordOf σ u).pack) =
          σ.store.directory.users.map fun u => (recordOf σ u).pack :=
        blocks_flatMap (by decide) (fun u => (recordOf σ u).length_pack) _
      rw [hrecords, hcut, List.map_map, List.map_map]
      exact List.map_congr_left fun u _ => (recordOf σ u).unpack_pack
    · rw [List.map_map]
      exact List.map_id _
    · intro r hr
      obtain ⟨u, -, rfl⟩ := List.mem_map.1 hr
      exact Registry.isOnline_iff hregistry u.id
  case ascending => exact hdirectory.pairwise_id_lt

/-- A request for the users waits for them, and has done nothing. -/
theorem begin_fetchUsers (hauth : S.Authorized σ conn m user) (hσ : σ.registry.Consistent)
    (hup : σ.shuttingDown = false) (hflag : m.flag = .fetchUsers)
    (hrecipient : m.recipient = UserId.toRelay) (t : Moment) :
    S.begin σ t conn m = Turn.wait (σ.count (.dispatched .fetchUsers)) (.listing user) := by
  have hop : Operation.ofFlag m.flag = .fetchUsers := by rw [hflag]; rfl
  rw [S.begin_of_authorized hauth hσ]
  simp [perform, hop, hup, hrecipient]

/-- When the store has listed the users, they are put on pages, and nothing else happens. -/
theorem resume_listing (σ : State) (conn : ConnId) (user : User) (hstore : t.outage .users = none) :
    S.resume σ t conn (.listing user) =
      Turn.answer σ (S.directoryPages σ t user.id σ.store.directory.users) := by
  simp only [resume, Outage.attempt, hstore]

end Service

/-- A request for the users waits for nothing but them. -/
theorem Pending.Serves.of_fetchUsers {m : Message} {user : Option User} {p : Pending}
    (h : p.Serves m user) (hflag : m.flag = .fetchUsers) :
    ∃ requester : User, p = .listing requester ∧ user = some requester := by
  cases h with
  | listing => exact ⟨_, rfl, rfl⟩
  | recipient hother =>
    rw [hflag] at hother
    cases hother
  | _ hother => exact absurd (hflag.symm.trans hother) (by decide)

namespace Traffic

variable {S : Service} {first last : Traffic} {h : List (Step S)}

/-- Whatever state a relay has come to, a request for the users that is let through is answered with
the users of that state, and nothing changes but what is counted. If other connections go on while
the request waits for the store, it is answered with the users of the state in which the store
answers. -/
theorem users_listed (hopening : Opening S first) (hrun : Run S first h last) :
    (∀ (conn : ConnId) (m : Message) (user : User) (t : Moment),
      S.Authorized last.state conn m user → m.flag = .fetchUsers →
      m.recipient = UserId.toRelay → last.state.shuttingDown = false → t.outage .users = none →
        (S.route last.state t conn m).outcome = .stay ∧
          (S.route last.state t conn m).state =
            last.state.count (.dispatched .fetchUsers) ∧
          Lists S last.state t user.id (S.route last.state t conn m).replies) ∧
    ∀ (h₁ h₂ : List (Step S)) (step : Step S) (conn : ConnId) (t : Moment) (call : Call),
      h = h₁ ++ step :: h₂ → step.Resumes conn t call → call.message.flag = .fetchUsers →
      t.outage .users = none →
        step.after = { step.before with calls := step.before.calls.erase conn } ∧
          ∃ user : User, call.user = some user ∧
            Lists S step.before.state t user.id (call.replies ++ step.replies) := by
  constructor
  · intro conn m user t hauth hflag hrecipient hup hstore
    have hconsistent := (hrun.sound hopening.sound).consistent
    have hbegin := S.begin_fetchUsers hauth hconsistent hup hflag hrecipient t
    have hresume := S.resume_listing (last.state.count (.dispatched .fetchUsers)) conn user hstore
    rw [Service.route_of_wait hbegin (congrArg Turn.next hresume), hresume]
    exact ⟨rfl, rfl, S.lists_directoryPages (hrun.accounts hopening).1 hconsistent user.id⟩
  · rintro h₁ h₂ step conn t call rfl hresumes hflag hstore
    have hbefore := (run_append_cons_iff.1 hrun).1
    have hgenuine := hbefore.genuine hopening hresumes.call
    obtain ⟨user, hpending, huser⟩ := hgenuine.serves.of_fetchUsers hflag
    have hnone := hgenuine.no_replies (by rw [hpending]; exact nofun)
    have hresume := S.resume_listing step.before.state conn user hstore
    rw [hresumes.after, hresumes.replies, hpending, hnone, hresume]
    exact ⟨rfl, user, huser, S.lists_directoryPages (hbefore.accounts hopening).1
      (hbefore.sound hopening.sound).consistent user.id⟩

/-- The guest asks for the users while the administrator is on a connection as well: both are
listed, and they are. -/
theorem users_listed_conversation :
    ∃ (h : List (Step Sample.relay)) (last : Traffic) (reply : Message),
      h.map Step.event = Sample.conversation.take 11 ∧
      Opening Sample.relay Sample.first ∧ Run Sample.relay Sample.first h last ∧
      Sample.relay.Authorized last.state 6
        (Sample.request .fetchUsers 6 Sample.guest UserId.toRelay []) Sample.guest ∧
      last.state.store.directory.users = [Sample.admin, Sample.guest] ∧
      (Sample.relay.route last.state ⟨9, .none⟩ 6
        (Sample.request .fetchUsers 6 Sample.guest UserId.toRelay [])).replies = [reply] ∧
      (blocks 21 reply.body).map DirectoryRecord.unpack =
        [.ok ⟨Sample.admin.id, true, Sample.admin.name⟩,
          .ok ⟨Sample.guest.id, true, Sample.guest.name⟩] ∧
      Lists Sample.relay last.state ⟨9, .none⟩ Sample.guest.id [reply] := by
  let m := Sample.request .fetchUsers 6 Sample.guest UserId.toRelay []
  let records : List DirectoryRecord :=
    [⟨Sample.admin.id, true, Sample.admin.name⟩, ⟨Sample.guest.id, true, Sample.guest.name⟩]
  let reply : Message := { Sample.relay.message ⟨9, .none⟩ .fetchUsers Sample.guest.id with
    body := records.flatMap DirectoryRecord.pack }
  have hsome : (Sample.first.follow? Sample.relay (Sample.conversation.take 11)).isSome := by
    decide +kernel
  obtain ⟨⟨h, last⟩, hfollow⟩ := Option.isSome_iff_exists.1 hsome
  obtain ⟨hrun, hevents⟩ := run_of_follow? hfollow
  have hlast := check_of_follow? hfollow (fun s =>
    s.state.registry.user? 6 = some Sample.guest && !s.state.shuttingDown &&
      s.state.store.directory.users = [Sample.admin, Sample.guest] &&
      (Sample.relay.route s.state ⟨9, .none⟩ 6 m).replies = [reply]) (by decide +kernel)
  simp only [Bool.and_eq_true, decide_eq_true_eq, Bool.not_eq_true'] at hlast
  obtain ⟨⟨⟨hguest, hup⟩, husers⟩, hreplies⟩ := hlast
  have hauth : Sample.relay.Authorized last.state 6 m Sample.guest :=
    ⟨rfl, hguest, rfl, by decide +kernel, by decide, by decide⟩
  obtain ⟨-, -, hlists⟩ :=
    (users_listed Sample.opening hrun).1 6 m Sample.guest ⟨9, .none⟩ hauth rfl rfl hup rfl
  rw [hreplies] at hlists
  exact ⟨h, last, reply, hevents, Sample.opening, hrun, hauth, husers, hreplies, by decide +kernel,
    hlists⟩

end Traffic

end Relay
