import Relay.Registry

/-!
# `Relay.Proofs.Registry.Consistent`: the two tables of the registry agree

The registry says twice who is where: a connection names its user, and the index of sessions names
the connection of a user. `Registry.Consistent` is what ties the two together. A user is in the
index under a connection exactly when that connection is live and bound to the user, and a
connection has a user exactly when it is logged in.

Each operation keeps it: `consistent_add`, `consistent_delete`, `consistent_establish` for the move
to `secureEstablished`, and `consistent_logIn` for a user who is bound and the move to `loggedIn`
that follows. Between those two the registry is not consistent, so they are one lemma.
-/

set_option autoImplicit false

namespace Relay

namespace Registry

/-- The index of sessions and the users of connections say the same. -/
structure Consistent (r : Registry) : Prop where
  /-- A user is indexed under exactly the connection that is bound to the user. -/
  indexed : ∀ (user : UserId) (conn : ConnId),
    r.sessions.get? user = some conn ↔ ∃ u, r.user? conn = some u ∧ u.id = user
  /-- Exactly the connections that are logged in have a user. -/
  bound_iff : ∀ (conn : ConnId) (c : Connection),
    r.get? conn = some c → (c.user.isSome ↔ c.phase = .loggedIn)

/-- Where a connection has the same user in two registries, it is indexed under the same. -/
theorem Consistent.sessions_iff {r s : Registry} (hr : Consistent r) (hs : Consistent s)
    {conn : ConnId} (hsame : s.user? conn = r.user? conn) (user : UserId) :
    s.sessions.get? user = some conn ↔ r.sessions.get? user = some conn := by
  rw [hs.indexed, hr.indexed, hsame]

/-- Nobody is on a fresh connection. -/
theorem Consistent.nobody {r : Registry} (hr : Consistent r) {conn : ConnId}
    (hphase : r.phase? conn = some .connected) : r.user? conn = none := by
  obtain ⟨c, hc, hconnected⟩ := Option.map_eq_some_iff.1 hphase
  have hbound := hr.bound_iff conn c hc
  rw [hconnected] at hbound
  have hnobody : c.user = none := by
    rw [← Option.not_isSome_iff_eq_none]
    exact fun h => nomatch hbound.1 h
  rw [user?, hc, Option.bind_some, hnobody]

/-! ### What the operations do -/

theorem user?_eq_some_iff (r : Registry) (conn : ConnId) (u : User) :
    r.user? conn = some u ↔ ∃ c, r.get? conn = some c ∧ c.user = some u := by
  simp [user?, Option.bind_eq_some_iff]

theorem phase?_eq_some_iff (r : Registry) (conn : ConnId) (phase : Phase) :
    r.phase? conn = some phase ↔ ∃ c, r.get? conn = some c ∧ c.phase = phase := by
  simp [phase?]

@[simp] theorem sessions_advance (r : Registry) (id : ConnId) (phase : Phase) :
    (r.advance id phase).sessions = r.sessions := by
  unfold advance
  split <;> rfl

@[simp] theorem user?_advance (r : Registry) (id other : ConnId) (phase : Phase) :
    (r.advance id phase).user? other = r.user? other := by
  unfold user?
  rw [get?_advance]
  split
  · rename_i h
    rw [h.1]
    cases r.get? id <;> rfl
  · rfl

theorem user?_delete (r : Registry) (id other : ConnId) :
    (r.delete id).user? other = if other = id then none else r.user? other := by
  unfold user?
  rw [get?_delete]
  split <;> rfl

/-- Who is still on a connection was on it. -/
theorem user?_of_delete {r : Registry} {id other : ConnId} {user : User}
    (h : (r.delete id).user? other = some user) : r.user? other = some user := by
  rw [user?_delete] at h
  split at h
  · cases h
  · exact h

theorem phase?_delete (r : Registry) (id other : ConnId) :
    (r.delete id).phase? other = if other = id then none else r.phase? other := by
  unfold phase?
  rw [get?_delete]
  split <;> rfl

theorem phase?_advance (r : Registry) (id other : ConnId) (phase : Phase) :
    (r.advance id phase).phase? other =
      if other = id ∧ r.mayAdvance id phase then some phase else r.phase? other := by
  unfold phase?
  rw [get?_advance]
  split
  · rename_i h
    have hmay := h.2
    unfold mayAdvance phase? at hmay
    cases hget : r.get? id with
    | none => simp [hget] at hmay
    | some c => rfl
  · rfl

theorem phase?_add {r s : Registry} {id : ConnId} {now : Nat} (h : r.add id now = .ok s)
    (other : ConnId) :
    s.phase? other = if other = id then some .connected else r.phase? other := by
  unfold phase?
  rw [get?_add h]
  split <;> rfl

theorem contains_delete (r : Registry) (id other : ConnId) :
    (r.delete id).contains other = (decide (other ≠ id) && r.contains other) := by
  show ((r.delete id).get? other).isSome = _
  rw [get?_delete]
  by_cases h : other = id
  · simp [h]
  · simp only [if_neg h, decide_eq_true h, Bool.true_and]
    rfl

/-- What is still registered was registered. -/
theorem contains_of_delete {r : Registry} {id other : ConnId} (h : (r.delete id).contains other) :
    r.contains other := by
  rw [contains_delete, Bool.and_eq_true] at h
  exact h.2

theorem contains_advance (r : Registry) (id other : ConnId) (phase : Phase) :
    (r.advance id phase).contains other = r.contains other := by
  show ((r.advance id phase).get? other).isSome = (r.get? other).isSome
  rw [get?_advance]
  split
  · rename_i h
    rw [h.1, Option.isSome_map]
  · rfl

theorem contains_add {r s : Registry} {id : ConnId} {now : Nat} (h : r.add id now = .ok s)
    (other : ConnId) : s.contains other = (decide (other = id) || r.contains other) := by
  show (s.get? other).isSome = _
  rw [get?_add h]
  by_cases ho : other = id
  · simp [ho]
  · simp only [if_neg ho, decide_eq_false ho, Bool.false_or]
    rfl

/-- Whoever is on a connection is on one that is registered. -/
theorem contains_of_user? {r : Registry} {id : ConnId} {user : User} (h : r.user? id = some user) :
    r.contains id := by
  obtain ⟨c, hc, -⟩ := (user?_eq_some_iff _ _ _).1 h
  exact (Table.contains_iff _ _).2 ⟨c, hc⟩

/-- The live connection of a user is the one that is bound to the user. -/
theorem session?_eq_some_iff {r : Registry} (hr : r.Consistent) (id : UserId) (conn : ConnId) :
    r.session? id = some conn ↔ ∃ user : User, r.user? conn = some user ∧ user.id = id := by
  rw [session?, Option.filter_eq_some_iff, hr.indexed]
  constructor
  · exact fun h => h.1
  · rintro ⟨user, huser, hid⟩
    exact ⟨⟨user, huser, hid⟩, contains_of_user? huser⟩

/-- There is one user on a connection. -/
theorem eq_of_session? {r : Registry} (hr : r.Consistent) {id other : UserId} {conn : ConnId}
    (h : r.session? id = some conn) (h' : r.session? other = some conn) : id = other := by
  obtain ⟨user, huser, rfl⟩ := (session?_eq_some_iff hr _ _).1 h
  obtain ⟨user', huser', rfl⟩ := (session?_eq_some_iff hr _ _).1 h'
  rw [huser] at huser'
  cases huser'
  rfl

theorem nobody_of_free {r : Registry} {id : ConnId} (h : r.contains id = false) :
    r.user? id = none := by
  refine Option.eq_none_iff_forall_ne_some.2 fun user huser => ?_
  rw [contains_of_user? huser] at h
  cases h

/-- An id that was free still is, if it is registered only where it was before. -/
theorem free_of_imp {r s : Registry} {id : ConnId} (h : s.contains id → r.contains id)
    (hfree : r.contains id = false) : s.contains id = false := by
  refine Bool.eq_false_iff.2 fun hlive => ?_
  rw [h hlive] at hfree
  cases hfree

/-- Only an id that is free is registered. -/
theorem free_of_add {r s : Registry} {id : ConnId} {now : Nat} (h : r.add id now = .ok s) :
    r.contains id = false := by
  unfold add at h
  split at h
  · cases h
  · rename_i hfree
    exact Bool.eq_false_iff.2 hfree

theorem get?_of_add {r s : Registry} {id : ConnId} {now : Nat} (h : r.add id now = .ok s) :
    r.get? id = none := by
  unfold add at h
  split at h
  · cases h
  · rename_i hid
    simpa [contains, Table.contains, get?] using hid

theorem sessions_add {r s : Registry} {id : ConnId} {now : Nat} (h : r.add id now = .ok s) :
    s.sessions = r.sessions := by
  unfold add at h
  split at h
  · cases h
  · cases h
    rfl

theorem user?_add {r s : Registry} {id : ConnId} {now : Nat} (h : r.add id now = .ok s)
    (other : ConnId) : s.user? other = r.user? other := by
  unfold user?
  rw [get?_add h]
  split
  · rename_i hother
    rw [hother, get?_of_add h]
    rfl
  · rfl

/-- A user is bound only where nobody is, and only who is on no connection. -/
theorem free_of_bind {r s : Registry} {id : ConnId} {user : User} (h : r.bind id user = .ok s) :
    r.sessions.get? user.id = none ∧ ∃ c, r.get? id = some c ∧ c.user = none := by
  unfold bind at h
  split at h
  · cases h
  · rename_i hindex
    split at h
    · cases h
    · rename_i c hc
      split at h
      · cases h
      · rename_i huser
        exact ⟨by simpa [Table.contains] using hindex, c, hc, by simpa using huser⟩

/-- A user who is on no connection is bound to a connection on which nobody is. -/
theorem exists_bind {r : Registry} {id : ConnId} {user : User} {c : Connection}
    (hfree : r.sessions.get? user.id = none) (hc : r.get? id = some c) (hnobody : c.user = none) :
    ∃ s, r.bind id user = .ok s := by
  simp [bind, Table.contains, hfree, hc, hnobody]

theorem sessions_bind {r s : Registry} {id : ConnId} {user : User} (h : r.bind id user = .ok s) :
    s.sessions = r.sessions.insert user.id id := by
  unfold bind at h
  split at h
  · cases h
  · split at h
    · cases h
    · split at h
      · cases h
      · cases h
        rfl

theorem user?_bind {r s : Registry} {id : ConnId} {user : User} (h : r.bind id user = .ok s)
    (other : ConnId) : s.user? other = if other = id then some user else r.user? other := by
  obtain ⟨-, c, hc, -⟩ := free_of_bind h
  unfold user?
  rw [get?_bind h]
  split
  · rw [hc]
    rfl
  · rfl

theorem sessions_delete (r : Registry) (id : ConnId) (user : UserId) :
    (r.delete id).sessions.get? user =
      if ∃ u, r.user? id = some u ∧ u.id = user then none else r.sessions.get? user := by
  unfold delete user?
  cases hc : r.get? id with
  | none => simp
  | some c =>
    cases hu : c.user with
    | none => simp [hu]
    | some u => simp [hu, Table.get?_erase, eq_comm]

/-- How far a connection had come does not matter once it is removed. -/
theorem delete_advance (r : Registry) (id : ConnId) (phase : Phase) :
    (r.advance id phase).delete id = r.delete id := by
  by_cases hmay : r.mayAdvance id phase
  · have hget : (r.advance id phase).get? id = (r.get? id).map fun c => { c with phase } := by
      rw [get?_advance, if_pos ⟨rfl, hmay⟩]
    unfold delete
    rw [hget]
    cases hc : r.get? id with
    | none => simp [mayAdvance, phase?, hc] at hmay
    | some c => simp [advance, hmay, Table.erase_modify]
  · simp [advance, hmay]

/-- Whoever was bound to a connection is let go again with it, and nothing of that is left. -/
theorem delete_bind {r s : Registry} {id : ConnId} {user : User} (h : r.bind id user = .ok s) :
    s.delete id = r.delete id := by
  unfold bind at h
  split at h
  · cases h
  · rename_i haway
    split at h
    · cases h
    · rename_i c hc
      split at h
      · cases h
      · rename_i hnobody
        cases h
        have hbound : get? { r with
            connections := r.connections.modify id fun c => { c with user := some user }
            sessions := r.sessions.insert user.id id } id = some { c with user := some user } := by
          show (r.connections.modify id _).get? id = _
          rw [Table.get?_modify, if_pos rfl, show r.connections.get? id = some c from hc]
          rfl
        have hnone : c.user = none := Option.not_isSome_iff_eq_none.1 hnobody
        simp only [delete, hbound, hc, hnone, Table.erase_modify, Table.erase_insert]
        rw [Table.erase_of_not_contains (Bool.eq_false_iff.2 haway)]

/-! ### Every operation keeps the two tables in agreement -/

theorem consistent_empty (lifetime : Nat) : Consistent { lifetime } where
  indexed user conn := by simp [user?, get?]
  bound_iff conn c h := by simp [get?] at h

theorem consistent_add {r s : Registry} {id : ConnId} {now : Nat} (hr : Consistent r)
    (h : r.add id now = .ok s) : Consistent s := by
  constructor
  · intro user conn
    rw [sessions_add h, user?_add h]
    exact hr.indexed user conn
  · intro conn c hc
    rw [get?_add h] at hc
    split at hc
    · cases hc
      simp
    · exact hr.bound_iff conn c hc

theorem consistent_delete {r : Registry} (hr : Consistent r) (id : ConnId) :
    Consistent (r.delete id) := by
  constructor
  · intro user conn
    rw [sessions_delete, user?_delete]
    by_cases hgone : ∃ u, r.user? id = some u ∧ u.id = user
    · -- The user was indexed under the connection that goes, hence under no other.
      have hid := (hr.indexed user id).2 hgone
      have hconn : conn ≠ id → r.sessions.get? user ≠ some conn := by
        intro hne h
        rw [hid] at h
        exact hne (Option.some.inj h).symm
      rw [if_pos hgone]
      split
      · simp
      · rename_i hne
        rw [← hr.indexed]
        exact ⟨nofun, fun h => absurd h (hconn hne)⟩
    · rw [if_neg hgone, hr.indexed]
      split
      · rename_i heq
        rw [heq]
        exact ⟨fun h => absurd h hgone, nofun⟩
      · rfl
  · intro conn c hc
    rw [get?_delete] at hc
    split at hc
    · cases hc
    · exact hr.bound_iff conn c hc

/-- The move to `secureEstablished` of a connection on which nothing was received. -/
theorem consistent_establish {r : Registry} (hr : Consistent r) {id : ConnId}
    (hphase : r.phase? id = some .connected) :
    Consistent (r.advance id .secureEstablished) := by
  obtain ⟨c₀, hc₀, hconnected⟩ := (r.phase?_eq_some_iff _ _).1 hphase
  constructor
  · intro user conn
    rw [sessions_advance, user?_advance]
    exact hr.indexed user conn
  · intro conn c hc
    -- Neither of the two phases is that of a connection with a user.
    rw [get?_advance] at hc
    split at hc
    · rw [hc₀] at hc
      cases hc
      have := hr.bound_iff id c₀ hc₀
      simpa [hconnected] using this
    · exact hr.bound_iff conn c hc

/-- A connection to which a user has just been bound may be logged in. -/
theorem get?_logIn {r s : Registry} {id : ConnId} {user : User} (h : r.bind id user = .ok s)
    (other : ConnId) :
    (s.advance id .loggedIn).get? other =
      if other = id then
        (r.get? id).map fun c => { c with phase := .loggedIn, user := some user }
      else r.get? other := by
  obtain ⟨-, c, hc, -⟩ := free_of_bind h
  have hget := get?_bind h
  -- The last phase is reached from every other.
  have hmay : s.mayAdvance id .loggedIn := by
    unfold mayAdvance phase?
    rw [hget, if_pos rfl, hc]
    cases hphase : c.phase <;> simp [hphase, Phase.rank]
  rw [get?_advance, hget, hget, if_pos rfl, hc]
  by_cases ho : other = id
  · rw [if_pos ⟨ho, hmay⟩, if_pos ho]
    rfl
  · rw [if_neg (fun h => ho h.1), if_neg ho, if_neg ho]

theorem contains_logIn {r s : Registry} {id : ConnId} {user : User} (h : r.bind id user = .ok s)
    (other : ConnId) : (s.advance id .loggedIn).contains other = r.contains other := by
  show ((s.advance id .loggedIn).get? other).isSome = (r.get? other).isSome
  rw [get?_logIn h]
  split
  · rename_i ho
    rw [ho, Option.isSome_map]
  · rfl

theorem phase?_logIn {r s : Registry} {id : ConnId} {user : User} (h : r.bind id user = .ok s)
    (other : ConnId) :
    (s.advance id .loggedIn).phase? other =
      if other = id then some .loggedIn else r.phase? other := by
  obtain ⟨-, c, hc, -⟩ := free_of_bind h
  unfold phase?
  rw [get?_logIn h, hc]
  split <;> rfl

theorem user?_logIn {r s : Registry} {id : ConnId} {user : User} (h : r.bind id user = .ok s)
    (other : ConnId) :
    (s.advance id .loggedIn).user? other = if other = id then some user else r.user? other := by
  rw [user?_advance, user?_bind h]

/-- A user is bound to a connection, which thereby is logged in. -/
theorem consistent_logIn {r s : Registry} (hr : Consistent r) {id : ConnId} {user : User}
    (h : r.bind id user = .ok s) : Consistent (s.advance id .loggedIn) := by
  obtain ⟨hfree, c₀, hc₀, hnobody⟩ := free_of_bind h
  constructor
  · intro user' conn
    -- Only the entry of the user and the user of the connection are new. The user was on no other
    -- connection, and nobody was on this one.
    rw [sessions_advance, user?_advance, sessions_bind h, Table.get?_insert, user?_bind h]
    by_cases hu : user' = user.id
    · subst hu
      rw [if_pos rfl]
      by_cases hconn : conn = id
      · simp [hconn]
      · have hnone : ¬ ∃ u, r.user? conn = some u ∧ u.id = user.id := by
          rw [← hr.indexed, hfree]
          exact nofun
        simp [hconn, Ne.symm hconn, hnone]
    · rw [if_neg hu]
      by_cases hconn : conn = id
      · subst hconn
        have hnone : r.user? conn = none := by simp [user?, hc₀, hnobody]
        have hleft : ¬ r.sessions.get? user' = some conn := by
          rw [hr.indexed, hnone]
          simp
        simp [hleft, Ne.symm hu]
      · rw [if_neg hconn]
        exact hr.indexed user' conn
  · intro conn c hc
    rw [get?_logIn h] at hc
    split at hc
    · rw [hc₀] at hc
      cases hc
      simp
    · exact hr.bound_iff conn c hc

end Registry

end Relay
