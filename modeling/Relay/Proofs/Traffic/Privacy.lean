import Relay.Proofs.Routing.Privacy
import Relay.Proofs.Traffic.Execution
import Relay.Proofs.Traffic.Mailbox

/-!
# `Relay.Proofs.Traffic.Privacy`: a user cannot notice what others write to each other

Two runs may differ in anything, in what others wrote to each other above all. As long as they end
in states that are alike for a user, the user cannot tell them apart: whatever the user asks, at the
same times the same replies come (`dialogue_alike_of_runs`). So neither the text of a message
between others, nor how many there are or when they were kept, gets into a reply.

What remains to be shown here is that runs leave room for numbers (`Numbered.hasRoom`): if a number
were given twice, a fetch might remove a message of somebody else.
-/

set_option autoImplicit false

namespace Relay

namespace Traffic

variable {S : Service} {first first' s s' : Traffic} {h h' : List (Step S)} {conn : ConnId}

/-- As long as not all numbers have been given, the next ones are new. -/
theorem Numbered.hasRoom (hn : Numbered h s) {n : Nat}
    (hfew : (keptBy h).length + n ≤ UInt64.size) : s.state.store.mailbox.HasRoom n where
  few := by omega
  distinct := hn.distinct.sublist hn.messages
  fresh := by
    intro x hx k hk hsame
    have hbelow : x.id.toNat < (keptBy h).length := hn.below x (hn.mem_keptBy hx)
    have hid : x.id.toNat = (keptBy h).length + k := by
      rw [hsame, UInt64.toNat_add, hn.nextId, UInt64.toNat_ofNat_of_lt' (by omega)]
      rw [Nat.mod_eq_of_lt (a := (keptBy h).length) (by omega)]
      exact Nat.mod_eq_of_lt (by change _ < UInt64.size; omega)
    omega

/-- A user who is logged in cannot tell two runs apart that differ only in what others wrote to each
other: whatever messages the user sends, and whenever the steps are taken that route them, each
comes to the same outcome and the same replies after both, and they remain alike.

Messages are told apart by their numbers, which are words of 64 bits. So no more messages may have
been kept than there are words, those of the user counted in. -/
theorem dialogue_alike_of_runs (hopening : Opening S first) (hrun : Run S first h s)
    (hopening' : Opening S first') (hrun' : Run S first' h' s') {user : User}
    (huser : s.state.registry.user? conn = some user)
    (halike : s.state.AlikeFor user.id s'.state) (requests : List TimedMessage)
    (hfew : (keptBy h).length + requests.length ≤ UInt64.size)
    (hfew' : (keptBy h').length + requests.length ≤ UInt64.size) :
    List.Forall₂ (Routed.AlikeFor user.id) (S.dialogue conn s.state requests)
      (S.dialogue conn s'.state requests) := by
  have hnumbered := hrun.numbered hopening (by omega)
  have hnumbered' := hrun'.numbered hopening' (by omega)
  have hconsistent := (hrun.sound hopening.sound).consistent
  exact S.dialogue_alike requests halike (State.isOnlyFor_of_user? hconsistent huser)
    (hnumbered.hasRoom hfew) (hnumbered'.hasRoom hfew')

/-- Another user, who registers while the guest is there and does not log in. -/
def absent : User := ⟨2, .padded nameSize [0x61, 0x62, 0x73, 0x65, 0x6e, 0x74]⟩

/-- The administrator and the guest are there, and the administrator writes letters. -/
def letters (written : List (User × Bytes)) : List Event :=
  Sample.conversation.take 11 ++
    [.connect 7 8 0, .receive 7 ⟨20, .none⟩ (Sample.preamble .register absent),
      .resume 7 ⟨21, .none⟩, .resume 7 ⟨22, .none⟩, .resume 7 ⟨23, .none⟩] ++
    written.flatMap fun letter =>
      [.receive 5 ⟨24, .none⟩ (Sample.request .proceed 5 Sample.admin letter.1.id letter.2),
        .resume 5 ⟨25, .none⟩, .resume 5 ⟨26, .none⟩]

/-- A letter to the guest, after a letter to another user or after none. The guest fetches twice,
gets the letter and then nothing, and cannot tell. -/
theorem dialogue_alike_of_runs_letters :
    ∃ (h h' : List (Step Sample.relay)) (s s' : Traffic) (requests : List TimedMessage),
      h.map Step.event = letters [(absent, [1, 2, 3]), (Sample.guest, [7])] ∧
      h'.map Step.event = letters [(Sample.guest, [7])] ∧
      Opening Sample.relay Sample.first ∧
      Run Sample.relay Sample.first h s ∧ Run Sample.relay Sample.first h' s' ∧
      s.state.store.mailbox.messages =
        [⟨0, 100, UserId.admin, 2, [1, 2, 3]⟩, ⟨1, 100, UserId.admin, 1, [7]⟩] ∧
      s'.state.store.mailbox.messages = [⟨0, 100, UserId.admin, 1, [7]⟩] ∧
      s.state.registry.user? 6 = some Sample.guest ∧
      s.state.AlikeFor Sample.guest.id s'.state ∧
      (keptBy h).length + requests.length ≤ UInt64.size ∧
      (keptBy h').length + requests.length ≤ UInt64.size ∧
      requests.map TimedMessage.message =
        [Sample.fetch 6 Sample.guest, Sample.fetch 6 Sample.guest] ∧
      (Sample.relay.dialogue 6 s.state requests).map (fun r => r.replies.map Message.body) =
        [[[7]], [FetchRequest.toMe :: word64 0 ++ word32 1]] ∧
      List.Forall₂ (Routed.AlikeFor Sample.guest.id)
        (Sample.relay.dialogue 6 s.state requests) (Sample.relay.dialogue 6 s'.state requests) := by
  let requests : List TimedMessage :=
    [⟨fun k => ⟨30 + UInt64.ofNat k, .none⟩, Sample.fetch 6 Sample.guest⟩,
      ⟨fun k => ⟨40 + UInt64.ofNat k, .none⟩, Sample.fetch 6 Sample.guest⟩]
  let events := letters [(absent, [1, 2, 3]), (Sample.guest, [7])]
  let events' := letters [(Sample.guest, [7])]
  have hsome : (Sample.first.follow? Sample.relay events).isSome := by decide +kernel
  have hsome' : (Sample.first.follow? Sample.relay events').isSome := by decide +kernel
  obtain ⟨⟨h, s⟩, hfollow⟩ := Option.isSome_iff_exists.1 hsome
  obtain ⟨⟨h', s'⟩, hfollow'⟩ := Option.isSome_iff_exists.1 hsome'
  obtain ⟨hrun, hevents⟩ := run_of_follow? hfollow
  obtain ⟨hrun', hevents'⟩ := run_of_follow? hfollow'
  have hmessages := of_decide_eq_true <| check_of_follow? hfollow (fun s =>
    s.state.store.mailbox.messages =
        [⟨0, 100, UserId.admin, 2, [1, 2, 3]⟩, ⟨1, 100, UserId.admin, 1, [7]⟩] ∧
      s.state.registry.user? 6 = some Sample.guest) (by decide +kernel)
  have hmessages' := of_decide_eq_true <| check_of_follow? hfollow' (fun s =>
    s.state.store.mailbox.messages = [⟨0, 100, UserId.admin, 1, [7]⟩]) (by decide +kernel)
  have hfetched := of_decide_eq_true <| check_of_follow? hfollow (fun s =>
    (Sample.relay.dialogue 6 s.state requests).map (fun r => r.replies.map Message.body) =
      [[[7]], [FetchRequest.toMe :: word64 0 ++ word32 1]]) (by decide +kernel)
  have halike : s.state.AlikeFor Sample.guest.id s'.state := by
    have hboth := check_of_follow? hfollow (fun s =>
      (Sample.first.follow? Sample.relay events').any fun run =>
        decide (s.state.AlikeFor Sample.guest.id run.2.state)) (by decide +kernel)
    rw [hfollow'] at hboth
    exact of_decide_eq_true hboth
  have few {h : List (Step Sample.relay)} {events : List Event}
      (hevents : h.map Step.event = events)
      (hshort : events.length + requests.length ≤ UInt64.size) :
      (keptBy h).length + requests.length ≤ UInt64.size := by
    have hlength := length_keptBy_le h
    rw [← List.length_map Step.event, hevents] at hlength
    omega
  have hfew := few hevents (by decide)
  have hfew' := few hevents' (by decide)
  exact ⟨h, h', s, s', requests, hevents, hevents', Sample.opening, hrun, hrun', hmessages.1,
    hmessages', hmessages.2, halike, hfew, hfew', rfl, hfetched,
    dialogue_alike_of_runs Sample.opening hrun Sample.opening hrun' hmessages.2 halike requests
      hfew hfew'⟩

end Traffic

end Relay
