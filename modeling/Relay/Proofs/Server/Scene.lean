import Relay.Proofs.Link.Scene
import Relay.Proofs.Server.Passage

/-!
# `Relay.Proofs.Server.Scene`: the sessions of a relay are scenes

What is proved about every run of a `Scene` holds of every session of a running relay: whatever
happens to the relay, for each of its sessions that is a few events of the scene
(`Server.onward_of_step?`). Thus a session that a relay has was begun at some time, and a run leads
from there to what it is now (`Server.staged_of_start`).
-/

set_option autoImplicit false

namespace Relay

namespace Server

variable {s s' : Server} {event : Event} {index : Nat} {worker : Worker} {l k : Link}

/-- A session of a relay with what it shares and the time. -/
def scene (s : Server) (l : Link) : Scene := ⟨l, s.shared, s.now⟩

/-- Where a session comes from that is there after an event. -/
inductive Onward (s s' : Server) (k : Link) : Prop where
  /-- It begins. -/
  | begins (id : ConnId) (session : Session) (peer : Peer)
      (hk : s'.scene k = .start s.host.service id session peer s'.shared s'.now)
  /-- It was there, and a run leads from what it was to what it is. -/
  | goesOn {l : Link} {h : List (Scene × Scene.Event)} (hl : l ∈ s.links)
      (hrun : Scene.Run s.host.service (s.scene l) h (s'.scene k))

/-! ### The time -/

theorem giveBack_now (s : Server) (id : ConnId) : (s.giveBack id).now = s.now := by
  unfold giveBack
  split <;> rfl

theorem turnRound_now (s : Server) (lease : Option ConnId) : (s.turnRound lease).now = s.now := by
  cases lease with
  | none => rfl
  | some id => exact giveBack_now _ id

theorem whileWaiting_now {t : Server} {f : Option ConnId → Server}
    (hf : ∀ lease, (f lease).now = s.now) (hstep : t.whileWaiting f = some s') :
    s'.now = s.now := by
  unfold whileWaiting at hstep
  split at hstep
  · cases hstep
    exact hf _
  · cases hstep

theorem greet_now (s : Server) (index : Nat) (id : ConnId) (peer : Peer) :
    (s.greet index id peer).now = s.now := by
  unfold greet
  dsimp only
  split
  · exact giveBack_now _ id
  · split <;> rfl

theorem worker?_now {wevent : WorkerEvent} (hstep : s.worker? index worker wevent = some s') :
    s'.now = s.now := by
  have hrelease (t : Server) (id : ConnId) (dropped : Bool) :
      (t.release index id dropped).now = t.now := giveBack_now _ id
  cases wevent with
  | greet peer =>
    simp only [worker?] at hstep
    split at hstep
    · cases hstep
      exact greet_now ..
    · cases hstep
  | link e =>
    simp only [worker?, link?] at hstep
    split at hstep
    · obtain ⟨_, -, rfl⟩ := Option.map_eq_some_iff.1 hstep
      rfl
    · obtain ⟨_, -, rfl⟩ := Option.map_eq_some_iff.1 hstep
      rfl
    · cases hstep
  | depart =>
    simp only [worker?, depart?] at hstep
    repeat' split at hstep
    all_goals cases hstep
    all_goals exact hrelease ..
  | drop =>
    cases worker <;> cases hstep <;> first | rfl | exact giveBack_now ..
  | refuse | leave | unwind =>
    simp only [worker?, leave?, unwind?] at hstep
    repeat' split at hstep
    all_goals cases hstep
    all_goals first | rfl | exact hrelease ..

/-- Time never goes back. -/
theorem now_le_of_step? (hstep : s.step? event = some s') : s.now ≤ s'.now := by
  unfold step? at hstep
  split at hstep
  · cases hstep
  · cases event with
    | accept =>
      refine Nat.le_of_eq (whileWaiting_now (fun lease => ?_) hstep).symm
      cases lease <;> rfl
    | acceptFail => exact Nat.le_of_eq (whileWaiting_now s.turnRound_now hstep).symm
    | wake =>
      dsimp only at hstep
      split at hstep
      · exact Nat.le_of_eq (whileWaiting_now (turnRound_now { s with wake := false }) hstep).symm
      · cases hstep
    | signal => exact Nat.le_of_eq (whileWaiting_now s.requestShutdown.turnRound_now hstep).symm
    | tick now =>
      dsimp only at hstep
      split at hstep
      · rename_i hforward
        cases hstep
        exact hforward
      · cases hstep
    | worker index wevent =>
      obtain ⟨worker, -, hworkerStep⟩ := Option.bind_eq_some_iff.1 hstep
      exact Nat.le_of_eq (worker?_now hworkerStep).symm
    | requestShutdown =>
      cases hstep
      exact Nat.le_refl _
    | begin | check | collect | drained | expire | watch =>
      simp only [begin?, check?, collect?, drained?, expire?, watch?] at hstep
      repeat' split at hstep
      all_goals cases hstep
      all_goals first | exact Nat.le_refl _ | exact Nat.le_of_eq (by rw [turnRound_now])

/-! ### Sessions that go on -/

/-- Whatever happens to the others, that is a change of what they share, and time that passes. -/
theorem goesOn_of_mem (hk : k ∈ s.links) (hnow : s.now ≤ s'.now) : s.Onward s' k := by
  have hothers : (s.scene k).next? s.host.service (.others s'.shared) =
      some ⟨k, s'.shared, s.now⟩ := rfl
  have htick : (⟨k, s'.shared, s.now⟩ : Scene).next? s.host.service (.tick s'.now) =
      some (s'.scene k) := by
    rw [Scene.next?, if_pos hnow]
    rfl
  exact .goesOn hk ((Scene.Run.start.snoc hothers).snoc htick)

/-- An event of a session takes no time, and what it shares may be changed on the same occasion. -/
theorem goesOn_of_next? {e : Scene.Event} {σ : State} (hl : l ∈ s.links)
    (hnext : (s.scene l).next? s.host.service e = some ⟨k, σ, s.now⟩) (hnow : s'.now = s.now) :
    s.Onward s' k := by
  have hothers : (⟨k, σ, s.now⟩ : Scene).next? s.host.service (.others s'.shared) =
      some (s'.scene k) := by
    rw [scene, hnow]
    rfl
  exact .goesOn hl ((Scene.Run.start.snoc hnext).snoc hothers)

/-- A worker without a session takes the place of another. -/
theorem onward_of_ended (next : Worker) (hnone : next.link? = none)
    (hworkers : s'.workers = s.workers.set index next) (hnow : s'.now = s.now) (hk : k ∈ s'.links) :
    s.Onward s' k :=
  goesOn_of_mem
    (mem_links_of_workers (fun _ hworker => workers_setWorker hnone (hworkers ▸ hworker)) hk)
    (Nat.le_of_eq hnow.symm)

theorem onward_watch? (hstep : s.watch? = some s') (hk : k ∈ s'.links) : s.Onward s' k := by
  unfold watch? at hstep
  dsimp only at hstep
  split at hstep
  · cases hstep
  · cases hstep
  · cases hstep
    obtain ⟨marked, hmarked, hlink⟩ := mem_links_iff.1 hk
    obtain ⟨worker, hworker, rfl⟩ := List.mem_map.1 hmarked
    cases worker with
    | serving l =>
      have hl : l ∈ s.links := mem_links_iff.2 ⟨_, hworker, rfl⟩
      cases hlink
      cases hasked : l.closing || (s.shared.registry.expired s.now).contains l.id with
      | true => exact goesOn_of_next? (e := .close) (σ := s.shared) hl rfl rfl
      | false =>
        -- The permit is not there, so this is the session as it was.
        obtain ⟨hopen, -⟩ := Bool.or_eq_false_iff.1 hasked
        rw [← hopen]
        exact goesOn_of_mem hl (Nat.le_refl _)
    | flushing l result deadline =>
      exact goesOn_of_mem (mem_links_iff.2 ⟨_, hworker, hlink⟩) (Nat.le_refl _)
    | refusing | greeting | unwinding | ended => cases hlink

/-- A handshake comes to its end, and a session begins, unless it has failed. -/
theorem onward_greet (s : Server) (index : Nat) (id : ConnId) (peer : Peer)
    (hk : k ∈ (s.greet index id peer).links) : s.Onward (s.greet index id peer) k := by
  have hnow := s.greet_now index id peer
  generalize hgreet : s.greet index id peer = s' at hk hnow ⊢
  unfold greet at hgreet
  dsimp only at hgreet
  split at hgreet
  · have hworkers : s'.workers = s.workers.set index (.ended false) := by
      rw [← hgreet, (giveBack_eq _ _).2.2]
      rfl
    exact onward_of_ended (.ended false) rfl hworkers hnow hk
  · split at hgreet
    · cases hgreet
      exact goesOn_of_mem hk (Nat.le_refl _)
    · rename_i session _ _ _ _
      cases hgreet
      rcases links_setWorker rfl hk with rfl | hold
      · exact .begins id session _ rfl
      · exact goesOn_of_mem hold (Nat.le_refl _)

theorem onward_link? (hworker : s.workers[index]? = some worker) {e : LinkEvent}
    (hstep : s.link? index e worker = some s') (hk : k ∈ s'.links) : s.Onward s' k := by
  have hset {l l' : Link} {σ : State} {next : Worker} (hl : worker.link? = some l)
      (hnext : next.link? = some l')
      (hlinkStep : l.step? s.host.service s.now s.shared e = some (l', σ))
      (hk : k ∈ ({ s with shared := σ }.setWorker index next).links) :
      s.Onward ({ s with shared := σ }.setWorker index next) k := by
    rcases links_setWorker hnext hk with rfl | hold
    · refine goesOn_of_next? (e := .own e) (σ := σ) (mem_links_of_getElem? hworker hl) ?_ rfl
      rw [Scene.next?, scene, hlinkStep]
      rfl
    · exact goesOn_of_mem hold (Nat.le_refl _)
  unfold link? at hstep
  split at hstep
  · obtain ⟨⟨l', σ⟩, hlinkStep, rfl⟩ := Option.map_eq_some_iff.1 hstep
    exact hset rfl rfl hlinkStep hk
  · obtain ⟨⟨l', σ⟩, hlinkStep, rfl⟩ := Option.map_eq_some_iff.1 hstep
    exact hset rfl rfl hlinkStep hk
  · cases hstep

theorem onward_leave? (hworker : s.workers[index]? = some worker)
    (hstep : s.leave? index worker = some s') (hk : k ∈ s'.links) : s.Onward s' k := by
  unfold leave? at hstep
  split at hstep
  · split at hstep
    · cases hstep
      rcases links_setWorker rfl hk with rfl | hold
      · exact goesOn_of_next? (e := .release) (σ := s.shared) (mem_links_of_getElem? hworker rfl)
          rfl rfl
      · exact goesOn_of_mem hold (Nat.le_refl _)
    · cases hstep
  · cases hstep

theorem onward_worker? (hworker : s.workers[index]? = some worker) {wevent : WorkerEvent}
    (hstep : s.worker? index worker wevent = some s') (hk : k ∈ s'.links) : s.Onward s' k := by
  have hnow := worker?_now hstep
  have hrelease (t : Server) (id : ConnId) (dropped : Bool) (hworkers : t.workers = s.workers)
      (hnow : t.now = s.now) (hk : k ∈ (t.release index id dropped).links) :
      s.Onward (t.release index id dropped) k :=
    onward_of_ended (.ended dropped) rfl
      (hworkers ▸ (t.release_eq index id dropped).1) ((giveBack_now _ _).trans hnow) hk
  cases wevent with
  | refuse =>
    simp only [worker?] at hstep
    split at hstep
    · cases hstep
      exact onward_of_ended (.ended false) rfl rfl rfl hk
    · cases hstep
  | greet peer =>
    simp only [worker?] at hstep
    split at hstep
    · cases hstep
      exact onward_greet _ _ _ _ hk
    · cases hstep
  | link e => exact onward_link? hworker hstep hk
  | leave => exact onward_leave? hworker hstep hk
  | depart =>
    simp only [worker?, depart?] at hstep
    split at hstep
    · split at hstep
      · cases hstep
        split at hk
        · exact hrelease s.requestShutdown _ _ rfl rfl hk
        · exact hrelease s _ _ rfl rfl hk
      · cases hstep
    · cases hstep
  | drop =>
    cases worker with
    | refusing =>
      cases hstep
      exact onward_of_ended (.ended true) rfl rfl rfl hk
    | greeting id =>
      cases hstep
      exact onward_of_ended (.ended true) rfl (giveBack_eq _ _).2.2 hnow hk
    | serving l =>
      cases hstep
      exact onward_of_ended (.unwinding l.id) rfl rfl rfl hk
    | flushing l result deadline =>
      cases hstep
      exact hrelease s _ _ rfl rfl hk
    | unwinding | ended => cases hstep
  | unwind =>
    simp only [worker?, unwind?] at hstep
    split at hstep
    · cases hstep
      exact hrelease s _ _ rfl rfl hk
    · cases hstep

/-! ### All events -/

/-- Whatever happens to a relay, each of its sessions has begun or gone on. -/
theorem onward_of_step? (hstep : s.step? event = some s') (hk : k ∈ s'.links) : s.Onward s' k := by
  have hnow := now_le_of_step? hstep
  cases event with
  | watch =>
    unfold step? at hstep
    split at hstep
    · cases hstep
    · exact onward_watch? hstep hk
  | worker index wevent =>
    unfold step? at hstep
    split at hstep
    · cases hstep
    · obtain ⟨worker, hworker, hworkerStep⟩ := Option.bind_eq_some_iff.1 hstep
      exact onward_worker? hworker hworkerStep hk
  | _ =>
    have hkeeps := keeps_of_step? (by nofun) (by nofun) hstep
    exact goesOn_of_mem (mem_links_of_workers hkeeps.workers hk) hnow

/-- Each session of a relay was begun, and a run leads from there to what it is now. -/
def Staged (s : Server) : Prop :=
  ∀ l ∈ s.links, ∃ (id : ConnId) (session : Session) (peer : Peer) (σ : State) (origin : Nat)
    (h : List (Scene × Scene.Event)),
    Scene.Run s.host.service (.start s.host.service id session peer σ origin) h (s.scene l)

theorem Staged.next (h : s.Staged) (hstep : s.step? event = some s') : s'.Staged := by
  intro k hk
  rw [(course_of_step? hstep).1]
  cases onward_of_step? hstep hk with
  | begins id session peer hbegins =>
    exact ⟨id, session, peer, s'.shared, s'.now, [], hbegins ▸ .start⟩
  | goesOn hl hrun =>
    obtain ⟨id, session, peer, σ, origin, earlier, hearlier⟩ := h _ hl
    exact ⟨id, session, peer, σ, origin, _, hearlier.trans hrun⟩

theorem Staged.of_run? {events : List Event} (h : s.Staged) (hrun : s.run? events = some s') :
    s'.Staged :=
  invariant_of_run? (fun hstep hs => hs.next hstep) h hrun

/-- Whatever happens to a relay from its start on, each session that it has is the outcome of a run of
a scene since the session began. -/
theorem staged_of_start {suite : Suite} {passwords : PasswordScheme} {config : Config} {seed : Key}
    {store : Store} {e : Entropy} {events : List Event}
    (hrun : (Server.start suite passwords config seed store e).run? events = some s) : s.Staged :=
  Staged.of_run? (s := Server.start suite passwords config seed store e) (fun _ hl => by cases hl)
    hrun

end Server

end Relay
