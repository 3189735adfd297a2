import Relay.Proofs.Link.Step

/-!
# `Relay.Proofs.Link.Stopping`: a request to shut down on its way through a session

The mark of shutdown is set while the request of the administrator is still being routed, and the
loop that takes connections hears of it only when the worker ends. In between, the session is all
that knows of the request. `ReaderStage.Carries` lists the three places where its reader may be: all
messages are about to be removed, routing has come to the shutdown, or the reader has ended with it.

There is no reply to the request. So nothing is handed over between routing and the end, and the
reader cannot lose the outcome with a reply that nobody takes: a reader that carries a request goes
on to carry it, whatever happens on the session (`Course.carries`).
-/

set_option autoImplicit false

namespace Relay

/-- What routing came to, once the reader knows. -/
def ReaderStage.outcome? : ReaderStage → Option Outcome
  | replying _ outcome _ => some outcome
  | ended (.ok outcome) => some outcome
  | awaiting .. | routing .. | ended (.error _) => none

/-- A request to shut down is in the hands of a reader. The mark of shutdown is set, and nothing but
the shutdown can come of it. -/
inductive ReaderStage.Carries : ReaderStage → Prop where
  /-- All messages are about to be removed. -/
  | clearing (since : Nat) : Carries (routing .clearance [] since)
  /-- Routing has come to the shutdown. -/
  | concluding (since : Nat) : Carries (replying [] .shutdown since)
  /-- The reader has ended with it. -/
  | ended : Carries (ended (.ok .shutdown))

/-- Nobody who still waits for a frame carries a request. -/
theorem ReaderStage.Carries.not_awaiting {r : ReaderStage} (h : r.Carries) :
    r.isAwaiting = false := by
  cases h <;> rfl

/-- A reader that has ended carries a request if it has ended with the shutdown. -/
theorem ReaderStage.Carries.of_ended {result : Except WireError Outcome}
    (h : (ReaderStage.ended result).Carries) : result = .ok .shutdown := by
  cases h
  rfl

namespace Link

variable {S : Service} {now : Nat} {l l' : Link} {σ σ' : State}

theorem outcome?_eq (l : Link) : l.outcome? = l.reader.outcome? := by
  unfold outcome? ReaderStage.outcome?
  cases l.reader with
  | ended result => cases result <;> rfl
  | _ => rfl

namespace Course

/-- A step of a session leaves the mark of shutdown alone, or it sets the mark. Then all messages
are to be removed next. -/
theorem shuttingDown_cases (h : Course S now l σ l' σ') :
    σ'.shuttingDown = σ.shuttingDown ∨ σ'.shuttingDown = true ∧
      ∃ (replies : List Message) (since : Nat), l'.reader = .routing .clearance replies since := by
  cases h with
  | stays _ hshared => exact .inl hshared.shuttingDown
  | waits _ _ hshared => exact .inl hshared.shuttingDown
  | ends _ hshared => exact .inl hshared.shuttingDown
  | malformed _ _ _ hstate => exact .inl (by rw [hstate, State.shuttingDown_purge])
  | begins t _ _ _ hstate =>
    exact .inl (hstate ▸ (S.beginning_begin σ t l.id _).shuttingDown_eq)
  | resumes t _ hreader hstate =>
    rcases (S.resumption_resume σ t l.id _).shuttingDown_cases with
      ⟨hsame, -⟩ | ⟨user, -, -, hset, hnext⟩
    · exact .inl (hstate ▸ hsame)
    · simp only [ReaderStage.ofTurn, hnext] at hreader
      exact .inr ⟨hstate ▸ hset, _, _, hreader⟩
  | replies _ _ _ hstate => exact .inl (by rw [hstate, State.shuttingDown_enqueue])
  | takes _ hdrains => exact .inl hdrains.shuttingDown

/-- A request goes on to be carried. -/
theorem carries (h : Course S now l σ l' σ') (hcarries : l.reader.Carries) : l'.reader.Carries := by
  -- A reader that waits for a frame carries nothing, which leaves the steps of the other readers.
  have elsewhere (hawaiting : l.reader.isAwaiting) : l'.reader.Carries := by
    rw [hcarries.not_awaiting] at hawaiting
    cases hawaiting
  cases h with
  | stays hreader => exact hreader ▸ hcarries
  | waits hbefore _ _ hstays =>
    rcases hbefore with hawaiting | ⟨outcome, since, hreplying⟩
    · exact elsewhere hawaiting
    · -- After a shutdown no further frame is waited for.
      have hcloses := hstays outcome since hreplying
      rw [hreplying] at hcarries
      cases hcarries
      cases hcloses
  | ends _ _ hends =>
    cases hends with
    | fails hbefore =>
      rcases hbefore with hawaiting | ⟨m, rest, outcome, since, hreplying⟩
      · exact elsewhere hawaiting
      · rw [hreplying] at hcarries
        cases hcarries
    | concludes hbefore _ hafter =>
      rw [hbefore] at hcarries
      cases hcarries
      rw [hafter]
      exact .ended
  | malformed _ hbefore => exact elsewhere hbefore
  | begins _ hbefore => exact elsewhere hbefore
  | resumes _ hbefore hreader =>
    rw [hbefore] at hcarries
    cases hcarries
    rw [hreader]
    exact .concluding _
  | replies hbefore =>
    rw [hbefore] at hcarries
    cases hcarries
  | takes hreader => exact hreader ▸ hcarries

/-- A reader that knows of a shutdown carries the request, if it did so whenever it knew before, and
if there was no reply while all messages were about to be removed. -/
theorem carries_of_outcome (h : Course S now l σ l' σ')
    (hknown : l.reader.outcome? = some .shutdown → l.reader.Carries)
    (hquiet : ∀ (replies : List Message) (since : Nat),
      l.reader = .routing .clearance replies since → replies = [])
    (hafter : l'.reader.outcome? = some .shutdown) : l'.reader.Carries := by
  -- Whatever is known already is carried on.
  have known (hbefore : l.reader.outcome? = some .shutdown) : l'.reader.Carries :=
    h.carries (hknown hbefore)
  have hcourse := h
  cases h with
  | stays hreader => exact known (hreader ▸ hafter)
  | waits _ hreader =>
    cases hstage : l'.reader <;> rw [hstage] at hreader hafter <;> cases hreader
    cases hafter
  | ends _ _ hends =>
    cases hends with
    | fails _ herror =>
      rw [herror] at hafter
      cases hafter
    | concludes hbefore _ hended =>
      rw [hended] at hafter
      exact known (hbefore ▸ hafter)
  | malformed _ _ hreader =>
    rw [hreader] at hafter
    cases hafter
  | begins t _ _ hreader =>
    -- No message comes to the shutdown as soon as it comes in.
    rw [hreader, ReaderStage.ofTurn] at hafter
    split at hafter
    · rename_i hfinished
      obtain rfl := Option.some.inj hafter
      exact absurd hfinished (S.beginning_begin σ t l.id _).next_ne_shutdown
    · cases hafter
  | resumes t hbefore hreader =>
    rw [hreader, ReaderStage.ofTurn] at hafter
    split at hafter
    · rename_i hfinished
      obtain rfl := Option.some.inj hafter
      obtain rfl := (S.resumption_resume σ t l.id _).next_eq_shutdown_iff.1 hfinished
      obtain rfl := hquiet _ _ hbefore
      exact hcourse.carries (hbefore ▸ .clearing _)
    · cases hafter
  | replies hbefore _ hreader =>
    rw [hreader] at hafter
    exact known (hbefore ▸ hafter)
  | takes hreader => exact known (hreader ▸ hafter)

/-- A reader that has ended does nothing more. -/
theorem reader_of_ended (h : Course S now l σ l' σ') {result : Except WireError Outcome}
    (hended : l.reader = .ended result) : l'.reader = .ended result := by
  have hbusy {r : ReaderStage} (hbefore : l.reader = r) (hr : r.hasEnded = false) :
      l'.reader = .ended result := by
    rw [← hbefore, hended] at hr
    cases hr
  have hawaiting (hbefore : l.reader.isAwaiting) : l'.reader = .ended result := by
    rw [hended] at hbefore
    cases hbefore
  cases h with
  | stays hreader => exact hreader.trans hended
  | waits hbefore =>
    rcases hbefore with hbefore | ⟨outcome, since, hbefore⟩
    · exact hawaiting hbefore
    · exact hbusy hbefore rfl
  | ends _ _ hends =>
    cases hends with
    | fails hbefore =>
      rcases hbefore with hbefore | ⟨m, rest, outcome, since, hbefore⟩
      · exact hawaiting hbefore
      · exact hbusy hbefore rfl
    | concludes hbefore => exact hbusy hbefore rfl
  | malformed _ hbefore => exact hawaiting hbefore
  | begins _ hbefore => exact hawaiting hbefore
  | resumes _ hbefore => exact hbusy hbefore rfl
  | replies hbefore => exact hbusy hbefore rfl
  | takes hreader => exact hreader.trans hended

end Course

end Link

end Relay
