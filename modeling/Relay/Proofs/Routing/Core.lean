import Relay.Proofs.Routing.Effect

/-!
# `Relay.Proofs.Routing.Core`: what routing decides on

What becomes of a request is decided by the registry, the queues, the directory and whether the
relay is shutting down: the core of the state. Random bytes are drawn for log-ins and registrations
only, counters are never read, and the mailbox is used in four places, to keep a message, to look
messages up, to remove what was fetched, and to remove everything. All other steps of a request come
to the same for states with the same core (`begin_core`, `resume_core`).
-/

set_option autoImplicit false

namespace Relay

/-- The state without messages, random bytes and counters. -/
def State.core (σ : State) : State :=
  { σ with store.mailbox := {}, entropy := ⟨[], 0⟩, metrics := {} }

/-- The turn without messages, random bytes and counters. -/
def Turn.core (turn : Turn) : Turn := { turn with state := turn.state.core }

namespace State

variable (σ : State)

@[simp] theorem registry_core : σ.core.registry = σ.registry := rfl
@[simp] theorem directory_core : σ.core.store.directory = σ.store.directory := rfl
@[simp] theorem delivery_core (conn : ConnId) : σ.core.delivery conn = σ.delivery conn := rfl

end State

/-- Whether what routing waits for is decided by the core alone. -/
def Pending.isOfCore : Pending → Bool
  | .recipient .. | .announcer .. | .listing .. | .target .. | .stopper .. => true
  | _ => false

namespace Service

variable (S : Service) (σ : State) (t : Moment) (conn : ConnId)

/-! ### What is handed over -/

theorem deliver_core (m : Message) : (deliver σ.core m).core = (deliver σ m).core := by
  simp only [deliver, State.registry_core, State.delivery_core]
  split
  · rfl
  · split <;> rfl

theorem announceTo_core (body : Bytes) (session : UserId × ConnId) :
    (S.announceTo t body σ.core session).core = (S.announceTo t body σ session).core := by
  simp only [announceTo, State.delivery_core]
  split <;> rfl

theorem announce_core (author : UserId) (body : Bytes) :
    (S.announce σ.core t author body).core = (S.announce σ t author body).core := by
  have fold (sessions : List (UserId × ConnId)) {σ τ : State} (hcore : τ.core = σ.core) :
      (sessions.foldl (S.announceTo t body) τ).core =
        (sessions.foldl (S.announceTo t body) σ).core := by
    induction sessions generalizing σ τ with
    | nil => exact hcore
    | cons session sessions ih =>
      apply ih
      rw [← S.announceTo_core τ, hcore, S.announceTo_core σ]
  exact fold _ rfl

/-! ### When a message comes in -/

theorem perform_core (user : Option User) (m : Message) :
    (S.perform σ.core t conn user m).core = (S.perform σ t conn user m).core := by
  have relay : (S.beginRelay σ.core t conn m).core = (S.beginRelay σ t conn m).core := by
    simp only [beginRelay]
    split <;> rfl
  have fetch (user : User) :
      (S.beginFetch σ.core t conn user m).core = (S.beginFetch σ t conn user m).core := by
    simp only [beginFetch]
    split
    · rfl
    · split <;> rfl
  have logIn : (S.beginLogIn σ.core t conn m).core = (S.beginLogIn σ t conn m).core := by
    simp only [beginLogIn]
    split <;> rfl
  have hup : σ.core.shuttingDown = σ.shuttingDown := rfl
  simp only [perform, hup]
  split
  · rfl
  · cases Operation.ofFlag m.flag <;> cases user <;>
      first | rfl | exact logIn | exact relay | exact fetch _

theorem perform_congr {σ τ : State} (hcore : τ.core = σ.core) (user : Option User) (m : Message) :
    (S.perform τ t conn user m).core = (S.perform σ t conn user m).core := by
  rw [← S.perform_core τ, hcore, S.perform_core σ]

/-- What becomes of a message that comes in is decided by the core. -/
theorem begin_core (m : Message) : (S.begin σ.core t conn m).core = (S.begin σ t conn m).core := by
  have hphase (s : Series) :
      (σ.core.count s).registry.phase? conn = (σ.count s).registry.phase? conn := rfl
  have hclaimant (s : Series) (phase : Phase) :
      claimant? (σ.core.count s) conn phase m = claimant? (σ.count s) conn phase m := rfl
  simp only [begin, hphase, hclaimant]
  split
  · rfl
  · split
    · split
      · apply perform_congr
        rfl
      · rfl
    · split
      · rfl
      · split
        · apply perform_congr
          rfl
        · rfl

/-! ### When the store answers -/

/-- What becomes of a request that waits for anything but messages is decided by the core. -/
theorem resume_core {p : Pending} (hp : p.isOfCore) :
    (S.resume σ.core t conn p).core = (S.resume σ t conn p).core := by
  cases p with
  | recipient m =>
    simp only [resume, State.directory_core]
    split
    · rfl
    · rfl
    · split
      · rfl
      · exact congrArg (fun τ => Turn.answer τ []) (deliver_core σ m)
  | announcer user m =>
    simp only [resume]
    split
    · rfl
    · split
      · rfl
      · exact congrArg (fun τ => Turn.answer τ []) (S.announce_core σ t user.id m.body)
  | listing user =>
    simp only [resume, State.directory_core]
    split <;> rfl
  | target user request =>
    simp only [resume, State.directory_core]
    split <;> rfl
  | stopper user =>
    simp only [resume]
    split <;> rfl
  | _ => cases hp

end Service

end Relay
