import Mathlib.Data.List.ModifyLast
import Relay.Proofs.Link.Writing
import Relay.Proofs.Wire.Grammar

/-!
# `Relay.Proofs.Link.Journal`: what a session went through

A `Journal` is kept beside a session and is not part of the program. It notes down what has arrived,
which frames the reader took in and what it made of each (`Intake`), and what was placed in the queue
of the connection, by the reader or by anybody else. `Journal.note` does that for one event, from
what is there before and after it.

`Journal.Tells` is what a journal says of its session. The frames are the first of what has arrived
(`Journal.Cut`), each was opened in its place in the stream and routed for as long as that takes
(`Intake.Reads`), all but the last have left the connection open, and the replies that the reader has
placed in the queue, with those that it has still in hand, are those to the frames in their order
(`Journal.Stands`). Whatever happens on the session keeps it (`Journal.Tells.step`), whatever others
do in the meantime (`Journal.Tells.others`).
-/

set_option autoImplicit false

namespace Relay

/-! ### What is noted down -/

/-- How routing has ended, once it has. -/
def Turn.outcome? (turn : Turn) : Option Outcome :=
  match turn.next with
  | .finished outcome => some outcome
  | .waiting _ => none

/-- What the reader of a session made of a frame. -/
inductive Reading where
  /-- It does not open. -/
  | unopened (error : CryptoError)
  /-- It opens to a text that is no message. There is one reply. -/
  | malformed (text : Bytes) (reply : Message)
  /-- It opens to a message, which is routed in turns. These are the turns so far. -/
  | message (text : Bytes) (m : Message) (turns : List Turn)

namespace Reading

/-- The replies so far. -/
def replies : Reading → List Message
  | unopened _ => []
  | malformed _ reply => [reply]
  | message _ _ turns => turns.flatMap Turn.replies

/-- What becomes of the connection, once that is known. -/
def outcome? : Reading → Option Outcome
  | unopened _ => none
  | malformed .. => some .finishWithError
  | message _ _ turns => turns.getLast?.bind Turn.outcome?

/-- Whether the connection ends with the frame. -/
def closes : Reading → Bool
  | unopened _ => true
  | malformed .. => true
  | message _ _ turns => (turns.getLast?.bind Turn.outcome?).any Outcome.closes

/-- Whether the frame holds no message. -/
def isMalformed : Reading → Bool
  | malformed .. => true
  | unopened _ | message .. => false

/-- One more turn of routing. -/
def resume (turn : Turn) : Reading → Reading
  | message text m turns => message text m (turns ++ [turn])
  | other => other

theorem replies_concat (text : Bytes) (m : Message) (turns : List Turn) (turn : Turn) :
    (message text m (turns ++ [turn])).replies = (message text m turns).replies ++ turn.replies := by
  simp [replies]

end Reading

/-- A frame that the reader of a session took in, and what it made of it. -/
structure Intake where
  frame : Bytes
  reading : Reading

/-- All replies to frames, frame by frame. -/
def repliesTo (intakes : List Intake) : List Message := intakes.flatMap fun x => x.reading.replies

/-- A message that was placed in the queue of a connection, and whether it is a reply that the reader
of the connection handed over. -/
structure Placement where
  message : Message
  own : Bool

/-- What a session went through. -/
structure Journal where
  /-- The session as it began. -/
  first : Link
  /-- All that has arrived for the session. -/
  arrived : Bytes
  /-- The frames that the reader took in, in order. -/
  intakes : List Intake := []
  /-- What was placed in the queue, in order. -/
  placed : List Placement := []

namespace Link

/-- The frame that the reader takes in next, if it is there in full. -/
def frame? (l : Link) : Option Bytes :=
  match l.reader with
  | .awaiting (.body size _) _ =>
    if l.incoming.length < size then none else some (l.incoming.take size)
  | _ => none

/-- What the reader makes of a frame when it takes it in. -/
def intake (S : Service) (l : Link) (t : Moment) (σ : State) (frame : Bytes) : Intake where
  frame
  reading :=
    match l.decoder.decrypt frame with
    | .error e => .unopened e
    | .ok (text, _) =>
      match Message.unpack text with
      | .error _ => .malformed text (S.malformedReply t)
      | .ok m => .message text m [S.begin σ t l.id m]

end Link

/-- Whether the reader hands a reply over. -/
def LinkEvent.isReply : LinkEvent → Bool
  | reply => true
  | _ => false

namespace Journal

/-- The journal of a session that begins. What has arrived during the handshake is for the session. -/
def opening (l : Link) : Journal := { first := l, arrived := l.incoming }

/-- The frames that the reader took in, in order. -/
def frames (j : Journal) : List Bytes := j.intakes.map Intake.frame

/-- All messages that were placed in the queue, in order. -/
def messages (j : Journal) : List Message := j.placed.map Placement.message

/-- The replies that the reader placed in the queue, in order. -/
def own (j : Journal) : List Message := (j.placed.filter Placement.own).map Placement.message

/-- Notes down that messages were placed in the queue. -/
def place (j : Journal) (own : Bool) (messages : List Message) : Journal :=
  { j with placed := j.placed ++ messages.map fun m => ⟨m, own⟩ }

/-- Notes down one more turn of routing the last frame. -/
def resume (j : Journal) (turn : Turn) : Journal :=
  { j with
    intakes := j.intakes.modifyLast fun x => { x with reading := x.reading.resume turn } }

/-- Notes down what the reader does. -/
def attend (S : Service) (j : Journal) (l : Link) (σ : State) : LinkEvent → Journal
  | .arrive bytes => { j with arrived := j.arrived ++ bytes }
  | .read t =>
    match l.frame? with
    | none => j
    | some frame => { j with intakes := j.intakes ++ [l.intake S t σ frame] }
  | .resume t =>
    match l.reader with
    | .routing p _ _ => j.resume (S.resume σ t l.id p)
    | _ => j
  | _ => j

/-- Notes down what happens on the session. -/
def note (S : Service) (j : Journal) (l : Link) (σ σ' : State) (event : LinkEvent) : Journal :=
  (j.attend S l σ event).place event.isReply (σ.placed σ' l.id)

/-! ### What is noted down where -/

variable (j : Journal) (own : Bool) (messages : List Message)

@[simp] theorem place_nil : j.place own [] = j := by simp [place]

@[simp] theorem messages_place :
    (j.place own messages).messages = j.messages ++ messages := by
  simp [place, Journal.messages, Function.comp_def]

@[simp] theorem own_place :
    (j.place own messages).own = j.own ++ if own then messages else [] := by
  cases own <;> simp [place, Journal.own, List.filter_map, Function.comp_def]

@[simp] theorem frames_resume (turn : Turn) : (j.resume turn).frames = j.frames := by
  simp only [resume, frames]
  rcases List.eq_nil_or_concat j.intakes with hnil | ⟨before, x, hlast⟩
  · rw [hnil]
    rfl
  · rw [hlast, List.concat_eq_append, List.modifyLast_concat, List.map_append, List.map_append]
    rfl

theorem placed_attend (S : Service) (l : Link) (σ : State) (event : LinkEvent) :
    (j.attend S l σ event).placed = j.placed := by
  cases event with
  | read t =>
    rw [attend]
    split <;> rfl
  | resume t =>
    rw [attend]
    split <;> rfl
  | _ => rfl

theorem first_attend (S : Service) (l : Link) (σ : State) (event : LinkEvent) :
    (j.attend S l σ event).first = j.first := by
  cases event with
  | read t =>
    rw [attend]
    split <;> rfl
  | resume t =>
    rw [attend]
    split <;> rfl
  | _ => rfl

@[simp] theorem first_note (S : Service) (l : Link) (σ σ' : State) (event : LinkEvent) :
    (j.note S l σ σ' event).first = j.first := first_attend ..

theorem intakes_note (S : Service) (l : Link) (σ σ' : State) (event : LinkEvent) :
    (j.note S l σ σ' event).intakes = (j.attend S l σ event).intakes := rfl

/-- The replies that the reader has placed are as before, unless it hands one over. -/
theorem own_note (S : Service) (l : Link) (σ σ' : State) (event : LinkEvent) :
    (j.note S l σ σ' event).own =
      j.own ++ if event.isReply then σ.placed σ' l.id else [] := by
  rw [note, own_place, Journal.own, placed_attend]
  rfl

theorem messages_note (S : Service) (l : Link) (σ σ' : State) (event : LinkEvent) :
    (j.note S l σ σ' event).messages = j.messages ++ σ.placed σ' l.id := by
  rw [note, messages_place, Journal.messages, placed_attend]
  rfl

end Journal

/-! ### How the frames are cut out of what has arrived -/

/-- The length of a frame, as long as the reader waits for the rest of the frame. -/
def ReaderStage.begun : ReaderStage → Bytes
  | awaiting (.body size _) _ => word32 (UInt32.ofNat size)
  | awaiting .length _ | routing .. | replying .. | ended _ => []

theorem ReaderStage.begun_ofTurn (turn : Turn) (replies : List Message) (since : Nat) :
    (ofTurn turn replies since).begun = [] := by
  unfold ofTurn
  split <;> rfl

theorem ReaderStage.isAwaiting_ofTurn (turn : Turn) (replies : List Message) (since : Nat) :
    (ofTurn turn replies since).isAwaiting = false := by
  unfold ofTurn
  split <;> rfl

theorem ReaderStage.ofTurn_ne_ended (turn : Turn) (replies : List Message) (since : Nat)
    (result : Except WireError Outcome) : ofTurn turn replies since ≠ .ended result := by
  unfold ofTurn
  split <;> nofun

/-- How the frames that the reader took in stand in what has arrived: they come first, and as long as
the reader has not ended, they are followed by what it was not done with. -/
structure Journal.Cut (arrived : Bytes) (frames : List Bytes) (reader : ReaderStage)
    (incoming : Bytes) : Prop where
  valid : ∀ frame ∈ frames, IsFrame frame
  first : frames.flatMap framed <+: arrived
  whole : reader.hasEnded = false →
    arrived = frames.flatMap framed ++ (reader.begun ++ incoming)
  size : ∀ size deadline timer, reader = .awaiting (.body size deadline) timer →
    1 ≤ size ∧ size ≤ 272

namespace Journal.Cut

variable {arrived incoming incoming' frame rest : Bytes} {frames : List Bytes}
  {reader reader' : ReaderStage}

theorem opening (incoming : Bytes) (timer : Nat) :
    Cut incoming [] (.awaiting .length timer) incoming :=
  ⟨List.forall_mem_nil _, List.nil_prefix, fun _ => rfl, nofun⟩

theorem arrive (h : Cut arrived frames reader incoming) (bytes : Bytes) :
    Cut (arrived ++ bytes) frames reader (incoming ++ bytes) := by
  refine ⟨h.valid, h.first.trans (List.prefix_append _ _), fun hruns => ?_, h.size⟩
  rw [h.whole hruns, List.append_assoc, List.append_assoc]

/-- The reader goes on without taking anything in. -/
theorem goesOn (h : Cut arrived frames reader incoming) (hruns : reader.hasEnded = false)
    (hbegun : reader'.begun = reader.begun) (hstage : reader'.isAwaiting = false) :
    Cut arrived frames reader' incoming := by
  refine ⟨h.valid, h.first, fun _ => ?_, fun size deadline timer hreader' => ?_⟩
  · rw [h.whole hruns, hbegun]
  · rw [hreader'] at hstage
    cases hstage

/-- The reader goes on to wait for the same. -/
theorem ring {part : FramePart} {timer : Nat}
    (h : Cut arrived frames (.awaiting part timer) incoming) (later : Nat) :
    Cut arrived frames (.awaiting part later) incoming := by
  cases part with
  | length => exact ⟨h.valid, h.first, fun _ => h.whole rfl, nofun⟩
  | body size deadline =>
    refine ⟨h.valid, h.first, fun _ => h.whole rfl, fun _ _ _ hreader => ?_⟩
    cases hreader
    exact h.size _ _ _ rfl

theorem stop (h : Cut arrived frames reader incoming) (result : Except WireError Outcome)
    (incoming' : Bytes) : Cut arrived frames (.ended result) incoming' :=
  ⟨h.valid, h.first, nofun, nofun⟩

/-- The reader takes in the length of a frame. -/
theorem measure {length : UInt32} {timer deadline : Nat}
    (h : Cut arrived frames (.awaiting .length timer) (word32 length ++ rest))
    (hlength : isFrameLength length = true) :
    Cut arrived frames (.awaiting (.body length.toNat deadline) timer) rest := by
  refine ⟨h.valid, h.first, fun _ => ?_, fun size _ _ hreader => ?_⟩
  · rw [h.whole rfl, ReaderStage.begun, ReaderStage.begun, UInt32.ofNat_toNat]
    rfl
  · cases hreader
    exact (isFrameLength_iff length).1 hlength

/-- The reader takes in the rest of a frame. -/
theorem take {deadline timer : Nat}
    (h : Cut arrived frames (.awaiting (.body frame.length deadline) timer) (frame ++ rest))
    (hbegun : reader'.begun = []) (hstage : reader'.isAwaiting = false) :
    Cut arrived (frames ++ [frame]) reader' rest := by
  have hwhole : arrived = (frames ++ [frame]).flatMap framed ++ rest := by
    rw [h.whole rfl, ReaderStage.begun, List.flatMap_append, List.flatMap_singleton, framed,
      List.append_assoc, List.append_assoc]
  refine ⟨fun other hother => ?_, ⟨rest, hwhole.symm⟩, fun _ => ?_, fun size _ _ hreader' => ?_⟩
  · rcases List.mem_append.1 hother with hold | hnew
    · exact h.valid other hold
    · rw [List.mem_singleton.1 hnew]
      exact h.size _ _ _ rfl
  · rw [hwhole, hbegun, List.nil_append]
  · rw [hreader'] at hstage
    cases hstage

end Journal.Cut

/-! ### How the frames are read -/

/-- The turns in which a message is routed on a connection: each goes on with what the one before it
waits for. Others may change what connections share between two of them. -/
inductive Service.Turns (S : Service) (conn : ConnId) (m : Message) : List Turn → Prop where
  | begun (σ : State) (t : Moment) : Turns S conn m [S.begin σ t conn m]
  | resumed {turns : List Turn} {turn : Turn} {p : Pending} (h : Turns S conn m (turns ++ [turn]))
      (hnext : turn.next = .waiting p) (σ : State) (t : Moment) :
      Turns S conn m (turns ++ [turn] ++ [S.resume σ t conn p])

/-- How a frame is read with a decoder, and the decoder afterwards. -/
inductive Intake.Reads (S : Service) (conn : ConnId) (decoder : StreamDecoder) :
    Intake → StreamDecoder → Prop where
  | unopened {frame : Bytes} {e : CryptoError} (hdecrypt : decoder.decrypt frame = .error e) :
      Reads S conn decoder ⟨frame, .unopened e⟩ decoder
  | malformed {frame text : Bytes} {next : StreamDecoder} {e : CodecError} (t : Moment)
      (hdecrypt : decoder.decrypt frame = .ok (text, next)) (hunpack : Message.unpack text = .error e) :
      Reads S conn decoder ⟨frame, .malformed text (S.malformedReply t)⟩ next
  | message {frame text : Bytes} {next : StreamDecoder} {m : Message} {turns : List Turn}
      (hdecrypt : decoder.decrypt frame = .ok (text, next)) (hunpack : Message.unpack text = .ok m)
      (hturns : S.Turns conn m turns) :
      Reads S conn decoder ⟨frame, .message text m turns⟩ next

/-- How frames are read one after the other. -/
inductive Intake.ReadsAll (S : Service) (conn : ConnId) (first : StreamDecoder) :
    List Intake → StreamDecoder → Prop where
  | nil : ReadsAll S conn first [] first
  | snoc {intakes : List Intake} {x : Intake} {decoder next : StreamDecoder}
      (h : ReadsAll S conn first intakes decoder) (hx : x.Reads S conn decoder next) :
      ReadsAll S conn first (intakes ++ [x]) next

namespace Intake

variable {S : Service} {conn : ConnId} {first next : StreamDecoder} {intakes : List Intake}
  {x : Intake}

/-- The last frame was read after the others. -/
theorem ReadsAll.of_snoc (h : ReadsAll S conn first (intakes ++ [x]) next) :
    ∃ decoder, ReadsAll S conn first intakes decoder ∧ x.Reads S conn decoder next := by
  generalize hlist : intakes ++ [x] = list at h
  cases h with
  | nil => exact absurd hlist (by simp)
  | snoc hbefore hx =>
    obtain ⟨rfl, hlast⟩ := List.append_inj' hlist rfl
    cases hlast
    exact ⟨_, hbefore, hx⟩

/-- Whether the connection goes on after a frame. -/
def Stays (x : Intake) : Prop := x.reading.outcome? = some .stay

end Intake

/-! ### How far the reader has come -/

/-- How far the reader of a session has come with the frames that it took in, given whether its queue
is open and which replies it has placed there. -/
inductive Journal.Stands (isOpen : Bool) (own : List Message) (intakes : List Intake) :
    ReaderStage → Prop where
  /-- It is done with all of them. -/
  | awaiting {part : FramePart} {timer : Nat} (hstay : ∀ x ∈ intakes, x.Stays)
      (hown : own = repliesTo intakes) : Stands isOpen own intakes (.awaiting part timer)
  /-- The last of them is being routed. -/
  | routing {before : List Intake} {frame text : Bytes} {m : Message} {turns : List Turn}
      {turn : Turn} {pending : Pending} {replies : List Message} {since : Nat}
      (hintakes : intakes = before ++ [⟨frame, .message text m (turns ++ [turn])⟩])
      (hstay : ∀ x ∈ before, x.Stays) (hnext : turn.next = .waiting pending)
      (hown : own ++ replies = repliesTo intakes) :
      Stands isOpen own intakes (.routing pending replies since)
  /-- Some replies to the last of them are still to be handed over. -/
  | replying {before : List Intake} {x : Intake} {replies : List Message} {outcome : Outcome}
      {since : Nat} (hintakes : intakes = before ++ [x]) (hstay : ∀ x ∈ before, x.Stays)
      (houtcome : x.reading.outcome? = some outcome) (hown : own ++ replies = repliesTo intakes) :
      Stands isOpen own intakes (.replying replies outcome since)
  /-- It has ended with the outcome of the last of them. -/
  | concluded {before : List Intake} {x : Intake} {outcome : Outcome}
      (hintakes : intakes = before ++ [x]) (hstay : ∀ x ∈ before, x.Stays)
      (houtcome : x.reading.outcome? = some outcome) (hcloses : outcome.closes = true)
      (hown : own = repliesTo intakes) : Stands isOpen own intakes (.ended (.ok outcome))
  /-- It has ended because the last of them does not open. -/
  | rejected {before : List Intake} {frame : Bytes} {e : CryptoError}
      (hintakes : intakes = before ++ [⟨frame, .unopened e⟩]) (hstay : ∀ x ∈ before, x.Stays)
      (hown : own = repliesTo intakes) : Stands isOpen own intakes (.ended (.error (.crypto e)))
  /-- It has given up while it waited for the next. -/
  | failed {e : WireError} (hstay : ∀ x ∈ intakes, x.Stays) (hown : own = repliesTo intakes) :
      Stands isOpen own intakes (.ended (.error e))
  /-- Nobody takes the replies to the last of them, and what was not handed over is lost. -/
  | lost {before : List Intake} {x : Intake} {outcome : Outcome} {unsent : List Message}
      (hintakes : intakes = before ++ [x]) (hstay : ∀ x ∈ before, x.Stays)
      (houtcome : x.reading.outcome? = some outcome) (hclosed : isOpen = false)
      (hown : own ++ unsent = repliesTo intakes) :
      Stands isOpen own intakes (.ended (.error .connectionClosed))

theorem repliesTo_snoc (intakes : List Intake) (x : Intake) :
    repliesTo (intakes ++ [x]) = repliesTo intakes ++ x.reading.replies := by
  rw [repliesTo, List.flatMap_append, List.flatMap_singleton]
  rfl

namespace Journal.Stands

variable {isOpen isOpen' : Bool} {own : List Message} {intakes before : List Intake}
  {reader : ReaderStage}

/-- A queue that is closed later. -/
theorem mono (h : Stands isOpen own intakes reader) (hclosed : isOpen = false → isOpen' = false) :
    Stands isOpen' own intakes reader := by
  cases h with
  | awaiting hstay hown => exact .awaiting hstay hown
  | routing hintakes hstay hnext hown => exact .routing hintakes hstay hnext hown
  | replying hintakes hstay houtcome hown => exact .replying hintakes hstay houtcome hown
  | concluded hintakes hstay houtcome hcloses hown =>
    exact .concluded hintakes hstay houtcome hcloses hown
  | rejected hintakes hstay hown => exact .rejected hintakes hstay hown
  | failed hstay hown => exact .failed hstay hown
  | lost hintakes hstay houtcome hshut hown =>
    exact .lost hintakes hstay houtcome (hclosed hshut) hown

/-- A reader that waits for a frame is done with the others. -/
theorem of_isAwaiting (h : Stands isOpen own intakes reader) (hreader : reader.isAwaiting) :
    (∀ x ∈ intakes, x.Stays) ∧ own = repliesTo intakes := by
  cases h with
  | awaiting hstay hown => exact ⟨hstay, hown⟩
  | routing | replying | concluded | rejected | failed | lost => cases hreader

/-- The reader is where a turn of routing the last frame has brought it. -/
theorem ofTurn {frame text : Bytes} {m : Message} (turns : List Turn) {turn : Turn}
    {replies : List Message} (hintakes : intakes = before ++ [⟨frame, .message text m (turns ++ [turn])⟩])
    (hstay : ∀ x ∈ before, x.Stays)
    (hown : own ++ (replies ++ turn.replies) = repliesTo intakes) (since : Nat) :
    Stands isOpen own intakes (.ofTurn turn replies since) := by
  unfold ReaderStage.ofTurn
  split
  · rename_i outcome hnext
    refine .replying hintakes hstay ?_ hown
    rw [Reading.outcome?, List.getLast?_concat, Option.bind_some, Turn.outcome?, hnext]
  · rename_i hnext
    exact .routing hintakes hstay hnext hown

/-! ### What follows from it -/

/-- All frames but the last have left the connection open. -/
theorem stays (h : Stands isOpen own intakes reader) : ∀ x ∈ intakes.dropLast, x.Stays := by
  have hall (hstay : ∀ x ∈ intakes, x.Stays) : ∀ x ∈ intakes.dropLast, x.Stays :=
    fun x hx => hstay x (List.dropLast_subset _ hx)
  have hbefore {before : List Intake} {x : Intake} (hintakes : intakes = before ++ [x])
      (hstay : ∀ x ∈ before, x.Stays) : ∀ x ∈ intakes.dropLast, x.Stays := by
    rw [hintakes, List.dropLast_concat]
    exact hstay
  cases h with
  | awaiting hstay | failed hstay => exact hall hstay
  | routing hintakes hstay | replying hintakes hstay | concluded hintakes hstay
  | rejected hintakes hstay | lost hintakes hstay => exact hbefore hintakes hstay

/-- The replies that are placed and those that the reader has in hand are all replies, as long as
the queue is open. -/
theorem own_append_replies (h : Stands true own intakes reader) :
    own ++ reader.replies = repliesTo intakes := by
  cases h with
  | awaiting _ hown | failed _ hown => rw [ReaderStage.replies, List.append_nil, hown]
  | rejected _ _ hown => rw [ReaderStage.replies, List.append_nil, hown]
  | concluded _ _ _ _ hown => rw [ReaderStage.replies, List.append_nil, hown]
  | routing _ _ _ hown | replying _ _ _ hown => exact hown
  | lost _ _ _ hclosed => cases hclosed

/-- Even if it was closed, the replies that were placed are the first of all. -/
theorem own_isPrefix (h : Stands isOpen own intakes reader) : own <+: repliesTo intakes := by
  cases h with
  | awaiting _ hown | failed _ hown => exact hown ▸ List.prefix_rfl
  | rejected _ _ hown => exact hown ▸ List.prefix_rfl
  | concluded _ _ _ _ hown => exact hown ▸ List.prefix_rfl
  | routing _ _ _ hown | replying _ _ _ hown => exact ⟨_, hown⟩
  | lost _ _ _ _ hown => exact ⟨_, hown⟩

end Journal.Stands

/-- A frame after which the connection goes on does not close it. -/
theorem Intake.Stays.closes {x : Intake} (h : x.Stays) : x.reading.closes = false := by
  unfold Stays at h
  cases hreading : x.reading with
  | unopened | malformed =>
    rw [hreading] at h
    cases h
  | message text m turns =>
    rw [hreading, Reading.outcome?] at h
    rw [Reading.closes, h]
    rfl

/-- No frame is taken in after the first that closes the connection. -/
theorem Journal.Stands.eq_nil_of_closes {isOpen : Bool} {own : List Message}
    {intakes before after : List Intake} {x : Intake} {reader : ReaderStage}
    (h : Stands isOpen own intakes reader) (hintakes : intakes = before ++ x :: after)
    (hcloses : x.reading.closes = true) : after = [] := by
  by_contra hsome
  have hx : x ∈ intakes.dropLast := by
    rw [hintakes, List.dropLast_append_of_ne_nil (List.cons_ne_nil _ _),
      List.dropLast_cons_of_ne_nil hsome]
    exact List.mem_append_right _ List.mem_cons_self
  rw [(h.stays x hx).closes] at hcloses
  cases hcloses

end Relay
