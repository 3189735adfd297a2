import Relay.Handshake
import Relay.Proofs.Session.Stream

/-!
# `Relay.Proofs.Session.Conversation`: what is said on a session is heard

A session is two lines, one for what each side says (`Line`). On a line the one side seals texts,
the frames are under way in their order, and the other side opens them as they arrive. Both sides
talk and listen in any order (`Conversation.run`).

What ties the ends of a line together is `Line.Carries`: opening the frames that are under way
brings the receiving end to where the sending end is. `Line.carried` follows for a single line, by
what comes in, what goes out and what is under way, and `Conversation.heard_as_said` for both lines.
-/

set_option autoImplicit false

namespace Relay

/-! ### One line -/

/-- What one side says to the other: both ends of the stream, and the frames that are under way. -/
structure Line where
  /-- The end that seals. -/
  sender : StreamEncoder
  /-- The end that opens. -/
  receiver : StreamDecoder
  /-- The frames that were sealed and did not arrive yet, the oldest first. -/
  underWay : List Bytes := []

namespace Line

/-- What happens on a line. -/
inductive Event where
  /-- A text is sealed and goes under way. -/
  | say (text : Bytes)
  /-- The frame that is under way for longest arrives. -/
  | arrive
deriving DecidableEq

/-- What is heard when something happens on a line, and the line afterwards. A text that cannot be
sealed does not go under way. -/
def step (l : Line) : Event → List (Except CryptoError Bytes) × Line
  | .say text =>
    match l.sender.encrypt text with
    | .error _ => ([], l)
    | .ok (frame, sender) => ([], { l with sender, underWay := l.underWay ++ [frame] })
  | .arrive =>
    match l.underWay with
    | [] => ([], l)
    | frame :: underWay =>
      match l.receiver.decrypt frame with
      | .error e => ([.error e], { l with underWay })
      | .ok (text, receiver) => ([.ok text], { l with receiver, underWay })

/-- What is heard on a line as one thing after the other happens, and the line in the end. -/
def run (l : Line) : List Event → List (Except CryptoError Bytes) × Line
  | [] => ([], l)
  | event :: rest =>
    let (heard, l) := l.step event
    let (more, l) := l.run rest
    (heard ++ more, l)

/-- The texts that are said on a line. -/
def said : List Event → List Bytes
  | [] => []
  | .say text :: rest => text :: said rest
  | .arrive :: rest => said rest

/-- Opening frames one after the other gives texts, and leaves the decoder as it is in the end. -/
inductive Opens : StreamDecoder → List Bytes → List Bytes → StreamDecoder → Prop where
  | nil (d : StreamDecoder) : Opens d [] [] d
  | cons {d next last : StreamDecoder} {frame text : Bytes} {frames texts : List Bytes}
    (hopen : d.decrypt frame = .ok (text, next)) (hrest : Opens next frames texts last) :
    Opens d (frame :: frames) (text :: texts) last

theorem Opens.of_cons {d last : StreamDecoder} {frame : Bytes} {frames texts : List Bytes}
    (h : Opens d (frame :: frames) texts last) :
    ∃ text rest next, texts = text :: rest ∧ d.decrypt frame = .ok (text, next) ∧
      Opens next frames rest last := by
  cases h with
  | cons hopen hrest => exact ⟨_, _, _, rfl, hopen, hrest⟩

theorem Opens.snoc {d last next : StreamDecoder} {frame text : Bytes} {frames texts : List Bytes}
    (h : Opens d frames texts last) (hopen : last.decrypt frame = .ok (text, next)) :
    Opens d (frames ++ [frame]) (texts ++ [text]) next := by
  induction h with
  | nil => exact .cons hopen (.nil next)
  | cons hfirst _ ih => exact .cons hfirst (ih hopen)

theorem Opens.length_eq {d last : StreamDecoder} {frames texts : List Bytes}
    (h : Opens d frames texts last) : texts.length = frames.length := by
  induction h with
  | nil => rfl
  | cons _ _ ih => rw [List.length_cons, List.length_cons, ih]

/-- The frames that are under way hold these texts, and there the receiving end has caught up with
the sending end. -/
def Carries (l : Line) (texts : List Bytes) : Prop :=
  Opens l.receiver l.underWay texts l.sender.reader

/-- Whatever happens next on a line, what was under way and what is said come to what is heard and
what is under way then. -/
theorem carried_step (l : Line) (texts : List Bytes) (event : Event)
    (hinverts : l.sender.aead.Inverts) (hcarries : l.Carries texts) :
    ∃ heard texts' : List Bytes, (l.step event).1 = heard.map .ok ∧
      (l.step event).2.Carries texts' ∧
      texts ++ (said [event]).take (streamLimit - l.sender.counter.toNat) = heard ++ texts' ∧
      streamLimit - (l.step event).2.sender.counter.toNat =
        streamLimit - l.sender.counter.toNat - (said [event]).length ∧
      (l.step event).2.sender.aead = l.sender.aead := by
  cases event with
  | say text =>
    unfold step
    dsimp only
    by_cases hcounter : l.sender.counter.toNat < streamLimit
    · rw [StreamEncoder.encrypt_of_lt hcounter]
      refine ⟨[], texts ++ [text], rfl, ?_, ?_, ?_, rfl⟩
      · exact hcarries.snoc (StreamEncoder.decrypt_reader hinverts text)
      · rw [said, said, List.nil_append, List.take_of_length_le]
        rw [List.length_singleton]
        omega
      · rw [StreamEncoder.toNat_counter_advanced hcounter, said, said, List.length_singleton]
        omega
    · rw [StreamEncoder.encrypt_of_not_lt hcounter, Nat.sub_eq_zero_of_le (Nat.not_lt.1 hcounter)]
      exact ⟨[], texts, rfl, hcarries, by simp, by simp, rfl⟩
  | arrive =>
    unfold step
    dsimp only
    cases hfirst : l.underWay with
    | nil => exact ⟨[], texts, rfl, hcarries, by simp [said], by simp [said], rfl⟩
    | cons frame frames =>
      unfold Carries at hcarries
      rw [hfirst] at hcarries
      obtain ⟨text, rest, next, rfl, hopen, hrest⟩ := hcarries.of_cons
      dsimp only
      rw [hopen]
      exact ⟨[text], rest, rfl, hrest, by simp [said], by simp [said], rfl⟩

theorem said_cons (event : Event) (rest : List Event) :
    said (event :: rest) = said [event] ++ said rest := by
  cases event <;> rfl

/-- Whatever happens on a line, what was under way and what is said come to what is heard and what
is under way in the end. -/
theorem carried (l : Line) (texts : List Bytes) (events : List Event)
    (hinverts : l.sender.aead.Inverts) (hcarries : l.Carries texts) :
    ∃ heard texts' : List Bytes, (l.run events).1 = heard.map .ok ∧
      (l.run events).2.Carries texts' ∧
      texts ++ (said events).take (streamLimit - l.sender.counter.toNat) = heard ++ texts' := by
  induction events generalizing l texts with
  | nil => exact ⟨[], texts, rfl, hcarries, by simp [said]⟩
  | cons event rest ih =>
    obtain ⟨first, between, hfirst, hbetween, hstep, hcounter, haead⟩ :=
      l.carried_step texts event hinverts hcarries
    obtain ⟨more, texts', hmore, hlast, hrest⟩ :=
      ih (l.step event).2 between (haead ▸ hinverts) hbetween
    refine ⟨first ++ more, texts', ?_, hlast, ?_⟩
    · rw [run, List.map_append, ← hfirst, ← hmore]
    · rw [said_cons, List.take_append, ← hcounter, ← List.append_assoc, hstep, List.append_assoc,
        hrest, List.append_assoc]

end Line

/-! ### Both lines -/

/-- The two lines of a session, each under the side that speaks on it. -/
abbrev Conversation := Role → Line

namespace Conversation

/-- The lines between the two sides of a session on which nothing was said yet. -/
def start (client relay : Session) : Conversation
  | .client => ⟨client.encoder, relay.decoder, []⟩
  | .relay => ⟨relay.encoder, client.decoder, []⟩

/-- What is heard, each under the side that said it, as one thing after the other happens on the
lines, and the lines in the end. -/
def run (c : Conversation) : List (Role × Line.Event) →
    List (Role × Except CryptoError Bytes) × Conversation
  | [] => ([], c)
  | (role, event) :: rest =>
    let (heard, line) := (c role).step event
    let (more, c) := run (fun other => if other = role then line else c other) rest
    (heard.map (role, ·) ++ more, c)

/-- What belongs to a side, of what belongs to either. -/
def of {α : Type} (role : Role) (items : List (Role × α)) : List α :=
  (items.filter fun item => item.1 = role).map Prod.snd

theorem of_cons_same {α : Type} (role : Role) (item : α) (rest : List (Role × α)) :
    of role ((role, item) :: rest) = item :: of role rest := by
  simp [of]

theorem of_cons_other {α : Type} {role other : Role} (hne : other ≠ role) (item : α)
    (rest : List (Role × α)) : of role ((other, item) :: rest) = of role rest := by
  simp [of, hne]

theorem of_map_append {α : Type} (role other : Role) (items : List α) (rest : List (Role × α)) :
    of role (items.map (other, ·) ++ rest) =
      (if other = role then items else []) ++ of role rest := by
  induction items with
  | nil => simp
  | cons item items ih =>
    rw [List.map_cons, List.cons_append]
    by_cases h : other = role
    · subst h
      rw [of_cons_same, ih, if_pos rfl, if_pos rfl, List.cons_append]
    · rw [of_cons_other h, ih, if_neg h, if_neg h]

/-- The two lines do not meet: what happens on one is as if there were no other. -/
theorem of_run (c : Conversation) (events : List (Role × Line.Event)) (role : Role) :
    of role (c.run events).1 = ((c role).run (of role events)).1 ∧
      (c.run events).2 role = ((c role).run (of role events)).2 := by
  induction events generalizing c with
  | nil => exact ⟨rfl, rfl⟩
  | cons first rest ih =>
    obtain ⟨other, event⟩ := first
    rw [run]
    dsimp only
    rw [of_map_append]
    obtain ⟨hheard, hline⟩ := ih fun r => if r = other then ((c other).step event).2 else c r
    rw [hheard, hline]
    by_cases h : other = role
    · subst h
      rw [of_cons_same, Line.run, if_pos rfl, if_pos rfl]
      exact ⟨rfl, rfl⟩
    · rw [of_cons_other h, if_neg h, if_neg (Ne.symm h), List.nil_append]
      exact ⟨rfl, rfl⟩

/-- Whatever the order in which both sides talk and listen, what each says is heard at the other in
the same order, as far as it arrived, and the rest is under way: nothing is lost, changed or heard
twice. Texts for which there is no counter value are not sealed. -/
def HeardAsSaid (c : Conversation) : Prop :=
  ∀ (events : List (Role × Line.Event)) (role : Role), ∃ arrived,
    of role (c.run events).1 = ((Line.said (of role events)).take arrived).map .ok ∧
    arrived + ((c.run events).2 role).underWay.length =
      min (Line.said (of role events)).length streamLimit

theorem heard_as_said {c : Conversation} (hattached : ∀ role, (c role).Carries [])
    (hfresh : ∀ role, (c role).sender.counter = 0)
    (hinverts : ∀ role, (c role).sender.aead.Inverts) : c.HeardAsSaid := by
  intro events role
  obtain ⟨heard, texts, hheard, hcarries, hsaid⟩ :=
    (c role).carried [] (of role events) (hinverts role) (hattached role)
  obtain ⟨hof, hline⟩ := c.of_run events role
  have hlimit : streamLimit - (c role).sender.counter.toNat = streamLimit := by
    rw [hfresh role]
    rfl
  rw [hlimit, List.nil_append] at hsaid
  have hlength := congrArg List.length hsaid
  rw [List.length_take, List.length_append, hcarries.length_eq] at hlength
  refine ⟨heard.length, ?_, ?_⟩
  · have hprefix : heard = (Line.said (of role events)).take heard.length := by
      have htaken := congrArg (List.take heard.length) hsaid
      rw [List.take_left, List.take_take, Nat.min_eq_left (by omega)] at htaken
      exact htaken.symm
    rw [hof, hheard, ← hprefix]
  · rw [hline]
    omega

end Conversation

end Relay
