import Mathlib.Algebra.Ring.Nat
import Relay.Proofs.Wire.Peer

/-!
# `Relay.Proofs.Wire.Grammar`: what a reader of frames makes of a stream of bytes

A stream of bytes begins with frames, as many as there are, and then there is something that no
frame begins. `Decomposes` says this of the bytes alone, and they can be cut in one way only
(`Decomposes.unique`). A reader that reads frames until that fails (`Peer.ReadsUntil`) gets just
these frames, and how it ends is read off the rest (`Peer.Stops`): a length that no frame has is
reported and nothing behind it is read, otherwise all bytes are used up and it matters what follows
after them.

`Peer.FrameCases` reads the branches of `Peer.readFrame` once; the reader is followed by induction
on its reads. Nothing depends on how the bytes are cut into pieces on their way
(`Peer.frames_read_as_cut`), and frames that were written are read again.
-/

set_option autoImplicit false

namespace Relay

/-! ### The grammar -/

/-- Whether bytes can be the body of a frame. -/
def IsFrame (frame : Bytes) : Prop := 1 ≤ frame.length ∧ frame.length ≤ 272

instance (frame : Bytes) : Decidable (IsFrame frame) := inferInstanceAs (Decidable (_ ∧ _))

/-- Bytes are the given frames, each as it stands in a stream, and a rest that no frame begins. -/
structure Decomposes (bytes : Bytes) (frames : List Bytes) (rest : Bytes) : Prop where
  whole : bytes = frames.flatMap framed ++ rest
  frames : ∀ frame ∈ frames, IsFrame frame
  maximal : ∀ frame behind : Bytes, IsFrame frame → rest ≠ framed frame ++ behind

/-- The length of a frame is told by the first four of its bytes. -/
theorem toNat_ofNat_length {frame : Bytes} (h : IsFrame frame) :
    (UInt32.ofNat frame.length).toNat = frame.length :=
  UInt32.toNat_ofNat_of_lt' (Nat.lt_of_le_of_lt h.2 (by decide))

/-- Two streams that are the same begin with the same length. -/
theorem word32_append_inj {length length' : UInt32} {behind behind' : Bytes}
    (heq : word32 length ++ behind = word32 length' ++ behind') :
    length = length' ∧ behind = behind' := by
  obtain ⟨hword, hbehind⟩ := List.append_inj heq (by simp)
  have hlength := congrArg ofWord32 hword
  rw [ofWord32_word32, ofWord32_word32] at hlength
  exact ⟨hlength, hbehind⟩

/-- A stream that begins with a frame begins with its length. -/
theorem toNat_eq_of_framed {length : UInt32} {frame tail behind : Bytes} (hframe : IsFrame frame)
    (heq : word32 length ++ tail = framed frame ++ behind) :
    length.toNat = frame.length ∧ tail = frame ++ behind := by
  rw [framed, List.append_assoc] at heq
  obtain ⟨rfl, htail⟩ := word32_append_inj heq
  exact ⟨toNat_ofNat_length hframe, htail⟩

/-- Two streams that are the same begin with the same frame, if they begin with one. -/
theorem framed_append_inj {frame frame' behind behind' : Bytes} (h : IsFrame frame)
    (h' : IsFrame frame') (heq : framed frame ++ behind = framed frame' ++ behind') :
    frame = frame' ∧ behind = behind' := by
  rw [framed, List.append_assoc] at heq
  obtain ⟨hsize, htail⟩ := toNat_eq_of_framed h' heq
  rw [toNat_ofNat_length h] at hsize
  exact List.append_inj htail hsize

namespace Decomposes

variable {bytes rest rest' : Bytes} {frames frames' : List Bytes}

/-- However many frames are cut off the front, they are the first of all there are. -/
theorem longest (h : Decomposes bytes frames rest) (hframes : ∀ frame ∈ frames', IsFrame frame)
    (hwhole : bytes = frames'.flatMap framed ++ rest') : frames' <+: frames := by
  induction frames' generalizing bytes frames with
  | nil => exact List.nil_prefix
  | cons frame' later' ih =>
    obtain ⟨hframe', hlater'⟩ := List.forall_mem_cons.1 hframes
    rw [List.flatMap_cons, List.append_assoc] at hwhole
    cases frames with
    | nil => exact absurd (h.whole.symm.trans hwhole) (h.maximal _ _ hframe')
    | cons frame later =>
      have hsplit := h.whole.symm.trans hwhole
      rw [List.flatMap_cons, List.append_assoc] at hsplit
      obtain ⟨hframe, hlater⟩ := List.forall_mem_cons.1 h.frames
      obtain ⟨rfl, hrest⟩ := framed_append_inj hframe hframe' hsplit
      have hprefix := ih ⟨rfl, hlater, h.maximal⟩ hlater' hrest
      exact (List.prefix_cons_inj frame).2 hprefix

/-- There is one way to cut bytes into frames and a rest that no frame begins. -/
theorem unique (h : Decomposes bytes frames rest) (h' : Decomposes bytes frames' rest') :
    frames' = frames ∧ rest' = rest := by
  have hforth := h.longest h'.frames h'.whole
  have hback := h'.longest h.frames h.whole
  obtain rfl := hforth.eq_of_length_le hback.length_le
  exact ⟨rfl, List.append_cancel_left (h'.whole.symm.trans h.whole)⟩

/-- A frame takes five bytes at least. -/
theorem five_mul_length_le (h : Decomposes bytes frames rest) :
    5 * frames.length ≤ bytes.length := by
  obtain ⟨rfl, hframes, -⟩ := h
  rw [List.length_append]
  induction frames with
  | nil => exact Nat.zero_le _
  | cons frame later ih =>
    obtain ⟨hframe, hlater⟩ := List.forall_mem_cons.1 hframes
    have hfirst : 5 ≤ (framed frame).length := by
      rw [Peer.length_framed, frameLengthSize]
      exact Nat.add_le_add_left hframe.1 4
    have hrest := ih hlater
    rw [List.flatMap_cons, List.length_append, List.length_cons]
    omega

end Decomposes

/-- Frames and nothing else are the frames that they are made of. -/
theorem decomposes_flatMap {frames : List Bytes} (hframes : ∀ frame ∈ frames, IsFrame frame) :
    Decomposes (frames.flatMap framed) frames [] := by
  refine ⟨(List.append_nil _).symm, hframes, fun frame behind _ heq => ?_⟩
  have hlength := congrArg List.length heq
  rw [List.length_append, Peer.length_framed, frameLengthSize, List.length_nil] at hlength
  omega

/-- A length is accepted just if it is that of a frame. -/
theorem isFrameLength_iff (length : UInt32) :
    isFrameLength length = true ↔ 1 ≤ length.toNat ∧ length.toNat ≤ 272 := by
  have hzero : length ≠ 0 ↔ 1 ≤ length.toNat := by
    rw [Nat.one_le_iff_ne_zero, ne_eq, ne_eq, ← UInt32.toNat_inj]
    rfl
  simp only [isFrameLength, Bool.and_eq_true, bne_iff_ne, decide_eq_true_eq, hzero]
  rfl

/-- A length is not that of a frame just if it is zero or too large. -/
theorem isFrameLength_eq_false_iff (length : UInt32) :
    isFrameLength length = false ↔ length = 0 ∨ 272 < length.toNat := by
  have hzero : length = 0 ↔ length.toNat = 0 := UInt32.toNat_inj.symm
  rw [← Bool.not_eq_true, isFrameLength_iff, hzero]
  omega

/-- A rest begins with a length that no frame has, or whatever it begins with is one. -/
theorem invalid_or_valid (rest : Bytes) :
    (∃ (length : UInt32) (behind : Bytes), rest = word32 length ++ behind ∧
      (length = 0 ∨ 272 < length.toNat)) ∨
    ∀ (length : UInt32) (behind : Bytes), rest = word32 length ++ behind →
      1 ≤ length.toNat ∧ length.toNat ≤ 272 := by
  refine or_iff_not_imp_left.2 fun hnone length behind hrest => ?_
  rw [← isFrameLength_iff, ← Bool.not_eq_false, isFrameLength_eq_false_iff]
  exact fun hlength => hnone ⟨length, behind, hrest, hlength⟩

namespace Peer

variable {p q : Peer} {idle part : Nat}

/-! ### Reading one frame -/

/-- What reading a frame comes to: what is returned, and the peer afterwards. -/
inductive FrameCases (p : Peer) : Except WireError Bytes × Peer → Prop where
  /-- There is a frame, and just this is used up. -/
  | frame {frame : Bytes} {q : Peer} (hframe : IsFrame frame)
    (hpending : p.pending = framed frame ++ q.pending)
    (hconsumed : q.consumed = p.consumed + (framed frame).length) (hwrites : SameWrites p q) :
    FrameCases p (.ok frame, q)
  /-- There is a length that no frame has, and just this is used up. -/
  | invalid {length : UInt32} {q : Peer} (hlength : isFrameLength length = false)
    (hpending : p.pending = word32 length ++ q.pending)
    (hconsumed : q.consumed = p.consumed + frameLengthSize) :
    FrameCases p (.error (.invalidLength length), q)
  /-- There is no length. -/
  | short {q : Peer} (hshort : p.pending.length < frameLengthSize) (hpending : q.pending = [])
    (hconsumed : q.consumed = p.consumed + p.pending.length) :
    FrameCases p (.error (p.endError .frameLengthRead), q)
  /-- There is a length, but less behind it. -/
  | cut {length : UInt32} {body : Bytes} {q : Peer} (hlength : isFrameLength length = true)
    (hthere : p.pending = word32 length ++ body) (hcut : body.length < length.toNat)
    (hpending : q.pending = []) (hconsumed : q.consumed = p.consumed + p.pending.length) :
    FrameCases p (.error (p.endError .frameBodyRead), q)

theorem frameCases (p : Peer) (idle part : Nat) : FrameCases p (p.readFrame idle part) := by
  have hcases := p.readCases frameLengthSize idle .frameLengthRead
  unfold readFrame
  generalize p.read frameLengthSize idle .frameLengthRead = got at hcases ⊢
  cases hcases with
  | short hshort _ hpending hconsumed => exact .short hshort hpending hconsumed
  | @got q hlong hpending hconsumed hwrites =>
    -- The first four bytes are a length, whatever they are.
    have hfirst : (p.pending.take frameLengthSize).length = 4 := by
      rw [List.length_take, frameLengthSize]
      exact Nat.min_eq_left hlong
    have hthere : p.pending = word32 (ofWord32 (p.pending.take frameLengthSize)) ++ q.pending := by
      rw [word32_ofWord32 hfirst, hpending, List.take_append_drop]
    have hmore : p.pending.length = frameLengthSize + q.pending.length := by
      rw [hpending, List.length_drop]
      omega
    dsimp only
    generalize ofWord32 (p.pending.take frameLengthSize) = length at hthere ⊢
    split
    · rename_i hlength
      have hbody := q.readCases length.toNat part .frameBodyRead
      generalize q.read length.toNat part .frameBodyRead = got at hbody ⊢
      cases hbody with
      | @got r hlong' hpending' hconsumed' hwrites' =>
        have hsize : (q.pending.take length.toNat).length = length.toNat := by
          rw [List.length_take]
          exact Nat.min_eq_left hlong'
        have hframe : IsFrame (q.pending.take length.toNat) := by
          rw [IsFrame, hsize]
          exact (isFrameLength_iff length).1 hlength
        refine .frame hframe ?_ ?_ ⟨hwrites'.accepted.trans hwrites.accepted,
          hwrites'.room.trans hwrites.room, hwrites'.ending.trans hwrites.ending⟩
        · rw [framed, hsize, UInt32.ofNat_toNat, List.append_assoc, hpending',
            List.take_append_drop, hthere]
        · rw [length_framed, hsize, hconsumed', hconsumed, Nat.add_assoc]
      | short hshort' _ hpending' hconsumed' =>
        have hending : q.endError .frameBodyRead = p.endError .frameBodyRead := by
          rw [endError, endError, hwrites.ending]
        rw [hending]
        refine .cut hlength hthere hshort' hpending' ?_
        rw [hconsumed', hconsumed, hmore, Nat.add_assoc]
    · rename_i hlength
      exact .invalid (Bool.eq_false_iff.2 hlength) hthere hconsumed

/-! ### Reading frames until that fails -/

/-- Frames are read one after the other until that fails: the frames, why it failed, and the peer
then. -/
inductive ReadsUntil (idle part : Nat) : Peer → List Bytes → WireError → Peer → Prop where
  | stops {p q : Peer} {e : WireError} (hread : p.readFrame idle part = (.error e, q)) :
    ReadsUntil idle part p [] e q
  | goesOn {p q r : Peer} {frame : Bytes} {later : List Bytes} {e : WireError}
    (hread : p.readFrame idle part = (.ok frame, q))
    (hlater : ReadsUntil idle part q later e r) : ReadsUntil idle part p (frame :: later) e r

/-- There is always an end, and `readFrames` comes to it. -/
theorem readsUntil_iff {frames : List Bytes} {e : WireError} :
    ReadsUntil idle part p frames e q ↔ p.readFrames idle part = (frames, e, q) := by
  constructor
  · intro h
    induction h with
    | stops hread =>
      rw [readFrames]
      split
      · rename_i h'
        rw [hread] at h'
        cases h'
        rfl
      · rename_i h'
        rw [hread] at h'
        cases h'
    | goesOn hread _ ih =>
      rw [readFrames]
      split
      · rename_i h'
        rw [hread] at h'
        cases h'
      · rename_i h'
        rw [hread] at h'
        cases h'
        rw [ih]
  · intro h
    -- The reader's own recursion: what is left to read gets shorter.
    fun_induction readFrames p idle part generalizing frames e q with
    | case1 p e' q' hread =>
      cases h
      exact .stops hread
    | case2 p frame q' hread hshorter later e' q'' hrest ih =>
      cases h
      exact .goesOn hread (ih hrest)

/-- What a reader is told that has used up all bytes and would need more than the rest. -/
def shortage (ending : Option Fault) (rest : Bytes) : WireError :=
  match ending with
  | none => .connectionClosed
  | some .silent => .timeout (if rest.length < 4 then .frameLengthRead else .frameBodyRead)
  | some (.broken reason) => .io reason

theorem endError_eq_shortage {step : WireStep} {rest : Bytes}
    (hstep : step = if rest.length < 4 then .frameLengthRead else .frameBodyRead) :
    p.endError step = shortage p.ending rest := by
  rw [hstep]
  unfold endError shortage
  rcases p.ending with _ | _ | reason <;> rfl

/-- How a reader ends that has used up so many bytes for frames and is left with a rest that no
frame begins. -/
structure Stops (p : Peer) (used : Nat) (rest : Bytes) (e : WireError) (q : Peer) : Prop where
  /-- A length that no frame has is told, and what is behind it is not read. -/
  invalid : ∀ (length : UInt32) (behind : Bytes), rest = word32 length ++ behind →
    length = 0 ∨ 272 < length.toNat →
      e = .invalidLength length ∧ q.consumed = p.consumed + used + 4 ∧ q.pending = behind
  /-- Otherwise everything is used up, and what follows is told. -/
  usedUp : (∀ (length : UInt32) (behind : Bytes), rest = word32 length ++ behind →
    1 ≤ length.toNat ∧ length.toNat ≤ 272) →
      q.consumed = p.consumed + p.pending.length ∧ q.pending = [] ∧ e = shortage p.ending rest

/-- Where no frame is read, none is there, and the reader stops. -/
theorem FrameCases.stops {e : WireError} (h : FrameCases p (.error e, q)) :
    Decomposes p.pending [] p.pending ∧ Stops p 0 p.pending e q := by
  cases h with
  | @invalid length _ hlength hpending hconsumed =>
    have hnone := (isFrameLength_eq_false_iff length).1 hlength
    refine ⟨⟨rfl, nofun, fun frame behind hframe heq => ?_⟩, fun length' behind heq _ => ?_,
      fun hvalid => ?_⟩
    · obtain ⟨hsize, -⟩ := toNat_eq_of_framed hframe (hpending.symm.trans heq)
      have hvalid := (isFrameLength_iff length).2 (hsize ▸ hframe)
      rw [hlength] at hvalid
      cases hvalid
    · obtain ⟨rfl, rfl⟩ := word32_append_inj (hpending.symm.trans heq)
      exact ⟨rfl, hconsumed, rfl⟩
    · have hvalid := (isFrameLength_iff length).2 (hvalid length q.pending hpending)
      rw [hlength] at hvalid
      cases hvalid
  | short hshort hpending hconsumed =>
    have hfew : ∀ (length : UInt32) (behind : Bytes), p.pending ≠ word32 length ++ behind := by
      intro length behind heq
      rw [heq, List.length_append, length_word32, frameLengthSize] at hshort
      omega
    refine ⟨⟨rfl, nofun, fun frame behind _ heq => ?_⟩, fun length behind heq _ => ?_, fun _ => ?_⟩
    · rw [framed, List.append_assoc] at heq
      exact hfew _ _ heq
    · exact absurd heq (hfew length behind)
    · exact ⟨hconsumed, hpending, endError_eq_shortage (if_pos hshort).symm⟩
  | @cut length body _ hlength hthere hcut hpending hconsumed =>
    refine ⟨⟨rfl, nofun, fun frame behind hframe heq => ?_⟩, fun length' behind heq hnone => ?_,
      fun _ => ?_⟩
    · obtain ⟨hsize, rfl⟩ := toNat_eq_of_framed hframe (hthere.symm.trans heq)
      rw [List.length_append] at hcut
      omega
    · obtain ⟨rfl, rfl⟩ := word32_append_inj (hthere.symm.trans heq)
      rw [(isFrameLength_eq_false_iff length).2 hnone] at hlength
      cases hlength
    · have hlong : ¬ p.pending.length < 4 := by
        rw [hthere, List.length_append, length_word32]
        omega
      exact ⟨hconsumed, hpending, endError_eq_shortage (if_neg hlong).symm⟩

/-- How a reader ends after a frame is how it ends, with the frame used up as well. -/
theorem Stops.after_frame {used : Nat} {rest frame : Bytes} {e : WireError} {r : Peer}
    (h : Stops q used rest e r) (hpending : p.pending = framed frame ++ q.pending)
    (hconsumed : q.consumed = p.consumed + (framed frame).length) (hwrites : SameWrites p q) :
    Stops p ((framed frame).length + used) rest e r := by
  constructor
  · intro length behind hrest hnone
    obtain ⟨he, hused, hbehind⟩ := h.invalid length behind hrest hnone
    exact ⟨he, by omega, hbehind⟩
  · intro hvalid
    obtain ⟨hused, hnothing, he⟩ := h.usedUp hvalid
    refine ⟨?_, hnothing, ?_⟩
    · rw [hpending, List.length_append]
      omega
    · rw [he, hwrites.ending]

/-- A reader gets the frames that the bytes are made of, and stops at the rest. -/
theorem ReadsUntil.decomposes {frames : List Bytes} {e : WireError}
    (h : ReadsUntil idle part p frames e q) :
    ∃ rest : Bytes, Decomposes p.pending frames rest ∧
      Stops p (frames.flatMap framed).length rest e q := by
  induction h with
  | @stops p q e hread =>
    have hcases := p.frameCases idle part
    rw [hread] at hcases
    exact ⟨p.pending, hcases.stops⟩
  | @goesOn p q r frame later e hread _ ih =>
    obtain ⟨rest, ⟨hwhole, hlater, hmaximal⟩, hstops⟩ := ih
    have hcases := p.frameCases idle part
    rw [hread] at hcases
    cases hcases with
    | frame hframe hpending hconsumed hwrites =>
      refine ⟨rest, ⟨?_, List.forall_mem_cons.2 ⟨hframe, hlater⟩, hmaximal⟩, ?_⟩
      · rw [hpending, List.flatMap_cons, List.append_assoc, ← hwhole]
      · rw [List.flatMap_cons, List.length_append]
        exact hstops.after_frame hpending hconsumed hwrites

/-- What follows after the bytes decides how a reader ends, and the peer does not matter
otherwise. -/
theorem Stops.same {p' q' : Peer} {used : Nat} {rest : Bytes} {e e' : WireError}
    (h : Stops p used rest e q) (h' : Stops p' used rest e' q')
    (hpending : p'.pending = p.pending) (hending : p'.ending = p.ending) :
    e' = e ∧ q'.pending = q.pending ∧ q'.consumed + p.consumed = q.consumed + p'.consumed := by
  rcases invalid_or_valid rest with ⟨length, behind, hrest, hlength⟩ | hvalid
  · obtain ⟨rfl, hconsumed, rfl⟩ := h.invalid length behind hrest hlength
    obtain ⟨rfl, hconsumed', hbehind'⟩ := h'.invalid length _ hrest hlength
    exact ⟨rfl, hbehind', by omega⟩
  · obtain ⟨hconsumed, hnothing, rfl⟩ := h.usedUp hvalid
    obtain ⟨hconsumed', hnothing', rfl⟩ := h'.usedUp hvalid
    rw [hpending] at hconsumed'
    exact ⟨by rw [hending], hnothing'.trans hnothing.symm, by omega⟩

/-! ### Writing frames -/

/-- Writes frames one after the other until that fails. The limits are in milliseconds. -/
def writeFrames (p : Peer) (idle part : Nat) : List Bytes → Except WireError Unit × Peer
  | [] => (.ok (), p)
  | frame :: later =>
    match p.writeFrame frame idle part with
    | (.error e, q) => (.error e, q)
    | (.ok _, q) => q.writeFrames idle part later

/-- Frames that get through are taken as they stand in a stream, one after the other. -/
theorem accepted_writeFrames {frames : List Bytes}
    (h : (p.writeFrames idle part frames).1 = .ok ()) :
    (p.writeFrames idle part frames).2.accepted = p.accepted ++ frames.flatMap framed := by
  induction frames generalizing p with
  | nil => exact (List.append_nil _).symm
  | cons frame later ih =>
    have hcases := p.writeCases_writeFrame frame idle part
    unfold writeFrames at h ⊢
    generalize p.writeFrame frame idle part = written at hcases h ⊢
    cases hcases with
    | cut => cases h
    | through _ haccepted =>
      rw [List.flatMap_cons, ← List.append_assoc, ← haccepted]
      exact ih h

/-- Frames get through if and only if there is room for them, with the length before each. -/
theorem writeFrames_eq_ok_iff {frames : List Bytes} :
    (p.writeFrames idle part frames).1 = .ok () ↔
      p.hasRoom (frames.flatMap framed).length = true := by
  induction frames generalizing p with
  | nil =>
    have hnothing : p.hasRoom 0 = true := by simp [hasRoom]
    exact iff_of_true rfl hnothing
  | cons frame later ih =>
    have hcases := p.writeCases_writeFrame frame idle part
    rw [List.flatMap_cons, List.length_append]
    unfold writeFrames
    generalize p.writeFrame frame idle part = written at hcases ⊢
    cases hcases with
    | through _ _ hleft => rw [← hleft, ← ih]
    | cut hroom =>
      refine iff_of_false (fun hwritten => ?_) fun hboth => ?_
      · cases hwritten
      · rw [hasRoom_of_le (Nat.le_add_right _ _) hboth] at hroom
        cases hroom

end Peer

/-! ### What is read -/

/-- What may be relied on about reading frames until that fails. -/
structure ReadByGrammar (idle part : Nat) (p : Peer) (frames : List Bytes) (rest : Bytes)
    (e : WireError) (q : Peer) : Prop where
  /-- Reading comes to an end. -/
  ends : p.ReadsUntil idle part frames e q
  /-- It ends in one way, the one in which the relay does it. -/
  only : ∀ (frames' : List Bytes) (e' : WireError) (q' : Peer),
    p.ReadsUntil idle part frames' e' q' → frames' = frames ∧ e' = e ∧ q' = q
  runs : p.readFrames idle part = (frames, e, q)
  /-- The frames are those that the bytes are made of, as many as there are. -/
  decomposed : Decomposes p.pending frames rest
  unique : ∀ (frames' : List Bytes) (rest' : Bytes), Decomposes p.pending frames' rest' →
    frames' = frames ∧ rest' = rest
  few : 5 * frames.length ≤ p.pending.length
  /-- The rest and what follows after it decide how it ends. -/
  stops : p.Stops (frames.flatMap framed).length rest e q
  /-- If nothing follows, it is told what was waited for. -/
  stalled : ∀ step : WireStep, e = .timeout step →
    step.label = if rest.length < 4 then "frame length read" else "frame body read"

namespace Peer

variable {p p' q q' : Peer} {frames frames' : List Bytes} {e e' : WireError}

/-- A reader that waits in vain waits for a length or for a body. -/
theorem Stops.label_of_timeout {used : Nat} {rest : Bytes} (h : Stops p used rest e q)
    {step : WireStep} (he : e = .timeout step) :
    step.label = if rest.length < 4 then "frame length read" else "frame body read" := by
  rcases invalid_or_valid rest with ⟨length, behind, hrest, hlength⟩ | hvalid
  · rw [(h.invalid length behind hrest hlength).1] at he
    cases he
  · rw [(h.usedUp hvalid).2.2] at he
    unfold shortage at he
    split at he
    · cases he
    · obtain rfl := WireError.timeout.inj he
      split <;> rfl
    · cases he

/-- However a peer sends its bytes, and whatever follows after them, reading frames until that
fails gives the frames that the bytes are made of, and no others. -/
theorem readByGrammar (p : Peer) (idle part : Nat) :
    ∃ (frames : List Bytes) (rest : Bytes) (e : WireError) (q : Peer),
      ReadByGrammar idle part p frames rest e q := by
  obtain ⟨frames, e, q, hruns⟩ : ∃ frames e q, p.readFrames idle part = (frames, e, q) :=
    ⟨_, _, _, rfl⟩
  have hends := readsUntil_iff.2 hruns
  obtain ⟨rest, hdecomposed, hstops⟩ := hends.decomposes
  refine ⟨frames, rest, e, q, hends, fun frames' e' q' hends' => ?_, hruns, hdecomposed,
    fun frames' rest' => hdecomposed.unique, hdecomposed.five_mul_length_le, hstops,
    fun step => hstops.label_of_timeout⟩
  have hsame := hruns.symm.trans (readsUntil_iff.1 hends')
  simp only [Prod.mk.injEq] at hsame
  exact ⟨hsame.1.symm, hsame.2.1.symm, hsame.2.2.symm⟩

/-- Bytes that are cut into other pieces, and read under other limits, are read in the same way. -/
theorem ReadsUntil.same {idle part idle' part' : Nat} (h : p.ReadsUntil idle part frames e q)
    (h' : p'.ReadsUntil idle' part' frames' e' q') (hpending : p'.pending = p.pending)
    (hending : p'.ending = p.ending) :
    frames' = frames ∧ e' = e ∧ q'.pending = q.pending ∧
      q'.consumed + p.consumed = q.consumed + p'.consumed := by
  obtain ⟨rest, hdecomposed, hstops⟩ := h.decomposes
  obtain ⟨rest', hdecomposed', hstops'⟩ := h'.decomposes
  rw [hpending] at hdecomposed'
  obtain ⟨rfl, rfl⟩ := hdecomposed.unique hdecomposed'
  exact ⟨rfl, hstops.same hstops' hpending hending⟩

/-- Frames that were written are read again, and then nothing is left. -/
theorem exists_readsUntil_of_written {w r : Peer} {idle part : Nat} (idle' part' : Nat)
    (hframes : ∀ frame ∈ frames, IsFrame frame)
    (hwritten : (w.writeFrames idle part frames).1 = .ok ())
    (hpending : (w.writeFrames idle part frames).2.accepted = w.accepted ++ r.pending) :
    ∃ q : Peer, r.ReadsUntil idle' part' frames (shortage r.ending []) q ∧ q.pending = [] := by
  rw [accepted_writeFrames hwritten] at hpending
  have hwhole := List.append_cancel_left hpending
  obtain ⟨frames', rest, e, q, hread⟩ := r.readByGrammar idle' part'
  obtain ⟨rfl, rfl⟩ := hread.unique frames [] (hwhole ▸ decomposes_flatMap hframes)
  obtain ⟨-, hnothing, rfl⟩ := hread.stops.usedUp fun length behind heq => by
    have hlength := congrArg List.length heq
    rw [List.length_append, length_word32, List.length_nil] at hlength
    omega
  exact ⟨q, hread.ends, hnothing⟩

/-- Reading frames until that fails comes to an end for every peer, and gives the frames that its
bytes are made of. How the bytes are cut into pieces makes no difference. Frames are written if the
other end has room for them, and what was written is read again. -/
theorem frames_read_as_cut :
    (∀ (p : Peer) (idle part : Nat), ∃ (frames : List Bytes) (rest : Bytes) (e : WireError)
      (q : Peer), ReadByGrammar idle part p frames rest e q) ∧
    (∀ (p p' q q' : Peer) (frames frames' : List Bytes) (e e' : WireError)
      (idle part idle' part' : Nat), p'.pending = p.pending → p'.ending = p.ending →
      p.ReadsUntil idle part frames e q → p'.ReadsUntil idle' part' frames' e' q' →
        frames' = frames ∧ e' = e ∧ q'.pending = q.pending ∧
          q'.consumed + p.consumed = q.consumed + p'.consumed) ∧
    (∀ (w : Peer) (frames : List Bytes) (idle part : Nat),
      (w.writeFrames idle part frames).1 = .ok () ↔
        w.hasRoom (frames.flatMap framed).length = true) ∧
    ∀ (w r : Peer) (frames : List Bytes) (idle part idle' part' : Nat),
      (∀ frame ∈ frames, IsFrame frame) → (w.writeFrames idle part frames).1 = .ok () →
      (w.writeFrames idle part frames).2.accepted = w.accepted ++ r.pending →
        ∃ q : Peer, r.ReadsUntil idle' part' frames (shortage r.ending []) q ∧ q.pending = [] := by
  refine ⟨readByGrammar, ?_, fun w frames idle part => writeFrames_eq_ok_iff, ?_⟩
  · intro p p' q q' frames frames' e e' idle part idle' part' hpending hending h h'
    exact h.same h' hpending hending
  · intro w r frames idle part idle' part' hframes hwritten hpending
    exact exists_readsUntil_of_written idle' part' hframes hwritten hpending

end Peer

namespace Sample

/-- Two frames. -/
def frames : List Bytes := [[7, 7, 7], [1]]

/-- A peer that sends them in four pieces and is silent then. -/
def slowPeer : Peer where
  arriving := [[3, 0], [0, 0, 7], [7, 7, 1, 0, 0], [0, 1]]
  ending := some .silent

/-- A peer that sends them in one piece and is silent then. -/
def swiftPeer : Peer where
  arriving := [[3, 0, 0, 0, 7, 7, 7, 1, 0, 0, 0, 1]]
  ending := some .silent

/-- A peer that sends a frame, the length 273, and a byte behind it. -/
def garbledPeer : Peer := { arriving := [[1, 0, 0, 0, 9, 17], [1, 0, 0, 5]] }

end Sample

/-- Two frames that were written are read again, in whatever pieces they arrive. A length that is
too large is told, and the byte behind it stays where it is. -/
theorem Peer.frames_read_as_cut_pieces :
    (∃ q q' : Peer,
      Sample.slowPeer.ReadsUntil 30 5 Sample.frames (.timeout .frameLengthRead) q ∧
      Sample.swiftPeer.ReadsUntil 60 5 Sample.frames (.timeout .frameLengthRead) q' ∧
      q.pending = [] ∧ q'.pending = [] ∧ q'.consumed = q.consumed) ∧
    ∃ (rest : Bytes) (q : Peer), rest = word32 273 ++ [5] ∧
      ReadByGrammar 30 5 Sample.garbledPeer [[9]] rest (.invalidLength 273) q ∧
      q.consumed = 9 ∧ q.pending = [5] := by
  obtain ⟨hread, hcut, hroom, hwritten⟩ := frames_read_as_cut
  constructor
  · obtain ⟨q, hends, hnothing⟩ := hwritten {} Sample.slowPeer Sample.frames 30 5 30 5
      (by decide) ((hroom _ _ _ _).2 rfl) (by decide)
    obtain ⟨q', hends', hnothing'⟩ := hwritten {} Sample.swiftPeer Sample.frames 30 5 60 5
      (by decide) ((hroom _ _ _ _).2 rfl) (by decide)
    obtain ⟨-, -, -, hconsumed⟩ := hcut _ _ _ _ _ _ _ _ _ _ _ _ (by decide) (by decide)
      hends hends'
    exact ⟨q, q', hends, hends', hnothing, hnothing', hconsumed⟩
  · obtain ⟨frames, rest, e, q, h⟩ := hread Sample.garbledPeer 30 5
    have hmaximal : ∀ frame behind : Bytes, IsFrame frame →
        word32 273 ++ [5] ≠ framed frame ++ behind := by
      intro frame behind hframe heq
      have hsize := (toNat_eq_of_framed hframe heq).1
      exact absurd (hsize ▸ hframe.2) (by decide)
    obtain ⟨rfl, rfl⟩ := h.unique [[9]] (word32 273 ++ [5]) ⟨by decide, by decide, hmaximal⟩
    obtain ⟨rfl, hconsumed, hpending⟩ := h.stops.invalid 273 [5] rfl (by decide)
    exact ⟨_, q, rfl, h, hconsumed, hpending⟩

end Relay
