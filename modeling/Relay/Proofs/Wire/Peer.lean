import Relay.Wire.Frame

/-!
# `Relay.Proofs.Wire.Peer`: what a write puts on the wire and a read takes from it

`WriteCases` and `ReadCases` say once what writing and reading come to. A write gets through as a
whole, or it is cut off where there is no more room. A read takes what it asks for, or it meets what
follows after the last bytes.

The two writes of a frame come to one write of the frame as it stands in the stream
(`Peer.writeCases_writeFrame`). A reader gets a frame that is there as a whole
(`Peer.readFrame_framed`), and meets the end of the stream where it was cut off, wherever that was
(`Peer.readFrame_of_cut`).
-/

set_option autoImplicit false

namespace Relay

namespace Peer

variable {p : Peer}

/-! ### Writing -/

/-- Whether a peer takes so many more bytes. -/
def hasRoom (p : Peer) (size : Nat) : Bool := p.room.all (size ≤ ·)

theorem hasRoom_of_le {size larger : Nat} (hle : size ≤ larger) (h : p.hasRoom larger = true) :
    p.hasRoom size = true := by
  unfold hasRoom at h ⊢
  cases hroom : p.room with
  | none => rfl
  | some room =>
    simp only [hroom, Option.all_some, decide_eq_true_eq] at h ⊢
    omega

theorem hasRoom_iff_of_full {size : Nat} (hfull : p.room = some 0) :
    p.hasRoom size = true ↔ size = 0 := by
  simp [hasRoom, hfull]

/-- What writing leaves alone: what comes from the peer, and how it refuses. -/
structure SameReads (p q : Peer) : Prop where
  arriving : q.arriving = p.arriving
  ending : q.ending = p.ending
  consumed : q.consumed = p.consumed
  refusal : q.refusal = p.refusal

theorem SameReads.trans {q r : Peer} (h : SameReads p q) (h' : SameReads q r) : SameReads p r :=
  ⟨h'.arriving.trans h.arriving, h'.ending.trans h.ending, h'.consumed.trans h.consumed,
    h'.refusal.trans h.refusal⟩

theorem SameReads.pending_eq {q : Peer} (h : SameReads p q) : q.pending = p.pending :=
  congrArg List.flatten h.arriving

/-- What writing bytes comes to: what is returned, and the peer afterwards. -/
inductive WriteCases (p : Peer) (bytes : Bytes) : Except WireError Unit × Peer → Prop where
  /-- All of them get through. -/
  | through {q : Peer} (hroom : p.hasRoom bytes.length = true)
    (haccepted : q.accepted = p.accepted ++ bytes)
    (hleft : ∀ size, q.hasRoom size = p.hasRoom (bytes.length + size)) (hreads : SameReads p q) :
    WriteCases p bytes (.ok (), q)
  /-- They are cut off where there is no more room. -/
  | cut {q : Peer} {step : WireStep} {n : Nat} (hroom : p.hasRoom bytes.length = false)
    (hn : n < bytes.length) (htaken : p.hasRoom n = true)
    (haccepted : q.accepted = p.accepted ++ bytes.take n) (hfull : q.room = some 0) :
    WriteCases p bytes (.error (p.refusal.error step), q)

theorem writeCases (p : Peer) (bytes : Bytes) (limit : Nat) (step : WireStep) :
    WriteCases p bytes (p.write bytes limit step) := by
  unfold write
  cases hroom : p.room with
  | none =>
    exact .through (by simp [hasRoom, hroom]) rfl (by simp [hasRoom, hroom]) ⟨rfl, rfl, rfl, rfl⟩
  | some room =>
    dsimp only
    split
    · rename_i hle
      refine .through ?_ ?_ (fun size => ?_) ⟨rfl, rfl, rfl, rfl⟩
      · simp [hasRoom, hroom, hle]
      · rw [List.take_of_length_le hle]
      · simp only [hasRoom, hroom, Option.all_some, decide_eq_decide]
        omega
    · rename_i hlt
      refine .cut (n := room) ?_ (Nat.not_le.1 hlt) ?_ rfl ?_
      · simp [hasRoom, hroom]
        omega
      · simp [hasRoom, hroom]
      · rw [Nat.sub_eq_zero_of_le (Nat.le_of_not_le hlt)]

/-! ### Reading -/

/-- What reading leaves alone: what the peer took and takes, and what follows in the end. -/
structure SameWrites (p q : Peer) : Prop where
  accepted : q.accepted = p.accepted
  room : q.room = p.room
  ending : q.ending = p.ending

theorem SameWrites.hasRoom_eq {q : Peer} (h : SameWrites p q) (size : Nat) :
    q.hasRoom size = p.hasRoom size := by
  rw [hasRoom, hasRoom, h.room]

/-- What a step comes to that meets the end of what comes from a peer. -/
def endError (p : Peer) (step : WireStep) : WireError :=
  match p.ending with
  | none => .connectionClosed
  | some fault => fault.error step

/-- What reading so many bytes comes to: what is returned, and the peer afterwards. -/
inductive ReadCases (p : Peer) (size : Nat) (step : WireStep) :
    Except WireError Bytes × Peer → Prop where
  /-- They are there. -/
  | got {q : Peer} (hlong : size ≤ p.pending.length) (hpending : q.pending = p.pending.drop size)
    (hconsumed : q.consumed = p.consumed + size) (hwrites : SameWrites p q) :
    ReadCases p size step (.ok (p.pending.take size), q)
  /-- There are fewer, and they are lost. -/
  | short {q : Peer} (hshort : p.pending.length < size) (hwrites : SameWrites p q)
    (hpending : q.pending = []) (hconsumed : q.consumed = p.consumed + p.pending.length) :
    ReadCases p size step (.error (p.endError step), q)

theorem readCases (p : Peer) (size limit : Nat) (step : WireStep) :
    ReadCases p size step (p.read size limit step) := by
  have hbytes : (takePieces size p.arriving).1 = p.pending.take size :=
    fst_takePieces size p.arriving
  have hrest : (takePieces size p.arriving).2.flatten = p.pending.drop size :=
    flatten_snd_takePieces size p.arriving
  unfold read
  generalize takePieces size p.arriving = taken at hbytes hrest
  obtain ⟨bytes, arriving⟩ := taken
  dsimp only at hbytes hrest ⊢
  split
  · rename_i hall
    rw [hbytes, List.length_take] at hall
    rw [hbytes]
    refine .got (by omega) hrest ?_ ⟨rfl, rfl, rfl⟩
    rw [List.length_take, hall]
  · rename_i hnot
    rw [hbytes, List.length_take] at hnot
    have hshort : p.pending.length < size := by omega
    have hall : bytes.length = p.pending.length := by
      rw [hbytes, List.length_take]
      omega
    rw [List.drop_of_length_le (Nat.le_of_lt hshort)] at hrest
    split
    · rename_i hending
      have herror : p.endError step = .connectionClosed := by rw [endError, hending]
      exact herror ▸ .short hshort ⟨rfl, rfl, rfl⟩ hrest (congrArg (p.consumed + ·) hall)
    · rename_i fault hending
      have herror : p.endError step = fault.error step := by rw [endError, hending]
      exact herror ▸ .short hshort ⟨rfl, rfl, rfl⟩ hrest (congrArg (p.consumed + ·) hall)

/-! ### Frames -/

variable {frame : Bytes}

theorem length_framed (frame : Bytes) : (framed frame).length = frameLengthSize + frame.length := by
  rw [framed, List.length_append, length_word32, frameLengthSize]

/-- A frame gets through as a whole, or it is cut off, in its length or behind it. -/
theorem writeCases_writeFrame (p : Peer) (frame : Bytes) (idle part : Nat) :
    WriteCases p (framed frame) (p.writeFrame frame idle part) := by
  have hlength : (framed frame).length =
      (word32 (UInt32.ofNat frame.length)).length + frame.length := List.length_append
  have hfirst := p.writeCases (word32 (UInt32.ofNat frame.length)) idle .frameLengthWrite
  unfold writeFrame
  generalize p.write _ idle .frameLengthWrite = written at hfirst ⊢
  cases hfirst with
  | cut hroom hn htaken haccepted hfull =>
    refine .cut ?_ (by omega) htaken ?_ hfull
    · cases h : p.hasRoom (framed frame).length with
      | false => rfl
      | true => rw [hasRoom_of_le (by omega) h] at hroom; cases hroom
    · rw [framed, List.take_append_of_le_length (Nat.le_of_lt hn), haccepted]
  | @through q _ haccepted hleft hreads =>
    have hsecond := q.writeCases frame part .frameBodyWrite
    dsimp only
    generalize q.write frame part .frameBodyWrite = written at hsecond ⊢
    cases hsecond with
    | through hroom' haccepted' hleft' hreads' =>
      refine .through ?_ ?_ (fun size => ?_) (hreads.trans hreads')
      · rw [hlength, ← hleft, hroom']
      · rw [haccepted', haccepted, List.append_assoc, framed]
      · rw [hleft', hleft, hlength, Nat.add_assoc]
    | @cut _ _ n hroom' hn htaken haccepted' hfull =>
      rw [hreads.refusal]
      refine .cut (n := (word32 (UInt32.ofNat frame.length)).length + n) ?_ (by omega) ?_ ?_ hfull
      · rw [hlength, ← hleft, hroom']
      · rw [← hleft, htaken]
      · rw [haccepted', haccepted, framed, List.take_length_add_append, List.append_assoc]

/-- A length that a frame can have is read, and as many bytes are asked for. -/
theorem readFrame_of_length (idle part : Nat) {size : Nat} {rest : Bytes}
    (hsize : 0 < size ∧ size ≤ maxFrameSize)
    (hpending : p.pending = word32 (UInt32.ofNat size) ++ rest) :
    ∃ q : Peer, q.pending = rest ∧ q.ending = p.ending ∧
      p.readFrame idle part = q.read size part .frameBodyRead := by
  obtain ⟨hpos, hle⟩ := hsize
  have hprefixed : (word32 (UInt32.ofNat size)).length = frameLengthSize := length_word32 _
  have htoNat : (UInt32.ofNat size).toNat = size :=
    UInt32.toNat_ofNat_of_lt' (Nat.lt_of_le_of_lt hle (by decide))
  have hvalid : isFrameLength (UInt32.ofNat size) = true := by
    have hne : UInt32.ofNat size ≠ 0 := by
      intro hzero
      rw [hzero] at htoNat
      exact Nat.ne_of_gt hpos htoNat.symm
    simp [isFrameLength, htoNat, hle, hne]
  have hcases := p.readCases frameLengthSize idle .frameLengthRead
  unfold readFrame
  generalize p.read frameLengthSize idle .frameLengthRead = got at hcases ⊢
  cases hcases with
  | short hshort =>
    rw [hpending, List.length_append, hprefixed] at hshort
    omega
  | @got q _ hrest _ hwrites =>
    rw [hpending, List.drop_left' hprefixed] at hrest
    dsimp only
    rw [hpending, List.take_left' hprefixed, ofWord32_word32, if_pos hvalid, htoNat]
    exact ⟨q, hrest, hwrites.ending, rfl⟩

/-- A frame that is there as a whole is read. -/
theorem readFrame_framed (idle part : Nat) {rest : Bytes}
    (hsize : 0 < frame.length ∧ frame.length ≤ maxFrameSize)
    (hpending : p.pending = framed frame ++ rest) :
    ∃ q : Peer, p.readFrame idle part = (.ok frame, q) ∧ q.pending = rest ∧
      q.ending = p.ending := by
  rw [framed, List.append_assoc] at hpending
  obtain ⟨q, hq, hending, hread⟩ := readFrame_of_length idle part hsize hpending
  have hcases := q.readCases frame.length part .frameBodyRead
  rw [hread]
  generalize q.read frame.length part .frameBodyRead = got at hcases ⊢
  cases hcases with
  | short hshort =>
    rw [hq, List.length_append] at hshort
    omega
  | @got r _ hrest _ hwrites =>
    rw [hq, List.drop_left] at hrest
    rw [hq, List.take_left]
    exact ⟨r, rfl, hrest, hwrites.ending.trans hending⟩

/-- Where there is not even a length, the reader meets the end of the stream. -/
theorem readFrame_of_short (idle part : Nat) (hshort : p.pending.length < frameLengthSize)
    (hending : p.ending = none) : (p.readFrame idle part).1 = .error .connectionClosed := by
  have hcases := p.readCases frameLengthSize idle .frameLengthRead
  unfold readFrame
  generalize p.read frameLengthSize idle .frameLengthRead = got at hcases ⊢
  cases hcases with
  | got hlong => omega
  | short =>
    dsimp only
    rw [endError, hending]

/-- Where a frame was cut off, its reader meets the end of the stream. -/
theorem readFrame_of_cut (idle part : Nat) {n : Nat}
    (hsize : 0 < frame.length ∧ frame.length ≤ maxFrameSize)
    (hcut : n < (framed frame).length) (hpending : p.pending = (framed frame).take n)
    (hending : p.ending = none) :
    (p.readFrame idle part).1 = .error .connectionClosed := by
  have hprefixed : (word32 (UInt32.ofNat frame.length)).length = frameLengthSize := length_word32 _
  rw [length_framed] at hcut
  by_cases hinside : n < frameLengthSize
  · apply readFrame_of_short idle part _ hending
    rw [hpending, List.length_take]
    omega
  · obtain ⟨k, rfl⟩ := Nat.exists_eq_add_of_le (Nat.not_lt.1 hinside)
    rw [framed, ← hprefixed, List.take_length_add_append] at hpending
    obtain ⟨q, hq, hending', hread⟩ :=
      readFrame_of_length idle part hsize hpending
    have hcases := q.readCases frame.length part .frameBodyRead
    rw [hread]
    generalize q.read frame.length part .frameBodyRead = got at hcases ⊢
    cases hcases with
    | short => rw [endError, hending', hending]
    | got hlong =>
      rw [hq, List.length_take] at hlong
      omega

end Peer

end Relay
