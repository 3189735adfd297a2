import Relay.Message.Codec

/-!
# `Relay.Proofs.Message.Codec`: packing and unpacking are inverse to each other

A packed message is a row of fields. The proofs read it as one, in both directions: `slice_append`
says that a slice which begins where a field begins, and is as long, is the field, and
`slice_append_drop` that the slices one after the other are the bytes again. `unpack_of_pack` and
`pack_of_unpack` follow.

`slice?` is a slice that fails where it would reach beyond the data, and `unpackWithin?` unpacks by
such reads. `unpackWithin?_eq` says that none of them ever fails. `codec_bijective` puts all of this
together: packing is a bijection between the messages whose body fits and the bytes that unpacking
accepts, and every other byte string is refused for one of three reasons.
-/

set_option autoImplicit false

namespace Relay

namespace Message

/-- What stands before a slice is passed over. -/
theorem slice_append {start size : Nat} {field rest : Bytes} (h : field.length ≤ start) :
    slice (field ++ rest) start size = slice rest (start - field.length) size := by
  rw [slice, slice, List.drop_append, List.drop_of_length_le h, List.nil_append]

/-- A slice that is as long as the first field is the field. -/
theorem slice_append_zero {size : Nat} {field rest : Bytes} (h : field.length = size) :
    slice (field ++ rest) 0 size = field := by
  rw [slice, List.drop_zero, List.take_left' h]

@[simp] theorem length_head (m : Message) : m.head.length = headSize := by
  simp [head, Flag.bytes, m.token.length_eq, headSize, tokenSize]

/-- A message is packed unless its body is too large, and nothing else is wrong with it then. -/
theorem pack_eq_ok_iff (m : Message) (data : Bytes) :
    m.pack = .ok data ↔ m.body.length ≤ maxBodySize ∧ data = m.head ++ m.body := by
  unfold pack
  split
  · rename_i hlarge
    constructor
    · intro h
      cases h
    · intro h
      omega
  · rename_i hfits
    simp only [Except.ok.injEq]
    constructor
    · rintro rfl
      exact ⟨by omega, rfl⟩
    · rintro ⟨-, rfl⟩
      rfl

theorem pack_eq_error_iff (m : Message) (e : CodecError) :
    m.pack = .error e ↔
      maxBodySize < m.body.length ∧ e = .bodyTooLarge maxBodySize m.body.length := by
  unfold pack
  split
  · rename_i hlarge
    simp only [Except.error.injEq]
    constructor
    · rintro rfl
      exact ⟨hlarge, rfl⟩
    · rintro ⟨-, rfl⟩
      rfl
  · constructor
    · intro h
      cases h
    · intro h
      omega

theorem length_of_pack {m : Message} {data : Bytes} (h : m.pack = .ok data) :
    headSize ≤ data.length ∧ data.length ≤ maxSize := by
  obtain ⟨hfits, rfl⟩ := (m.pack_eq_ok_iff data).1 h
  rw [List.length_append, length_head]
  simp only [maxBodySize, headSize, maxSize, tokenSize] at *
  omega

/-- What was packed is unpacked again, the same in every field. -/
theorem unpack_of_pack {m : Message} {data : Bytes} (h : m.pack = .ok data) :
    unpack data = .ok m := by
  obtain ⟨hfits, rfl⟩ := (m.pack_eq_ok_iff data).1 h
  have hflag : m.flag.bytes.length = 4 := length_word32 m.flag.code
  have hsize : (littleEndian 4 m.body.length).length = 4 := length_littleEndian 4 m.body.length
  have htoken : m.token.bytes.length = 64 := m.token.length_eq
  have hdeclared : declaredSize (m.head ++ m.body) = m.body.length := by
    have hcapacity : m.body.length % capacity 4 = m.body.length := by
      apply Nat.mod_eq_of_lt
      simp only [maxBodySize, maxSize, headSize, tokenSize, capacity] at hfits ⊢
      omega
    have hslice : slice (m.head ++ m.body) 12 4 = littleEndian 4 m.body.length := by
      simp [head, slice_append, slice_append_zero, hflag]
    rw [declaredSize, hslice, ofLittleEndian_littleEndian, hcapacity]
  have hlong : ¬ (m.head ++ m.body).length < headSize := by
    rw [List.length_append, length_head]
    omega
  have hrest : (m.head ++ m.body).length - headSize = m.body.length := by
    rw [List.length_append, length_head, Nat.add_sub_cancel_left]
  unfold unpack
  rw [dif_neg hlong, hdeclared, if_neg (Nat.not_lt.2 hfits), hrest, if_neg (by simp)]
  -- Each field is where its slice is.
  refine congrArg Except.ok ?_
  ext1
  case flag => simp [head, slice_append_zero, Flag.bytes, ofWord32_word32]
  case token =>
    ext1
    simp [head, slice_append, slice_append_zero, hflag, tokenSize, htoken]
  case body => exact List.drop_left' m.length_head
  all_goals
    simp [head, slice_append, slice_append_zero, hflag, ofWord32_word32, ofWord64_word64]

/-! ### From the bytes to the message and back -/

/-- A slice and all that follows it are all that was left where it begins. -/
theorem slice_append_drop (data : Bytes) {start size next : Nat} (h : start + size = next) :
    slice data start size ++ data.drop next = data.drop start := by
  rw [slice, ← h, ← List.drop_drop, List.take_append_drop]

theorem length_slice {data : Bytes} {start size : Nat} (h : start + size ≤ data.length) :
    (slice data start size).length = size := by
  rw [slice, List.length_take, List.length_drop]
  omega

/-- What it takes for bytes to be unpacked, and the body that they are unpacked to. -/
theorem of_unpack {data : Bytes} {m : Message} (h : unpack data = .ok m) :
    headSize ≤ data.length ∧ declaredSize data ≤ maxBodySize ∧
      declaredSize data = data.length - headSize ∧ m.body = data.drop headSize := by
  unfold unpack at h
  split at h
  · cases h
  · rename_i hlong
    split at h
    · cases h
    · rename_i hfits
      split at h
      · cases h
      · rename_i hsize
        cases h
        exact ⟨Nat.le_of_not_lt hlong, Nat.le_of_not_lt hfits, Classical.not_not.1 hsize, rfl⟩

/-- What was unpacked has a body that fits. -/
theorem length_body_of_unpack {data : Bytes} {m : Message} (h : unpack data = .ok m) :
    m.body.length ≤ maxBodySize := by
  obtain ⟨-, hfits, hsize, hbody⟩ := of_unpack h
  rw [hbody, List.length_drop, ← hsize]
  exact hfits

/-- The head of what was unpacked is the head of the bytes, field by field. -/
theorem head_of_unpack {data : Bytes} {m : Message} (h : unpack data = .ok m) :
    m.head = slice data 0 4 ++ slice data 4 8 ++ slice data 12 4 ++ slice data 16 4 ++
      slice data 20 4 ++ slice data 24 4 ++ slice data 28 4 ++ slice data 32 tokenSize := by
  obtain ⟨hlong, hfits, hsize, hbody⟩ := of_unpack h
  have hslice (start size : Nat) (hin : start + size ≤ headSize) :
      (slice data start size).length = size := length_slice (Nat.le_trans hin hlong)
  -- The size is no field of the message: it is written from the length of the body.
  have hdeclared : littleEndian 4 m.body.length = slice data 12 4 := by
    have hlength : m.body.length = ofLittleEndian (slice data 12 4) := by
      rw [hbody, List.length_drop, ← hsize, declaredSize]
    have hback := littleEndian_ofLittleEndian (slice data 12 4)
    rwa [hslice 12 4 (by decide), ← hlength] at hback
  rw [head, hdeclared]
  unfold unpack at h
  rw [dif_neg (Nat.not_lt.2 hlong), if_neg (Nat.not_lt.2 hfits), if_neg (by simp [hsize])] at h
  cases h
  simp only [Flag.bytes, word32_ofWord32 (hslice 0 4 (by decide)),
    word64_ofWord64 (hslice 4 8 (by decide)), word32_ofWord32 (hslice 16 4 (by decide)),
    word32_ofWord32 (hslice 20 4 (by decide)), word32_ofWord32 (hslice 24 4 (by decide)),
    word32_ofWord32 (hslice 28 4 (by decide))]

/-- What was unpacked is packed again to the same bytes. -/
theorem pack_of_unpack {data : Bytes} {m : Message} (h : unpack data = .ok m) :
    m.pack = .ok data := by
  obtain ⟨-, -, -, hbody⟩ := of_unpack h
  refine (m.pack_eq_ok_iff data).2 ⟨length_body_of_unpack h, ?_⟩
  -- From the last field to the first, each slice is put in front of what follows it.
  rw [head_of_unpack h, hbody]
  simp only [List.append_assoc]
  rw [slice_append_drop data (show 32 + tokenSize = headSize from rfl),
    slice_append_drop data (show 28 + 4 = 32 from rfl),
    slice_append_drop data (show 24 + 4 = 28 from rfl),
    slice_append_drop data (show 20 + 4 = 24 from rfl),
    slice_append_drop data (show 16 + 4 = 20 from rfl),
    slice_append_drop data (show 12 + 4 = 16 from rfl),
    slice_append_drop data (show 4 + 8 = 12 from rfl),
    slice_append_drop data (show 0 + 4 = 4 from rfl), List.drop_zero]

/-- Bytes are unpacked to a message exactly if the message is packed to them. -/
theorem unpack_eq_ok_iff (data : Bytes) (m : Message) : unpack data = .ok m ↔ m.pack = .ok data :=
  ⟨pack_of_unpack, unpack_of_pack⟩

/-- Bytes that are not unpacked are refused for the first of three reasons that applies. -/
theorem unpack_eq_error_iff (data : Bytes) (e : CodecError) :
    unpack data = .error e ↔
      (data.length < headSize ∧ e = .tooShort headSize data.length) ∨
      (headSize ≤ data.length ∧ maxBodySize < declaredSize data ∧
        e = .bodyTooLarge maxBodySize (declaredSize data)) ∨
      (headSize ≤ data.length ∧ declaredSize data ≤ maxBodySize ∧
        declaredSize data ≠ data.length - headSize ∧
        e = .sizeMismatch (declaredSize data) (data.length - headSize)) := by
  unfold unpack
  split
  · rename_i hshort
    simp only [Except.error.injEq]
    grind
  · rename_i hlong
    split
    · rename_i hlarge
      simp only [Except.error.injEq]
      grind
    · rename_i hfits
      split
      · rename_i hsize
        simp only [Except.error.injEq]
        grind
      · rename_i hsize
        simp only [reduceCtorEq, false_iff]
        grind

/-! ### Reads within the data -/

/-- The `size` bytes that start at position `start`, if the data reaches that far. -/
def slice? (data : Bytes) (start size : Nat) : Option Bytes :=
  if start + size ≤ data.length then some (slice data start size) else none

theorem slice?_eq {data : Bytes} {start size : Nat} (h : start + size ≤ data.length) :
    slice? data start size = some (slice data start size) := if_pos h

/-- Unpacks by reads that may fail, the size first, as `unpack` does, and the fields after it was
compared with the bytes that follow the head. There is no outcome if any read reaches beyond the
data. -/
def unpackWithin? (data : Bytes) : Option (Except CodecError Message) :=
  if data.length < headSize then some (.error (.tooShort headSize data.length))
  else do
    let declared := ofLittleEndian (← slice? data 12 4)
    if declared > maxBodySize then return .error (.bodyTooLarge maxBodySize declared)
    let actual := data.length - headSize
    if declared ≠ actual then return .error (.sizeMismatch declared actual)
    let token ← Octets.ofBytes? tokenSize (← slice? data 32 tokenSize)
    return .ok {
      flag := ⟨ofWord32 (← slice? data 0 4)⟩
      timestamp := ofWord64 (← slice? data 4 8)
      index := ofWord32 (← slice? data 16 4)
      count := ofWord32 (← slice? data 20 4)
      sender := ofWord32 (← slice? data 24 4)
      recipient := ofWord32 (← slice? data 28 4)
      token := token
      body := ← slice? data headSize actual
    }

/-- Whatever the bytes are, no read of unpacking reaches beyond them. -/
theorem unpackWithin?_eq (data : Bytes) : unpackWithin? data = some (unpack data) := by
  unfold unpackWithin? unpack
  split
  · rfl
  · rename_i hlong
    have hread (start size : Nat) (hin : start + size ≤ headSize) :
        slice? data start size = some (slice data start size) :=
      slice?_eq (Nat.le_trans hin (Nat.le_of_not_lt hlong))
    have htoken : Octets.ofBytes? tokenSize (slice data 32 tokenSize) =
        some ⟨slice data 32 tokenSize, by
          exact length_slice (Nat.le_trans (by decide) (Nat.le_of_not_lt hlong))⟩ := by
      rw [Octets.ofBytes?, dif_pos]
    have hbody : slice? data headSize (data.length - headSize) = some (data.drop headSize) := by
      rw [slice?_eq (by omega), slice, List.take_of_length_le (by simp)]
    simp only [hread 12 4 (by decide), hread 32 tokenSize (by decide), hread 0 4 (by decide),
      hread 4 8 (by decide), hread 16 4 (by decide), hread 20 4 (by decide),
      hread 24 4 (by decide), hread 28 4 (by decide), htoken, hbody, Option.bind_eq_bind,
      Option.bind_some, Option.pure_def]
    rw [apply_ite some, apply_ite some]
    rfl

/-! ### The codec as a bijection -/

/-- What packing a message comes to: bytes if its body has at most 160, and these bytes are the
message again. -/
structure Packs (m : Message) : Prop where
  /-- A message is packed exactly if its body has at most 160 bytes. -/
  succeeds_iff : (∃ data, m.pack = .ok data) ↔ m.body.length ≤ 160
  /-- A message with a larger body is refused for that. -/
  fails_iff : ∀ e, m.pack = .error e ↔ 160 < m.body.length ∧ e = .bodyTooLarge 160 m.body.length
  /-- What was packed is unpacked to the same message. -/
  unpack_pack : ∀ data, m.pack = .ok data → unpack data = .ok m
  /-- The packed form has 96 bytes and the body. -/
  length_pack : ∀ data, m.pack = .ok data → data.length = 96 + m.body.length

/-- What unpacking a byte string comes to: the one message that is packed to it, or the reason why
there is none. -/
structure Unpacks (data : Bytes) : Prop where
  /-- Bytes are unpacked exactly if some message is packed to them. -/
  succeeds_iff : (∃ m, unpack data = .ok m) ↔ ∃ m : Message, m.pack = .ok data
  /-- What was unpacked is packed to the same bytes. -/
  pack_unpack : ∀ m, unpack data = .ok m → m.pack = .ok data
  /-- No other bytes are unpacked to the same message. -/
  injective : ∀ other m, unpack data = .ok m → unpack other = .ok m → other = data
  /-- Bytes that are not unpacked end inside the head, or else declare a body above 160 bytes, or
  else declare another number of bytes than follow the head. -/
  fails_iff : ∀ e, unpack data = .error e ↔
    (data.length < 96 ∧ e = .tooShort 96 data.length) ∨
    (96 ≤ data.length ∧ 160 < declaredSize data ∧ e = .bodyTooLarge 160 (declaredSize data)) ∨
    (96 ≤ data.length ∧ declaredSize data ≤ 160 ∧ declaredSize data ≠ data.length - 96 ∧
      e = .sizeMismatch (declaredSize data) (data.length - 96))
  /-- All that unpacking reads lies within the bytes. -/
  within : unpackWithin? data = some (unpack data)

/-- Packing is a bijection from the messages whose body has at most 160 bytes to the byte strings
that unpacking accepts, and unpacking is its inverse. -/
theorem codec_bijective : (∀ m : Message, Packs m) ∧ ∀ data : Bytes, Unpacks data := by
  constructor
  · intro m
    constructor
    case succeeds_iff =>
      constructor
      · rintro ⟨data, hpack⟩
        exact ((m.pack_eq_ok_iff data).1 hpack).1
      · intro hfits
        exact ⟨m.head ++ m.body, (m.pack_eq_ok_iff _).2 ⟨hfits, rfl⟩⟩
    case fails_iff => exact m.pack_eq_error_iff
    case unpack_pack => exact fun data => unpack_of_pack
    case length_pack =>
      intro data hpack
      obtain ⟨-, rfl⟩ := (m.pack_eq_ok_iff data).1 hpack
      rw [List.length_append, length_head]
      rfl
  · intro data
    constructor
    case succeeds_iff => exact exists_congr (unpack_eq_ok_iff data)
    case pack_unpack => exact fun m => pack_of_unpack
    case injective =>
      intro other m hdata hother
      have hsame : Except.ok (ε := CodecError) other = .ok data := by
        rw [← pack_of_unpack hdata, ← pack_of_unpack hother]
      cases hsame
      rfl
    case fails_iff => exact unpack_eq_error_iff data
    case within => exact unpackWithin?_eq data

end Message

end Relay
