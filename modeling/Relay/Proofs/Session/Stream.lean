import Relay.Session.Stream

/-!
# `Relay.Proofs.Session.Stream`: what an attached decoder can be made to accept

An encoder seals texts one after the other (`StreamEncoder.sealAll`), a decoder is given byte
strings one after the other (`StreamDecoder.openAll`). Whoever stands between the two may hold back,
repeat, reorder, change and add what is handed over. What keeps the sides together is that both
count: the text in place `i` is sealed under the nonce of `i` (`getElem?_sealAll`), no two places
share a nonce (`streamNonce_injective`), and a decoder counts a text only when it has opened it.

Of authenticated encryption two things are assumed. What was sealed is opened again
(`Aead.Inverts`), and what the decoder is given opens only under the nonce under which the encoder
sealed it (`Aead.Authentic`). The main statement is `Suite.opened_in_order`.
-/

set_option autoImplicit false

namespace Relay

/-! ### Nonces -/

theorem streamNonce_injective {a b : UInt64} (h : streamNonce a = streamNonce b) : a = b := by
  have hbytes : List.replicate 4 0 ++ bigEndian 8 a.toNat =
      List.replicate 4 0 ++ bigEndian 8 b.toNat := congrArg Octets.bytes h
  have hlow : littleEndian 8 a.toNat = littleEndian 8 b.toNat :=
    List.reverse_inj.1 (List.append_cancel_left hbytes)
  -- A counter is what its eight bytes stand for.
  rw [← ofWord64_word64 a, ← ofWord64_word64 b, word64, word64, hlow]

/-! ### Sealing and opening one after the other -/

/-- A text, what it was sealed to, and the nonce under which that was done. -/
structure Sealing where
  nonce : Nonce
  text : Bytes
  sealed : Bytes
deriving DecidableEq

/-- What becomes of texts that are to be sealed one after the other. A text that cannot be sealed is
left out. -/
def StreamEncoder.sealAll (s : StreamEncoder) : List Bytes → List Sealing
  | [] => []
  | text :: rest =>
    match s.encrypt text with
    | .error _ => s.sealAll rest
    | .ok (sealed, next) => ⟨streamNonce s.counter, text, sealed⟩ :: next.sealAll rest

/-- What is opened of byte strings that are given one after the other, and the decoder afterwards. A
byte string that is not opened is passed over. -/
def StreamDecoder.openAll (s : StreamDecoder) : List Bytes → List Bytes × StreamDecoder
  | [] => ([], s)
  | frame :: rest =>
    match s.decrypt frame with
    | .error _ => s.openAll rest
    | .ok (text, next) => (text :: (next.openAll rest).1, (next.openAll rest).2)

/-- The most texts that are sealed in one stream: the last counter value is not used. -/
def streamLimit : Nat := UInt64.size - 1

/-- What opens under a key was sealed by the encoder, under that nonce and as it is. It is said of
the given byte strings only: of all byte strings it cannot be true, because also what the encoder
could have sealed and did not would open. -/
def Aead.Authentic (aead : Aead) (key : Key) (sealings : List Sealing) (frames : List Bytes) :
    Prop :=
  ∀ frame ∈ frames, ∀ (nonce : Nonce) (text : Bytes),
    aead.decrypt? key nonce frame = some text →
      ∃ x ∈ sealings, x.nonce = nonce ∧ x.sealed = frame

theorem toNat_ofNat_of_lt_streamLimit {n : Nat} (h : n < streamLimit) :
    (UInt64.ofNat n).toNat = n :=
  UInt64.toNat_ofNat_of_lt' (Nat.lt_of_lt_of_le h (by decide))

/-! ### What an encoder seals -/

namespace StreamEncoder

variable {s : StreamEncoder} {texts : List Bytes} {x : Sealing} {i : Nat}

/-- The text in place `i` is sealed under the nonce of the counter after `i` texts, as long as there
is a counter for it. -/
theorem getElem?_sealAll (s : StreamEncoder) (texts : List Bytes) (i : Nat) :
    (s.sealAll texts)[i]? =
      if s.counter.toNat + i < streamLimit then
        texts[i]?.map fun text =>
          let nonce := streamNonce (UInt64.ofNat (s.counter.toNat + i))
          ⟨nonce, text, s.aead.encrypt s.key nonce text⟩
      else none := by
  -- The counter goes along. An encoder that is at its end seals none of the rest either.
  induction texts generalizing s i with
  | nil => simp [sealAll]
  | cons text rest ih =>
    unfold sealAll encrypt
    by_cases hend : s.counter.toNat + 1 = UInt64.size
    · have hlimit : ¬ s.counter.toNat + i < streamLimit := by
        simp only [streamLimit]
        omega
      rw [if_pos hend]
      dsimp only
      rw [ih, if_neg hlimit, if_neg hlimit]
    · rw [if_neg hend]
      have hlt : s.counter.toNat < UInt64.size := s.counter.toNat_lt
      cases i with
      | zero =>
        rw [if_pos (by simp only [streamLimit]; omega)]
        simp
      | succ i =>
        have hcounter : (s.counter + 1).toNat = s.counter.toNat + 1 := by
          rw [UInt64.toNat_add]
          exact Nat.mod_eq_of_lt (by simp only [UInt64.size] at *; simp; omega)
        have hplace : s.counter.toNat + 1 + i = s.counter.toNat + (i + 1) := by omega
        simp only [List.getElem?_cons_succ]
        rw [ih, hcounter, hplace]

/-- What is sealed are the texts in their order, up to the end of the counter. -/
theorem map_text_sealAll (s : StreamEncoder) (texts : List Bytes) :
    (s.sealAll texts).map Sealing.text = texts.take (streamLimit - s.counter.toNat) := by
  apply List.ext_getElem?
  intro i
  rw [List.getElem?_map, getElem?_sealAll, List.getElem?_take]
  by_cases hlimit : s.counter.toNat + i < streamLimit
  · rw [if_pos hlimit, if_pos (by omega), Option.map_map]
    exact Option.map_id'
  · rw [if_neg hlimit, if_neg (by omega)]
    rfl

/-- What stands in a place was sealed under the nonce of that place. -/
theorem place_of_getElem? (hx : (s.sealAll texts)[i]? = some x) :
    s.counter.toNat + i < streamLimit ∧
      x.nonce = streamNonce (UInt64.ofNat (s.counter.toNat + i)) ∧
      x.sealed = s.aead.encrypt s.key x.nonce x.text := by
  rw [getElem?_sealAll] at hx
  split at hx
  · rename_i hlimit
    obtain ⟨text, -, rfl⟩ := Option.map_eq_some_iff.1 hx
    exact ⟨hlimit, rfl, rfl⟩
  · cases hx

theorem nodup_nonce_sealAll (s : StreamEncoder) (texts : List Bytes) :
    ((s.sealAll texts).map Sealing.nonce).Nodup := by
  rw [List.Nodup, List.pairwise_map, List.pairwise_iff_getElem]
  intro i j hi hj hlt hsame
  obtain ⟨hilimit, hinonce, -⟩ := place_of_getElem? (List.getElem?_eq_getElem hi)
  obtain ⟨hjlimit, hjnonce, -⟩ := place_of_getElem? (List.getElem?_eq_getElem hj)
  rw [hinonce, hjnonce] at hsame
  have hcounter := congrArg UInt64.toNat (streamNonce_injective hsame)
  rw [toNat_ofNat_of_lt_streamLimit hilimit, toNat_ofNat_of_lt_streamLimit hjlimit] at hcounter
  omega

theorem length_sealAll_le (s : StreamEncoder) (texts : List Bytes) :
    (s.sealAll texts).length ≤ streamLimit - s.counter.toNat := by
  have htexts := congrArg List.length (s.map_text_sealAll texts)
  rw [List.length_map, List.length_take] at htexts
  omega

/-! ### What a decoder opens -/

/-- The decoder that has opened what an encoder seals up to a place. -/
def decoderAt (s : StreamEncoder) (i : Nat) : StreamDecoder where
  aead := s.aead
  key := s.key
  counter := UInt64.ofNat (s.counter.toNat + i)

/-- What stands in the place that the decoder has come to is opened. -/
theorem decrypt_decoderAt (hinverts : s.aead.Inverts) (hx : (s.sealAll texts)[i]? = some x) :
    (s.decoderAt i).decrypt x.sealed = .ok (x.text, s.decoderAt (i + 1)) := by
  obtain ⟨-, hnonce, hsealed⟩ := place_of_getElem? hx
  have hopens : s.aead.decrypt? s.key (streamNonce (UInt64.ofNat (s.counter.toNat + i)))
      x.sealed = some x.text := by
    rw [hsealed, hnonce, hinverts]
  have hnext : UInt64.ofNat (s.counter.toNat + i) + 1 =
      UInt64.ofNat (s.counter.toNat + (i + 1)) := by
    rw [← Nat.add_assoc, UInt64.ofNat_add (s.counter.toNat + i)]
    rfl
  unfold StreamDecoder.decrypt decoderAt
  dsimp only
  rw [hopens, hnext]

/-- Nothing else is opened. -/
theorem place_of_decrypt {frames : List Bytes} {frame text : Bytes} {next : StreamDecoder}
    (hinverts : s.aead.Inverts) (hauthentic : s.aead.Authentic s.key (s.sealAll texts) frames)
    (hframe : frame ∈ frames) (hi : i ≤ (s.sealAll texts).length)
    (h : (s.decoderAt i).decrypt frame = .ok (text, next)) :
    ∃ x, (s.sealAll texts)[i]? = some x ∧ x.sealed = frame ∧ x.text = text ∧
      next = s.decoderAt (i + 1) := by
  have hopens : s.aead.decrypt? s.key (streamNonce (UInt64.ofNat (s.counter.toNat + i))) frame =
      some text := by
    unfold StreamDecoder.decrypt at h
    split at h
    · cases h
    · rename_i hsome
      cases h
      exact hsome
  obtain ⟨x, hx, hnonce, rfl⟩ := hauthentic frame hframe _ _ hopens
  obtain ⟨j, hj⟩ := List.mem_iff_getElem?.1 hx
  obtain ⟨hjlimit, hjnonce, -⟩ := place_of_getElem? hj
  -- The nonce tells the place, as the decoder is not beyond the last of them.
  have hcounter := streamNonce_injective (hnonce.symm.trans hjnonce)
  have hplace : i = j := by
    have hlength := s.length_sealAll_le texts
    have hilimit : s.counter.toNat + i < UInt64.size := by
      simp only [streamLimit] at hjlimit hlength
      omega
    have htoNat := congrArg UInt64.toNat hcounter
    rw [toNat_ofNat_of_lt_streamLimit hjlimit, UInt64.toNat_ofNat_of_lt' hilimit] at htoNat
    omega
  subst hplace
  have hdecrypt := decrypt_decoderAt hinverts hj
  rw [h] at hdecrypt
  cases hdecrypt
  exact ⟨x, hj, rfl, rfl, rfl⟩

/-- Whatever a decoder is given, it opens the texts of the places that follow. -/
theorem openAll_decoderAt {frames : List Bytes} (hinverts : s.aead.Inverts)
    (hauthentic : s.aead.Authentic s.key (s.sealAll texts) frames)
    (hi : i ≤ (s.sealAll texts).length) :
    ∃ n, i + n ≤ (s.sealAll texts).length ∧
      (s.decoderAt i).openAll frames =
        ((((s.sealAll texts).drop i).take n).map Sealing.text, s.decoderAt (i + n)) := by
  -- Induction on what is given: a byte string is passed over or brings the decoder to the next
  -- place.
  induction frames generalizing i with
  | nil => exact ⟨0, hi, rfl⟩
  | cons frame rest ih =>
    have hrest : s.aead.Authentic s.key (s.sealAll texts) rest :=
      fun other hother => hauthentic other (List.mem_cons_of_mem _ hother)
    unfold StreamDecoder.openAll
    cases hdecrypt : (s.decoderAt i).decrypt frame with
    | error => exact ih hrest hi
    | ok opened =>
      obtain ⟨text, next⟩ := opened
      obtain ⟨x, hx, -, rfl, rfl⟩ :=
        place_of_decrypt hinverts hauthentic List.mem_cons_self hi hdecrypt
      obtain ⟨hlt, hget⟩ := List.getElem?_eq_some_iff.1 hx
      obtain ⟨n, hn, hopen⟩ := ih hrest hlt
      refine ⟨n + 1, by omega, ?_⟩
      dsimp only
      rw [hopen, List.drop_eq_getElem_cons hlt, hget, List.take_succ_cons, List.map_cons]
      have hplace : i + 1 + n = i + (n + 1) := by omega
      rw [hplace]

/-! ### From one text to the next -/

/-- The encoder that has sealed one more text. -/
def advanced (s : StreamEncoder) : StreamEncoder := { s with counter := s.counter + 1 }

/-- The receiving side that has opened all that was sealed so far. -/
def reader (s : StreamEncoder) : StreamDecoder := ⟨s.aead, s.key, s.counter⟩

theorem toNat_counter_advanced (h : s.counter.toNat < streamLimit) :
    s.advanced.counter.toNat = s.counter.toNat + 1 := by
  rw [advanced, UInt64.toNat_add]
  exact Nat.mod_eq_of_lt (by simp only [streamLimit, UInt64.size] at h; simp; omega)

theorem encrypt_of_lt (h : s.counter.toNat < streamLimit) (text : Bytes) :
    s.encrypt text =
      .ok (s.aead.encrypt s.key (streamNonce s.counter) text, s.advanced) := by
  rw [encrypt, if_neg (by simp only [streamLimit] at h; omega), advanced]

theorem encrypt_of_not_lt (h : ¬ s.counter.toNat < streamLimit) (text : Bytes) :
    s.encrypt text = .error .encrypt := by
  have hlt : s.counter.toNat < UInt64.size := s.counter.toNat_lt
  rw [encrypt, if_pos (by simp only [streamLimit] at h; omega)]

/-- What is sealed is what the reader opens next. -/
theorem decrypt_reader (hinverts : s.aead.Inverts) (text : Bytes) :
    s.reader.decrypt (s.aead.encrypt s.key (streamNonce s.counter) text) =
      .ok (text, s.advanced.reader) := by
  unfold StreamDecoder.decrypt reader advanced
  dsimp only
  rw [hinverts]

end StreamEncoder

/-- Byte strings that are not opened leave a decoder as it is. -/
theorem StreamDecoder.openAll_append_of_error {s : StreamDecoder} {failing : List Bytes}
    (hfailing : ∀ frame ∈ failing, ∃ e, s.decrypt frame = .error e) (rest : List Bytes) :
    s.openAll (failing ++ rest) = s.openAll rest := by
  induction failing with
  | nil => rfl
  | cons frame failing ih =>
    obtain ⟨e, he⟩ := hfailing frame List.mem_cons_self
    rw [List.cons_append, openAll, he]
    exact ih fun other hother => hfailing other (List.mem_cons_of_mem _ hother)

/-- Texts are sealed in a stream, and the decoder that is attached to the same stream is given any
byte strings whatever. What it opens are the first of the texts, in their order.

Byte strings that it does not open, however many, leave it as it is, and what the next text was
sealed to is still opened after them. The texts that are sealed, all until the counter is at its
end, are sealed under nonces of which no two are the same. -/
theorem Suite.opened_in_order (suite : Suite) (key : Key) (header : StreamHeader)
    (texts frames : List Bytes) (hinverts : suite.aead.Inverts)
    (hauthentic : suite.aead.Authentic (suite.streamKey key header)
      ((suite.encoder key header).sealAll texts) frames) :
    ∃ decoder : StreamDecoder, suite.attachStream key header.bytes = .ok decoder ∧
      ∀ (opened : List Bytes) (last : StreamDecoder), decoder.openAll frames = (opened, last) →
        opened <+: texts ∧
        (∀ failing : List Bytes, (∀ frame ∈ failing, ∃ e, last.decrypt frame = .error e) →
          last.openAll failing = ([], last) ∧
          ∀ x, ((suite.encoder key header).sealAll texts)[opened.length]? = some x →
            ∃ next, last.openAll (failing ++ [x.sealed]) = ([x.text], next)) ∧
        ((suite.encoder key header).sealAll texts).map Sealing.text = texts.take streamLimit ∧
        (∀ x ∈ (suite.encoder key header).sealAll texts,
          x.sealed = suite.aead.encrypt (suite.streamKey key header) x.nonce x.text) ∧
        (((suite.encoder key header).sealAll texts).map Sealing.nonce).Nodup := by
  have hattach : suite.attachStream key header.bytes =
      .ok ((suite.encoder key header).decoderAt 0) := by
    rw [Suite.attachStream, Octets.ofBytes?_bytes]
    rfl
  refine ⟨_, hattach, fun opened last hopen => ?_⟩
  have htexts := (suite.encoder key header).map_text_sealAll texts
  obtain ⟨n, hn, hopened⟩ :=
    StreamEncoder.openAll_decoderAt (s := suite.encoder key header) (i := 0) hinverts hauthentic
      (Nat.zero_le _)
  rw [hopened, Prod.mk.injEq] at hopen
  obtain ⟨rfl, rfl⟩ := hopen
  simp only [List.drop_zero, Nat.zero_add] at hn ⊢
  refine ⟨?_, fun failing hfailing => ⟨?_, fun x hx => ?_⟩, htexts, fun x hx => ?_,
    (suite.encoder key header).nodup_nonce_sealAll texts⟩
  · rw [List.map_take, htexts]
    exact (List.take_prefix _ _).trans (List.take_prefix _ _)
  · have hunchanged := StreamDecoder.openAll_append_of_error hfailing []
    rwa [List.append_nil] at hunchanged
  · rw [List.length_map, List.length_take, Nat.min_eq_left hn] at hx
    refine ⟨(suite.encoder key header).decoderAt (n + 1), ?_⟩
    rw [StreamDecoder.openAll_append_of_error hfailing, StreamDecoder.openAll,
      StreamEncoder.decrypt_decoderAt hinverts hx]
    rfl
  · obtain ⟨i, hi⟩ := List.mem_iff_getElem?.1 hx
    exact (StreamEncoder.place_of_getElem? hi).2.2

namespace Sample

/-- What a sample cipher puts behind a text: the nonce, a sum of the text and part of the key. -/
def tag (key : Key) (nonce : Nonce) (text : Bytes) : Bytes :=
  nonce.bytes ++ text.foldl UInt8.add 0 :: key.bytes.take 3

theorem length_tag (key : Key) (nonce : Nonce) (text : Bytes) :
    (tag key nonce text).length = sealOverhead := by
  simp [tag, key.length_eq, nonce.length_eq, keySize, nonceSize, sealOverhead]

/-- Leaves a text as it is and puts a tag behind it. -/
def taggingAead : Aead where
  encrypt key nonce text := text ++ tag key nonce text
  decrypt? key nonce sealed :=
    let text := sealed.take (sealed.length - sealOverhead)
    if sealed = text ++ tag key nonce text then some text else none
  length_encrypt key nonce text := by rw [List.length_append, length_tag]

theorem inverts_taggingAead : taggingAead.Inverts := by
  intro key nonce text
  have htext : (text ++ tag key nonce text).take
      ((text ++ tag key nonce text).length - sealOverhead) = text := by
    apply List.take_left'
    rw [List.length_append, length_tag, Nat.add_sub_cancel]
  simp only [taggingAead]
  rw [htext, if_pos rfl]

/-- What is opened carries its nonce. -/
theorem nonce_of_decrypt? {key : Key} {nonce : Nonce} {sealed text : Bytes}
    (h : taggingAead.decrypt? key nonce sealed = some text) :
    nonce = .padded nonceSize (sealed.drop (sealed.length - sealOverhead)) := by
  simp only [taggingAead] at h
  split at h
  · rename_i hsealed
    have htag : tag key nonce _ = sealed.drop (sealed.length - sealOverhead) :=
      List.append_cancel_left (hsealed.symm.trans (List.take_append_drop _ sealed).symm)
    rw [← htag, tag, Octets.padded_append]
  · cases h

/-- Primitives that can be evaluated, where a stream key is the session key. -/
def taggingSuite : Suite where
  aead := taggingAead
  agreement := ⟨id, fun _ key => some key⟩
  signatures := ⟨id, fun _ => true, fun seed _ => .padded signatureSize seed.bytes,
    fun _ _ _ => true⟩
  derive _ secret _ size := .padded size secret

/-- A text of a sample stream, as it is sealed in the given place. -/
def sealing (i : UInt64) (text : Bytes) : Sealing :=
  ⟨streamNonce i, text, taggingAead.encrypt (.zero keySize) (streamNonce i) text⟩

/-- The second text of a sample stream, what was never sealed, the first text, the first once more,
the third with a byte changed, and the second. -/
def tampered : List Bytes :=
  [(sealing 1 [2]).sealed, [7, 7], (sealing 0 [1]).sealed, (sealing 0 [1]).sealed,
    (sealing 2 [3]).sealed.set 0 9, (sealing 1 [2]).sealed]

end Sample

/-- Of three texts, the decoder opens the first and the second although what it is given was
tampered with, and the third is still opened after something that was never sealed. -/
theorem Suite.opened_in_order_tampered :
    (Sample.taggingSuite.encoder (.zero keySize) (.zero headerSize)).sealAll [[1], [2], [3]] =
        [Sample.sealing 0 [1], Sample.sealing 1 [2], Sample.sealing 2 [3]] ∧
      Sample.taggingSuite.aead.Inverts ∧
      Sample.taggingSuite.aead.Authentic
        (Sample.taggingSuite.streamKey (.zero keySize) (.zero headerSize))
        [Sample.sealing 0 [1], Sample.sealing 1 [2], Sample.sealing 2 [3]] Sample.tampered ∧
      ∃ decoder last next : StreamDecoder,
        Sample.taggingSuite.attachStream (.zero keySize) (Octets.zero headerSize).bytes =
          .ok decoder ∧
        decoder.openAll Sample.tampered = ([[1], [2]], last) ∧
        ([[1], [2]] : List Bytes) <+: [[1], [2], [3]] ∧
        last.openAll ([[7, 7]] ++ [(Sample.sealing 2 [3]).sealed]) = ([[3]], next) := by
  let suite := Sample.taggingSuite
  have hsealings :
      (suite.encoder (.zero keySize) (.zero headerSize)).sealAll [[1], [2], [3]] =
        [Sample.sealing 0 [1], Sample.sealing 1 [2], Sample.sealing 2 [3]] := by decide +kernel
  have hauthentic : suite.aead.Authentic (suite.streamKey (.zero keySize) (.zero headerSize))
      [Sample.sealing 0 [1], Sample.sealing 1 [2], Sample.sealing 2 [3]] Sample.tampered := by
    intro frame hframe nonce text hopens
    -- The nonce is part of what is opened, so it is enough to look at one for each.
    have hchecked : ∀ frame ∈ Sample.tampered,
        (suite.aead.decrypt? (suite.streamKey (.zero keySize) (.zero headerSize))
          (.padded nonceSize (frame.drop (frame.length - sealOverhead))) frame).isSome →
        ∃ x ∈ [Sample.sealing 0 [1], Sample.sealing 1 [2], Sample.sealing 2 [3]],
          x.nonce = .padded nonceSize (frame.drop (frame.length - sealOverhead)) ∧
            x.sealed = frame := by decide +kernel
    obtain rfl := Sample.nonce_of_decrypt? hopens
    exact hchecked frame hframe (Option.isSome_of_eq_some hopens)
  obtain ⟨decoder, hattach, hopened⟩ := suite.opened_in_order (.zero keySize) (.zero headerSize)
    [[1], [2], [3]] Sample.tampered Sample.inverts_taggingAead (by rwa [hsealings])
  have hdecoder : decoder = suite.decoder (.zero keySize) (.zero headerSize) := by
    rw [Suite.attachStream, Octets.ofBytes?_bytes] at hattach
    exact (Except.ok.inj hattach).symm
  have hopen : decoder.openAll Sample.tampered =
      ([[1], [2]], (decoder.openAll Sample.tampered).2) := by
    have htexts : (decoder.openAll Sample.tampered).1 = [[1], [2]] := by
      rw [hdecoder]
      decide +kernel
    exact Prod.ext htexts rfl
  have hfails : ((decoder.openAll Sample.tampered).2.decrypt [7, 7]).toBool = false := by
    rw [hdecoder]
    decide +kernel
  obtain ⟨horder, hunchanged, -⟩ := hopened [[1], [2]] _ hopen
  obtain ⟨-, hgenuine⟩ := hunchanged [[7, 7]] (by
    intro frame hframe
    obtain rfl := List.mem_singleton.1 hframe
    cases hdecrypt : (decoder.openAll Sample.tampered).2.decrypt [7, 7] with
    | error e => exact ⟨e, rfl⟩
    | ok => rw [hdecrypt] at hfails; cases hfails)
  obtain ⟨next, hnext⟩ := hgenuine (Sample.sealing 2 [3]) (by rw [hsealings]; rfl)
  exact ⟨hsealings, Sample.inverts_taggingAead, hauthentic, decoder, _, next, hattach, hopen,
    horder, hnext⟩

end Relay
