import Relay.Crypto.Gcm

/-!
# `Relay.Proofs.Crypto.Gcm`: AES-256-GCM opens exactly what it sealed

Masking twice with the same keystream changes nothing (`mask_mask`), and the tag is computed from the
ciphertext alone. So under one key and one nonce there is one sealed form of each plaintext, and
nothing else is opened (`decrypt?_eq_some_iff`). This uses nothing about the block cipher or the
polynomial hash.
-/

set_option autoImplicit false

namespace Relay.Crypto.Gcm

/-- A text that is masked twice is the text, if the mask is long enough. -/
theorem xorBytes_xorBytes {text stream : Bytes} (h : text.length ≤ stream.length) :
    xorBytes (xorBytes text stream) stream = text := by
  induction text generalizing stream with
  | nil => rfl
  | cons b text ih =>
    cases stream with
    | nil => cases h
    | cons x stream =>
      have hrest := ih (Nat.le_of_succ_le_succ h)
      simp only [xorBytes, List.zipWith_cons_cons] at hrest ⊢
      rw [hrest, UInt8.xor_assoc, UInt8.xor_self, UInt8.xor_zero]

variable {keys : List Bytes} {key nonce text sealed : Bytes}

theorem mask_mask (keys : List Bytes) (nonce text : Bytes) :
    mask keys nonce (mask keys nonce text) = text := by
  -- Both masks are as long as the text is in blocks.
  have hstream : text.length ≤ (keystream keys nonce 2 ((text.length + 15) / 16)).length := by
    rw [length_keystream]
    omega
  have hmask : mask keys nonce text = xorBytes text
      (keystream keys nonce 2 ((text.length + 15) / 16)) := rfl
  rw [mask, length_mask, hmask]
  exact xorBytes_xorBytes hstream

/-- What is opened is the ciphertext and its tag. -/
theorem eq_encrypt_of_decrypt? (h : decrypt? key nonce sealed = some text) :
    sealed = encrypt key nonce text := by
  unfold decrypt? at h
  dsimp only at h
  split at h
  · cases h
  · split at h
    · rename_i htag
      cases h
      rw [encrypt, mask_mask, ← htag, List.take_append_drop]
    · cases h

theorem decrypt?_encrypt (key nonce text : Bytes) :
    decrypt? key nonce (encrypt key nonce text) = some text := by
  let ciphertext := mask (Aes.roundKeys key) nonce text
  have hsize : (encrypt key nonce text).length - tagSize = ciphertext.length := by
    rw [length_encrypt, Nat.add_sub_cancel, length_mask]
  have htake : (encrypt key nonce text).take ((encrypt key nonce text).length - tagSize) =
      ciphertext := List.take_left' hsize.symm
  have hdrop : (encrypt key nonce text).drop ((encrypt key nonce text).length - tagSize) =
      tag (Aes.roundKeys key) nonce ciphertext := List.drop_left' hsize.symm
  have hlong : ¬ (encrypt key nonce text).length < tagSize := by
    rw [length_encrypt]
    omega
  unfold decrypt?
  dsimp only
  rw [if_neg hlong, htake, hdrop, if_pos rfl, mask_mask]

/-- Under one key and one nonce a byte string opens to a text just if it is the text's sealed form. -/
theorem decrypt?_eq_some_iff :
    decrypt? key nonce sealed = some text ↔ sealed = encrypt key nonce text :=
  ⟨eq_encrypt_of_decrypt?, fun h => h ▸ decrypt?_encrypt key nonce text⟩

end Relay.Crypto.Gcm
