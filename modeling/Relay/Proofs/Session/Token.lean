import Relay.Session.Token

/-!
# `Relay.Proofs.Session.Token`: minting and opening tokens

A token is the sealed ids, the nonce and zeros, and nothing else. `open?_eq_some` says what is known
of a token that is opened, and `eq_layOut_of_sealed` that a token whose sealed part was sealed for two
ids is laid out as for them, byte by byte. With authenticated encryption that opens what it sealed, a
token opens to the ids that it was minted for (`open?_of_mint`), so that it stands for one session.
Sealing may fail, and then no token is minted (`mint_eq_some_iff`).
-/

set_option autoImplicit false

namespace Relay

namespace Token

/-- The part of a token that is sealed. -/
def sealed (token : Token) : Bytes := token.bytes.take sealedIdsSize

/-- The nonce of a token. -/
def nonce (token : Token) : Nonce := .padded nonceSize (token.bytes.drop sealedIdsSize)

/-- A token is long enough to hold a nonce, which is never filled up. -/
theorem bytes_nonce (token : Token) :
    token.nonce.bytes = (token.bytes.drop sealedIdsSize).take nonceSize := by
  have hroom : nonceSize - (token.bytes.drop sealedIdsSize).length = 0 := by
    rw [List.length_drop, token.length_eq]
    decide
  show (token.bytes.drop sealedIdsSize).take nonceSize ++ _ = _
  rw [hroom, List.replicate_zero, List.append_nil]

end Token

namespace TokenCipher

variable {cipher : TokenCipher} {token : Token} {conn : ConnId} {user : UserId}

/-- A token that is opened ends in zeros, and what it seals are the ids. -/
theorem open?_eq_some (h : cipher.open? token = some (conn, user)) :
    (∀ b ∈ token.bytes.drop (sealedIdsSize + nonceSize), b = 0) ∧
      ∃ ids : Bytes, cipher.aead.decrypt? cipher.key token.nonce token.sealed = some ids ∧
        conn = ofWord32 (ids.take 4) ∧ user = ofWord32 ((ids.drop 4).take 4) := by
  unfold open? at h
  split at h
  · cases h
  · rename_i hzeros
    dsimp only at h
    split at h
    · cases h
    · rename_i ids hids
      split at h
      · cases h
      · cases h
        exact ⟨by simpa using hzeros, ids, hids, rfl, rfl⟩

/-- A token that ends in zeros and whose sealed part was sealed for two ids is laid out as for
them. -/
theorem eq_layOut_of_sealed
    (hzeros : ∀ b ∈ token.bytes.drop (sealedIdsSize + nonceSize), b = 0)
    (hsealed : token.sealed = cipher.aead.encrypt cipher.key token.nonce (packIds conn user)) :
    token = cipher.layOut token.nonce conn user := by
  have htail : token.bytes.drop (sealedIdsSize + nonceSize) =
      List.replicate (tokenSize - sealedIdsSize - nonceSize) 0 := by
    rw [List.eq_replicate_iff]
    refine ⟨?_, hzeros⟩
    rw [List.length_drop, token.length_eq, Nat.sub_sub]
  apply Octets.ext
  show token.bytes = _ ++ _ ++ _
  rw [← hsealed, token.bytes_nonce, ← htail, Token.sealed, ← List.drop_drop, List.append_assoc,
    List.take_append_drop, List.take_append_drop]

theorem length_encrypt_packIds (nonce : Nonce) :
    (cipher.aead.encrypt cipher.key nonce (packIds conn user)).length = sealedIdsSize := by
  simp [cipher.aead.length_encrypt, packIds, sealedIdsSize]

@[simp] theorem sealed_layOut (nonce : Nonce) :
    (cipher.layOut nonce conn user).sealed =
      cipher.aead.encrypt cipher.key nonce (packIds conn user) := by
  show List.take sealedIdsSize (_ ++ _ ++ _) = _
  rw [List.append_assoc, List.take_left' (length_encrypt_packIds nonce)]

@[simp] theorem nonce_layOut (nonce : Nonce) : (cipher.layOut nonce conn user).nonce = nonce := by
  show Octets.padded nonceSize (List.drop sealedIdsSize (_ ++ _ ++ _)) = _
  rw [List.append_assoc, List.drop_left' (length_encrypt_packIds nonce), Octets.padded_append]

/-- A token opens to the ids that it was laid out for, if what was sealed opens. -/
theorem open?_layOut_of_decrypt? {nonce : Nonce}
    (hopens : cipher.aead.decrypt? cipher.key nonce
      (cipher.aead.encrypt cipher.key nonce (packIds conn user)) = some (packIds conn user)) :
    cipher.open? (cipher.layOut nonce conn user) = some (conn, user) := by
  have hzeros : (cipher.layOut nonce conn user).bytes.drop (sealedIdsSize + nonceSize) =
      List.replicate (tokenSize - sealedIdsSize - nonceSize) 0 := by
    apply List.drop_left'
    rw [List.length_append, length_encrypt_packIds, nonce.length_eq]
  have hids : cipher.aead.decrypt? cipher.key (cipher.layOut nonce conn user).nonce
      (cipher.layOut nonce conn user).sealed = some (packIds conn user) := by
    rw [sealed_layOut, nonce_layOut, hopens]
  have hconn : (packIds conn user).take 4 = word32 conn := List.take_left' (length_word32 conn)
  have huser : ((packIds conn user).drop 4).take 4 = word32 user := by
    rw [packIds, List.drop_left' (length_word32 conn)]
    exact List.take_of_length_le (Nat.le_of_eq (length_word32 user))
  have hlength : ¬ (packIds conn user).length < 8 := by simp [packIds]
  unfold Token.nonce Token.sealed at hids
  unfold open?
  rw [hzeros, if_neg (by simp)]
  simp only [hids]
  rw [if_neg hlength, hconn, huser, ofWord32_word32, ofWord32_word32]

theorem open?_layOut (hinverts : cipher.aead.Inverts) (nonce : Nonce) :
    cipher.open? (cipher.layOut nonce conn user) = some (conn, user) :=
  open?_layOut_of_decrypt? (hinverts _ _ _)

/-! ### Minting -/

theorem mint_eq_some_iff {nonce : Nonce} : cipher.mint nonce conn user = some token ↔
    cipher.refuses nonce (packIds conn user) = false ∧ cipher.layOut nonce conn user = token := by
  unfold mint
  split
  · rename_i hrefuses
    simp [hrefuses]
  · rename_i hseals
    simp [hseals]

theorem mint_of_seals (hseals : cipher.Seals) (nonce : Nonce) :
    cipher.mint nonce conn user = some (cipher.layOut nonce conn user) :=
  mint_eq_some_iff.2 ⟨hseals nonce _, rfl⟩

/-- A token opens to the ids that it was minted for. -/
theorem open?_of_mint (hinverts : cipher.aead.Inverts) {nonce : Nonce}
    (h : cipher.mint nonce conn user = some token) : cipher.open? token = some (conn, user) := by
  obtain ⟨-, rfl⟩ := mint_eq_some_iff.1 h
  exact open?_layOut hinverts nonce

end TokenCipher

end Relay
