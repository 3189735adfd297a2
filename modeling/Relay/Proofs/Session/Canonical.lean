import Relay.Proofs.Crypto.Gcm
import Relay.Proofs.Session.Token

/-!
# `Relay.Proofs.Session.Canonical`: one byte string for each nonce and pair of ids

A token is cut into what is sealed, the nonce and the filler, and nothing else stands in it
(`Token.bytes_eq`). The filler has to be zeros, and what is sealed has one form under a key and a nonce
(`TokenCipher.Exact`), so that a token that opens is, byte by byte, the one that is minted for the same
ids under its own nonce (`TokenCipher.mint_of_open?`). From that follows `TokenCipher.Canonical`, which
is what may be relied on.

AES-256-GCM is exact (`exact_aes256Gcm`), and a cipher with it that never fails is exact as well
(`TokenCipher.exact_of_aead`).
-/

set_option autoImplicit false

namespace Relay

/-- Under one key and one nonce a byte string opens to a text just if the text is sealed to it. -/
def Aead.Exact (aead : Aead) : Prop :=
  ∀ (key : Key) (nonce : Nonce) (text sealed : Bytes),
    aead.decrypt? key nonce sealed = some text ↔ sealed = aead.encrypt key nonce text

theorem Suite.exact_aes256Gcm : Suite.aes256Gcm.Exact :=
  fun _ _ _ _ => Crypto.Gcm.decrypt?_eq_some_iff

/-- Under the key of a cipher and a nonce, a byte string opens to a text just if sealing the text does
not fail and gives that byte string. -/
def TokenCipher.Exact (cipher : TokenCipher) : Prop :=
  ∀ (nonce : Nonce) (text sealed : Bytes),
    cipher.aead.decrypt? cipher.key nonce sealed = some text ↔
      cipher.refuses nonce text = false ∧ sealed = cipher.aead.encrypt cipher.key nonce text

theorem TokenCipher.exact_of_aead {cipher : TokenCipher} (hexact : cipher.aead.Exact)
    (hseals : cipher.Seals) : cipher.Exact :=
  fun nonce text _ => (hexact cipher.key nonce text _).trans (and_iff_right (hseals nonce text)).symm

/-- Eight bytes are two ids. -/
theorem eq_packIds {ids : Bytes} (h : ids.length = 8) :
    ids = packIds (ofWord32 (ids.take 4)) (ofWord32 ((ids.drop 4).take 4)) := by
  have hconn : (ids.take 4).length = 4 := List.length_take_of_le (by omega)
  have hrest : (ids.drop 4).length = 4 := by rw [List.length_drop, h]
  rw [packIds, word32_ofWord32 hconn, List.take_of_length_le (Nat.le_of_eq hrest), word32_ofWord32 hrest,
    List.take_append_drop]

/-! ### The parts of a token -/

namespace Token

/-- The number of bytes that follow the nonce. -/
def fillerSize : Nat := tokenSize - sealedIdsSize - nonceSize

/-- What follows the nonce. -/
def filler (token : Token) : Bytes := token.bytes.drop (sealedIdsSize + nonceSize)

theorem length_sealed (token : Token) : token.sealed.length = sealedIdsSize := by
  rw [Token.sealed, List.length_take, token.length_eq]
  decide

theorem length_filler (token : Token) : token.filler.length = fillerSize := by
  rw [filler, List.length_drop, token.length_eq]
  decide

/-- The parts follow on one another and fill the token. -/
theorem bytes_eq (token : Token) :
    token.bytes = token.sealed ++ token.nonce.bytes ++ token.filler := by
  rw [token.bytes_nonce, Token.sealed, filler, ← List.drop_drop, List.append_assoc,
    List.take_append_drop, List.take_append_drop]

/-- Tokens that agree in all parts are the same. -/
theorem ext_parts {token other : Token} (hsealed : token.sealed = other.sealed)
    (hnonce : token.nonce = other.nonce) (hfiller : token.filler = other.filler) :
    token = other := by
  apply Octets.ext
  rw [token.bytes_eq, hsealed, hnonce, hfiller, ← other.bytes_eq]

end Token

/-! ### Opening -/

namespace TokenCipher

variable {cipher : TokenCipher} {token : Token} {conn conn' : ConnId} {user user' : UserId}
  {nonce nonce' : Nonce} {ids : Bytes}

/-- What a token of the right size seals has the size of two ids. -/
theorem length_of_decrypt? (hexact : cipher.Exact)
    (h : cipher.aead.decrypt? cipher.key token.nonce token.sealed = some ids) : ids.length = 8 := by
  have hsize := token.length_sealed
  rw [((hexact _ _ _).1 h).2, cipher.aead.length_encrypt, sealedIdsSize] at hsize
  exact Nat.add_right_cancel hsize

/-- A token that opens is the one that is minted for the same ids under its nonce. -/
theorem mint_of_open? (hexact : cipher.Exact) (h : cipher.open? token = some (conn, user)) :
    cipher.mint token.nonce conn user = some token := by
  obtain ⟨hzeros, ids, hids, rfl, rfl⟩ := open?_eq_some h
  have hpacked := eq_packIds (length_of_decrypt? hexact hids)
  obtain ⟨hseals, hsealed⟩ := (hexact _ _ _).1 hids
  rw [hpacked] at hseals hsealed
  exact mint_eq_some_iff.2 ⟨hseals, (eq_layOut_of_sealed hzeros hsealed).symm⟩

/-- What is sealed in a token that was minted opens. -/
theorem open?_of_mint_of_exact (hexact : cipher.Exact)
    (h : cipher.mint nonce conn user = some token) : cipher.open? token = some (conn, user) := by
  obtain ⟨hseals, rfl⟩ := mint_eq_some_iff.1 h
  refine open?_layOut_of_decrypt? ?_
  exact (hexact _ _ _).2 ⟨hseals, rfl⟩

theorem open?_eq_some_iff (hexact : cipher.Exact) :
    cipher.open? token = some (conn, user) ↔ ∃ nonce, cipher.mint nonce conn user = some token := by
  constructor
  · exact fun h => ⟨token.nonce, mint_of_open? hexact h⟩
  · rintro ⟨nonce, hmint⟩
    exact open?_of_mint_of_exact hexact hmint

/-- A token is refused for its filler or because what is sealed is not authentic. -/
theorem open?_eq_none_iff (hexact : cipher.Exact) :
    cipher.open? token = none ↔ (∃ b ∈ token.filler, b ≠ 0) ∨
      cipher.aead.decrypt? cipher.key token.nonce token.sealed = none := by
  have hzeros : (token.bytes.drop (sealedIdsSize + nonceSize)).any (· != 0) = true ↔
      ∃ b ∈ token.filler, b ≠ 0 := by
    simp only [List.any_eq_true, bne_iff_ne, Token.filler]
  unfold open?
  split
  · rename_i hfilled
    exact ⟨fun _ => .inl (hzeros.1 hfilled), fun _ => rfl⟩
  · rename_i hfilled
    have hclean : ¬ ∃ b ∈ token.filler, b ≠ 0 := fun h => hfilled (hzeros.2 h)
    dsimp only
    split
    · rename_i hnone
      exact ⟨fun _ => .inr hnone, fun _ => rfl⟩
    · rename_i ids hids
      have hids : cipher.aead.decrypt? cipher.key token.nonce token.sealed = some ids := hids
      have hlong : ¬ ids.length < 8 := by
        rw [length_of_decrypt? hexact hids]
        decide
      rw [if_neg hlong, hids]
      exact ⟨nofun, fun h => h.elim (fun hany => absurd hany hclean) nofun⟩

/-! ### What may be relied on -/

/-- What may be relied on about the form of tokens under a key. -/
structure Canonical (cipher : TokenCipher) : Prop where
  /-- A token opens to two ids just if it is minted for them under some nonce. -/
  opens : ∀ (token : Token) (conn : ConnId) (user : UserId),
    cipher.open? token = some (conn, user) ↔ ∃ nonce, cipher.mint nonce conn user = some token
  /-- In particular, unless sealing fails, a token is minted for any ids and under any nonce, and it
  opens to the ids. -/
  minted : ∀ (nonce : Nonce) (conn : ConnId) (user : UserId),
    cipher.refuses nonce (packIds conn user) = false →
      ∃ token, cipher.mint nonce conn user = some token ∧ cipher.open? token = some (conn, user)
  /-- Two pairs of ids never share a token. -/
  apart : ∀ (token : Token) (nonce nonce' : Nonce) (conn conn' : ConnId) (user user' : UserId),
    cipher.mint nonce conn user = some token → cipher.mint nonce' conn' user' = some token →
      conn = conn' ∧ user = user'
  /-- Two tokens that open to the same ids and have the same nonce are the same byte string. -/
  unique : ∀ (token token' : Token) (ids : ConnId × UserId), cipher.open? token = some ids →
    cipher.open? token' = some ids → token.nonce = token'.nonce → token = token'
  /-- Nothing but what is sealed and the nonce can be changed without a token being refused. -/
  rigid : ∀ (token token' : Token) (ids : ConnId × UserId), cipher.open? token = some ids →
    token.sealed = token'.sealed → token.nonce = token'.nonce → token' ≠ token →
      cipher.open? token' = none
  /-- Whatever the bytes of a token, it is cut into parts of fixed sizes that fill it, -/
  parts : ∀ token : Token, token.bytes = token.sealed ++ token.nonce.bytes ++ token.filler ∧
    token.sealed.length = sealedIdsSize ∧ token.nonce.bytes.length = nonceSize ∧
    token.filler.length = Token.fillerSize
  /-- and it is refused for its filler or because what is sealed is not authentic, but never because
  a part or an id is cut short. -/
  refused : ∀ token : Token, cipher.open? token = none ↔ (∃ b ∈ token.filler, b ≠ 0) ∨
    cipher.aead.decrypt? cipher.key token.nonce token.sealed = none

/-- If authenticated encryption has one sealed form of each text under the key and a nonce, tokens
have one form for each pair of ids and each nonce, and nothing else opens. -/
theorem token_canonical (cipher : TokenCipher) (hexact : cipher.Exact) : cipher.Canonical := by
  have opens (token : Token) (conn : ConnId) (user : UserId) :
      cipher.open? token = some (conn, user) ↔ ∃ nonce, cipher.mint nonce conn user = some token :=
    open?_eq_some_iff hexact
  constructor
  case opens => exact opens
  case minted =>
    intro nonce conn user hseals
    have hmint := mint_eq_some_iff.2 ⟨hseals, rfl⟩
    exact ⟨_, hmint, (opens _ conn user).2 ⟨nonce, hmint⟩⟩
  case apart =>
    intro token nonce nonce' conn conn' user user' hmint hmint'
    have hids := (open?_of_mint_of_exact hexact hmint).symm.trans
      (open?_of_mint_of_exact hexact hmint')
    exact Prod.mk.inj (Option.some.inj hids)
  case unique =>
    intro token token' ⟨conn, user⟩ hopen hopen' hnonce
    have hmint := mint_of_open? hexact hopen
    rw [hnonce, mint_of_open? hexact hopen'] at hmint
    exact (Option.some.inj hmint).symm
  case rigid =>
    intro token token' ids hopen hsealed hnonce hne
    refine Option.eq_none_iff_forall_ne_some.2 fun ids' hopen' => hne ?_
    -- Both fillers are zeros of the same number.
    have hzeros := List.eq_replicate_iff.2 ⟨token.length_filler, (open?_eq_some hopen).1⟩
    have hzeros' := List.eq_replicate_iff.2 ⟨token'.length_filler, (open?_eq_some hopen').1⟩
    exact Token.ext_parts hsealed.symm hnonce.symm (hzeros'.trans hzeros.symm)
  case parts =>
    exact fun token => ⟨token.bytes_eq, token.length_sealed, token.nonce.length_eq,
      token.length_filler⟩
  case refused => exact fun token => open?_eq_none_iff hexact

/-- With AES-256-GCM, a token of user 9 on connection 5 opens, and it is refused when its last byte is
changed. -/
theorem token_canonical_filler :
    ∃ (cipher : TokenCipher) (token forged : Token), cipher.aead = Suite.aes256Gcm ∧
      cipher.Exact ∧ cipher.mint (.zero nonceSize) 5 9 = some token ∧
      cipher.open? token = some (5, 9) ∧ forged.bytes = token.bytes.set 63 1 ∧
      cipher.open? forged = none ∧ cipher.Canonical := by
  let cipher : TokenCipher := { aead := Suite.aes256Gcm, key := .zero keySize }
  have hexact : cipher.Exact := exact_of_aead Suite.exact_aes256Gcm fun _ _ => rfl
  have hcanonical := cipher.token_canonical hexact
  obtain ⟨token, hmint, hopen⟩ := hcanonical.minted (.zero nonceSize) 5 9 rfl
  refine ⟨cipher, token, ⟨token.bytes.set 63 1, by rw [List.length_set, token.length_eq]⟩, rfl,
    hexact, hmint, hopen, rfl, ?_, hcanonical⟩
  refine (hcanonical.refused _).2 (.inl ⟨1, ?_, by decide⟩)
  have hlast : (token.bytes.set 63 1)[63]? = some 1 :=
    List.getElem?_set_self (by rw [token.length_eq]; decide)
  refine List.mem_of_getElem? (i := 27) ?_
  rw [Token.filler, List.getElem?_drop]
  exact hlast

end TokenCipher

end Relay
