import Relay.Suite
import Relay.Message.Basic

/-!
# `Relay.Session.Token`: what proves a session

After a log-in every request carries a token. It seals the ids of the connection and of the user
under a key that only the relay holds:

    sealed ids 24 | nonce 12 | zeros 28

The padding is checked before anything is opened, so no byte of a token can be changed. Sealing may
fail, and then there is no token.
-/

set_option autoImplicit false

namespace Relay

/-- The number of bytes of the two sealed ids. -/
def sealedIdsSize : Nat := 8 + sealOverhead

/-- The two ids as bytes, least significant byte first. -/
def packIds (conn : ConnId) (user : UserId) : Bytes := word32 conn ++ word32 user

/-- Mints and opens session tokens. -/
structure TokenCipher where
  /-- Seals the ids. -/
  aead : Aead
  /-- The key, which lives as long as the relay runs. -/
  key : Key
  /-- Whether sealing a text under a nonce fails. -/
  refuses : Nonce → Bytes → Bool := fun _ _ => false

namespace TokenCipher

variable (cipher : TokenCipher)

/-- Sealing never fails. -/
def Seals : Prop := ∀ (nonce : Nonce) (text : Bytes), cipher.refuses nonce text = false

/-- How the ids of a connection and a user are laid out in a token, sealed under a nonce. -/
def layOut (nonce : Nonce) (conn : ConnId) (user : UserId) : Token :=
  ⟨cipher.aead.encrypt cipher.key nonce (packIds conn user) ++ nonce.bytes ++
      List.replicate (tokenSize - sealedIdsSize - nonceSize) 0, by
    simp [cipher.aead.length_encrypt, packIds, nonce.length_eq, tokenSize, sealedIdsSize, nonceSize,
      sealOverhead]⟩

/-- The token for a user's session on a connection, under a nonce that was not used before, unless
sealing fails. -/
def mint (nonce : Nonce) (conn : ConnId) (user : UserId) : Option Token :=
  if cipher.refuses nonce (packIds conn user) then none
  else some (cipher.layOut nonce conn user)

/-- The connection and the user that a token was minted for, if it is authentic. -/
def open? (token : Token) : Option (ConnId × UserId) :=
  if (token.bytes.drop (sealedIdsSize + nonceSize)).any (· != 0) then none
  else
    let nonce := Octets.padded nonceSize (token.bytes.drop sealedIdsSize)
    match cipher.aead.decrypt? cipher.key nonce (token.bytes.take sealedIdsSize) with
    | none => none
    | some ids =>
      if ids.length < 8 then none
      else some (ofWord32 (ids.take 4), ofWord32 ((ids.drop 4).take 4))

end TokenCipher

end Relay
