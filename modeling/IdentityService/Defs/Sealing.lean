import IdentityService.Defs.Encoding
import IdentityService.Defs.GoLaws

/-! The secret of an authenticator, from its random bytes to the database column and back. -/

namespace IdentityService

open Lib

/-- An ideal AEAD under a fixed key: it opens what it has sealed for the same associated text and
nothing else. -/
structure AEAD where
  nonceSize : Nat
  sealText : (nonce : Bytes) → (plaintext additional : String) → Bytes
  openText : (nonce sealed : Bytes) → (additional : String) → Option String
  open_seal : ∀ nonce plaintext additional,
    openText nonce (sealText nonce plaintext additional) additional = some plaintext
  seal_of_open : ∀ {nonce sealed plaintext additional},
    openText nonce sealed additional = some plaintext →
      sealText nonce plaintext additional = sealed
  additional_eq : ∀ {nonce plaintext plaintext' additional additional'},
    sealText nonce plaintext additional = sealText nonce plaintext' additional' →
      additional = additional'

def AEAD.decryptSecret (aead : AEAD) (userID encrypted : String) : Option String :=
  match Base64.decode Base64.rawURL false encrypted.toList with
  | none => none
  | some payload =>
    if payload.length < aead.nonceSize then none
    else aead.openText (payload.take aead.nonceSize) (payload.drop aead.nonceSize) userID

section Laws

variable {aead : AEAD} {nonce : Bytes}

end Laws

end IdentityService
