import IdentityService.Defs.Config
import IdentityService.Defs.Effect
import IdentityService.Defs.Token

/-! Building the service from its configuration. -/

namespace IdentityService

open Lib

/-- What the service takes from libraries.  `mfaCrypto` is AES-GCM under a key and HMAC under a
pepper. -/
structure Primitives (S P T : Type) where
  std : StandardLibrary
  platform : Platform
  ed25519 : Ed25519 S P T
  jwt : JWT T
  hasher : PasswordHasher
  mfaCrypto : (issuer : String) → (key pepper : Bytes) → MFACrypto
  digest : String → String
  toLower : String → String
  lower : String → String
  marshalAudiences : List String → String
  unmarshalAudiences : String → Option (List String)

namespace Primitives

variable {S P T : Type} (prim : Primitives S P T)

/-- Neither the cipher nor its mode refuses a key of 32 bytes. -/
def newMFACrypto (issuer encryptionKey recoveryPepper : String) : Except String MFACrypto :=
  match decodeKey prim.std encryptionKey 32, decodeKey prim.std recoveryPepper 32 with
  | none, _ => .error "decode mfa encryption key: key must be base64 encoded 32 bytes"
  | some _, none => .error "decode mfa recovery pepper: key must be base64 encoded 32 bytes"
  | some key, some pepper =>
    if Go.trimSpace issuer = "" then .error "mfa issuer is required"
    else .ok (prim.mfaCrypto (Go.trimSpace issuer) key pepper)

def previousKeys (cfg : ServiceConfig) : List (String × P) :=
  cfg.jwt.previousSecrets.entries.map (fun ⟨keyID, secret⟩ =>
    (keyID, prim.ed25519.publicKey (prim.ed25519.keyOfSecret secret)))

def newIssuer (cfg : ServiceConfig) : Except String (KeyedIssuer S P T) := do
  let keyID := if cfg.jwt.keyID = "" then "identity-current" else cfg.jwt.keyID
  let audiences := if cfg.jwt.audiences.length = 0 then [cfg.app.name] else cfg.jwt.audiences
  let issuer ← newTokenIssuer prim.ed25519 prim.jwt cfg.jwt.issuer audiences keyID
    (prim.ed25519.keyOfSecret cfg.jwt.secret) cfg.jwt.ttl
  issuer.addVerificationKeys (prim.previousKeys cfg)

def newMFA (cfg : ServiceConfig) : Except String (Option MFACrypto) :=
  if cfg.mfa.enabled then
    (prim.newMFACrypto cfg.mfa.issuer cfg.mfa.encryptionKey cfg.mfa.recoveryPepper).map some
  else .ok none

def newService (cfg : ServiceConfig) : Except String Service := do
  let issuer ← prim.newIssuer cfg
  let mfa ← prim.newMFA cfg
  return {
    platform := prim.platform
    hasher := prim.hasher
    issuer := issuer.tokenIssuer
    mfa := mfa
    mfaChallengeTTL := cfg.mfa.challengeTTL
    digest := prim.digest
    toLower := prim.toLower
    lower := prim.lower
    marshalAudiences := prim.marshalAudiences
    unmarshalAudiences := prim.unmarshalAudiences
  }

end Primitives

end IdentityService
