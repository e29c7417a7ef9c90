import IdentityService.Defs.Crypto
import IdentityService.Lib.Signing

/-! The token issuer down to its keys.  It signs under its own key and verifies through a map
of keys, which `AddVerificationKey` extends. -/

namespace IdentityService

open Lib

/-- Ed25519 on texts.  `keyOfSecret` is the key whose seed is the SHA-256 of a secret; no two
secrets share one. -/
structure Ed25519 (S P T : Type) extends Scheme S P String T where
  privateKeySize : S → Bool
  publicKeySize : P → Bool
  publicKey_size : ∀ s, privateKeySize s = true → publicKeySize (publicKey s) = true
  keyOfSecret : String → S
  keyOfSecret_size : ∀ secret, privateKeySize (keyOfSecret secret) = true
  secret_inj : ∀ a b, publicKey (keyOfSecret a) = publicKey (keyOfSecret b) → a = b

structure TokenHeader where
  alg : String
  kid : String
deriving DecidableEq

/-- The JWT library.  `signingString` is the text that is signed, `compact` that text with its
signature, and `parts` reads both back; `validate` is the validation with the options of `Parse`,
given an issuer and an audience. -/
structure JWT (T : Type) where
  signingString : TokenHeader → TokenClaims → String
  compact : String → T → String
  parts : String → Option (TokenHeader × TokenClaims × String × T)
  validate : TokenClaims → String → String → Time → Bool
  parts_compact : ∀ header claims tag, parts (compact (signingString header claims) tag) =
    some (header, claims, signingString header claims, tag)
  validate_iff : ∀ claims issuer audience now, issuer ≠ "" → audience ≠ "" →
    (validate claims issuer audience now = true ↔
      now < claims.expiresAt * Go.second ∧ claims.notBefore * Go.second ≤ now ∧
        claims.issuedAt * Go.second ≤ now ∧ claims.issuer = issuer ∧ audience ∈ claims.audience)

def edDSA : String := "EdDSA"

/-- The `TokenIssuer` of the source. -/
structure KeyedIssuer (S P T : Type) where
  ed25519 : Ed25519 S P T
  jwt : JWT T
  issuer : String
  audiences : List String
  keyID : String
  privateKey : S
  publicKey : P
  verificationKeys : KeyRing String P
  ttl : Time

variable {S P T : Type}

def newTokenIssuer (ed25519 : Ed25519 S P T) (jwt : JWT T) (issuer : String)
    (audiences : List String) (keyID : String) (privateKey : S) (ttl : Time) :
    Except String (KeyedIssuer S P T) :=
  if issuer = "" ∨ audiences.length = 0 ∨ keyID = "" ∨ ed25519.privateKeySize privateKey = false ∨
      ttl ≤ 0 then
    .error "issuer, audience, key id, Ed25519 private key, and positive ttl are required"
  else
    .ok ⟨ed25519, jwt, issuer, audiences, keyID, privateKey, ed25519.publicKey privateKey,
      AList.singleton keyID (ed25519.publicKey privateKey), ttl⟩

namespace KeyedIssuer

variable (i : KeyedIssuer S P T)

def addVerificationKey (keyID : String) (publicKey : P) : Except String (KeyedIssuer S P T) :=
  if keyID = "" ∨ i.ed25519.publicKeySize publicKey = false then
    .error "key id and Ed25519 public key are required"
  else .ok { i with verificationKeys := i.verificationKeys.insert keyID publicKey }

def addVerificationKeys (keys : List (String × P)) : Except String (KeyedIssuer S P T) :=
  keys.foldlM (fun i key => i.addVerificationKey key.1 key.2) i

def signedString (claims : TokenClaims) : String :=
  let text := i.jwt.signingString ⟨edDSA, i.keyID⟩ claims
  i.jwt.compact text (i.ed25519.sign i.privateKey text)

def verify (raw : String) : Option TokenClaims :=
  match i.jwt.parts raw with
  | none => none
  | some (header, claims, text, tag) =>
    match i.verificationKeys.key header.kid with
    | none => none
    | some key =>
      if header.alg = edDSA ∧ i.ed25519.verify key text tag = true then some claims else none

def tokenIssuer : TokenIssuer where
  issuer := i.issuer
  audiences := i.audiences
  ttl := i.ttl
  signedString := i.signedString
  verify := i.verify
  validate claims now := i.jwt.validate claims i.issuer (i.audiences.headD "") now

def issue (subject subjectType sessionID tenantID membershipID : String) (now : Time)
    (tokenID : String) : Except String (String × Time) :=
  if subject = "" ∨ subjectType = "" then
    .error "token subject and subject type are required"
  else
    .ok (i.signedString (i.tokenIssuer.claims subject subjectType sessionID tenantID membershipID
      now tokenID), now + i.ttl)

def parse (raw : String) (now : Time) : Option TokenClaims := i.tokenIssuer.parse raw now

end KeyedIssuer

theorem ok_of_bind_eq_ok {ε α β : Type} {x : Except ε α} {f : α → Except ε β} {b : β}
    (h : (x >>= f) = .ok b) : ∃ a, x = .ok a ∧ f a = .ok b := by
  cases x with
  | error e => cases h
  | ok a => exact ⟨a, rfl, h⟩

section Laws

variable {i j : KeyedIssuer S P T}

theorem KeyedIssuer.parse_eq (raw : String) (now : Time) : i.parse raw now =
    (i.verify raw).filter (i.jwt.validate · i.issuer (i.audiences.headD "") now) :=
  rfl

theorem newTokenIssuer_eq {e : Ed25519 S P T} {jwt : JWT T} {issuer keyID : String}
    {audiences : List String} {privateKey : S} {ttl : Time}
    (h : newTokenIssuer e jwt issuer audiences keyID privateKey ttl = .ok i) :
    (issuer ≠ "" ∧ audiences ≠ []) ∧
    i = ⟨e, jwt, issuer, audiences, keyID, privateKey, e.publicKey privateKey,
      AList.singleton keyID (e.publicKey privateKey), ttl⟩ := by
  unfold newTokenIssuer at h
  split at h
  · cases h
  · rename_i hvalid
    cases h
    simp only [not_or, List.length_eq_zero_iff] at hvalid
    exact ⟨⟨hvalid.1, hvalid.2.1⟩, rfl⟩

theorem verify_signedString (hscheme : j.ed25519 = i.ed25519) (hjwt : j.jwt = i.jwt)
    {claims claims' : TokenClaims} :
    j.verify (i.signedString claims) = some claims' ↔
      claims' = claims ∧
        j.verificationKeys.key i.keyID = some (i.ed25519.publicKey i.privateKey) := by
  rw [KeyedIssuer.verify, hjwt, KeyedIssuer.signedString, i.jwt.parts_compact]
  cases hkey : j.verificationKeys.key i.keyID with
  | none => simp [hkey]
  | some key => simp [hkey, hscheme, i.ed25519.verify_sign, and_comm, eq_comm]

theorem addVerificationKeys_eq {keys : List (String × P)} (h : i.addVerificationKeys keys = .ok j) :
    j = { i with verificationKeys := i.verificationKeys.addAll keys } := by
  induction keys generalizing i with
  | nil =>
    cases h
    rfl
  | cons key later ih =>
    rw [KeyedIssuer.addVerificationKeys, List.foldlM_cons] at h
    obtain ⟨i', hadd, hrest⟩ := ok_of_bind_eq_ok h
    unfold KeyedIssuer.addVerificationKey at hadd
    split at hadd
    · cases hadd
    · cases hadd
      exact ih hrest

end Laws

end IdentityService
