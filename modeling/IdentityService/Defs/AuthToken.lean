import IdentityService.Defs.NewService

/-! `auth.Service` with the tokens of its own, which are signed with HS256, and the middleware that
asks for one. -/

namespace IdentityService

structure RegisteredClaims where
  issuer : String
  subject : String
  audience : List String
  expiresAt : Option Int
  notBefore : Option Int
  issuedAt : Option Int
  id : String
deriving DecidableEq

def TokenClaims.registered (claims : TokenClaims) : RegisteredClaims :=
  ⟨claims.issuer, claims.subject, claims.audience, some claims.expiresAt, some claims.notBefore,
    some claims.issuedAt, claims.id⟩

def hs256 : String := "HS256"

/-- The JWT library with HS256 and the claims of `auth.Service`.  `registered` reads them from the
tokens of either service, with the header that `parts` reads; `validateRegistered` is the validation
with the options of `auth.Service.Parse`. -/
structure HMACJWT (T : Type) extends JWT T where
  sign : String → String → T
  verify : String → String → T → Bool
  verify_sign : ∀ secret text, verify secret text (sign secret text) = true
  signingRegistered : TokenHeader → RegisteredClaims → String
  registered : String → Option (TokenHeader × RegisteredClaims × String × T)
  validateRegistered : RegisteredClaims → String → Time → Bool
  registered_header : ∀ raw p q, parts raw = some p → registered raw = some q → q.1 = p.1
  registered_signingString : ∀ header claims tag,
    registered (compact (signingString header claims) tag) =
      some (header, claims.registered, signingString header claims, tag)
  registered_signingRegistered : ∀ header claims tag,
    registered (compact (signingRegistered header claims) tag) =
      some (header, claims, signingRegistered header claims, tag)
  validateRegistered_iff : ∀ claims issuer now expiresAt notBefore issuedAt,
    claims.expiresAt = some expiresAt → claims.notBefore = some notBefore →
    claims.issuedAt = some issuedAt → claims.issuer = issuer →
    (validateRegistered claims issuer now = true ↔ now < expiresAt * Go.second ∧
      notBefore * Go.second ≤ now ∧ issuedAt * Go.second ≤ now)

structure AuthService (T : Type) where
  jwt : HMACJWT T
  issuer : String
  secret : String
  ttl : Time
  clientID : String
  clientSecret : String

namespace AuthService

variable {T : Type}

def new (jwt : HMACJWT T) (cfg : ServiceConfig) : AuthService T :=
  ⟨jwt, cfg.jwt.issuer, cfg.jwt.secret, cfg.jwt.ttl, cfg.auth.clientID, cfg.auth.clientSecret⟩

variable (s : AuthService T)

def enabled : Bool :=
  s.secret.utf8ByteSize ≥ 32 && s.clientID ≠ "" && s.clientSecret ≠ ""

def issue (subject : String) (now : Time) (jti : String) : Except String String :=
  if !s.enabled then .error "authentication is not configured"
  else
    let claims : RegisteredClaims :=
      ⟨s.issuer, subject, [], some (Go.unix (now + s.ttl)), some (Go.unix now), some (Go.unix now),
        jti⟩
    let text := s.jwt.signingRegistered ⟨hs256, ""⟩ claims
    .ok (s.jwt.compact text (s.jwt.sign s.secret text))

def parse (raw : String) (now : Time) : Except String RegisteredClaims :=
  if !s.enabled then .error "authentication is not configured"
  else
    match s.jwt.registered raw with
    | none => .error "parse jwt"
    | some (header, claims, text, tag) =>
      if header.alg = hs256 ∧ s.jwt.verify s.secret text tag = true ∧
          s.jwt.validateRegistered claims s.issuer now = true then
        .ok claims
      else .error "parse jwt"

end AuthService

def Go.cut (s : String) (sep : Char) : Option (String × String) :=
  let front := s.toList.takeWhile (· ≠ sep)
  if sep ∈ s.toList then
    some (String.ofList front, String.ofList (s.toList.drop (front.length + 1)))
  else none

/-- `strings.EqualFold` for ASCII letters that have no other fold. -/
def Go.equalFold (s t : String) : Bool := s.toList.map Char.toLower = t.toList.map Char.toLower

def Middleware.jwt {T : Type} (service : AuthService T) (header : String) (now : Time) :
    Except AppError String :=
  match Go.cut header ' ' with
  | none => .error (.unauthorized "missing bearer token")
  | some (scheme, raw) =>
    if !Go.equalFold scheme "Bearer" ∨ raw = "" then .error (.unauthorized "missing bearer token")
    else
      match service.parse raw now with
      | .error _ => .error (.unauthorized "invalid or expired token")
      | .ok claims => .ok claims.subject

end IdentityService
