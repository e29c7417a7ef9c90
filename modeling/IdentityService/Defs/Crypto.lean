import IdentityService.Defs.Model

/-! Passwords, one time codes and access tokens.  The primitives (Argon2id, AES-GCM, HMAC
and Ed25519, with the encodings of their output) are parameters; what the service does
with them is not. -/

namespace IdentityService

/-- `encode` is the text `Hash` builds from a salt, `verify` the whole of `Verify`. -/
structure PasswordHasher where
  encode : (salt password : String) → String
  verify : (password encoded : String) → Option (Bool × Bool)

def validatePassword (password : String) : Except String Unit :=
  if password.utf8ByteSize < 12 ∨ password.utf8ByteSize > 1024 then
    .error "password must contain between 12 and 1024 bytes"
  else .ok ()

namespace Base32

def value (c : Char) : Option Nat :=
  if 'A' ≤ c ∧ c ≤ 'Z' then some (c.toNat - 'A'.toNat)
  else if '2' ≤ c ∧ c ≤ '7' then some (c.toNat - '2'.toNat + 26)
  else none

def group : List Nat → Bytes
  | [a, b, c, d, e, f, g, h] => group5 [a, b, c, d, e, f, g] ++ [UInt8.ofNat (g * 32 + h)]
  | vs => group5 vs
where
  group5 : List Nat → Bytes
    | [a, b] => [UInt8.ofNat (a * 8 + b / 4)]
    | [a, b, c, d] => [UInt8.ofNat (a * 8 + b / 4), UInt8.ofNat (b * 64 + c * 2 + d / 16)]
    | [a, b, c, d, e] =>
      [UInt8.ofNat (a * 8 + b / 4), UInt8.ofNat (b * 64 + c * 2 + d / 16),
        UInt8.ofNat (d * 16 + e / 2)]
    | [a, b, c, d, e, f, g] =>
      [UInt8.ofNat (a * 8 + b / 4), UInt8.ofNat (b * 64 + c * 2 + d / 16),
        UInt8.ofNat (d * 16 + e / 2), UInt8.ofNat (e * 128 + f * 4 + g / 8)]
    | _ => []

def groups : List Nat → Bytes
  | a :: b :: c :: d :: e :: f :: g :: h :: rest =>
    group [a, b, c, d, e, f, g, h] ++ groups rest
  | rest => group rest

def decode (s : String) : Option Bytes :=
  ((s.toList.filter (fun c => c ≠ '\r' && c ≠ '\n')).mapM value).map groups

end Base32

/-- `encrypt` and `decrypt` are AES-GCM with the user as associated data, on encoded text;
`decrypt` fails on text that does not decode or authenticate.  `recoveryMAC` is the encoded
HMAC-SHA256 under the pepper, which is never empty; `uri` is the provisioning link. -/
structure MFACrypto where
  uri : (account secret : String) → String
  encrypt : (nonce userID secret : String) → String
  decrypt : (userID encrypted : String) → Option String
  hmacSHA1 : (key message : Bytes) → Bytes
  recoveryMAC : String → String
  recoveryMAC_ne : ∀ s, recoveryMAC s ≠ ""
  toUpper : String → String

namespace MFACrypto

def totpPeriod : Int := 30
def totpDigits : Nat := 6
def totpWindow : Int := 1
def recoveryCodeCount : Nat := 10

def bigEndian64 (n : Nat) : Bytes :=
  [56, 48, 40, 32, 24, 16, 8, 0].map (fun shift => UInt8.ofNat (n / 2 ^ shift))

def zeroPadded (digits value : Nat) : String :=
  let text := Nat.toDigits 10 value
  String.ofList (List.replicate (digits - text.length) '0' ++ text)

def hotp (hmacSHA1 : Bytes → Bytes → Bytes) (secret : Bytes) (counter digits : Nat) : String :=
  let sum := hmacSHA1 secret (bigEndian64 counter)
  let offset := (sum.getLastD 0).toNat % 16
  let byte (i : Nat) := (sum.getD (offset + i) 0).toNat
  let value := (byte 0 % 128) * 2 ^ 24 + byte 1 * 2 ^ 16 + byte 2 * 2 ^ 8 + byte 3
  zeroPadded digits (value % 10 ^ digits)

def decryptSecret (m : MFACrypto) (userID encrypted : String) : Option String :=
  m.decrypt userID encrypted

def decodeSecret (m : MFACrypto) (secret : String) : Option Bytes :=
  Base32.decode (m.toUpper (Go.trimSpace secret))

def window (now : Time) : List Int :=
  let step := (Go.unix now).tdiv totpPeriod
  [step - totpWindow, step, step + totpWindow].filter (fun candidate => 0 ≤ candidate)

def validateTOTP (m : MFACrypto) (secret code : String) (now : Time) : Option Int :=
  match m.decodeSecret secret with
  | none => none
  | some bytes =>
    if bytes = [] ∨ code.utf8ByteSize ≠ totpDigits then none
    else (window now).find? (fun candidate =>
      hotp m.hmacSHA1 bytes candidate.toNat totpDigits = code)

def recoveryCodeHash (m : MFACrypto) (code : String) : String :=
  m.recoveryMAC (m.toUpper (String.ofList ((Go.trimSpace code).toList.filter (· ≠ '-'))))

def displayCode (compact : String) : String :=
  let cs := compact.toList
  String.ofList (cs.take 4 ++ '-' :: (cs.drop 4).take 4 ++ '-' :: (cs.drop 8).take 4 ++
    '-' :: cs.drop 12)

end MFACrypto

structure TokenClaims where
  subjectType : String
  sessionID : String
  tenantID : String
  membershipID : String
  issuer : String
  subject : String
  audience : List String
  issuedAt : Int
  notBefore : Int
  expiresAt : Int
  id : String
deriving DecidableEq

/-- `signedString` is the signed text of claims, `verify` the claims of a text whose
signature a known key verifies, and `validate` the JWT library's check of them. -/
structure TokenIssuer where
  issuer : String
  audiences : List String
  ttl : Time
  signedString : TokenClaims → String
  verify : String → Option TokenClaims
  validate : TokenClaims → Time → Bool

namespace TokenIssuer

def claims (i : TokenIssuer) (subject subjectType sessionID tenantID membershipID : String)
    (now : Time) (tokenID : String) : TokenClaims where
  subjectType := subjectType
  sessionID := sessionID
  tenantID := tenantID
  membershipID := membershipID
  issuer := i.issuer
  subject := subject
  audience := i.audiences
  issuedAt := Go.unix now
  notBefore := Go.unix now
  expiresAt := Go.unix (now + i.ttl)
  id := tokenID

def parse (i : TokenIssuer) (raw : String) (now : Time) : Option TokenClaims :=
  (i.verify raw).filter (i.validate · now)

end TokenIssuer

end IdentityService
