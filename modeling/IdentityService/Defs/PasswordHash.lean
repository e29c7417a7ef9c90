import IdentityService.Defs.Encoding
import IdentityService.Lib.Decimal

/-! The password hasher: Argon2id keys in a text that names their parameters. -/

namespace IdentityService

open Lib

namespace Go

def asciiText (b : Bytes) : String := String.ofList (b.map (fun b => Char.ofNat b.toNat))

/-- `SkipSpace` of `Sscanf`, where a line feed is not white space but an error. -/
def skipSpace : Nat → Bytes → Option Bytes
  | 0, b => some b
  | n + 1, b =>
    if b.head? = some 0x0A then none
    else
      match cutSpace b with
      | some rest => skipSpace n rest
      | none => some b

def scanText (text : String) (b : Bytes) : Option Bytes :=
  if ascii text <+: b then some (b.drop (ascii text).length) else none

def scanSign : Bytes → Bool × Bytes
  | 0x2B :: rest => (false, rest)
  | 0x2D :: rest => (true, rest)
  | b => (false, b)

def scanInt (b : Bytes) : Option (Int × Bytes) := do
  let b ← skipSpace b.length b
  let (negative, b) := scanSign b
  let (n, rest) ← Decimal.scan b
  let v : Int := if negative then -n else n
  if -2 ^ 63 ≤ v ∧ v < 2 ^ 63 then some (v, rest) else none

def scanUint (bits : Nat) (b : Bytes) : Option (Nat × Bytes) := do
  let b ← skipSpace b.length b
  let (n, rest) ← Decimal.scan b
  if n < 2 ^ 64 ∧ n < 2 ^ bits then some (n, rest) else none

end Go

structure PasswordParameters where
  memory : UInt32
  iterations : UInt32
  parallelism : UInt8
  saltLength : UInt32
  keyLength : UInt32
  deriving DecidableEq

def PasswordParameters.Safe (p : PasswordParameters) : Prop :=
  ¬(p.memory < 8 * 1024 ∨ p.iterations = 0 ∨ p.parallelism = 0 ∨ p.saltLength < 16 ∨
    p.keyLength < 16)

instance (p : PasswordParameters) : Decidable p.Safe := inferInstanceAs (Decidable (¬_))

structure Argon2Hasher where
  parameters : PasswordParameters
  safe : parameters.Safe

def newPasswordHasher (p : PasswordParameters) : Except String Argon2Hasher :=
  if h : p.Safe then .ok ⟨p, h⟩ else .error "unsafe Argon2id parameters"

structure Argon2id where
  idKey : (password salt : Bytes) → (time memory : UInt32) → (threads : UInt8) →
    (keyLen : UInt32) → Bytes
  length_idKey : ∀ password salt time memory threads keyLen,
    (idKey password salt time memory threads keyLen).length = keyLen.toNat

def argon2Version : Nat := 0x13

def passwordHashText (p : PasswordParameters) (salt key : Bytes) : Bytes :=
  Go.ascii "$argon2id$v=" ++ Decimal.digits argon2Version ++
    Go.ascii "$m=" ++ Decimal.digits p.memory.toNat ++
    Go.ascii ",t=" ++ Decimal.digits p.iterations.toNat ++
    Go.ascii ",p=" ++ Decimal.digits p.parallelism.toNat ++
    Go.ascii "$" ++ Base64.encode Base64.rawStd salt ++
    Go.ascii "$" ++ Base64.encode Base64.rawStd key

def scanVersion (b : Bytes) : Option Int := do
  let b ← Go.scanText "v=" b
  let (version, _) ← Go.scanInt b
  return version

/-- `Sscanf` with the format `m=%d,t=%d,p=%d`, which leaves the rest of the text alone. -/
def scanParameters (b : Bytes) : Option (UInt32 × UInt32 × UInt8) := do
  let b ← Go.scanText "m=" b
  let (memory, b) ← Go.scanUint 32 b
  let b ← Go.scanText ",t=" b
  let (iterations, b) ← Go.scanUint 32 b
  let b ← Go.scanText ",p=" b
  let (parallelism, _) ← Go.scanUint 8 b
  return (UInt32.ofNat memory, UInt32.ofNat iterations, UInt8.ofNat parallelism)

/-- The part in front of the first separator is not looked at. -/
def parsePasswordHash (encoded : Bytes) : Except String (PasswordParameters × Bytes × Bytes) :=
  match encoded.splitOn 0x24 with
  | [_, name, version, parameters, salt, key] =>
    if name ≠ Go.ascii "argon2id" then .error "invalid Argon2id hash format"
    else if scanVersion version ≠ some (argon2Version : Int) then
      .error "unsupported Argon2id version"
    else
      match scanParameters parameters with
      | none => .error "invalid Argon2id parameters"
      | some (memory, iterations, parallelism) =>
        match Base64.decode Base64.rawStd true salt with
        | none => .error "invalid Argon2id salt"
        | some salt =>
          match Base64.decode Base64.rawStd true key with
          | none => .error "invalid Argon2id key"
          | some key =>
            let parameters := ⟨memory, iterations, parallelism, UInt32.ofNat salt.length,
              UInt32.ofNat key.length⟩
            (newPasswordHasher parameters).map (fun _ => (parameters, salt, key))
  | _ => .error "invalid Argon2id hash format"

namespace Argon2Hasher

def hash (h : Argon2Hasher) (argon : Argon2id) (password salt : Bytes) : Except String Bytes :=
  if password.length < 12 ∨ password.length > 1024 then
    .error "password must contain between 12 and 1024 bytes"
  else
    .ok (passwordHashText h.parameters salt (argon.idKey password salt h.parameters.iterations
      h.parameters.memory h.parameters.parallelism h.parameters.keyLength))

def verify (h : Argon2Hasher) (argon : Argon2id) (password encoded : Bytes) :
    Except String (Bool × Bool) := do
  let (parameters, salt, expected) ← parsePasswordHash encoded
  let actual := argon.idKey password salt parameters.iterations parameters.memory
    parameters.parallelism (UInt32.ofNat expected.length)
  let valid : Bool := actual = expected
  return (valid, valid && decide (parameters ≠ h.parameters))

/-- The hasher on strings.  A salt is drawn as text with one character for each byte. -/
def toPasswordHasher (h : Argon2Hasher) (argon : Argon2id) : PasswordHasher where
  encode salt password :=
    Go.asciiText (passwordHashText h.parameters (Go.ascii salt) (argon.idKey (Go.utf8 password)
      (Go.ascii salt) h.parameters.iterations h.parameters.memory h.parameters.parallelism
      h.parameters.keyLength))
  verify password encoded := (h.verify argon (Go.utf8 password) (Go.utf8 encoded)).toOption

end Argon2Hasher

end IdentityService
