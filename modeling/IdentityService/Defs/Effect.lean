import IdentityService.Defs.Repository
import IdentityService.Defs.Crypto
import IdentityService.Lib.Machine

/-! What a service method does to the outside: it queries, runs transactions, reads the
clock, draws random values and signs tokens. -/

namespace IdentityService

open Lib

/-- The random values the service draws, each as the text made from the random bytes. -/
inductive Draw : Type
  | uuid
  | refreshToken
  | challengeToken
  | resetToken
  | serviceSecret
  | tokenID
  | totpSecret
  | nonce
  | recoveryCode
  | salt
deriving DecidableEq

inductive Effect : Type
  | query : Query → Effect
  | within : Tx Nat → Effect
  | now : Effect
  | draw : Draw → Effect
  | sign : TokenClaims → Effect

abbrev Effect.Res : Effect → Type
  | .query q => Except RepositoryError q.Row
  | .within _ => Except RepositoryError Nat
  | .now => Time
  | .draw _ => Option String
  | .sign _ => Option String

inductive ErrorCode : Type
  | invalidArgument
  | notFound
  | unauthorized
  | forbidden
  | conflict
  | staleVersion
  | internal
  | dependencyUnavailable
deriving DecidableEq

structure AppError where
  code : ErrorCode
  message : String
deriving DecidableEq

namespace AppError

def invalid (message : String) : AppError := ⟨.invalidArgument, message⟩
def unauthorized (message : String) : AppError := ⟨.unauthorized, message⟩
def forbidden (message : String) : AppError := ⟨.forbidden, message⟩
def conflict (message : String) : AppError := ⟨.conflict, message⟩
def unavailable (message : String) : AppError := ⟨.dependencyUnavailable, message⟩
def internal : AppError := ⟨.internal, "internal server error"⟩

end AppError

def translateIdentityError : RepositoryError → AppError
  | .notFound => ⟨.notFound, "identity resource not found"⟩
  | .conflict => ⟨.conflict, "identity resource already exists"⟩
  | .stale => ⟨.staleVersion, "resource version is stale"⟩
  | .failed => .internal

abbrev Prog (α : Type) := Program Effect Effect.Res AppError α

inductive PrincipalType : Type
  | user
  | serviceAccount
  | system
  | other : String → PrincipalType
deriving DecidableEq

def PrincipalType.ofString (s : String) : PrincipalType :=
  if s = "user" then .user
  else if s = "service_account" then .serviceAccount
  else if s = "system" then .system
  else .other s

def PrincipalType.toString : PrincipalType → String
  | .user => "user"
  | .serviceAccount => "service_account"
  | .system => "system"
  | .other s => s

structure Principal where
  id : String
  type : PrincipalType
  tenantID : String
  membershipID : String
  sessionID : String
deriving DecidableEq

abbrev Context := Option Principal

/-- The platform library: `principal.SystemContext`, and `audit.New`, which needs an actor. -/
structure Platform where
  systemContext : String → Context
  auditNew : Context → Time → Option Fields
  systemContext_eq : ∀ id, systemContext id = some ⟨id, .system, "", "", ""⟩
  auditNew_none : ∀ now, auditNew none now = none
  auditNew_some : ∀ actor now, auditNew (some actor) now = some ⟨1, now, now, actor.id, actor.id⟩

attribute [simp] Platform.systemContext_eq Platform.auditNew_none Platform.auditNew_some

theorem Platform.auditNew_eq_some {platform : Platform} {ctx : Context} {now : Time}
    {fields : Fields} : platform.auditNew ctx now = some fields ↔
      ∃ actor, ctx = some actor ∧ fields = ⟨1, now, now, actor.id, actor.id⟩ := by
  cases ctx <;> simp [eq_comm]

/-- `digest` is the encoded SHA-256 that `hashRefreshToken`, `hashMFAChallengeToken` and
`hashPasswordResetToken` all compute; `lower` is the database's `LOWER`. -/
structure Service where
  platform : Platform
  hasher : PasswordHasher
  issuer : TokenIssuer
  mfa : Option MFACrypto
  mfaChallengeTTL : Time
  digest : String → String
  toLower : String → String
  lower : String → String
  marshalAudiences : List String → String
  unmarshalAudiences : String → Option (List String)

namespace Service

def refreshTTL : Time := 30 * 24 * Go.hour
def loginFailureThreshold : Int := 5
def loginLockDuration : Time := 15 * Go.minute
def mfaSetupTTL : Time := 10 * Go.minute
def passwordResetTTL : Time := 30 * Go.minute

def hashRefreshToken (svc : Service) (raw : String) : String := svc.digest raw
def hashMFAChallengeToken (svc : Service) (token : String) : String := svc.digest token
def hashPasswordResetToken (svc : Service) (token : String) : String := svc.digest token

def query (q : Query) : Prog (Except RepositoryError q.Row) := .perform (Effect.query q)

def within (body : Tx Nat) : Prog (Except RepositoryError Nat) := .perform (Effect.within body)

def now : Prog Time := .perform Effect.now

def draw (kind : Draw) (err : AppError) : Prog String := do
  .require err (← .perform (Effect.draw kind))

/-- `uuid.NewString`, which panics when the random source fails. -/
def newUUID : Prog String := draw .uuid .internal

def found {α : Type} : Except RepositoryError α → Except RepositoryError (Option α)
  | .ok a => .ok (some a)
  | .error .notFound => .ok none
  | .error e => .error e

def hash (svc : Service) (onError : String → AppError) (password : String) : Prog String := do
  .expect onError (validatePassword password)
  let salt ← draw .salt (onError "generate password salt")
  return svc.hasher.encode salt password

def verified (svc : Service) (password encoded : String) : Bool :=
  match svc.hasher.verify password encoded with
  | some (valid, _) => valid
  | none => false

def issue (svc : Service) (subject subjectType sessionID tenantID membershipID : String) :
    Prog (String × Time) := do
  .reject (subject = "" ∨ subjectType = "") .internal
  let now ← now
  let tokenID ← draw .tokenID .internal
  let token ← .require .internal (← .perform (Effect.sign
    (svc.issuer.claims subject subjectType sessionID tenantID membershipID now tokenID)))
  return (token, now + svc.issuer.ttl)

def newOutboxEvent (ctx : Context) (subject eventType aggregateID : String) (occurredAt : Time)
    (payload : Payload) : Prog OutboxEvent := do
  let actor ← .require .internal ctx
  let id ← newUUID
  return {
    version := 1, createdAt := occurredAt, updatedAt := occurredAt,
    createdBy := actor.id, updatedBy := actor.id,
    id := id, subject := subject, eventType := eventType, aggregateID := aggregateID,
    actorID := actor.id, actorType := actor.type.toString, payload := payload,
    availableAt := occurredAt }

end Service

structure World where
  store : Store
  clock : Time

/-- What the environment decides at a call: which of several rows comes first, the time,
a random value, or a failure of the dependency. -/
inductive Answer : Type
  | row : Nat → Answer
  | done : Answer
  | time : Time → Answer
  | value : String → Answer
  | fault : Answer
deriving DecidableEq

namespace Service

/-- One call against the world.  A fault answers with an error and changes nothing. -/
def perform (svc : Service) (w : World) : (e : Effect) → Answer → Option (e.Res × World)
  | .query q, .row n =>
    match w.store.select svc.lower q with
    | [] => some (.error .notFound, w)
    | rows => rows[n]?.map (fun r => (.ok r, w))
  | .query _, .fault => some (.error .failed, w)
  | .within body, .done =>
    match body.run svc.lower w.store with
    | .ok (n, store) => some (.ok n, { w with store := store })
    | .error e => some (.error e, w)
  | .within _, .fault => some (.error .failed, w)
  | .now, .time t => some (t, { w with clock := t })
  | .draw _, .value s => some (some s, w)
  | .draw _, .fault => some (none, w)
  | .sign claims, .done => some (some (svc.issuer.signedString claims), w)
  | .sign _, .fault => some (none, w)
  | _, _ => none

end Service

end IdentityService
