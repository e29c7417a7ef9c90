import IdentityService.Defs.Service.Session

namespace IdentityService

open Lib

structure LoginResult where
  tokens : Option Tokens
  mfaRequired : Bool
  mfaChallengeToken : String
  mfaChallengeExpiry : Option Time
deriving DecidableEq

namespace Service

def register (svc : Service) (ctx : Context) (username displayName email phone password : String) :
    Prog User := do
  let username := svc.toLower (Go.trimSpace username)
  let displayName := Go.trimSpace displayName
  let email := svc.toLower (Go.trimSpace email)
  let phone := Go.trimSpace phone
  .reject (username = "" ∨ displayName = "" ∨ email = "")
    (.invalid "username, display_name, and email are required")
  let hash ← svc.hash .invalid password
  let now ← now
  let fields ← .require (.unauthorized "authenticated actor is required")
    (svc.platform.auditNew ctx now)
  let user : User := {
    toFields := fields
    id := ← newUUID
    username := username
    displayName := displayName
    email := email
    phone := phone
    status := .active
    failedLoginCount := 0
    lockedUntil := none }
  let credential : Credential := {
    toFields := fields
    id := ← newUUID
    userID := user.id
    type := "password"
    secretHash := hash
    status := .active }
  let event ← newOutboxEvent ctx "platform.identity.user.created.v1"
    "platform.identity.v1.UserCreated" user.id fields.createdAt (.userCreated user)
  let _ ← .expect translateIdentityError (← within do
    Repository.createUser user credential
    Repository.insertOutbox event
    return 0)
  return user

def newChallenge (svc : Service) (fields : Fields) (token userID : String) (expiresAt : Time)
    (client : SessionClient) : MFALoginChallenge where
  toFields := fields
  tokenHash := svc.hashMFAChallengeToken token
  userID := userID
  clientIP := truncateUTF8 (Go.trimSpaceBytes client.ip) 128
  userAgent := truncateUTF8 (Go.trimSpaceBytes client.userAgent) 1024
  expiresAt := expiresAt
  consumedAt := none

def issueMFAChallenge (svc : Service) (userID : String) (client : SessionClient) :
    Prog LoginResult := do
  let token ← draw .challengeToken .internal
  let now ← now
  let expiresAt := now + svc.mfaChallengeTTL
  let fields ← .require .internal
    (svc.platform.auditNew (svc.platform.systemContext "identity:login") now)
  let challenge := svc.newChallenge fields token userID expiresAt client
  let _ ← .expect translateIdentityError (← within do
    Repository.insertMFAChallenge challenge
    return 0)
  return ⟨none, true, token, some expiresAt⟩

def available (user : User) (credential : Credential) (now : Time) : Bool :=
  user.status = .active && !(user.lockedUntil.any (fun t => now < t)) &&
    credential.status = .active

/-- The last part of `Login`, once the password has been verified. -/
def completeLogin (svc : Service) (user : User) (client : SessionClient) : Prog LoginResult := do
  let enrollment ← .expect translateIdentityError (found (← query (.getMFA user.id)))
  if enrollment.any (fun e => e.status = .enabled) then do
    .reject (svc.mfa.isNone) (.unavailable "mfa verification is unavailable")
    svc.issueMFAChallenge user.id client
  else do
    let tokens ←
      svc.createSession (svc.platform.systemContext "identity:login") user.id "" "" client
    return ⟨some tokens, false, "", none⟩

def login (svc : Service) (login password : String) (client : SessionClient) :
    Prog LoginResult := do
  let login := Go.trimSpace login
  .reject (login = "" ∨ password = "") (.invalid "login and password are required")
  let user ← .expect (fun _ => .unauthorized "invalid credentials")
    (← query (.userByLogin login))
  let credential ← .expect (fun _ => .unauthorized "invalid credentials")
    (← query (.passwordCredential user.id))
  let now ← now
  .reject (available user credential now = false) (.unauthorized "account is unavailable")
  if svc.verified password credential.secretHash then do
    let _ ← .expect (fun _ => .internal) (← within do
      Repository.resetFailedLogin user.id now
      return 0)
    svc.completeLogin user client
  else do
    -- The error of this statement is ignored.
    let _ ← within do
      Repository.recordFailedLogin user.id loginFailureThreshold (now + loginLockDuration) now
      return 0
    .fail (.unauthorized "invalid credentials")

def requireSessionUser (ctx : Context) : Option Principal :=
  ctx.filter (fun actor => actor.type = .user && actor.sessionID ≠ "")

def changePassword (svc : Service) (ctx : Context) (currentPassword newPassword : String) :
    Prog Nat := do
  let actor ← .require (.unauthorized "authenticated user session is required")
    (requireSessionUser ctx)
  let credential ← .expect
    (fun
      | .notFound => .unauthorized "current password is invalid"
      | e => translateIdentityError e)
    (← query (.passwordCredential actor.id))
  .reject (credential.status ≠ .active) (.unauthorized "current password is invalid")
  .reject (svc.verified currentPassword credential.secretHash = false)
    (.unauthorized "current password is invalid")
  let (same, _) ← .require (.invalid "new password is invalid")
    (svc.hasher.verify newPassword credential.secretHash)
  .reject (same = true) (.invalid "new password must differ from current password")
  let secretHash ← svc.hash .invalid newPassword
  let now ← now
  -- The source draws the event's identifier inside the transaction.
  let eventID ← newUUID
  .expect translateIdentityError (← within do
    Repository.updatePasswordCredential credential.id secretHash actor.id credential.version now
    let count ← Repository.revokeOtherSessions actor.id actor.sessionID "password changed"
      actor.id now
    Repository.insertOutbox {
      version := 1, createdAt := now, updatedAt := now,
      createdBy := actor.id, updatedBy := actor.id,
      id := eventID
      subject := "platform.identity.user.password-changed.v1"
      eventType := "platform.identity.v1.PasswordChanged"
      aggregateID := actor.id
      actorID := actor.id
      actorType := actor.type.toString
      payload := .passwordChanged actor.id count .selfService "user changed password"
      availableAt := now }
    return count)

def getUser (id : String) : Prog User := do
  .expect translateIdentityError (← query (.getUser id))

def listUsers (keyword status : String) (page pageSize : Int) : Prog (Page User) := do
  .reject (status ≠ "" ∧ Status.ofString status = none) (.invalid "invalid user status")
  let page := if page < 1 then 1 else page
  let pageSize := if pageSize < 1 ∨ pageSize > 100 then 20 else pageSize
  let filter : ListFilter := ⟨Go.trimSpace keyword, Go.trimSpace status⟩
  let total ← .expect translateIdentityError (← query (.countUsers filter))
  let offset := Go.int64 ((page - 1) * pageSize)
  .reject (offset < 0) .internal
  let items ← .expect translateIdentityError
    (← query (.listUsers filter pageSize.toNat offset.toNat))
  return ⟨items, total, page, pageSize⟩

def normalizeIDs (err : AppError) : (ids normalized : List String) → Except AppError (List String)
  | [], normalized => .ok normalized
  | id :: ids, normalized =>
    let id := Go.trimSpace id
    if id = "" then .error err
    else if id ∈ normalized then normalizeIDs err ids normalized
    else normalizeIDs err ids (normalized ++ [id])

def batchGetUsers (ids : List String) : Prog (List User) := do
  .reject (ids.length > 100) (.invalid "at most 100 user IDs are allowed")
  let normalized ← .expect id (normalizeIDs (.invalid "user IDs must not be empty") ids [])
  if normalized = [] then return []
  else .expect translateIdentityError (← query (.batchGetUsers normalized))

def updateUserStatus (ctx : Context) (id status reason : String) (version : Int) : Prog User := do
  let status ← .require (.invalid "invalid user status") (Status.ofString status)
  let actor ← .require (.unauthorized "authenticated actor is required") ctx
  let current ← .expect translateIdentityError (← query (.getUser id))
  let now ← now
  let event ← newOutboxEvent ctx "platform.identity.user.status-changed.v1"
    "platform.identity.v1.UserStatusChanged" id now
    (.userStatusChanged id current.status status reason)
  let _ ← .expect translateIdentityError (← within do
    Repository.updateUserStatus id status actor.id version now
    if status ≠ .active then do
      let _ ← Repository.revokeUserSessions id ("user status changed to " ++ status.toString)
        actor.id now
      Repository.insertOutbox event
      return 0
    else do
      Repository.insertOutbox event
      return 0)
  .expect (fun _ => .internal) (← query (.getUser id))

def updateUserProfile (svc : Service) (ctx : Context)
    (id displayName email phone reason : String) (version : Int) : Prog User := do
  let id := Go.trimSpace id
  let displayName := Go.trimSpace displayName
  let email := svc.toLower (Go.trimSpace email)
  let phone := Go.trimSpace phone
  let reason := Go.trimSpace reason
  .reject (id = "" ∨ displayName = "" ∨ email = "" ∨ reason = "" ∨ version < 1)
    (.invalid "id, display_name, email, reason, and a positive version are required")
  let actor ← .require (.unauthorized "authenticated actor is required") ctx
  let current ← .expect translateIdentityError (← query (.getUser id))
  let now ← now
  let updated : User := { current with
    displayName := displayName
    email := email
    phone := phone
    version := version + 1
    updatedAt := now
    updatedBy := actor.id }
  let event ← newOutboxEvent ctx "platform.identity.user.profile-updated.v1"
    "platform.identity.v1.UserProfileUpdated" id now (.userProfileUpdated updated reason)
  let _ ← .expect translateIdentityError (← within do
    Repository.updateUserProfile id displayName email phone actor.id version now
    Repository.insertOutbox event
    return 0)
  .expect (fun _ => .internal) (← query (.getUser id))

end Service

end IdentityService
