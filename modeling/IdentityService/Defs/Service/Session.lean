import IdentityService.Defs.Effect

namespace IdentityService

open Lib

structure Tokens where
  accessToken : String
  refreshToken : String
  tokenType : String
  expiresAt : Time
  sessionID : String
deriving DecidableEq

structure SessionClient where
  ip : Bytes
  userAgent : Bytes
deriving DecidableEq

structure Page (α : Type) where
  items : List α
  total : Nat
  page : Int
  pageSize : Int

namespace Service

def newSession (svc : Service) (fields : Fields) (id userID tenantID membershipID : String)
    (rawRefresh : String) (now : Time) (client : SessionClient) : Session where
  toFields := fields
  id := id
  userID := userID
  refreshTokenHash := svc.hashRefreshToken rawRefresh
  tenantID := tenantID
  membershipID := membershipID
  expiresAt := now + refreshTTL
  revokedAt := none
  revokeReason := ""
  lastUsedAt := now
  clientIP := truncateUTF8 (Go.trimSpaceBytes client.ip) 128
  userAgent := truncateUTF8 (Go.trimSpaceBytes client.userAgent) 1024

def prepareSession (svc : Service) (ctx : Context) (userID tenantID membershipID : String)
    (client : SessionClient) : Prog (Session × Tokens) := do
  let now ← now
  let rawRefresh ← draw .refreshToken .internal
  let fields ← .require (.unauthorized "authenticated actor is required")
    (svc.platform.auditNew ctx now)
  let id ← newUUID
  let session := svc.newSession fields id userID tenantID membershipID rawRefresh now client
  let (access, expiresAt) ← svc.issue userID "user" session.id tenantID membershipID
  return (session, ⟨access, rawRefresh, "Bearer", expiresAt, session.id⟩)

def createSession (svc : Service) (ctx : Context) (userID tenantID membershipID : String)
    (client : SessionClient) : Prog Tokens := do
  let (session, tokens) ← svc.prepareSession ctx userID tenantID membershipID client
  let _ ← .expect translateIdentityError (← within do
    Repository.createSession session
    return 0)
  return tokens

def rotated (svc : Service) (session : Session) (rawRefresh : String) (now : Time) : Session :=
  { session with
    refreshTokenHash := svc.hashRefreshToken rawRefresh
    lastUsedAt := now
    updatedAt := now
    updatedBy := session.userID }

def refresh (svc : Service) (refreshToken : String) : Prog Tokens := do
  let hash := svc.hashRefreshToken refreshToken
  .reject (refreshToken = "") (.unauthorized "invalid refresh token")
  let session ← .expect (fun _ => .unauthorized "invalid refresh token")
    (← query (.sessionByRefreshHash hash))
  .reject (session.revokedAt ≠ none) (.unauthorized "invalid refresh token")
  let checkedAt ← now
  .reject (¬checkedAt < session.expiresAt) (.unauthorized "invalid refresh token")
  let user ← .expect (fun _ => .unauthorized "account is unavailable")
    (← query (.getUser session.userID))
  .reject (user.status ≠ .active) (.unauthorized "account is unavailable")
  let rawRefresh ← draw .refreshToken .internal
  let now ← now
  let rotated := svc.rotated session rawRefresh now
  let (access, expiresAt) ←
    svc.issue user.id "user" session.id session.tenantID session.membershipID
  let _ ← .expect (fun _ => .unauthorized "refresh token was already used") (← within do
    Repository.rotateSession rotated hash
    return 0)
  return ⟨access, rawRefresh, "Bearer", expiresAt, session.id⟩

def sessionRevokedEvent (ctx : Context) (session : Session) (reason : String) (now : Time) :
    Prog OutboxEvent :=
  newOutboxEvent ctx "platform.identity.session.revoked.v1"
    "platform.identity.v1.SessionRevoked" session.id now
    (.sessionRevoked session.id session.userID session.tenantID reason)

def orDefault (s default : String) : String := if s = "" then default else s

def logout (ctx : Context) (sessionID reason : String) : Prog Unit := do
  let actor ← .require (.unauthorized "authenticated actor is required") ctx
  let reason := orDefault reason "logout"
  let now ← now
  let session ← .expect translateIdentityError (← query (.getSession sessionID actor.id))
  let event ← sessionRevokedEvent ctx session reason now
  let _ ← .expect translateIdentityError (← within do
    Repository.revokeSession sessionID actor.id reason actor.id now
    Repository.insertOutbox event
    return 0)
  return ()

def validateSession (id userID : String) : Prog (Option Session × Bool) := do
  let existing ← .expect translateIdentityError (found (← query (.getSession id userID)))
  match existing with
  | none => return (none, false)
  | some session =>
    if session.revokedAt = none then do
      let now ← now
      return (some session, decide (now < session.expiresAt))
    else return (some session, false)

def listSessions (userID tenantID status : String) (page pageSize : Int) :
    Prog (Page SessionItem) := do
  .reject (status ≠ "" ∧ status ≠ "active" ∧ status ≠ "revoked" ∧ status ≠ "expired")
    (.invalid "invalid session status")
  let page := if page < 1 then 1 else page
  let pageSize := if pageSize < 1 ∨ pageSize > 100 then 20 else pageSize
  let now ← now
  let filter : SessionFilter := ⟨Go.trimSpace userID, Go.trimSpace tenantID, status, now⟩
  let total ← .expect translateIdentityError (← query (.countSessions filter))
  let offset := Go.int64 ((page - 1) * pageSize)
  -- The databases refuse a negative offset.
  .reject (offset < 0) .internal
  let items ← .expect translateIdentityError
    (← query (.listSessions filter pageSize.toNat offset.toNat))
  return ⟨items, total, page, pageSize⟩

def requireUser (ctx : Context) : Option Principal :=
  ctx.filter (fun actor => actor.type = .user)

def listOwnSessions (ctx : Context) (status : String) (page pageSize : Int) :
    Prog (Page SessionItem) := do
  let actor ← .require (.unauthorized "authenticated user is required") (requireUser ctx)
  listSessions actor.id "" status page pageSize

def revokeOwnSessionByID (ctx : Context) (id reason : String) (version : Int) :
    Prog Session := do
  let actor ← .require (.unauthorized "authenticated user is required") (requireUser ctx)
  let id := Go.trimSpace id
  let current ← .expect translateIdentityError (← query (.getSession id actor.id))
  let reason := orDefault (Go.trimSpace reason) "user security revocation"
  let now ← now
  let event ← sessionRevokedEvent ctx current reason now
  let _ ← .expect translateIdentityError (← within do
    Repository.revokeOwnedSessionByID current.id actor.id reason actor.id version now
    Repository.insertOutbox event
    return 0)
  .expect (fun _ => .internal) (← query (.getSession current.id actor.id))

def revokeSessionByID (ctx : Context) (id reason : String) (version : Int) : Prog Session := do
  let actor ← .require (.unauthorized "authenticated actor is required") ctx
  let current ← .expect translateIdentityError (← query (.getSessionByID (Go.trimSpace id)))
  let reason := orDefault (Go.trimSpace reason) "administrative revocation"
  let now ← now
  let event ← sessionRevokedEvent ctx current reason now
  let _ ← .expect translateIdentityError (← within do
    Repository.revokeSessionByID current.id reason actor.id version now
    Repository.insertOutbox event
    return 0)
  .expect (fun _ => .internal) (← query (.getSessionByID current.id))

def getSessionByID (ctx : Context) (id : String) : Prog Session := do
  let _ ← .require (.unauthorized "authenticated actor is required") ctx
  let id := Go.trimSpace id
  .reject (id = "") (.invalid "session_id is required")
  .expect translateIdentityError (← query (.getSessionByID id))

/-- One statement outside any explicit transaction; any authenticated actor may call it. -/
def revokeTenantSessions (ctx : Context) (userID tenantID reason : String) : Prog Nat := do
  let actor ← .require (.unauthorized "authenticated actor is required") ctx
  let now ← now
  .expect translateIdentityError
    (← within (Repository.revokeTenantSessions userID tenantID reason actor.id now))

def issueTenantToken (svc : Service) (ctx : Context)
    (userID tenantID membershipID sessionID : String) : Prog (String × Time) := do
  let actor ← .require (.unauthorized "authenticated actor is required") ctx
  .reject (actor.type ≠ .serviceAccount ∧ actor.type ≠ .system)
    (.forbidden "tenant tokens may only be issued by a trusted service")
  let userID := Go.trimSpace userID
  let tenantID := Go.trimSpace tenantID
  let membershipID := Go.trimSpace membershipID
  let sessionID := Go.trimSpace sessionID
  .reject (userID = "" ∨ tenantID = "" ∨ membershipID = "" ∨ sessionID = "")
    (.invalid "user_id, tenant_id, membership_id, and session_id are required")
  let (token, expiresAt) ← svc.issue userID "user" sessionID tenantID membershipID
  let now ← now
  let _ ← .expect translateIdentityError (← within do
    Repository.scopeSession sessionID userID tenantID membershipID actor.id now
    return 0)
  return (token, expiresAt)

def verifyBearer (svc : Service) (raw : String) : Prog Principal := do
  let now ← now
  let claims ← .require (.unauthorized "parse access token") (svc.issuer.parse raw now)
  let principal : Principal :=
    ⟨claims.subject, .ofString claims.subjectType, claims.tenantID, claims.membershipID,
      claims.sessionID⟩
  if claims.subjectType = "user" ∧ claims.sessionID ≠ "" then do
    let (_, valid) ← validateSession claims.sessionID claims.subject
    .reject (valid = false) (.unauthorized "identity session is unavailable")
    return principal
  else return principal

end Service

end IdentityService
