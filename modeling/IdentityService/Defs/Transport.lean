import IdentityService.Defs.Operation

/-! The requests of the HTTP and gRPC servers, the service call each handler makes, and the
requirement tables that say which of them an authorization decision protects. -/

namespace IdentityService

inductive Scope : Type
  | platform
deriving DecidableEq

structure Requirement where
  resource : String
  action : String
  scope : Scope
deriving DecidableEq

inductive HTTPRequest : Type
  | login (login password : String) (client : SessionClient)
  | verifyMFAChallenge (challengeToken code recoveryCode : String)
  | refresh (refreshToken : String)
  | confirmPasswordReset (resetToken newPassword : String)
  | logout (sessionID reason : String)
  | changePassword (currentPassword newPassword : String)
  | mfaStatus
  | startMFASetup (currentPassword : String)
  | confirmMFASetup (code : String) (version : Int)
  | regenerateMFARecoveryCodes (currentPassword code : String) (version : Int)
  | disableMFA (currentPassword code : String) (version : Int)
  | listOwnSessions (status : String) (page pageSize : Int)
  | revokeOwnSession (sessionID reason : String) (version : Int)
  | serviceAccountToken (clientID clientSecret : String)
  | listSessions (userID tenantID status : String) (page pageSize : Int)
  | getSession (sessionID : String)
  | revokeSession (sessionID reason : String) (version : Int)
  | registerIdentity (username displayName email phone password : String)
  | getIdentity (id : String)
  | listIdentities (keyword status : String) (page pageSize : Int)
  | batchGetIdentities (userIDs : Option (List String))
  | updateIdentityProfile (id displayName email phone reason : String) (version : Int)
  | updateIdentityStatus (id status reason : String) (version : Int)
  | issuePasswordReset (userID reason : String)
  | adminMFAStatus (userID : String)
  | adminResetMFA (userID reason : String) (version : Int)
  | createServiceAccount (name : String) (audiences : Option (List String))
  | getServiceAccount (id : String)
  | listServiceAccounts (keyword status : String) (page pageSize : Int)
  | batchGetServiceAccounts (serviceAccountIDs : Option (List String))
  | updateServiceAccountStatus (id status : String) (version : Int)
  | rotateServiceAccountSecret (id : String) (version : Int)
  | version
  | me

def HTTPRequest.path : HTTPRequest → String
  | .login .. => "/api/v1/auth/login"
  | .verifyMFAChallenge .. => "/api/v1/auth/mfa/verify"
  | .refresh .. => "/api/v1/auth/refresh"
  | .confirmPasswordReset .. => "/api/v1/auth/password-reset/confirm"
  | .logout .. => "/api/v1/auth/logout"
  | .changePassword .. => "/api/v1/auth/change-password"
  | .mfaStatus => "/api/v1/auth/mfa/status"
  | .startMFASetup .. => "/api/v1/auth/mfa/setup/start"
  | .confirmMFASetup .. => "/api/v1/auth/mfa/setup/confirm"
  | .regenerateMFARecoveryCodes .. => "/api/v1/auth/mfa/recovery-codes/regenerate"
  | .disableMFA .. => "/api/v1/auth/mfa/disable"
  | .listOwnSessions .. => "/api/v1/auth/sessions/list"
  | .revokeOwnSession .. => "/api/v1/auth/sessions/revoke"
  | .serviceAccountToken .. => "/api/v1/auth/service-token"
  | .listSessions .. => "/api/v1/sessions/list"
  | .getSession .. => "/api/v1/sessions/get"
  | .revokeSession .. => "/api/v1/sessions/revoke"
  | .registerIdentity .. => "/api/v1/identities/register"
  | .getIdentity .. => "/api/v1/identities/get"
  | .listIdentities .. => "/api/v1/identities/list"
  | .batchGetIdentities .. => "/api/v1/identities/batch-get"
  | .updateIdentityProfile .. => "/api/v1/identities/update-profile"
  | .updateIdentityStatus .. => "/api/v1/identities/update-status"
  | .issuePasswordReset .. => "/api/v1/identities/password-reset/issue"
  | .adminMFAStatus .. => "/api/v1/identities/mfa/status"
  | .adminResetMFA .. => "/api/v1/identities/mfa/reset"
  | .createServiceAccount .. => "/api/v1/service-accounts/create"
  | .getServiceAccount .. => "/api/v1/service-accounts/get"
  | .listServiceAccounts .. => "/api/v1/service-accounts/list"
  | .batchGetServiceAccounts .. => "/api/v1/service-accounts/batch-get"
  | .updateServiceAccountStatus .. => "/api/v1/service-accounts/update-status"
  | .rotateServiceAccountSecret .. => "/api/v1/service-accounts/rotate-secret"
  | .version => "/api/v1/version"
  | .me => "/api/v1/me"

/-- Whether every field with `binding:"required"` is there, that is, not its zero value. -/
def HTTPRequest.bound : HTTPRequest → Bool
  | .login name password _ => name ≠ "" && password ≠ ""
  | .verifyMFAChallenge challengeToken _ _ => challengeToken ≠ ""
  | .refresh refreshToken => refreshToken ≠ ""
  | .confirmPasswordReset resetToken newPassword => resetToken ≠ "" && newPassword ≠ ""
  | .logout sessionID _ => sessionID ≠ ""
  | .changePassword currentPassword newPassword => currentPassword ≠ "" && newPassword ≠ ""
  | .mfaStatus => true
  | .startMFASetup currentPassword => currentPassword ≠ ""
  | .confirmMFASetup code v => code ≠ "" && v ≠ 0
  | .regenerateMFARecoveryCodes currentPassword code v =>
    currentPassword ≠ "" && code ≠ "" && v ≠ 0
  | .disableMFA currentPassword code v => currentPassword ≠ "" && code ≠ "" && v ≠ 0
  | .listOwnSessions _ _ _ => true
  | .revokeOwnSession sessionID _ v => sessionID ≠ "" && v ≠ 0
  | .serviceAccountToken clientID clientSecret => clientID ≠ "" && clientSecret ≠ ""
  | .listSessions _ _ _ _ _ => true
  | .getSession sessionID => sessionID ≠ ""
  | .revokeSession sessionID reason v => sessionID ≠ "" && reason ≠ "" && v ≠ 0
  | .registerIdentity username displayName email _ password =>
    username ≠ "" && displayName ≠ "" && email ≠ "" && password ≠ ""
  | .getIdentity id => id ≠ ""
  | .listIdentities _ _ _ _ => true
  | .batchGetIdentities userIDs => userIDs ≠ none
  | .updateIdentityProfile id displayName email _ reason v =>
    id ≠ "" && displayName ≠ "" && email ≠ "" && reason ≠ "" && v ≠ 0
  | .updateIdentityStatus id status _ v => id ≠ "" && status ≠ "" && v ≠ 0
  | .issuePasswordReset userID reason => userID ≠ "" && reason ≠ ""
  | .adminMFAStatus userID => userID ≠ ""
  | .adminResetMFA userID reason v => userID ≠ "" && reason ≠ "" && v ≠ 0
  | .createServiceAccount name audiences => name ≠ "" && audiences ≠ none
  | .getServiceAccount id => id ≠ ""
  | .listServiceAccounts _ _ _ _ => true
  | .batchGetServiceAccounts serviceAccountIDs => serviceAccountIDs ≠ none
  | .updateServiceAccountStatus id status v => id ≠ "" && status ≠ "" && v ≠ 0
  | .rotateServiceAccountSecret id v => id ≠ "" && v ≠ 0
  | .version => true
  | .me => true

/-- The call a handler makes on a request that binds; `Version`, and `Me` for an actor that is
not a user, make none. -/
def HTTPRequest.handle (ctx : Context) : HTTPRequest → Except AppError (Option Op)
  | .login name password client => .ok (some (.login name password client))
  | .verifyMFAChallenge challengeToken code recoveryCode =>
    .ok (some (.verifyMFAChallenge challengeToken code recoveryCode))
  | .refresh refreshToken => .ok (some (.refresh refreshToken))
  | .confirmPasswordReset resetToken newPassword =>
    .ok (some (.confirmPasswordReset resetToken newPassword))
  | .logout sessionID reason => .ok (some (.logout ctx sessionID reason))
  | .changePassword currentPassword newPassword =>
    .ok (some (.changePassword ctx currentPassword newPassword))
  | .mfaStatus => .ok (some (.mfaStatus ctx))
  | .startMFASetup currentPassword => .ok (some (.startMFASetup ctx currentPassword))
  | .confirmMFASetup code v => .ok (some (.confirmMFASetup ctx code v))
  | .regenerateMFARecoveryCodes currentPassword code v =>
    .ok (some (.regenerateMFARecoveryCodes ctx currentPassword code v))
  | .disableMFA currentPassword code v =>
    .ok (some (.disableMFA ctx currentPassword code v))
  | .listOwnSessions status page pageSize => .ok (some (.listOwnSessions ctx status page pageSize))
  | .revokeOwnSession sessionID reason v =>
    .ok (some (.revokeOwnSessionByID ctx sessionID reason v))
  | .serviceAccountToken clientID clientSecret =>
    .ok (some (.serviceAccountToken clientID clientSecret))
  | .listSessions userID tenantID status page pageSize =>
    .ok (some (.listSessions userID tenantID status page pageSize))
  | .getSession sessionID => .ok (some (.getSessionByID ctx sessionID))
  | .revokeSession sessionID reason v =>
    .ok (some (.revokeSessionByID ctx sessionID reason v))
  | .registerIdentity username displayName email phone password =>
    .ok (some (.register ctx username displayName email phone password))
  | .getIdentity id => .ok (some (.getUser id))
  | .listIdentities keyword status page pageSize =>
    .ok (some (.listUsers keyword status page pageSize))
  | .batchGetIdentities userIDs => .ok (some (.batchGetUsers (userIDs.getD [])))
  | .updateIdentityProfile id displayName email phone reason v =>
    .ok (some (.updateUserProfile ctx id displayName email phone reason v))
  | .updateIdentityStatus id status reason v =>
    .ok (some (.updateUserStatus ctx id status reason v))
  | .issuePasswordReset userID reason => .ok (some (.issuePasswordReset ctx userID reason))
  | .adminMFAStatus userID => .ok (some (.adminMFAStatus ctx userID))
  | .adminResetMFA userID reason v => .ok (some (.adminResetMFA ctx userID reason v))
  | .createServiceAccount name audiences =>
    .ok (some (.createServiceAccount ctx name (audiences.getD [])))
  | .getServiceAccount id => .ok (some (.getServiceAccount id))
  | .listServiceAccounts keyword status page pageSize =>
    .ok (some (.listServiceAccounts keyword status page pageSize))
  | .batchGetServiceAccounts serviceAccountIDs =>
    .ok (some (.batchGetServiceAccounts (serviceAccountIDs.getD [])))
  | .updateServiceAccountStatus id status v =>
    .ok (some (.updateServiceAccountStatus ctx id status v))
  | .rotateServiceAccountSecret id v => .ok (some (.rotateServiceAccountSecret ctx id v))
  | .version => .ok none
  | .me =>
    match ctx with
    | none => .error (.unauthorized "authenticated actor is required")
    | some actor => .ok (if actor.type = .user then some (.getUser actor.id) else none)

def HTTPRequest.call (ctx : Context) (request : HTTPRequest) : Except AppError (Option Op) :=
  if request.bound then request.handle ctx else .error (.invalid "invalid json request")

def httpRequirements : List (String × Requirement) :=
  [("/api/v1/sessions/list", ⟨"identity.session", "list", .platform⟩),
    ("/api/v1/sessions/get", ⟨"identity.session", "read", .platform⟩),
    ("/api/v1/sessions/revoke", ⟨"identity.session", "revoke", .platform⟩),
    ("/api/v1/identities/register", ⟨"identity.user", "create", .platform⟩),
    ("/api/v1/identities/get", ⟨"identity.user", "read", .platform⟩),
    ("/api/v1/identities/list", ⟨"identity.user", "list", .platform⟩),
    ("/api/v1/identities/batch-get", ⟨"identity.user", "list", .platform⟩),
    ("/api/v1/identities/update-profile", ⟨"identity.user", "update-profile", .platform⟩),
    ("/api/v1/identities/update-status", ⟨"identity.user", "update-status", .platform⟩),
    ("/api/v1/identities/password-reset/issue", ⟨"identity.user", "password-reset", .platform⟩),
    ("/api/v1/identities/mfa/status", ⟨"identity.user", "mfa-reset", .platform⟩),
    ("/api/v1/identities/mfa/reset", ⟨"identity.user", "mfa-reset", .platform⟩),
    ("/api/v1/service-accounts/create", ⟨"identity.service-account", "create", .platform⟩),
    ("/api/v1/service-accounts/get", ⟨"identity.service-account", "read", .platform⟩),
    ("/api/v1/service-accounts/list", ⟨"identity.service-account", "list", .platform⟩),
    ("/api/v1/service-accounts/batch-get", ⟨"identity.service-account", "list", .platform⟩),
    ("/api/v1/service-accounts/update-status",
      ⟨"identity.service-account", "update-status", .platform⟩),
    ("/api/v1/service-accounts/rotate-secret",
      ⟨"identity.service-account", "rotate-secret", .platform⟩)]

def identityHTTPRequirement (route : String) : Option Requirement := httpRequirements.lookup route

/-- The default of `auth.skip_http_paths`; none of these patterns has a wildcard. -/
def skipHTTPPaths : List String :=
  ["/api/v1/auth/login", "/api/v1/auth/mfa/verify", "/api/v1/auth/refresh",
    "/api/v1/auth/password-reset/confirm", "/api/v1/auth/service-token", "/api/v1/version"]

def unprotectedRoute (route : String) : Bool :=
  route ∉ skipHTTPPaths && (identityHTTPRequirement route).isNone

inductive GRPCMethod : Type
  | getUser
  | batchGetUsers
  | listUsers
  | getSession
  | validateSession
  | revokeTenantSessions
  | issueTenantToken
  | getServiceAccount
deriving DecidableEq

def grpcRequirements : List (GRPCMethod × Requirement) :=
  [(.getSession, ⟨"identity.session", "read", .platform⟩),
    (.getUser, ⟨"identity.user", "read", .platform⟩),
    (.batchGetUsers, ⟨"identity.user", "batch-read", .platform⟩),
    (.listUsers, ⟨"identity.user", "list", .platform⟩)]

def identityGRPCRequirement (enabled : Bool) (method : GRPCMethod) : Option Requirement :=
  if enabled then grpcRequirements.lookup method else none

/-- `ListUsers` with its status of the enumeration, `none` if unspecified, and its page.  The
server's own limit on `BatchGetUsers` refuses what the service would, in the same words. -/
inductive GRPCRequest : Type
  | getUser (userID : String)
  | batchGetUsers (userIDs : List String)
  | listUsers (keyword : String) (status : Option Status) (page : Option (Int × Int))
  | getSession (sessionID : String)
  | validateSession (sessionID userID : String)
  | revokeTenantSessions (userID tenantID reason : String)
  | issueTenantToken (userID tenantID membershipID sessionID : String)
  | getServiceAccount (serviceAccountID : String)

namespace GRPCRequest

def method : GRPCRequest → GRPCMethod
  | getUser .. => .getUser
  | batchGetUsers .. => .batchGetUsers
  | listUsers .. => .listUsers
  | getSession .. => .getSession
  | validateSession .. => .validateSession
  | revokeTenantSessions .. => .revokeTenantSessions
  | issueTenantToken .. => .issueTenantToken
  | getServiceAccount .. => .getServiceAccount

def call (ctx : Context) : GRPCRequest → Op
  | getUser userID => .getUser userID
  | batchGetUsers userIDs => .batchGetUsers userIDs
  | listUsers keyword status page =>
    .listUsers keyword (status.elim "" Status.toString) (page.elim 1 Prod.fst)
      (page.elim 20 Prod.snd)
  | getSession sessionID => .getSessionByID ctx sessionID
  | validateSession sessionID userID => .validateSession sessionID userID
  | revokeTenantSessions userID tenantID reason => .revokeTenantSessions ctx userID tenantID reason
  | issueTenantToken userID tenantID membershipID sessionID =>
    .issueTenantToken ctx userID tenantID membershipID sessionID
  | getServiceAccount serviceAccountID => .getServiceAccount serviceAccountID

end GRPCRequest

inductive Request : Type
  | http (request : HTTPRequest)
  | grpc (request : GRPCRequest)

namespace Request

def unprotected : Request → Bool
  | http request => unprotectedRoute request.path
  | grpc request => (identityGRPCRequirement true request.method).isNone

def call (ctx : Context) : Request → Except AppError (Option Op)
  | http request => request.call ctx
  | grpc request => .ok (some (request.call ctx))

end Request

structure SessionResponseBody extends Fields where
  sessionID : String
  userID : String
  username : String
  userDisplayName : String
  tenantID : String
  membershipID : String
  status : String
  expiresAt : Time
  revokedAt : Option Time
  revokeReason : String
  lastUsedAt : Time
  clientIP : Bytes
  userAgent : Bytes
deriving DecidableEq

def sessionResponse (item : SessionItem) (now : Time) : SessionResponseBody where
  toFields := item.session.toFields
  sessionID := item.session.id
  userID := item.session.userID
  username := item.username
  userDisplayName := item.userDisplayName
  tenantID := item.session.tenantID
  membershipID := item.session.membershipID
  status :=
    if item.session.revokedAt ≠ none then "revoked"
    else if ¬now < item.session.expiresAt then "expired"
    else "active"
  expiresAt := item.session.expiresAt
  revokedAt := item.session.revokedAt
  revokeReason := item.session.revokeReason
  lastUsedAt := item.session.lastUsedAt
  clientIP := item.session.clientIP
  userAgent := item.session.userAgent

structure SessionMessage extends Fields where
  id : String
  userID : String
  username : String
  userDisplayName : String
  tenantID : String
  membershipID : String
  status : String
  expiresAt : Time
  revokedAt : Option Time
  revokeReason : String
  lastUsedAt : Time
  clientIP : Bytes
  userAgent : Bytes
deriving DecidableEq

/-- The function reads the clock itself; `now` is what it reads. -/
def identitySession (item : SessionItem) (now : Time) : SessionMessage where
  toFields := item.session.toFields
  id := item.session.id
  userID := item.session.userID
  username := item.username
  userDisplayName := item.userDisplayName
  tenantID := item.session.tenantID
  membershipID := item.session.membershipID
  status :=
    if item.session.revokedAt ≠ none then "revoked"
    else if ¬now < item.session.expiresAt then "expired"
    else "active"
  expiresAt := item.session.expiresAt
  revokedAt := item.session.revokedAt
  revokeReason := item.session.revokeReason
  lastUsedAt := item.session.lastUsedAt
  clientIP := item.session.clientIP
  userAgent := item.session.userAgent

end IdentityService
