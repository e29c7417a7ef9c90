import IdentityService.Defs.Service.PasswordReset
import IdentityService.Defs.Service.ServiceAccount
import IdentityService.Defs.Service.Cleaner

/-! All operations of the service over one database, as one machine. -/

namespace IdentityService

open Lib

inductive Op : Type
  | register (ctx : Context) (username displayName email phone password : String)
  | login (login password : String) (client : SessionClient)
  | refresh (refreshToken : String)
  | logout (ctx : Context) (sessionID reason : String)
  | changePassword (ctx : Context) (currentPassword newPassword : String)
  | getUser (id : String)
  | listUsers (keyword status : String) (page pageSize : Int)
  | batchGetUsers (ids : List String)
  | updateUserStatus (ctx : Context) (id status reason : String) (version : Int)
  | updateUserProfile (ctx : Context) (id displayName email phone reason : String) (version : Int)
  | validateSession (id userID : String)
  | listSessions (userID tenantID status : String) (page pageSize : Int)
  | listOwnSessions (ctx : Context) (status : String) (page pageSize : Int)
  | revokeOwnSessionByID (ctx : Context) (id reason : String) (version : Int)
  | revokeSessionByID (ctx : Context) (id reason : String) (version : Int)
  | getSessionByID (ctx : Context) (id : String)
  | revokeTenantSessions (ctx : Context) (userID tenantID reason : String)
  | issueTenantToken (ctx : Context) (userID tenantID membershipID sessionID : String)
  | verifyBearer (raw : String)
  | verifyMFAChallenge (challengeToken code recoveryCode : String)
  | mfaStatus (ctx : Context)
  | adminMFAStatus (ctx : Context) (userID : String)
  | startMFASetup (ctx : Context) (currentPassword : String)
  | confirmMFASetup (ctx : Context) (code : String) (version : Int)
  | disableMFA (ctx : Context) (currentPassword code : String) (version : Int)
  | regenerateMFARecoveryCodes (ctx : Context) (currentPassword code : String) (version : Int)
  | adminResetMFA (ctx : Context) (userID reason : String) (version : Int)
  | issuePasswordReset (ctx : Context) (userID reason : String)
  | confirmPasswordReset (resetToken newPassword : String)
  | getServiceAccount (id : String)
  | listServiceAccounts (keyword status : String) (page pageSize : Int)
  | batchGetServiceAccounts (ids : List String)
  | createServiceAccount (ctx : Context) (name : String) (audiences : List String)
  | rotateServiceAccountSecret (ctx : Context) (id : String) (version : Int)
  | updateServiceAccountStatus (ctx : Context) (id status : String) (version : Int)
  | serviceAccountToken (clientID secret : String)
  | clean (cleaner : SessionCleaner) (fuel : Nat)

inductive Reply : Type
  | done
  | count (n : Nat)
  | user (user : User)
  | users (page : Page User)
  | userBatch (users : List User)
  | login (result : LoginResult)
  | tokens (tokens : Tokens)
  | session (session : Session)
  | validation (session : Option Session) (valid : Bool)
  | sessions (page : Page SessionItem)
  | token (raw : String) (expiresAt : Time)
  | principal (principal : Principal)
  | mfaStatus (report : MFAStatusReport)
  | mfaSetup (setup : MFASetup)
  | mfaConfirmation (confirmation : MFAConfirmation)
  | mfaRotation (rotation : MFARecoveryRotation)
  | mfaReset (result : AdminMFAResetResult)
  | passwordResetIssue (issue : PasswordResetIssue)
  | passwordReset (result : PasswordResetResult)
  | account (account : ServiceAccount) (audiences : List String)
  | accounts (page : Page (ServiceAccount × List String))
  | accountBatch (accounts : List (ServiceAccount × List String))
  | accountCreated (account : ServiceAccount) (secret : String)
  | secretRotated (secret : String) (version : Int)

namespace Service

@[simp] def program (svc : Service) : Op → Prog Reply
  | .register ctx username displayName email phone password => do
    return .user (← svc.register ctx username displayName email phone password)
  | .login name password client => do return .login (← svc.login name password client)
  | .refresh refreshToken => do return .tokens (← svc.refresh refreshToken)
  | .logout ctx sessionID reason => do
    logout ctx sessionID reason
    return .done
  | .changePassword ctx current new => do return .count (← svc.changePassword ctx current new)
  | .getUser id => do return .user (← getUser id)
  | .listUsers keyword status page pageSize => do
    return .users (← listUsers keyword status page pageSize)
  | .batchGetUsers ids => do return .userBatch (← batchGetUsers ids)
  | .updateUserStatus ctx id status reason version => do
    return .user (← updateUserStatus ctx id status reason version)
  | .updateUserProfile ctx id displayName email phone reason version => do
    return .user (← svc.updateUserProfile ctx id displayName email phone reason version)
  | .validateSession id userID => do
    let (session, valid) ← validateSession id userID
    return .validation session valid
  | .listSessions userID tenantID status page pageSize => do
    return .sessions (← listSessions userID tenantID status page pageSize)
  | .listOwnSessions ctx status page pageSize => do
    return .sessions (← listOwnSessions ctx status page pageSize)
  | .revokeOwnSessionByID ctx id reason version => do
    return .session (← revokeOwnSessionByID ctx id reason version)
  | .revokeSessionByID ctx id reason version => do
    return .session (← revokeSessionByID ctx id reason version)
  | .getSessionByID ctx id => do return .session (← getSessionByID ctx id)
  | .revokeTenantSessions ctx userID tenantID reason => do
    return .count (← revokeTenantSessions ctx userID tenantID reason)
  | .issueTenantToken ctx userID tenantID membershipID sessionID => do
    let (token, expiresAt) ← svc.issueTenantToken ctx userID tenantID membershipID sessionID
    return .token token expiresAt
  | .verifyBearer raw => do return .principal (← svc.verifyBearer raw)
  | .verifyMFAChallenge challengeToken code recoveryCode => do
    return .tokens (← svc.verifyMFAChallenge challengeToken code recoveryCode)
  | .mfaStatus ctx => do return .mfaStatus (← svc.mfaStatus ctx)
  | .adminMFAStatus ctx userID => do return .mfaStatus (← adminMFAStatus ctx userID)
  | .startMFASetup ctx password => do return .mfaSetup (← svc.startMFASetup ctx password)
  | .confirmMFASetup ctx code version => do
    return .mfaConfirmation (← svc.confirmMFASetup ctx code version)
  | .disableMFA ctx password code version => do
    return .count (← svc.disableMFA ctx password code version)
  | .regenerateMFARecoveryCodes ctx password code version => do
    return .mfaRotation (← svc.regenerateMFARecoveryCodes ctx password code version)
  | .adminResetMFA ctx userID reason version => do
    return .mfaReset (← adminResetMFA ctx userID reason version)
  | .issuePasswordReset ctx userID reason => do
    return .passwordResetIssue (← svc.issuePasswordReset ctx userID reason)
  | .confirmPasswordReset resetToken newPassword => do
    return .passwordReset (← svc.confirmPasswordReset resetToken newPassword)
  | .getServiceAccount id => do
    let (account, audiences) ← svc.getServiceAccount id
    return .account account audiences
  | .listServiceAccounts keyword status page pageSize => do
    return .accounts (← svc.listServiceAccounts keyword status page pageSize)
  | .batchGetServiceAccounts ids => do
    return .accountBatch (← svc.batchGetServiceAccounts ids)
  | .createServiceAccount ctx name audiences => do
    let (account, secret) ← svc.createServiceAccount ctx name audiences
    return .accountCreated account secret
  | .rotateServiceAccountSecret ctx id version => do
    let (secret, version) ← svc.rotateServiceAccountSecret ctx id version
    return .secretRotated secret version
  | .updateServiceAccountStatus ctx id status version => do
    updateServiceAccountStatus ctx id status version
    return .done
  | .serviceAccountToken clientID secret => do
    let (token, expiresAt) ← svc.serviceAccountToken clientID secret
    return .token token expiresAt
  | .clean cleaner fuel => do
    clean cleaner fuel
    return .done

def machine (svc : Service) : Machine Op Effect Effect.Res AppError Reply World Answer where
  program := svc.program
  perform := svc.perform

end Service

abbrev Config := Lib.Config Op Effect Effect.Res AppError Reply World
abbrev Event := Lib.Event Op Effect Effect.Res AppError Reply World
abbrev Policy := Lib.Policy Op Effect Effect.Res AppError Reply World
abbrev Act := Program.Act Effect Effect.Res

end IdentityService
