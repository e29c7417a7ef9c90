import IdentityService.Defs.Service.MFA

namespace IdentityService

open Lib

structure PasswordResetIssue where
  resetToken : String
  expiresAt : Time
deriving DecidableEq

structure PasswordResetResult where
  changed : Bool
  revokedSessions : Nat
deriving DecidableEq

namespace Service

def issuePasswordReset (svc : Service) (ctx : Context) (userID reason : String) :
    Prog PasswordResetIssue := do
  let actor ← .require (.unauthorized "authenticated actor is required") ctx
  let userID := Go.trimSpace userID
  let reason := Go.trimSpace reason
  .reject (userID = "" ∨ reason = "") (.invalid "user_id and reason are required")
  .reject (actor.type = .user ∧ actor.id = userID)
    (.invalid "use self-service password change for the current user")
  let user ← .expect translateIdentityError (← query (.getUser userID))
  .reject (user.status ≠ .active) (.invalid "password reset requires an active user")
  let token ← draw .resetToken .internal
  let now ← now
  let fields ← .require (.unauthorized "authenticated actor is required")
    (svc.platform.auditNew ctx now)
  let challenge : PasswordResetChallenge := {
    toFields := fields
    tokenHash := svc.hashPasswordResetToken token
    userID := userID
    reason := reason
    expiresAt := now + passwordResetTTL
    consumedAt := none }
  let _ ← .expect translateIdentityError (← within do
    Repository.invalidatePasswordResetChallenges userID actor.id now
    Repository.insertPasswordResetChallenge challenge
    return 0)
  return ⟨token, challenge.expiresAt⟩

def confirmPasswordReset (svc : Service) (resetToken newPassword : String) :
    Prog PasswordResetResult := do
  let resetToken := Go.trimSpace resetToken
  .reject (resetToken = "") (.invalid "reset_token is required")
  let secretHash ← svc.hash .invalid newPassword
  let tokenHash := svc.hashPasswordResetToken resetToken
  let challenge ← .expect (fun _ => .unauthorized "invalid or expired password reset token")
    (← query (.getPasswordResetChallenge tokenHash))
  let now ← now
  .reject (challenge.consumedAt ≠ none ∨ ¬now < challenge.expiresAt)
    (.unauthorized "invalid or expired password reset token")
  let user ← .expect (fun _ => .unauthorized "account is unavailable")
    (← query (.getUser challenge.userID))
  .reject (user.status ≠ .active) (.unauthorized "account is unavailable")
  let credential ← .expect (fun _ => .unauthorized "account is unavailable")
    (← query (.passwordCredential challenge.userID))
  .reject (credential.status ≠ .active) (.unauthorized "account is unavailable")
  let (same, _) ← .require .internal (svc.hasher.verify newPassword credential.secretHash)
  .reject (same = true) (.invalid "new password must differ from current password")
  -- The source draws the event's identifier inside the transaction.
  let eventID ← newUUID
  let revoked ← .expect
    (fun
      | .stale => .unauthorized "password reset token was already used"
      | e => translateIdentityError e)
    (← within do
      Repository.consumePasswordResetChallenge tokenHash challenge.version
        "identity:password-reset" now
      Repository.updatePasswordCredential credential.id secretHash "identity:password-reset"
        credential.version now
      let count ← Repository.revokeUserSessions challenge.userID
        "password administratively recovered" "identity:password-reset" now
      Repository.insertOutbox {
        version := 1, createdAt := now, updatedAt := now,
        createdBy := "identity:password-reset", updatedBy := "identity:password-reset",
        id := eventID
        subject := "platform.identity.user.password-changed.v1"
        eventType := "platform.identity.v1.PasswordChanged"
        aggregateID := challenge.userID
        actorID := "identity:password-reset"
        actorType := PrincipalType.system.toString
        payload := .passwordChanged challenge.userID count .administrativeRecovery
          challenge.reason
        availableAt := now }
      return count)
  return ⟨true, revoked⟩

end Service

end IdentityService
