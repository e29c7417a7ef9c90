import IdentityService.Defs.Go
import IdentityService.Lib.Table

/-! The rows of the database and the constraints of the migrations. -/

namespace IdentityService

open Lib

inductive Status : Type
  | active
  | disabled
  | locked
  | closed
deriving DecidableEq

def Status.toString : Status → String
  | .active => "active"
  | .disabled => "disabled"
  | .locked => "locked"
  | .closed => "closed"

def Status.ofString (s : String) : Option Status :=
  [Status.active, .disabled, .locked, .closed].find? (fun status => status.toString = s)

inductive MFAStatus : Type
  | pending
  | enabled
  | disabled
deriving DecidableEq

structure Fields where
  version : Int
  createdAt : Time
  updatedAt : Time
  createdBy : String
  updatedBy : String
deriving DecidableEq

structure User extends Fields where
  id : String
  username : String
  displayName : String
  email : String
  phone : String
  status : Status
  failedLoginCount : Int
  lockedUntil : Option Time
deriving DecidableEq

structure Credential extends Fields where
  id : String
  userID : String
  type : String
  secretHash : String
  status : Status
deriving DecidableEq

structure Session extends Fields where
  id : String
  userID : String
  refreshTokenHash : String
  tenantID : String
  membershipID : String
  expiresAt : Time
  revokedAt : Option Time
  revokeReason : String
  lastUsedAt : Time
  clientIP : Bytes
  userAgent : Bytes
deriving DecidableEq

structure MFAEnrollment extends Fields where
  userID : String
  method : String
  secretCiphertext : String
  status : MFAStatus
  lastUsedStep : Int
  enabledAt : Option Time
deriving DecidableEq

structure MFARecoveryCode extends Fields where
  id : String
  userID : String
  codeHash : String
  consumedAt : Option Time
deriving DecidableEq

structure MFALoginChallenge extends Fields where
  tokenHash : String
  userID : String
  clientIP : Bytes
  userAgent : Bytes
  expiresAt : Time
  consumedAt : Option Time
deriving DecidableEq

structure PasswordResetChallenge extends Fields where
  tokenHash : String
  userID : String
  reason : String
  expiresAt : Time
  consumedAt : Option Time
deriving DecidableEq

structure ServiceAccount extends Fields where
  id : String
  clientID : String
  name : String
  secretHash : String
  status : Status
  audiencesJSON : String
deriving DecidableEq

inductive PasswordChangeType : Type
  | selfService
  | administrativeRecovery
deriving DecidableEq

inductive MFAStatusChangeType : Type
  | enabled
  | disabled
  | recoveryCodesRotated
  | administrativeReset
deriving DecidableEq

inductive Payload : Type
  | userCreated (user : User)
  | userStatusChanged (userID : String) (previous current : Status) (reason : String)
  | userProfileUpdated (user : User) (reason : String)
  | passwordChanged (userID : String) (revokedSessions : Nat) (changeType : PasswordChangeType)
      (reason : String)
  | sessionRevoked (sessionID userID tenantID reason : String)
  | mfaStatusChanged (userID : String) (enabled : Bool) (recoveryCodesRemaining : Nat)
      (changeType : MFAStatusChangeType) (reason : String)
  | serviceAccountStatusChanged (id : String) (previous : Option Status) (current : Status)
      (reason : String)
  | serviceAccountSecretRotated (id : String) (version : Int)
deriving DecidableEq

structure OutboxEvent extends Fields where
  id : String
  subject : String
  eventType : String
  aggregateID : String
  actorID : String
  actorType : String
  payload : Payload
  availableAt : Time
deriving DecidableEq

instance : Constrained User where
  clash a b := a.id = b.id
  symm a b := by simp [eq_comm]

instance : Constrained Credential where
  clash a b := a.id = b.id || (a.userID = b.userID && a.type = b.type)
  symm a b := by simp [eq_comm]

instance : Constrained Session where
  clash a b := a.id = b.id || a.refreshTokenHash = b.refreshTokenHash
  symm a b := by simp [eq_comm]

instance : Constrained MFAEnrollment where
  clash a b := a.userID = b.userID
  symm a b := by simp [eq_comm]

instance : Constrained MFARecoveryCode where
  clash a b := a.id = b.id || (a.userID = b.userID && a.codeHash = b.codeHash)
  symm a b := by simp [eq_comm]

instance : Constrained MFALoginChallenge where
  clash a b := a.tokenHash = b.tokenHash
  symm a b := by simp [eq_comm]

instance : Constrained PasswordResetChallenge where
  clash a b := a.tokenHash = b.tokenHash
  symm a b := by simp [eq_comm]

instance : Constrained ServiceAccount where
  clash a b := a.id = b.id || a.clientID = b.clientID
  symm a b := by simp [eq_comm]

instance : Constrained OutboxEvent where
  clash a b := a.id = b.id && a.createdAt = b.createdAt
  symm a b := by simp [eq_comm]

end IdentityService
