import IdentityService.Defs.Store

/-! The writing methods of the repository, statement by statement. -/

namespace IdentityService

open Lib

class Audited (ρ : Type) where
  fields : ρ → Fields
  withFields : ρ → Fields → ρ

instance : Audited User := ⟨User.toFields, fun r f => { r with toFields := f }⟩
instance : Audited Credential := ⟨Credential.toFields, fun r f => { r with toFields := f }⟩
instance : Audited Session := ⟨Session.toFields, fun r f => { r with toFields := f }⟩
instance : Audited MFAEnrollment := ⟨MFAEnrollment.toFields, fun r f => { r with toFields := f }⟩
instance : Audited MFARecoveryCode :=
  ⟨MFARecoveryCode.toFields, fun r f => { r with toFields := f }⟩
instance : Audited MFALoginChallenge :=
  ⟨MFALoginChallenge.toFields, fun r f => { r with toFields := f }⟩
instance : Audited PasswordResetChallenge :=
  ⟨PasswordResetChallenge.toFields, fun r f => { r with toFields := f }⟩
instance : Audited ServiceAccount :=
  ⟨ServiceAccount.toFields, fun r f => { r with toFields := f }⟩

def touch {ρ : Type} [Audited ρ] (actor : String) (now : Time) : List (ρ → ρ → ρ) :=
  [fun old new => Audited.withFields new
      { Audited.fields new with version := (Audited.fields old).version + 1 },
    fun _ new => Audited.withFields new { Audited.fields new with updatedAt := now },
    fun _ new => Audited.withFields new { Audited.fields new with updatedBy := actor }]

namespace Repository

def requireAffected (count : Nat) : Tx Unit := .reject (count = 0) .stale

def guarded (q : Stmt) (duplicate : RepositoryError) : Tx Unit := do
  let count ← Tx.exec q duplicate
  requireAffected count

def plain (q : Stmt) (duplicate : RepositoryError) : Tx Unit := do
  let _ ← Tx.exec q duplicate
  return ()

def createUser (user : User) (credential : Credential) : Tx Unit := do
  plain (.users (.insert user)) .conflict
  plain (.credentials (.insert credential)) .failed

def insertOutbox (event : OutboxEvent) : Tx Unit :=
  plain (.outboxEvents (.insert event)) .failed

def passwordUpdate (credentialID secretHash actor : String) (version : Int) (now : Time) :
    Update Credential where
  guard c := c.id = credentialID && c.type = "password" && c.status = .active &&
    c.version = version
  set := (fun _ new => { new with secretHash := secretHash }) :: touch actor now

def updatePasswordCredential (credentialID secretHash actor : String) (version : Int)
    (now : Time) : Tx Unit :=
  guarded (.credentials (.update (passwordUpdate credentialID secretHash actor version now)))
    .failed

def failedLoginUpdate (userID : String) (threshold : Int) (lockedUntil now : Time) :
    Update User where
  guard u := u.id = userID
  set :=
    [fun old new => { new with failedLoginCount := old.failedLoginCount + 1 },
      fun old new => { new with
        lockedUntil :=
          if old.failedLoginCount + 1 ≥ threshold then some lockedUntil else old.lockedUntil }] ++
      touch "identity:login" now

def recordFailedLogin (userID : String) (threshold : Int) (lockedUntil now : Time) : Tx Unit :=
  plain (.users (.update (failedLoginUpdate userID threshold lockedUntil now))) .failed

def resetLoginUpdate (userID : String) (now : Time) : Update User where
  guard u := u.id = userID && (u.failedLoginCount ≠ 0 || u.lockedUntil ≠ none)
  set :=
    [fun _ new => { new with failedLoginCount := 0 },
      fun _ new => { new with lockedUntil := none }] ++ touch "identity:login" now

def resetFailedLogin (userID : String) (now : Time) : Tx Unit :=
  plain (.users (.update (resetLoginUpdate userID now))) .failed

def statusUpdate (id : String) (status : Status) (actor : String) (version : Int) (now : Time) :
    Update User where
  guard u := u.id = id && u.version = version
  set :=
    [fun _ new => { new with status := status },
      fun _ new => { new with failedLoginCount := 0 },
      fun _ new => { new with lockedUntil := none }] ++ touch actor now

def updateUserStatus (id : String) (status : Status) (actor : String) (version : Int)
    (now : Time) : Tx Unit :=
  guarded (.users (.update (statusUpdate id status actor version now))) .failed

def profileUpdate (id displayName email phone actor : String) (version : Int) (now : Time) :
    Update User where
  guard u := u.id = id && u.version = version
  set :=
    [fun _ new => { new with displayName := displayName },
      fun _ new => { new with email := email },
      fun _ new => { new with phone := phone }] ++ touch actor now

def updateUserProfile (id displayName email phone actor : String) (version : Int) (now : Time) :
    Tx Unit :=
  guarded (.users (.update (profileUpdate id displayName email phone actor version now)))
    .conflict

/-- The columns `revoked_at` and `revoke_reason` are inserted as `NULL` and `''`. -/
def createSession (session : Session) : Tx Unit :=
  plain (.sessions (.insert { session with revokedAt := none, revokeReason := "" })) .failed

def rotateUpdate (session : Session) (previousHash : String) : Update Session where
  guard r := r.id = session.id && r.refreshTokenHash = previousHash && r.revokedAt = none &&
    r.version = session.version
  set :=
    [fun _ new => { new with refreshTokenHash := session.refreshTokenHash },
      fun _ new => { new with lastUsedAt := session.lastUsedAt }] ++
      touch session.updatedBy session.updatedAt

def rotateSession (session : Session) (previousHash : String) : Tx Unit :=
  guarded (.sessions (.update (rotateUpdate session previousHash))) .failed

def scopeUpdate (sessionID userID tenantID membershipID actor : String) (now : Time) :
    Update Session where
  guard r := r.id = sessionID && r.userID = userID && r.revokedAt = none && now < r.expiresAt
  set :=
    [fun _ new => { new with tenantID := tenantID },
      fun _ new => { new with membershipID := membershipID }] ++ touch actor now

def scopeSession (sessionID userID tenantID membershipID actor : String) (now : Time) : Tx Unit :=
  guarded (.sessions (.update (scopeUpdate sessionID userID tenantID membershipID actor now)))
    .failed

/-- All revocations write the same columns, of unrevoked rows only; `extra` is the rest of
the `WHERE` clause. -/
def revokeUpdate (extra : Session → Bool) (reason actor : String) (now : Time) :
    Update Session where
  guard r := extra r && r.revokedAt = none
  set :=
    [fun _ new => { new with revokedAt := some now },
      fun _ new => { new with revokeReason := reason }] ++ touch actor now

def revokeSession (id userID reason actor : String) (now : Time) : Tx Unit :=
  guarded (.sessions (.update
    (revokeUpdate (fun r => r.id = id && r.userID = userID) reason actor now))) .failed

def revokeOtherSessions (userID currentSessionID reason actor : String) (now : Time) : Tx Nat :=
  Tx.exec (.sessions (.update (revokeUpdate
    (fun r => r.userID = userID && r.id ≠ currentSessionID && now < r.expiresAt)
    reason actor now))) .failed

def revokeUserSessions (userID reason actor : String) (now : Time) : Tx Nat :=
  Tx.exec (.sessions (.update (revokeUpdate
    (fun r => r.userID = userID && now < r.expiresAt) reason actor now))) .failed

def revokeSessionByID (id reason actor : String) (version : Int) (now : Time) : Tx Unit :=
  guarded (.sessions (.update
    (revokeUpdate (fun r => r.id = id && r.version = version) reason actor now))) .failed

def revokeOwnedSessionByID (id userID reason actor : String) (version : Int) (now : Time) :
    Tx Unit :=
  guarded (.sessions (.update (revokeUpdate
    (fun r => r.id = id && r.userID = userID && r.version = version) reason actor now))) .failed

def revokeTenantSessions (userID tenantID reason actor : String) (now : Time) : Tx Nat :=
  Tx.exec (.sessions (.update (revokeUpdate
    (fun r => r.userID = userID && r.tenantID = tenantID) reason actor now))) .failed

def deleteSessions (ids : List String) (before : Time) : Tx Nat :=
  Tx.exec (.sessions (.delete (fun r => r.id ∈ ids && r.outdated before))) .failed

def insertMFA (enrollment : MFAEnrollment) : Tx Unit :=
  plain (.userMFA (.insert { enrollment with enabledAt := none })) .failed

def resetPendingUpdate (userID secretCiphertext actor : String) (version : Int) (now : Time) :
    Update MFAEnrollment where
  guard e := e.userID = userID && e.status ≠ .enabled && e.version = version
  set :=
    [fun _ new => { new with secretCiphertext := secretCiphertext },
      fun _ new => { new with status := .pending },
      fun _ new => { new with lastUsedStep := -1 },
      fun _ new => { new with enabledAt := none }] ++ touch actor now

def resetPendingMFA (userID secretCiphertext actor : String) (version : Int) (now : Time) :
    Tx Unit :=
  guarded (.userMFA (.update (resetPendingUpdate userID secretCiphertext actor version now)))
    .failed

def enableUpdate (userID : String) (step : Int) (actor : String) (version : Int) (now : Time) :
    Update MFAEnrollment where
  guard e := e.userID = userID && e.status = .pending && e.version = version
  set :=
    [fun _ new => { new with status := .enabled },
      fun _ new => { new with lastUsedStep := step },
      fun _ new => { new with enabledAt := some now }] ++ touch actor now

def enableMFA (userID : String) (step : Int) (actor : String) (version : Int) (now : Time) :
    Tx Unit :=
  guarded (.userMFA (.update (enableUpdate userID step actor version now))) .failed

def disableUpdate (userID : String) (step : Int) (actor : String) (version : Int) (now : Time) :
    Update MFAEnrollment where
  guard e := e.userID = userID && e.status = .enabled && e.lastUsedStep < step &&
    e.version = version
  set :=
    [fun _ new => { new with status := .disabled },
      fun _ new => { new with lastUsedStep := step }] ++ touch actor now

def disableMFA (userID : String) (step : Int) (actor : String) (version : Int) (now : Time) :
    Tx Unit :=
  guarded (.userMFA (.update (disableUpdate userID step actor version now))) .failed

def adminResetUpdate (userID actor : String) (expectedVersion : Int) (now : Time) :
    Update MFAEnrollment where
  guard e := e.userID = userID && e.status = .enabled && e.version = expectedVersion
  set :=
    [fun _ new => { new with status := .disabled },
      fun _ new => { new with lastUsedStep := -1 },
      fun _ new => { new with enabledAt := none }] ++ touch actor now

def adminResetMFA (userID actor : String) (expectedVersion : Int) (now : Time) : Tx Unit :=
  guarded (.userMFA (.update (adminResetUpdate userID actor expectedVersion now))) .failed

def deleteRecoveryCodes (userID : String) : Tx Unit :=
  plain (.mfaRecoveryCodes (.delete (fun r => r.userID = userID))) .failed

def insertRecoveryCodes : List MFARecoveryCode → Tx Unit
  | [] => return ()
  | code :: codes => do
    plain (.mfaRecoveryCodes (.insert { code with consumedAt := none })) .failed
    insertRecoveryCodes codes

def replaceRecoveryCodes : List MFARecoveryCode → Tx Unit
  | [] => .fail .failed
  | code :: codes => do
    deleteRecoveryCodes code.userID
    insertRecoveryCodes (code :: codes)

def advanceUpdate (userID : String) (step : Int) (actor : String) (now : Time) :
    Update MFAEnrollment where
  guard e := e.userID = userID && e.status = .enabled && e.lastUsedStep < step
  set := (fun _ new => { new with lastUsedStep := step }) :: touch actor now

def advanceMFAStep (userID : String) (step : Int) (actor : String) (now : Time) : Tx Unit :=
  guarded (.userMFA (.update (advanceUpdate userID step actor now))) .failed

def advanceAtVersionUpdate (userID : String) (step : Int) (actor : String)
    (expectedVersion : Int) (now : Time) : Update MFAEnrollment where
  guard e := e.userID = userID && e.status = .enabled && e.lastUsedStep < step &&
    e.version = expectedVersion
  set := (fun _ new => { new with lastUsedStep := step }) :: touch actor now

def advanceMFAStepAtVersion (userID : String) (step : Int) (actor : String)
    (expectedVersion : Int) (now : Time) : Tx Unit :=
  guarded (.userMFA (.update (advanceAtVersionUpdate userID step actor expectedVersion now)))
    .failed

def consumeCodeUpdate (userID codeHash actor : String) (now : Time) : Update MFARecoveryCode where
  guard r := r.userID = userID && r.codeHash = codeHash && r.consumedAt = none
  set := (fun _ new => { new with consumedAt := some now }) :: touch actor now

def consumeRecoveryCode (userID codeHash actor : String) (now : Time) : Tx Unit :=
  guarded (.mfaRecoveryCodes (.update (consumeCodeUpdate userID codeHash actor now))) .failed

def insertMFAChallenge (challenge : MFALoginChallenge) : Tx Unit :=
  plain (.mfaLoginChallenges (.insert { challenge with consumedAt := none })) .failed

def consumeChallengeUpdate (tokenHash actor : String) (version : Int) (now : Time) :
    Update MFALoginChallenge where
  guard c := c.tokenHash = tokenHash && c.consumedAt = none && now < c.expiresAt &&
    c.version = version
  set := (fun _ new => { new with consumedAt := some now }) :: touch actor now

def consumeMFAChallenge (tokenHash actor : String) (version : Int) (now : Time) : Tx Unit :=
  guarded (.mfaLoginChallenges (.update (consumeChallengeUpdate tokenHash actor version now)))
    .failed

def deleteMFAChallenges (hashes : List String) (before : Time) : Tx Nat :=
  Tx.exec (.mfaLoginChallenges
    (.delete (fun c => c.tokenHash ∈ hashes && c.expiresAt < before))) .failed

def invalidateUpdate (userID actor : String) (now : Time) : Update PasswordResetChallenge where
  guard c := c.userID = userID && c.consumedAt = none
  set := (fun _ new => { new with consumedAt := some now }) :: touch actor now

def invalidatePasswordResetChallenges (userID actor : String) (now : Time) : Tx Unit :=
  plain (.passwordResetChallenges (.update (invalidateUpdate userID actor now))) .failed

def insertPasswordResetChallenge (challenge : PasswordResetChallenge) : Tx Unit :=
  plain (.passwordResetChallenges (.insert { challenge with consumedAt := none })) .failed

def consumeResetUpdate (tokenHash : String) (expectedVersion : Int) (actor : String)
    (now : Time) : Update PasswordResetChallenge where
  guard c := c.tokenHash = tokenHash && c.consumedAt = none && now < c.expiresAt &&
    c.version = expectedVersion
  set := (fun _ new => { new with consumedAt := some now }) :: touch actor now

def consumePasswordResetChallenge (tokenHash : String) (expectedVersion : Int) (actor : String)
    (now : Time) : Tx Unit :=
  guarded (.passwordResetChallenges
    (.update (consumeResetUpdate tokenHash expectedVersion actor now))) .failed

def deletePasswordResetChallenges (hashes : List String) (before : Time) : Tx Nat :=
  Tx.exec (.passwordResetChallenges
    (.delete (fun c => c.tokenHash ∈ hashes && c.expiresAt < before))) .failed

def createServiceAccount (account : ServiceAccount) : Tx Unit :=
  plain (.serviceAccounts (.insert account)) .conflict

def accountStatusUpdate (id : String) (status : Status) (actor : String) (version : Int)
    (now : Time) : Update ServiceAccount where
  guard a := a.id = id && a.version = version
  set := (fun _ new => { new with status := status }) :: touch actor now

def updateServiceAccountStatus (id : String) (status : Status) (actor : String) (version : Int)
    (now : Time) : Tx Unit :=
  guarded (.serviceAccounts (.update (accountStatusUpdate id status actor version now))) .failed

def accountSecretUpdate (id secretHash actor : String) (version : Int) (now : Time) :
    Update ServiceAccount where
  guard a := a.id = id && a.version = version
  set := (fun _ new => { new with secretHash := secretHash }) :: touch actor now

def rotateServiceAccountSecret (id secretHash actor : String) (version : Int) (now : Time) :
    Tx Unit :=
  guarded (.serviceAccounts (.update (accountSecretUpdate id secretHash actor version now)))
    .failed

end Repository

end IdentityService
