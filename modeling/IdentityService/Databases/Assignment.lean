import IdentityService.Defs.Frame

/-! The updates of the repository on the databases it supports. -/

namespace IdentityService

open Lib Service

inductive DatabaseType : Type
  | mysql
  | postgres
  | kingbase
deriving DecidableEq, Repr

section Updates

variable {ρ : Type}

def Lib.Update.assignInOrder (u : Update ρ) (r : ρ) : ρ :=
  u.set.foldl (fun new f => f new new) r

def Lib.Update.assignOn (u : Update ρ) : DatabaseType → ρ → ρ
  | .mysql => u.assignInOrder
  | .postgres | .kingbase => u.assign

inductive RepositoryUpdate : Type → Type
  | updatePasswordCredential (credentialID secretHash actor : String) (version : Int)
      (now : Time) : RepositoryUpdate Credential
  | recordFailedLogin (userID : String) (threshold : Int) (lockedUntil now : Time) :
      RepositoryUpdate User
  | resetFailedLogin (userID : String) (now : Time) : RepositoryUpdate User
  | updateUserStatus (id : String) (status : Status) (actor : String) (version : Int)
      (now : Time) : RepositoryUpdate User
  | updateUserProfile (id displayName email phone actor : String) (version : Int) (now : Time) :
      RepositoryUpdate User
  | rotateSession (session : Session) (previousHash : String) : RepositoryUpdate Session
  | scopeSession (sessionID userID tenantID membershipID actor : String) (now : Time) :
      RepositoryUpdate Session
  | revokeSession (id userID reason actor : String) (now : Time) : RepositoryUpdate Session
  | revokeOtherSessions (userID currentSessionID reason actor : String) (now : Time) :
      RepositoryUpdate Session
  | revokeUserSessions (userID reason actor : String) (now : Time) : RepositoryUpdate Session
  | revokeSessionByID (id reason actor : String) (version : Int) (now : Time) :
      RepositoryUpdate Session
  | revokeOwnedSessionByID (id userID reason actor : String) (version : Int) (now : Time) :
      RepositoryUpdate Session
  | revokeTenantSessions (userID tenantID reason actor : String) (now : Time) :
      RepositoryUpdate Session
  | resetPendingMFA (userID secretCiphertext actor : String) (version : Int) (now : Time) :
      RepositoryUpdate MFAEnrollment
  | enableMFA (userID : String) (step : Int) (actor : String) (version : Int) (now : Time) :
      RepositoryUpdate MFAEnrollment
  | disableMFA (userID : String) (step : Int) (actor : String) (version : Int) (now : Time) :
      RepositoryUpdate MFAEnrollment
  | adminResetMFA (userID actor : String) (expectedVersion : Int) (now : Time) :
      RepositoryUpdate MFAEnrollment
  | advanceMFAStep (userID : String) (step : Int) (actor : String) (now : Time) :
      RepositoryUpdate MFAEnrollment
  | advanceMFAStepAtVersion (userID : String) (step : Int) (actor : String)
      (expectedVersion : Int) (now : Time) : RepositoryUpdate MFAEnrollment
  | consumeRecoveryCode (userID codeHash actor : String) (now : Time) :
      RepositoryUpdate MFARecoveryCode
  | consumeMFAChallenge (tokenHash actor : String) (version : Int) (now : Time) :
      RepositoryUpdate MFALoginChallenge
  | invalidatePasswordResetChallenges (userID actor : String) (now : Time) :
      RepositoryUpdate PasswordResetChallenge
  | consumePasswordResetChallenge (tokenHash : String) (expectedVersion : Int) (actor : String)
      (now : Time) : RepositoryUpdate PasswordResetChallenge
  | updateServiceAccountStatus (id : String) (status : Status) (actor : String) (version : Int)
      (now : Time) : RepositoryUpdate ServiceAccount
  | rotateServiceAccountSecret (id secretHash actor : String) (version : Int) (now : Time) :
      RepositoryUpdate ServiceAccount

namespace RepositoryUpdate

open Repository

def update : RepositoryUpdate ρ → Update ρ
  | updatePasswordCredential id digest actor version now =>
    passwordUpdate id digest actor version now
  | recordFailedLogin id threshold until' now => failedLoginUpdate id threshold until' now
  | resetFailedLogin id now => resetLoginUpdate id now
  | updateUserStatus id status actor version now => statusUpdate id status actor version now
  | updateUserProfile id name email phone actor version now =>
    profileUpdate id name email phone actor version now
  | rotateSession session digest => rotateUpdate session digest
  | scopeSession id userID tenantID membershipID actor now =>
    scopeUpdate id userID tenantID membershipID actor now
  | revokeSession id userID reason actor now =>
    revokeUpdate (fun r => r.id = id && r.userID = userID) reason actor now
  | revokeOtherSessions userID current reason actor now =>
    revokeUpdate (fun r => r.userID = userID && r.id ≠ current && now < r.expiresAt) reason
      actor now
  | revokeUserSessions userID reason actor now =>
    revokeUpdate (fun r => r.userID = userID && now < r.expiresAt) reason actor now
  | revokeSessionByID id reason actor version now =>
    revokeUpdate (fun r => r.id = id && r.version = version) reason actor now
  | revokeOwnedSessionByID id userID reason actor version now =>
    revokeUpdate (fun r => r.id = id && r.userID = userID && r.version = version) reason actor now
  | revokeTenantSessions userID tenantID reason actor now =>
    revokeUpdate (fun r => r.userID = userID && r.tenantID = tenantID) reason actor now
  | resetPendingMFA userID secret actor version now =>
    resetPendingUpdate userID secret actor version now
  | enableMFA userID step actor version now => enableUpdate userID step actor version now
  | disableMFA userID step actor version now => disableUpdate userID step actor version now
  | adminResetMFA userID actor version now => adminResetUpdate userID actor version now
  | advanceMFAStep userID step actor now => advanceUpdate userID step actor now
  | advanceMFAStepAtVersion userID step actor version now =>
    advanceAtVersionUpdate userID step actor version now
  | consumeRecoveryCode userID digest actor now => consumeCodeUpdate userID digest actor now
  | consumeMFAChallenge digest actor version now => consumeChallengeUpdate digest actor version now
  | invalidatePasswordResetChallenges userID actor now => invalidateUpdate userID actor now
  | consumePasswordResetChallenge digest version actor now =>
    consumeResetUpdate digest version actor now
  | updateServiceAccountStatus id status actor version now =>
    accountStatusUpdate id status actor version now
  | rotateServiceAccountSecret id digest actor version now =>
    accountSecretUpdate id digest actor version now

def Diverges : RepositoryUpdate ρ → ρ → Prop
  | recordFailedLogin _ threshold until' _, u =>
    u.failedLoginCount + 2 = threshold ∧ u.lockedUntil ≠ some until'
  | _, _ => False

theorem assignInOrder_eq_assign_iff (x : RepositoryUpdate ρ) (r : ρ) :
    x.update.assignInOrder r = x.update.assign r ↔ ¬x.Diverges r := by
  cases x with
  | recordFailedLogin id threshold until' now =>
    change User at r
    have hassign : (recordFailedLogin id threshold until' now).update.assign r =
        { r with
          failedLoginCount := r.failedLoginCount + 1
          lockedUntil := if r.failedLoginCount + 1 ≥ threshold then some until' else r.lockedUntil
          version := r.version + 1
          updatedAt := now
          updatedBy := "identity:login" } := rfl
    have hinOrder : (recordFailedLogin id threshold until' now).update.assignInOrder r =
        { r with
          failedLoginCount := r.failedLoginCount + 1
          lockedUntil :=
            if r.failedLoginCount + 1 + 1 ≥ threshold then some until' else r.lockedUntil
          version := r.version + 1
          updatedAt := now
          updatedBy := "identity:login" } := rfl
    rw [hassign, hinOrder]
    simp only [User.mk.injEq, true_and, Diverges]
    grind
  | _ => exact ⟨fun _ => id, fun _ => rfl⟩

end RepositoryUpdate

/-- An update means the same on all databases for every row except the one whose failure count
is one short of the threshold. -/
theorem updates_agree_iff (x : RepositoryUpdate ρ) (r : ρ) :
    (∀ db db' : DatabaseType, x.update.assignOn db r = x.update.assignOn db' r) ↔
      ¬x.Diverges r := by
  rw [← x.assignInOrder_eq_assign_iff]
  constructor
  · intro h
    exact h .mysql .postgres
  · intro h db db'
    cases db <;> cases db' <;> simp [Update.assignOn, h]

end Updates

theorem fourth_failure_locks_on_mysql : ∃ (x : RepositoryUpdate User) (u : User),
    x = .recordFailedLogin u.id loginFailureThreshold loginLockDuration 0 ∧
    u.failedLoginCount = 3 ∧ u.lockedUntil = none ∧
    (x.update.assignOn .postgres u).lockedUntil = none ∧
    (x.update.assignOn .mysql u).lockedUntil = some loginLockDuration :=
  ⟨.recordFailedLogin "u1" loginFailureThreshold loginLockDuration 0,
    ⟨⟨1, 0, 0, "", ""⟩, "u1", "bob", "Bob", "", "", .active, 3, none⟩, rfl, rfl, rfl, rfl, rfl⟩

def DatabaseType.lead : DatabaseType → Int
  | .mysql => 1
  | .postgres | .kingbase => 0

def recordFailures (db : DatabaseType) (threshold : Int) : List (Time × Time) → User → User
  | [], u => u
  | (until', now) :: rest, u => recordFailures db threshold rest
      ((RepositoryUpdate.recordFailedLogin u.id threshold until' now).update.assignOn db u)

theorem recordFailedLogin_on (db : DatabaseType) (threshold : Int) (until' now : Time) (u : User) :
    ((RepositoryUpdate.recordFailedLogin u.id threshold until' now).update.assignOn db
      u).failedLoginCount = u.failedLoginCount + 1 ∧
    ((RepositoryUpdate.recordFailedLogin u.id threshold until' now).update.assignOn db
      u).lockedUntil =
        if u.failedLoginCount + 1 + db.lead ≥ threshold then some until' else u.lockedUntil := by
  cases db with
  | mysql => exact ⟨rfl, rfl⟩
  | postgres | kingbase =>
    simp only [DatabaseType.lead, Int.add_zero]
    exact ⟨rfl, rfl⟩

theorem recordFailures_locks (db : DatabaseType) (threshold : Int) (failures : List (Time × Time))
    (u : User) (hlock : u.lockedUntil ≠ none ↔ threshold ≤ u.failedLoginCount + db.lead) :
    (recordFailures db threshold failures u).lockedUntil ≠ none ↔
      threshold ≤ u.failedLoginCount + failures.length + db.lead := by
  induction failures generalizing u with
  | nil =>
    rw [recordFailures, hlock]
    simp
  | cons t rest ih =>
    obtain ⟨until', now⟩ := t
    obtain ⟨hcount, hlock'⟩ := recordFailedLogin_on db threshold until' now u
    rw [recordFailures, ih, hcount, List.length_cons]
    · push_cast
      omega
    · rw [hcount, hlock']
      split
      · rename_i hge
        exact ⟨fun _ => hge, fun _ => nofun⟩
      · rename_i hlt
        rw [hlock]
        omega

end IdentityService
