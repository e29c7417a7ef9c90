import IdentityService.Defs.Repository

namespace IdentityService

open Lib

namespace Store

variable {lower : String → String} {s s' : Store} {n : Nat}

@[simp] theorem exec_users {q : Statement User} :
    s.exec lower (.users q) = some (n, s') ↔
      ∃ t, s.users.run q = some (n, t) ∧ loginsDistinct lower t.rows ∧
        s' = { s with users := t } := by
  unfold exec
  cases h : s.users.run q with
  | none => simp [h]
  | some r =>
    obtain ⟨m, t⟩ := r
    simp only [h]
    split
    · rename_i hd
      simp only [Option.some.injEq, Prod.mk.injEq]
      constructor
      · rintro ⟨rfl, rfl⟩
        exact ⟨t, ⟨rfl, rfl⟩, hd, rfl⟩
      · rintro ⟨_, ⟨rfl, rfl⟩, _, rfl⟩
        exact ⟨rfl, rfl⟩
    · rename_i hd
      simp only [reduceCtorEq, Option.some.injEq, Prod.mk.injEq, false_iff, not_exists]
      rintro _ ⟨⟨rfl, rfl⟩, h, _⟩
      exact hd h

theorem map_run_eq_some {ρ : Type} [Constrained ρ] {t : Table ρ} {q : Statement ρ}
    (put : Table ρ → Store) :
    (t.run q).map (fun r => (r.1, put r.2)) = some (n, s') ↔
      ∃ t', t.run q = some (n, t') ∧ s' = put t' := by
  simp only [Option.map_eq_some_iff, Prod.mk.injEq, Prod.exists]
  constructor
  · rintro ⟨m, t', h, rfl, rfl⟩
    exact ⟨t', h, rfl⟩
  · rintro ⟨t', h, rfl⟩
    exact ⟨n, t', h, rfl, rfl⟩

@[simp] theorem exec_credentials {q : Statement Credential} :
    s.exec lower (.credentials q) = some (n, s') ↔
      ∃ t, s.credentials.run q = some (n, t) ∧ s' = { s with credentials := t } :=
  map_run_eq_some (fun t => { s with credentials := t })

@[simp] theorem exec_sessions {q : Statement Session} :
    s.exec lower (.sessions q) = some (n, s') ↔
      ∃ t, s.sessions.run q = some (n, t) ∧ s' = { s with sessions := t } :=
  map_run_eq_some (fun t => { s with sessions := t })

@[simp] theorem exec_userMFA {q : Statement MFAEnrollment} :
    s.exec lower (.userMFA q) = some (n, s') ↔
      ∃ t, s.userMFA.run q = some (n, t) ∧ s' = { s with userMFA := t } :=
  map_run_eq_some (fun t => { s with userMFA := t })

@[simp] theorem exec_mfaRecoveryCodes {q : Statement MFARecoveryCode} :
    s.exec lower (.mfaRecoveryCodes q) = some (n, s') ↔
      ∃ t, s.mfaRecoveryCodes.run q = some (n, t) ∧ s' = { s with mfaRecoveryCodes := t } :=
  map_run_eq_some (fun t => { s with mfaRecoveryCodes := t })

@[simp] theorem exec_mfaLoginChallenges {q : Statement MFALoginChallenge} :
    s.exec lower (.mfaLoginChallenges q) = some (n, s') ↔
      ∃ t, s.mfaLoginChallenges.run q = some (n, t) ∧ s' = { s with mfaLoginChallenges := t } :=
  map_run_eq_some (fun t => { s with mfaLoginChallenges := t })

@[simp] theorem exec_passwordResetChallenges {q : Statement PasswordResetChallenge} :
    s.exec lower (.passwordResetChallenges q) = some (n, s') ↔
      ∃ t, s.passwordResetChallenges.run q = some (n, t) ∧
        s' = { s with passwordResetChallenges := t } :=
  map_run_eq_some (fun t => { s with passwordResetChallenges := t })

@[simp] theorem exec_serviceAccounts {q : Statement ServiceAccount} :
    s.exec lower (.serviceAccounts q) = some (n, s') ↔
      ∃ t, s.serviceAccounts.run q = some (n, t) ∧ s' = { s with serviceAccounts := t } :=
  map_run_eq_some (fun t => { s with serviceAccounts := t })

@[simp] theorem exec_outboxEvents {q : Statement OutboxEvent} :
    s.exec lower (.outboxEvents q) = some (n, s') ↔
      ∃ t, s.outboxEvents.run q = some (n, t) ∧ s' = { s with outboxEvents := t } :=
  map_run_eq_some (fun t => { s with outboxEvents := t })

end Store

namespace Tx

variable {lower : String → String} {s s' : Store} {α β : Type} {a : α} {n : Nat}

@[simp] theorem run_bind {p : Tx α} {f : α → Tx β} {r : β × Store} :
    (p >>= f).run lower s = .ok r ↔
      ∃ a s', p.run lower s = .ok (a, s') ∧ (f a).run lower s' = .ok r :=
  Program.interpret_bind_ok

@[simp] theorem run_ret {b : α} :
    run lower (.ret b) s = .ok (a, s') ↔ b = a ∧ s = s' := by
  simp [run, Program.interpret]

@[simp] theorem run_fail {e : RepositoryError} :
    run lower (.fail e) s = .ok (a, s') ↔ False := by
  simp [run, Program.interpret]

@[simp] theorem run_exec {q : Stmt} {d : RepositoryError} :
    (exec q d).run lower s = .ok (n, s') ↔ s.exec lower q = some (n, s') := by
  unfold run exec
  simp only [Program.interpret, handle]
  cases h : s.exec lower q with
  | none => simp [Program.interpret]
  | some r => simp [Program.interpret, Prod.ext_iff]

@[simp] theorem run_reject {c : Prop} [Decidable c] {e : RepositoryError} {u : Unit} :
    run lower (.reject c e) s = .ok (u, s') ↔ ¬c ∧ s = s' := by
  by_cases h : c <;> simp [Program.reject, h]

@[simp] theorem run_ite {c : Prop} [Decidable c] {p q : Tx α} {r : α × Store} :
    (if c then p else q).run lower s = .ok r ↔
      c ∧ p.run lower s = .ok r ∨ ¬c ∧ q.run lower s = .ok r := by
  by_cases h : c <;> simp [h]

end Tx

namespace Repository

variable {lower : String → String} {s s' : Store} {u : Unit}

@[simp] theorem run_guarded {q : Stmt} {d : RepositoryError} :
    (guarded q d).run lower s = .ok (u, s') ↔ ∃ n, s.exec lower q = some (n, s') ∧ n ≠ 0 := by
  simp only [guarded, requireAffected, Tx.run_bind, Tx.run_exec, Tx.run_reject]
  constructor
  · rintro ⟨n, s1, h, hn, rfl⟩
    exact ⟨n, h, hn⟩
  · rintro ⟨n, h, hn⟩
    exact ⟨n, s', h, hn, rfl⟩

@[simp] theorem run_plain {q : Stmt} {d : RepositoryError} :
    (plain q d).run lower s = .ok (u, s') ↔ ∃ n, s.exec lower q = some (n, s') := by
  simp only [plain, Tx.run_bind, Tx.run_exec, Program.pure_eq_ret, Tx.run_ret, true_and]
  constructor
  · rintro ⟨n, s1, h, rfl⟩
    exact ⟨n, h⟩
  · rintro ⟨n, h⟩
    exact ⟨n, s', h, rfl⟩

attribute [simp] createUser insertOutbox updatePasswordCredential recordFailedLogin
  resetFailedLogin updateUserStatus updateUserProfile createSession rotateSession scopeSession
  revokeSession revokeOtherSessions revokeUserSessions revokeSessionByID revokeOwnedSessionByID
  revokeTenantSessions deleteSessions insertMFA resetPendingMFA enableMFA disableMFA adminResetMFA
  deleteRecoveryCodes advanceMFAStep advanceMFAStepAtVersion consumeRecoveryCode
  insertMFAChallenge consumeMFAChallenge deleteMFAChallenges invalidatePasswordResetChallenges
  insertPasswordResetChallenge consumePasswordResetChallenge deletePasswordResetChallenges
  createServiceAccount updateServiceAccountStatus rotateServiceAccountSecret

theorem run_insertRecoveryCodes {codes : List MFARecoveryCode} :
    (insertRecoveryCodes codes).run lower s = .ok (u, s') ↔
      ∃ t, t.rows = s.mfaRecoveryCodes.rows ++ codes.map ({ · with consumedAt := none }) ∧
        s' = { s with mfaRecoveryCodes := t } := by
  induction codes generalizing s with
  | nil =>
    simp only [insertRecoveryCodes, Program.pure_eq_ret, Tx.run_ret, true_and, List.map_nil,
      List.append_nil]
    constructor
    · rintro rfl
      exact ⟨_, rfl, rfl⟩
    · rintro ⟨t, ht, rfl⟩
      rw [Table.ext ht]
  | cons code codes ih =>
    simp only [insertRecoveryCodes, Tx.run_bind, run_plain, Store.exec_mfaRecoveryCodes,
      Table.run_insert, ih, List.map_cons]
    constructor
    · rintro ⟨_, _, ⟨_, t, ⟨-, ht⟩, rfl⟩, t', ht', rfl⟩
      exact ⟨t', by rw [ht', ht, List.append_assoc]; rfl, rfl⟩
    · rintro ⟨t, ht, rfl⟩
      -- A prefix of distinct rows is distinct, so each insert succeeds on the way.
      rw [List.append_cons] at ht
      have hd := (List.pairwise_append.1 (ht ▸ t.distinct)).1
      exact ⟨(), _, ⟨1, ⟨_, hd⟩, ⟨rfl, rfl⟩, rfl⟩, t, ht, rfl⟩

theorem run_replaceRecoveryCodes {userID : String} {codes : List MFARecoveryCode}
    (hne : codes ≠ []) (hcodes : ∀ code ∈ codes, code.userID = userID ∧ code.consumedAt = none) :
    (replaceRecoveryCodes codes).run lower s = .ok (u, s') ↔
      ∃ t, t.rows = s.mfaRecoveryCodes.rows.filter (fun r => !decide (r.userID = userID)) ++ codes ∧
        s' = { s with mfaRecoveryCodes := t } := by
  have hmap : codes.map ({ · with consumedAt := none }) = codes := by
    conv => rhs; rw [← List.map_id codes]
    refine List.map_congr_left fun code hcode => ?_
    rw [← (hcodes code hcode).2]
    rfl
  cases codes with
  | nil => exact absurd rfl hne
  | cons code codes =>
    simp only [replaceRecoveryCodes, Tx.run_bind, deleteRecoveryCodes, run_plain,
      Store.exec_mfaRecoveryCodes, Table.run_delete, run_insertRecoveryCodes,
      (hcodes code List.mem_cons_self).1, hmap]
    constructor
    · rintro ⟨_, _, ⟨_, t, ⟨-, ht⟩, rfl⟩, t', ht', rfl⟩
      exact ⟨t', by rw [ht', ht], rfl⟩
    · rintro ⟨t, ht, rfl⟩
      have hd := (List.pairwise_append.1 (ht ▸ t.distinct)).1
      exact ⟨(), _, ⟨_, ⟨_, hd⟩, ⟨rfl, rfl⟩, rfl⟩, t, ht, rfl⟩

@[simp] theorem passwordUpdate_guard {id hash actor : String} {version : Int} {now : Time}
    {c : Credential} : (passwordUpdate id hash actor version now).guard c = true ↔
      c.id = id ∧ c.type = "password" ∧ c.status = .active ∧ c.version = version := by
  simp [passwordUpdate, and_assoc]

@[simp] theorem passwordUpdate_assign {id hash actor : String} {version : Int} {now : Time}
    (c : Credential) :
    (passwordUpdate id hash actor version now).assign c =
      { c with secretHash := hash, version := c.version + 1, updatedAt := now,
               updatedBy := actor } := rfl

@[simp] theorem statusUpdate_guard {id actor : String} {status : Status} {version : Int}
    {now : Time} {u : User} : (statusUpdate id status actor version now).guard u = true ↔
      u.id = id ∧ u.version = version := by
  simp [statusUpdate]

@[simp] theorem statusUpdate_assign {id actor : String} {status : Status} {version : Int}
    {now : Time} (u : User) : (statusUpdate id status actor version now).assign u =
      { u with status := status, failedLoginCount := 0, lockedUntil := none,
               version := u.version + 1, updatedAt := now, updatedBy := actor } := rfl

@[simp] theorem failedLoginUpdate_guard {id : String} {threshold : Int} {lockedUntil now : Time}
    {u : User} : (failedLoginUpdate id threshold lockedUntil now).guard u = true ↔ u.id = id := by
  simp [failedLoginUpdate]

@[simp] theorem failedLoginUpdate_assign {id : String} {threshold : Int} {lockedUntil now : Time}
    (u : User) : (failedLoginUpdate id threshold lockedUntil now).assign u =
      { u with failedLoginCount := u.failedLoginCount + 1,
               lockedUntil :=
                 if u.failedLoginCount + 1 ≥ threshold then some lockedUntil else u.lockedUntil,
               version := u.version + 1, updatedAt := now, updatedBy := "identity:login" } := rfl

@[simp] theorem resetLoginUpdate_guard {id : String} {now : Time} {u : User} :
    (resetLoginUpdate id now).guard u = true ↔
      u.id = id ∧ (u.failedLoginCount ≠ 0 ∨ u.lockedUntil ≠ none) := by
  simp [resetLoginUpdate]

@[simp] theorem resetLoginUpdate_assign {id : String} {now : Time} (u : User) :
    (resetLoginUpdate id now).assign u =
      { u with failedLoginCount := 0, lockedUntil := none, version := u.version + 1,
               updatedAt := now, updatedBy := "identity:login" } := rfl

@[simp] theorem profileUpdate_guard {id displayName email phone actor : String} {version : Int}
    {now : Time} {u : User} :
    (profileUpdate id displayName email phone actor version now).guard u = true ↔
      u.id = id ∧ u.version = version := by
  simp [profileUpdate]

@[simp] theorem profileUpdate_assign {id displayName email phone actor : String} {version : Int}
    {now : Time} (u : User) :
    (profileUpdate id displayName email phone actor version now).assign u =
      { u with displayName := displayName, email := email, phone := phone,
               version := u.version + 1, updatedAt := now, updatedBy := actor } := rfl

@[simp] theorem rotateUpdate_guard {session : Session} {hash : String} {r : Session} :
    (rotateUpdate session hash).guard r = true ↔ r.id = session.id ∧ r.refreshTokenHash = hash ∧
      r.revokedAt = none ∧ r.version = session.version := by
  simp [rotateUpdate, and_assoc]

@[simp] theorem rotateUpdate_assign {session : Session} {hash : String} (r : Session) :
    (rotateUpdate session hash).assign r =
      { r with refreshTokenHash := session.refreshTokenHash, lastUsedAt := session.lastUsedAt,
               version := r.version + 1, updatedAt := session.updatedAt,
               updatedBy := session.updatedBy } := rfl

@[simp] theorem scopeUpdate_guard {id user tenant membership actor : String} {now : Time}
    {r : Session} : (scopeUpdate id user tenant membership actor now).guard r = true ↔
      r.id = id ∧ r.userID = user ∧ r.revokedAt = none ∧ now < r.expiresAt := by
  simp [scopeUpdate, and_assoc]

@[simp] theorem scopeUpdate_assign {id user tenant membership actor : String} {now : Time}
    (r : Session) :
    (scopeUpdate id user tenant membership actor now).assign r =
      { r with tenantID := tenant, membershipID := membership, version := r.version + 1,
               updatedAt := now, updatedBy := actor } := rfl

@[simp] theorem revokeUpdate_guard {extra : Session → Bool} {reason actor : String} {now : Time}
    {r : Session} : (revokeUpdate extra reason actor now).guard r = true ↔
      extra r = true ∧ r.revokedAt = none := by
  simp [revokeUpdate]

@[simp] theorem revokeUpdate_assign {extra : Session → Bool} {reason actor : String} {now : Time}
    (r : Session) :
    (revokeUpdate extra reason actor now).assign r =
      { r with revokedAt := some now, revokeReason := reason, version := r.version + 1,
               updatedAt := now, updatedBy := actor } := rfl

@[simp] theorem resetPendingUpdate_guard {user ciphertext actor : String} {version : Int}
    {now : Time} {e : MFAEnrollment} :
    (resetPendingUpdate user ciphertext actor version now).guard e = true ↔
      e.userID = user ∧ e.status ≠ .enabled ∧ e.version = version := by
  simp [resetPendingUpdate, and_assoc]

@[simp] theorem resetPendingUpdate_assign {user ciphertext actor : String} {version : Int}
    {now : Time} (e : MFAEnrollment) :
    (resetPendingUpdate user ciphertext actor version now).assign e =
      { e with secretCiphertext := ciphertext, status := .pending, lastUsedStep := -1,
               enabledAt := none, version := e.version + 1, updatedAt := now,
               updatedBy := actor } := rfl

@[simp] theorem enableUpdate_guard {user actor : String} {step version : Int} {now : Time}
    {e : MFAEnrollment} : (enableUpdate user step actor version now).guard e = true ↔
      e.userID = user ∧ e.status = .pending ∧ e.version = version := by
  simp [enableUpdate, and_assoc]

@[simp] theorem enableUpdate_assign {user actor : String} {step version : Int} {now : Time}
    (e : MFAEnrollment) : (enableUpdate user step actor version now).assign e =
      { e with status := .enabled, lastUsedStep := step, enabledAt := some now,
               version := e.version + 1, updatedAt := now, updatedBy := actor } := rfl

@[simp] theorem disableUpdate_guard {user actor : String} {step version : Int} {now : Time}
    {e : MFAEnrollment} : (disableUpdate user step actor version now).guard e = true ↔
      e.userID = user ∧ e.status = .enabled ∧ e.lastUsedStep < step ∧ e.version = version := by
  simp [disableUpdate, and_assoc]

@[simp] theorem disableUpdate_assign {user actor : String} {step version : Int} {now : Time}
    (e : MFAEnrollment) : (disableUpdate user step actor version now).assign e =
      { e with status := .disabled, lastUsedStep := step, version := e.version + 1,
               updatedAt := now, updatedBy := actor } := rfl

@[simp] theorem adminResetUpdate_guard {user actor : String} {version : Int} {now : Time}
    {e : MFAEnrollment} : (adminResetUpdate user actor version now).guard e = true ↔
      e.userID = user ∧ e.status = .enabled ∧ e.version = version := by
  simp [adminResetUpdate, and_assoc]

@[simp] theorem adminResetUpdate_assign {user actor : String} {version : Int} {now : Time}
    (e : MFAEnrollment) : (adminResetUpdate user actor version now).assign e =
      { e with status := .disabled, lastUsedStep := -1, enabledAt := none,
               version := e.version + 1, updatedAt := now, updatedBy := actor } := rfl

@[simp] theorem advanceUpdate_guard {user actor : String} {step : Int} {now : Time}
    {e : MFAEnrollment} : (advanceUpdate user step actor now).guard e = true ↔
      e.userID = user ∧ e.status = .enabled ∧ e.lastUsedStep < step := by
  simp [advanceUpdate, and_assoc]

@[simp] theorem advanceUpdate_assign {user actor : String} {step : Int} {now : Time}
    (e : MFAEnrollment) : (advanceUpdate user step actor now).assign e =
      { e with lastUsedStep := step, version := e.version + 1, updatedAt := now,
               updatedBy := actor } := rfl

@[simp] theorem advanceAtVersionUpdate_guard {user actor : String} {step version : Int}
    {now : Time} {e : MFAEnrollment} :
    (advanceAtVersionUpdate user step actor version now).guard e = true ↔
      e.userID = user ∧ e.status = .enabled ∧ e.lastUsedStep < step ∧ e.version = version := by
  simp [advanceAtVersionUpdate, and_assoc]

@[simp] theorem advanceAtVersionUpdate_assign {user actor : String} {step version : Int}
    {now : Time} (e : MFAEnrollment) :
    (advanceAtVersionUpdate user step actor version now).assign e =
      { e with lastUsedStep := step, version := e.version + 1, updatedAt := now,
               updatedBy := actor } := rfl

@[simp] theorem consumeCodeUpdate_guard {user hash actor : String} {now : Time}
    {r : MFARecoveryCode} : (consumeCodeUpdate user hash actor now).guard r = true ↔
      r.userID = user ∧ r.codeHash = hash ∧ r.consumedAt = none := by
  simp [consumeCodeUpdate, and_assoc]

@[simp] theorem consumeCodeUpdate_assign {user hash actor : String} {now : Time}
    (r : MFARecoveryCode) : (consumeCodeUpdate user hash actor now).assign r =
      { r with consumedAt := some now, version := r.version + 1, updatedAt := now,
               updatedBy := actor } := rfl

@[simp] theorem consumeChallengeUpdate_guard {hash actor : String} {version : Int} {now : Time}
    {c : MFALoginChallenge} : (consumeChallengeUpdate hash actor version now).guard c = true ↔
      c.tokenHash = hash ∧ c.consumedAt = none ∧ now < c.expiresAt ∧ c.version = version := by
  simp [consumeChallengeUpdate, and_assoc]

@[simp] theorem consumeChallengeUpdate_assign {hash actor : String} {version : Int} {now : Time}
    (c : MFALoginChallenge) : (consumeChallengeUpdate hash actor version now).assign c =
      { c with consumedAt := some now, version := c.version + 1, updatedAt := now,
               updatedBy := actor } := rfl

@[simp] theorem invalidateUpdate_guard {user actor : String} {now : Time}
    {c : PasswordResetChallenge} : (invalidateUpdate user actor now).guard c = true ↔
      c.userID = user ∧ c.consumedAt = none := by
  simp [invalidateUpdate]

@[simp] theorem invalidateUpdate_assign {user actor : String} {now : Time}
    (c : PasswordResetChallenge) : (invalidateUpdate user actor now).assign c =
      { c with consumedAt := some now, version := c.version + 1, updatedAt := now,
               updatedBy := actor } := rfl

@[simp] theorem consumeResetUpdate_guard {hash actor : String} {version : Int} {now : Time}
    {c : PasswordResetChallenge} : (consumeResetUpdate hash version actor now).guard c = true ↔
      c.tokenHash = hash ∧ c.consumedAt = none ∧ now < c.expiresAt ∧ c.version = version := by
  simp [consumeResetUpdate, and_assoc]

@[simp] theorem consumeResetUpdate_assign {hash actor : String} {version : Int} {now : Time}
    (c : PasswordResetChallenge) : (consumeResetUpdate hash version actor now).assign c =
      { c with consumedAt := some now, version := c.version + 1, updatedAt := now,
               updatedBy := actor } := rfl

@[simp] theorem accountStatusUpdate_guard {id actor : String} {status : Status} {version : Int}
    {now : Time} {a : ServiceAccount} :
    (accountStatusUpdate id status actor version now).guard a = true ↔
      a.id = id ∧ a.version = version := by
  simp [accountStatusUpdate]

@[simp] theorem accountStatusUpdate_assign {id actor : String} {status : Status} {version : Int}
    {now : Time} (a : ServiceAccount) :
    (accountStatusUpdate id status actor version now).assign a =
      { a with status := status, version := a.version + 1, updatedAt := now,
               updatedBy := actor } := rfl

@[simp] theorem accountSecretUpdate_guard {id hash actor : String} {version : Int} {now : Time}
    {a : ServiceAccount} : (accountSecretUpdate id hash actor version now).guard a = true ↔
      a.id = id ∧ a.version = version := by
  simp [accountSecretUpdate]

@[simp] theorem accountSecretUpdate_assign {id hash actor : String} {version : Int} {now : Time}
    (a : ServiceAccount) : (accountSecretUpdate id hash actor version now).assign a =
      { a with secretHash := hash, version := a.version + 1, updatedAt := now,
               updatedBy := actor } := rfl

end Repository

end IdentityService
