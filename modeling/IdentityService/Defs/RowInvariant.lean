import IdentityService.Defs.System
import IdentityService.Lib.RowInvariant

/-! Conditions on the rows of all tables, kept by a transaction if every statement keeps them. -/

namespace IdentityService

open Lib

structure RowSpec where
  users : User → Prop := fun _ => True
  credentials : Credential → Prop := fun _ => True
  sessions : Session → Prop := fun _ => True
  userMFA : MFAEnrollment → Prop := fun _ => True
  mfaRecoveryCodes : MFARecoveryCode → Prop := fun _ => True
  mfaLoginChallenges : MFALoginChallenge → Prop := fun _ => True
  passwordResetChallenges : PasswordResetChallenge → Prop := fun _ => True
  serviceAccounts : ServiceAccount → Prop := fun _ => True

structure Store.Satisfies (s : Store) (P : RowSpec) : Prop where
  users : ∀ r ∈ s.users.rows, P.users r
  credentials : ∀ r ∈ s.credentials.rows, P.credentials r
  sessions : ∀ r ∈ s.sessions.rows, P.sessions r
  userMFA : ∀ r ∈ s.userMFA.rows, P.userMFA r
  mfaRecoveryCodes : ∀ r ∈ s.mfaRecoveryCodes.rows, P.mfaRecoveryCodes r
  mfaLoginChallenges : ∀ r ∈ s.mfaLoginChallenges.rows, P.mfaLoginChallenges r
  passwordResetChallenges : ∀ r ∈ s.passwordResetChallenges.rows, P.passwordResetChallenges r
  serviceAccounts : ∀ r ∈ s.serviceAccounts.rows, P.serviceAccounts r

def Stmt.Preserves (P : RowSpec) : Stmt → Prop
  | .users q => q.Preserves P.users
  | .credentials q => q.Preserves P.credentials
  | .sessions q => q.Preserves P.sessions
  | .userMFA q => q.Preserves P.userMFA
  | .mfaRecoveryCodes q => q.Preserves P.mfaRecoveryCodes
  | .mfaLoginChallenges q => q.Preserves P.mfaLoginChallenges
  | .passwordResetChallenges q => q.Preserves P.passwordResetChallenges
  | .serviceAccounts q => q.Preserves P.serviceAccounts
  | .outboxEvents _ => True

structure RowSpec.Le (P Q : RowSpec) : Prop where
  users : ∀ r, P.users r → Q.users r
  credentials : ∀ r, P.credentials r → Q.credentials r
  sessions : ∀ r, P.sessions r → Q.sessions r
  userMFA : ∀ r, P.userMFA r → Q.userMFA r
  mfaRecoveryCodes : ∀ r, P.mfaRecoveryCodes r → Q.mfaRecoveryCodes r
  mfaLoginChallenges : ∀ r, P.mfaLoginChallenges r → Q.mfaLoginChallenges r
  passwordResetChallenges : ∀ r, P.passwordResetChallenges r → Q.passwordResetChallenges r
  serviceAccounts : ∀ r, P.serviceAccounts r → Q.serviceAccounts r

namespace Store.Satisfies

variable {s s' : Store} {P Q : RowSpec}

theorem empty (P : RowSpec) : Store.empty.Satisfies P := by
  constructor <;> exact fun _ hr => absurd hr List.not_mem_nil

theorem mono (h : s.Satisfies P) (hle : P.Le Q) : s.Satisfies Q where
  users r hr := hle.users r (h.users r hr)
  credentials r hr := hle.credentials r (h.credentials r hr)
  sessions r hr := hle.sessions r (h.sessions r hr)
  userMFA r hr := hle.userMFA r (h.userMFA r hr)
  mfaRecoveryCodes r hr := hle.mfaRecoveryCodes r (h.mfaRecoveryCodes r hr)
  mfaLoginChallenges r hr := hle.mfaLoginChallenges r (h.mfaLoginChallenges r hr)
  passwordResetChallenges r hr := hle.passwordResetChallenges r (h.passwordResetChallenges r hr)
  serviceAccounts r hr := hle.serviceAccounts r (h.serviceAccounts r hr)

theorem of_exec {lower : String → String} {q : Stmt} {n : Nat} (hq : q.Preserves P)
    (h : s.exec lower q = some (n, s')) (hs : s.Satisfies P) : s'.Satisfies P := by
  cases q with
  | users q =>
    obtain ⟨t, ht, -, rfl⟩ := Store.exec_users.1 h
    exact { hs with users := Table.forall_of_run ht hq hs.users }
  | credentials q =>
    obtain ⟨t, ht, rfl⟩ := Store.exec_credentials.1 h
    exact { hs with credentials := Table.forall_of_run ht hq hs.credentials }
  | sessions q =>
    obtain ⟨t, ht, rfl⟩ := Store.exec_sessions.1 h
    exact { hs with sessions := Table.forall_of_run ht hq hs.sessions }
  | userMFA q =>
    obtain ⟨t, ht, rfl⟩ := Store.exec_userMFA.1 h
    exact { hs with userMFA := Table.forall_of_run ht hq hs.userMFA }
  | mfaRecoveryCodes q =>
    obtain ⟨t, ht, rfl⟩ := Store.exec_mfaRecoveryCodes.1 h
    exact { hs with mfaRecoveryCodes := Table.forall_of_run ht hq hs.mfaRecoveryCodes }
  | mfaLoginChallenges q =>
    obtain ⟨t, ht, rfl⟩ := Store.exec_mfaLoginChallenges.1 h
    exact { hs with mfaLoginChallenges := Table.forall_of_run ht hq hs.mfaLoginChallenges }
  | passwordResetChallenges q =>
    obtain ⟨t, ht, rfl⟩ := Store.exec_passwordResetChallenges.1 h
    exact { hs with
      passwordResetChallenges := Table.forall_of_run ht hq hs.passwordResetChallenges }
  | serviceAccounts q =>
    obtain ⟨t, ht, rfl⟩ := Store.exec_serviceAccounts.1 h
    exact { hs with serviceAccounts := Table.forall_of_run ht hq hs.serviceAccounts }
  | outboxEvents q =>
    obtain ⟨t, -, rfl⟩ := Store.exec_outboxEvents.1 h
    exact { hs with }

theorem of_run {lower : String → String} {body : Tx Nat} {n : Nat}
    (hbody : body.Every (Stmt.Preserves P)) (hrun : body.run lower s = .ok (n, s'))
    (hs : s.Satisfies P) : s'.Satisfies P := by
  have hkeeps : s.Satisfies P → s'.Satisfies P :=
    Tx.Every.relate (fun _ h => h) (fun _ _ _ h h' hs => h' (h hs)) (fun _ _ _ _ hq => of_exec hq)
      hbody hrun
  exact hkeeps hs

end Store.Satisfies

end IdentityService
