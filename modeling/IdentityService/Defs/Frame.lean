import IdentityService.Defs.Commit
import IdentityService.Defs.RepositoryLaws
import IdentityService.Lib.Versioned

/-! What the statements of an operation have in common: the tables they write, and what they do
to versions. -/

namespace IdentityService

open Lib
open Lib.Program (Along)

inductive TableName : Type
  | users
  | credentials
  | sessions
  | userMFA
  | mfaRecoveryCodes
  | mfaLoginChallenges
  | passwordResetChallenges
  | serviceAccounts
  | outboxEvents
deriving DecidableEq

def Stmt.table : Stmt → TableName
  | .users _ => .users
  | .credentials _ => .credentials
  | .sessions _ => .sessions
  | .userMFA _ => .userMFA
  | .mfaRecoveryCodes _ => .mfaRecoveryCodes
  | .mfaLoginChallenges _ => .mfaLoginChallenges
  | .passwordResetChallenges _ => .passwordResetChallenges
  | .serviceAccounts _ => .serviceAccounts
  | .outboxEvents _ => .outboxEvents

def Op.writes : Op → List TableName
  | .register .. => [.users, .credentials, .outboxEvents]
  | .login .. => [.users, .sessions, .mfaLoginChallenges]
  | .refresh .. | .revokeTenantSessions .. | .issueTenantToken .. => [.sessions]
  | .logout .. | .revokeOwnSessionByID .. | .revokeSessionByID .. => [.sessions, .outboxEvents]
  | .changePassword .. => [.credentials, .sessions, .outboxEvents]
  | .updateUserStatus .. => [.users, .sessions, .outboxEvents]
  | .updateUserProfile .. => [.users, .outboxEvents]
  | .verifyMFAChallenge .. => [.mfaLoginChallenges, .userMFA, .mfaRecoveryCodes, .sessions]
  | .startMFASetup .. => [.userMFA, .mfaRecoveryCodes]
  | .confirmMFASetup .. | .disableMFA .. | .adminResetMFA .. =>
    [.userMFA, .mfaRecoveryCodes, .sessions, .outboxEvents]
  | .regenerateMFARecoveryCodes .. => [.userMFA, .mfaRecoveryCodes, .outboxEvents]
  | .issuePasswordReset .. => [.passwordResetChallenges]
  | .confirmPasswordReset .. => [.passwordResetChallenges, .credentials, .sessions, .outboxEvents]
  | .createServiceAccount .. | .rotateServiceAccountSecret .. | .updateServiceAccountStatus .. =>
    [.serviceAccounts, .outboxEvents]
  | .clean .. => [.sessions, .mfaLoginChallenges, .passwordResetChallenges]
  | _ => []

structure Frame (tables : List TableName) (s s' : Store) : Prop where
  users : .users ∉ tables → s'.users = s.users
  credentials : .credentials ∉ tables → s'.credentials = s.credentials
  sessions : .sessions ∉ tables → s'.sessions = s.sessions
  userMFA : .userMFA ∉ tables → s'.userMFA = s.userMFA
  mfaRecoveryCodes : .mfaRecoveryCodes ∉ tables → s'.mfaRecoveryCodes = s.mfaRecoveryCodes
  mfaLoginChallenges : .mfaLoginChallenges ∉ tables →
    s'.mfaLoginChallenges = s.mfaLoginChallenges
  passwordResetChallenges : .passwordResetChallenges ∉ tables →
    s'.passwordResetChallenges = s.passwordResetChallenges
  serviceAccounts : .serviceAccounts ∉ tables → s'.serviceAccounts = s.serviceAccounts
  outboxEvents : .outboxEvents ∉ tables → s'.outboxEvents = s.outboxEvents

namespace Frame

variable {tables : List TableName} {s s' s'' : Store}

theorem refl (tables : List TableName) (s : Store) : Frame tables s s := by
  constructor <;> exact fun _ => rfl

theorem trans (h : Frame tables s s') (h' : Frame tables s' s'') : Frame tables s s'' where
  users hn := (h'.users hn).trans (h.users hn)
  credentials hn := (h'.credentials hn).trans (h.credentials hn)
  sessions hn := (h'.sessions hn).trans (h.sessions hn)
  userMFA hn := (h'.userMFA hn).trans (h.userMFA hn)
  mfaRecoveryCodes hn := (h'.mfaRecoveryCodes hn).trans (h.mfaRecoveryCodes hn)
  mfaLoginChallenges hn := (h'.mfaLoginChallenges hn).trans (h.mfaLoginChallenges hn)
  passwordResetChallenges hn :=
    (h'.passwordResetChallenges hn).trans (h.passwordResetChallenges hn)
  serviceAccounts hn := (h'.serviceAccounts hn).trans (h.serviceAccounts hn)
  outboxEvents hn := (h'.outboxEvents hn).trans (h.outboxEvents hn)

theorem of_exec {lower : String → String} {q : Stmt} {n : Nat} (hq : q.table ∈ tables)
    (h : s.exec lower q = some (n, s')) : Frame tables s s' := by
  cases q with
  | users q =>
    obtain ⟨t, -, -, rfl⟩ := Store.exec_users.1 h
    exact { refl tables s with users := fun hn => absurd hq hn }
  | credentials q =>
    obtain ⟨t, -, rfl⟩ := Store.exec_credentials.1 h
    exact { refl tables s with credentials := fun hn => absurd hq hn }
  | sessions q =>
    obtain ⟨t, -, rfl⟩ := Store.exec_sessions.1 h
    exact { refl tables s with sessions := fun hn => absurd hq hn }
  | userMFA q =>
    obtain ⟨t, -, rfl⟩ := Store.exec_userMFA.1 h
    exact { refl tables s with userMFA := fun hn => absurd hq hn }
  | mfaRecoveryCodes q =>
    obtain ⟨t, -, rfl⟩ := Store.exec_mfaRecoveryCodes.1 h
    exact { refl tables s with mfaRecoveryCodes := fun hn => absurd hq hn }
  | mfaLoginChallenges q =>
    obtain ⟨t, -, rfl⟩ := Store.exec_mfaLoginChallenges.1 h
    exact { refl tables s with mfaLoginChallenges := fun hn => absurd hq hn }
  | passwordResetChallenges q =>
    obtain ⟨t, -, rfl⟩ := Store.exec_passwordResetChallenges.1 h
    exact { refl tables s with passwordResetChallenges := fun hn => absurd hq hn }
  | serviceAccounts q =>
    obtain ⟨t, -, rfl⟩ := Store.exec_serviceAccounts.1 h
    exact { refl tables s with serviceAccounts := fun hn => absurd hq hn }
  | outboxEvents q =>
    obtain ⟨t, -, rfl⟩ := Store.exec_outboxEvents.1 h
    exact { refl tables s with outboxEvents := fun hn => absurd hq hn }

end Frame

instance : Versioned User := ⟨User.id, fun r => r.version, by simp [Constrained.clash]⟩
instance : Versioned Credential :=
  ⟨Credential.id, fun r => r.version, by simp +contextual [Constrained.clash]⟩
instance : Versioned Session :=
  ⟨Session.id, fun r => r.version, by simp +contextual [Constrained.clash]⟩
instance : Versioned MFAEnrollment :=
  ⟨MFAEnrollment.userID, fun r => r.version, by simp [Constrained.clash]⟩
instance : Versioned MFARecoveryCode :=
  ⟨MFARecoveryCode.id, fun r => r.version, by simp +contextual [Constrained.clash]⟩
instance : Versioned MFALoginChallenge :=
  ⟨MFALoginChallenge.tokenHash, fun r => r.version, by simp [Constrained.clash]⟩
instance : Versioned PasswordResetChallenge :=
  ⟨PasswordResetChallenge.tokenHash, fun r => r.version, by simp [Constrained.clash]⟩
instance : Versioned ServiceAccount :=
  ⟨ServiceAccount.id, fun r => r.version, by simp +contextual [Constrained.clash]⟩

def Stmt.Bumps : Stmt → Prop
  | .users q => q.Bumps
  | .credentials q => q.Bumps
  | .sessions q => q.Bumps
  | .userMFA q => q.Bumps
  | .mfaRecoveryCodes q => q.Bumps
  | .mfaLoginChallenges q => q.Bumps
  | .passwordResetChallenges q => q.Bumps
  | .serviceAccounts q => q.Bumps
  | .outboxEvents q => ∀ u, q ≠ .update u

def Stmt.Keeps : Stmt → Prop
  | .users q => q.KeepsRows
  | .credentials q => q.KeepsRows
  | .userMFA q => q.KeepsRows
  | .serviceAccounts q => q.KeepsRows
  | _ => True

inductive Tx.Every (P : Stmt → Prop) {α : Type} : Tx α → Prop
  | ret (a : α) : Every P (.ret a)
  | fail (e : RepositoryError) : Every P (.fail e)
  | call {q k} : P q → (∀ r, Every P (k r)) → Every P (.call q k)

namespace Tx.Every

variable {P P' : Stmt → Prop} {α β : Type}

theorem bind {p : Tx α} {f : α → Tx β} (hp : Every P p) (hf : ∀ a, Every P (f a)) :
    Every P (p >>= f) := by
  induction hp with
  | ret a => exact hf a
  | fail e => exact .fail e
  | call hq _ ih => exact .call hq ih

theorem mono (h : ∀ q, P q → P' q) {p : Tx α} (hp : Every P p) : Every P' p := by
  induction hp with
  | ret a => exact .ret a
  | fail e => exact .fail e
  | call hq _ ih => exact .call (h _ hq) ih

theorem exec {q : Stmt} {d : RepositoryError} (hq : P q) : Every P (Tx.exec q d) := by
  refine .call hq fun r => ?_
  cases r with
  | none => exact .fail d
  | some n => exact .ret n

theorem plain {q : Stmt} {d : RepositoryError} (hq : P q) : Every P (Repository.plain q d) :=
  (exec hq).bind fun _ => .ret ()

theorem guarded {q : Stmt} {d : RepositoryError} (hq : P q) : Every P (Repository.guarded q d) := by
  refine (exec hq).bind fun n => ?_
  unfold Repository.requireAffected Program.reject
  split
  · exact .fail _
  · exact .ret ()

theorem replaceRecoveryCodes_of_mem (hdelete : ∀ D, P (.mfaRecoveryCodes (.delete D)))
    (codes : List MFARecoveryCode)
    (hinsert : ∀ code ∈ codes, P (.mfaRecoveryCodes (.insert { code with consumedAt := none }))) :
    Every P (Repository.replaceRecoveryCodes codes) := by
  have hcodes : Every P (Repository.insertRecoveryCodes codes) := by
    induction codes with
    | nil => exact .ret ()
    | cons code codes ih =>
      have htail := ih fun _ h => hinsert _ (.tail _ h)
      exact (plain (hinsert _ (.head _))).bind fun _ => htail
  cases codes with
  | nil => exact .fail _
  | cons code codes => exact (plain (hdelete _)).bind fun _ => hcodes

theorem replaceRecoveryCodes (hdelete : ∀ D, P (.mfaRecoveryCodes (.delete D)))
    (hinsert : ∀ code, P (.mfaRecoveryCodes (.insert code))) (codes : List MFARecoveryCode) :
    Every P (Repository.replaceRecoveryCodes codes) :=
  replaceRecoveryCodes_of_mem hdelete codes fun _ _ => hinsert _

theorem relate {Rel : Store → Store → Prop} {lower : String → String} (hrefl : ∀ s, Rel s s)
    (htrans : ∀ s s' s'', Rel s s' → Rel s' s'' → Rel s s'')
    (hexec : ∀ q n s s', P q → s.exec lower q = some (n, s') → Rel s s') {p : Tx α}
    (h : Every P p) {s s' : Store} {a : α} (hrun : p.run lower s = .ok (a, s')) : Rel s s' := by
  induction h generalizing s with
  | ret b =>
    cases hrun
    exact hrefl _
  | fail e => cases hrun
  | @call q k hq _ ih =>
    have hrun : Tx.run lower (k (handle lower q s).1) (handle lower q s).2 = .ok (a, s') := hrun
    unfold handle at hrun
    split at hrun
    · rename_i n s1 h1
      exact htrans _ _ _ (hexec q n s s1 hq h1) (ih _ hrun)
    · exact ih _ hrun

end Tx.Every

open Tx.Every in
theorem Commit.every {svc : Service} {op : Op} {acts : List Act} {body : Tx Nat} {n : Nat}
    {next : Prog Reply} (h : Commit svc op acts body n next) :
    body.Every (fun q => q.table ∈ op.writes ∧ q.Bumps ∧ q.Keeps) := by
  cases h with
  | verifyMFAChallenge =>
    refine (guarded ⟨by simp [Op.writes, Stmt.table], fun _ => ⟨rfl, rfl⟩, trivial⟩).bind
      fun _ => bind ?_ fun _ => (plain ⟨by simp [Op.writes, Stmt.table], trivial,
        trivial⟩).bind fun _ => .ret _
    unfold Service.spendFactor
    split <;>
      exact guarded ⟨by simp [Op.writes, Stmt.table], fun _ => ⟨rfl, rfl⟩, trivial⟩
  | @startMFASetup _ _ _ _ _ _ _ _ _ _ current =>
    cases current with
    | none =>
      exact (plain ⟨by simp [Op.writes, Stmt.table], trivial, trivial⟩).bind
        fun _ => .ret _
    | some e =>
      exact (guarded ⟨by simp [Op.writes, Stmt.table], fun _ => ⟨rfl, rfl⟩,
        trivial⟩).bind fun _ =>
        (plain ⟨by simp [Op.writes, Stmt.table], trivial, trivial⟩).bind fun _ => .ret _
  | _ =>
    -- Statement by statement.
    repeat' first
      | exact .ret _
      | exact plain ⟨by simp [Op.writes, Stmt.table], by
          first | trivial | exact fun _ => ⟨rfl, rfl⟩ | exact fun _ => nofun, trivial⟩
      | exact guarded ⟨by simp [Op.writes, Stmt.table], fun _ => ⟨rfl, rfl⟩, trivial⟩
      | exact exec ⟨by simp [Op.writes, Stmt.table], by first | trivial | exact fun _ => ⟨rfl, rfl⟩,
          trivial⟩
      | exact replaceRecoveryCodes (fun _ => ⟨by simp [Op.writes, Stmt.table], trivial, trivial⟩)
          (fun _ => ⟨by simp [Op.writes, Stmt.table], trivial, trivial⟩) _
      | split
      | refine bind ?_ fun _ => ?_

theorem Commit.frame {svc : Service} {op : Op} {acts : List Act} {body : Tx Nat} {n : Nat}
    {next : Prog Reply} {s s' : Store} (h : Commit svc op acts body n next)
    (hrun : body.run svc.lower s = .ok (n, s')) : Frame op.writes s s' :=
  h.every.relate (Frame.refl _) (fun _ _ _ => Frame.trans)
    (fun _ _ _ _ hq => Frame.of_exec hq.1) hrun

def Op.commitsLast : Op → Bool
  | .login .. | .updateUserStatus .. | .updateUserProfile .. | .revokeOwnSessionByID ..
  | .revokeSessionByID .. | .clean .. => false
  | op => op.writes ≠ []

theorem Op.commitsLast_of_writes {op : Op}
    (h : .credentials ∈ op.writes ∨ .userMFA ∈ op.writes) : op.commitsLast = true := by
  cases op <;> simp [Op.writes] at h <;> rfl

theorem Commit.ends {svc : Service} {op : Op} {acts : List Act} {body : Tx Nat} {n : Nat}
    {next : Prog Reply} (h : Commit svc op acts body n next) (hlast : op.commitsLast = true) :
    ∃ reply, next = .ret reply := by
  cases h with
  | loginFailed | loginVerified | loginChallenge | loginSession | updateUserStatus
  | updateUserProfile | revokeOwnSessionByID | revokeSessionByID | cleanSessions
  | cleanMFAChallenges | cleanPasswordResetChallenges =>
    cases hlast
  | _ => exact ⟨_, rfl⟩

end IdentityService
