import IdentityService.Login.Password
import IdentityService.Users.Change

/-! Which changes of a transaction are announced in the outbox. -/

namespace IdentityService

open Lib Service

def User.profile (u : User) : Status × String × String × String :=
  (u.status, u.displayName, u.email, u.phone)

def Store.mfaEnabled (s : Store) (user : String) : Bool :=
  s.userMFA.rows.any (fun e => e.userID = user && e.status = .enabled)

def sessionsRevoked (s s' : Store) : List Session :=
  moved Session.id (fun r => r.revokedAt.isSome) s.sessions.rows s'.sessions.rows

/-- Whoever was registered, had the status or profile changed, got a password, had the second
factor enabled or disabled, is a service account that was written, or had a session revoked,
satisfies `P`; of a session its own identifier will do. -/
structure Concerns (P : String → Prop) (s s' : Store) : Prop where
  users : ∀ u' ∈ s'.users.rows,
    (∀ u ∈ s.users.rows, u.id = u'.id → u.profile ≠ u'.profile) → P u'.id
  credentials : ∀ r' ∈ s'.credentials.rows, r' ∉ s.credentials.rows → P r'.userID
  mfa : ∀ user, s'.mfaEnabled user ≠ s.mfaEnabled user → P user
  accounts : ∀ a' ∈ s'.serviceAccounts.rows, a' ∉ s.serviceAccounts.rows → P a'.id
  sessions : ∀ r ∈ sessionsRevoked s s', P r.id ∨ P r.userID

def Payload.about : Payload → String
  | .userCreated user => user.id
  | .userStatusChanged userID _ _ _ => userID
  | .userProfileUpdated user _ => user.id
  | .passwordChanged userID _ _ _ => userID
  | .sessionRevoked sessionID _ _ _ => sessionID
  | .mfaStatusChanged userID _ _ _ _ => userID
  | .serviceAccountStatusChanged id _ _ _ => id
  | .serviceAccountSecretRotated id _ => id

/-- Nothing of the kind happened, or exactly one event was inserted and says to whom it did. -/
def Published (s s' : Store) : Prop :=
  Concerns (fun _ => False) s s' ∨
  ∃ event, s'.outboxEvents.rows = s.outboxEvents.rows ++ [event] ∧
    event.payload.about = event.aggregateID ∧ Concerns (fun id => id = event.aggregateID) s s'

section Rules

variable {P : String → Prop} {s s' : Store}

theorem sessionsRevoked_of_sub (h : ∀ r ∈ s'.sessions.rows, r.revokedAt ≠ none →
    r ∈ s.sessions.rows) : sessionsRevoked s s' = [] := by
  refine moved_eq_nil (fun x hx y hy hxy => session_eq_of_id hx hy hxy) fun r hr hrev => ?_
  exact ⟨r, h r hr (Option.isSome_iff_ne_none.1 hrev), rfl, hrev⟩

theorem sessionsRevoked_of_append {r : Session} (hrows : s'.sessions.rows = s.sessions.rows ++ [r])
    (hr : r.revokedAt = none) : sessionsRevoked s s' = [] := by
  refine sessionsRevoked_of_sub fun r' hr' hrevoked => ?_
  rw [hrows, List.mem_append, List.mem_singleton] at hr'
  obtain hr' | rfl := hr'
  · exact hr'
  · exact absurd hr hrevoked

theorem sessionsRevoked_of_update {u : Update Session}
    (hrows : s'.sessions.rows = s.sessions.rows.map u.apply)
    (hguard : ∀ r, u.guard r = true → r.revokedAt = none)
    (hassign : ∀ r, (u.assign r).revokedAt = r.revokedAt) : sessionsRevoked s s' = [] := by
  refine sessionsRevoked_of_sub fun r' hr' hrevoked => ?_
  rw [hrows, Update.mem_map_apply] at hr'
  obtain ⟨hr, -⟩ | ⟨r, hr, hg, rfl⟩ := hr'
  · exact hr
  · exact absurd ((hassign r).trans (hguard r hg)) hrevoked

theorem Concerns.refl (P : String → Prop) (s : Store) : Concerns P s s where
  users u' hu' h := absurd rfl (h u' hu' rfl)
  credentials r' hr' h := absurd hr' h
  mfa user h := absurd rfl h
  accounts a' ha' h := absurd ha' h
  sessions r hr := by
    rw [sessionsRevoked_of_sub fun r hr _ => hr] at hr
    cases hr

theorem mem_sessionsRevoked {extra : Session → Bool} {reason actor : String} {now : Time}
    (hrows : s'.sessions.rows =
      s.sessions.rows.map (Repository.revokeUpdate extra reason actor now).apply)
    {r : Session} (hr : r ∈ sessionsRevoked s s') : extra r = true := by
  obtain ⟨hmem, hunrevoked, r', hr', hid, hrevoked⟩ := mem_moved.1 hr
  rw [hrows, Update.mem_map_apply] at hr'
  obtain ⟨hold, -⟩ | ⟨old, hold, hg, rfl⟩ := hr'
  · rw [session_eq_of_id hold hmem hid, hunrevoked] at hrevoked
    cases hrevoked
  · rw [← session_eq_of_id hold hmem hid]
    exact (Repository.revokeUpdate_guard.1 hg).1

theorem User.changed_of_update {u : Update User} {rows : List User}
    (hid : ∀ r, (u.assign r).id = r.id) {r' : User} (hr' : r' ∈ rows.map u.apply)
    (hdiff : ∀ r ∈ rows, r.id = r'.id → r.profile ≠ r'.profile) :
    ∃ r ∈ rows, u.guard r = true ∧ r' = u.assign r ∧ r.profile ≠ (u.assign r).profile := by
  rw [Update.mem_map_apply] at hr'
  obtain ⟨hr, -⟩ | ⟨r, hr, hg, rfl⟩ := hr'
  · exact absurd rfl (hdiff r' hr rfl)
  · exact ⟨r, hr, hg, rfl, hdiff r hr (hid r).symm⟩

theorem mfaEnabled_of_update {u : Update MFAEnrollment} {user : String}
    (hrows : s'.userMFA.rows = s.userMFA.rows.map u.apply)
    (hsame : ∀ e, u.guard e = true → (u.assign e).userID = e.userID ∧
      (e.userID = user → ((u.assign e).status = .enabled ↔ e.status = .enabled))) :
    s'.mfaEnabled user = s.mfaEnabled user := by
  rw [Store.mfaEnabled, hrows, List.any_map, Store.mfaEnabled]
  congr 1
  funext e
  simp only [Function.comp, Update.apply]
  split
  · rename_i hg
    obtain ⟨huser, hstatus⟩ := hsame e hg
    by_cases he : e.userID = user
    · simp [huser, he, hstatus he]
    · simp [huser, he]
  · rfl

end Rules

structure ReadsHold (acts : List Act) (s : Store) : Prop where
  user : ∀ id row, Act.read (.getUser id) row ∈ acts → User.id row = id
  username : ∀ id row, Act.read (.getUser id) row ∈ acts →
    ∀ u ∈ s.users.rows, u.id = id → u.username = User.username row
  account : ∀ id row, Act.read (.getServiceAccount id) row ∈ acts → ServiceAccount.id row = id
  session : ∀ id userID row, Act.read (.getSession id userID) row ∈ acts → Session.id row = id
  credential : ∀ userID row, Act.read (.passwordCredential userID) row ∈ acts →
    ∀ r ∈ s.credentials.rows, r.id = Credential.id row → r.userID = userID

section Commits

variable {svc : Service} {op : Op} {acts : List Act} {body : Tx Nat} {n : Nat} {next : Prog Reply}
  {s s' : Store}

theorem credential_of_password {user id hash actor : String} {version : Int}
    {now : Time} {t : Table Credential}
    (ht : t.rows =
      s.credentials.rows.map (Repository.passwordUpdate id hash actor version now).apply)
    (hread : ∀ r ∈ s.credentials.rows, r.id = id → r.userID = user) :
    ∀ r' ∈ t.rows, r' ∉ s.credentials.rows → r'.userID = user := by
  intro r' hr' hnew
  rw [ht, Update.mem_map_apply] at hr'
  obtain ⟨hr, -⟩ | ⟨r, hr, hg, rfl⟩ := hr'
  · exact absurd hr hnew
  · exact hread r hr (Repository.passwordUpdate_guard.1 hg).1

theorem sessions_of_user {user : String} {extra : Session → Bool} {reason actor : String}
    {now : Time} (hrows : s'.sessions.rows =
      s.sessions.rows.map (Repository.revokeUpdate extra reason actor now).apply)
    (hextra : ∀ r, extra r = true → r.userID = user) :
    ∀ r ∈ sessionsRevoked s s', r.id = user ∨ r.userID = user :=
  fun r hr => .inr (hextra r (mem_sessionsRevoked hrows hr))

theorem users_of_update {id : String} {u : Update User} {t : Table User}
    (ht : t.rows = s.users.rows.map u.apply) (hassign : ∀ r, (u.assign r).id = r.id)
    (hguard : ∀ r, u.guard r = true → r.id = id) :
    ∀ u' ∈ t.rows, (∀ r ∈ s.users.rows, r.id = u'.id → r.profile ≠ u'.profile) → u'.id = id := by
  intro u' hu' hdiff
  obtain ⟨r, -, hg, rfl, -⟩ := User.changed_of_update hassign (ht ▸ hu') hdiff
  exact (hassign r).trans (hguard r hg)

theorem mfa_of_update {id : String} {u : Update MFAEnrollment}
    (hrows : s'.userMFA.rows = s.userMFA.rows.map u.apply)
    (hassign : ∀ e, (u.assign e).userID = e.userID)
    (hguard : ∀ e, u.guard e = true → e.userID = id) :
    ∀ user, s'.mfaEnabled user ≠ s.mfaEnabled user → user = id := by
  intro user hne
  by_contra hother
  refine hne (mfaEnabled_of_update hrows fun e hg => ⟨hassign e, fun huser => ?_⟩)
  exact absurd (huser.symm.trans (hguard e hg)) hother

theorem accounts_of_update {id : String} {u : Update ServiceAccount} {t : Table ServiceAccount}
    (ht : t.rows = s.serviceAccounts.rows.map u.apply) (hassign : ∀ a, (u.assign a).id = a.id)
    (hguard : ∀ a, u.guard a = true → a.id = id) :
    ∀ a' ∈ t.rows, a' ∉ s.serviceAccounts.rows → a'.id = id := by
  intro a' ha' hnew
  rw [ht, Update.mem_map_apply] at ha'
  obtain ⟨ha, -⟩ | ⟨a, -, hg, rfl⟩ := ha'
  · exact absurd ha hnew
  · exact (hassign a).trans (hguard a hg)

theorem Commit.sessionsRevoked_tenant {ctx : Context} {userID tenantID reason : String}
    (h : Commit svc (.revokeTenantSessions ctx userID tenantID reason) acts body n next)
    (hrun : body.run svc.lower s = .ok (n, s')) :
    sessionsRevoked s s' ≠ [] ↔ ∃ r ∈ s.sessions.rows,
      r.userID = userID ∧ r.tenantID = tenantID ∧ r.revokedAt = none := by
  cases h
  simp at hrun
  obtain ⟨t, ⟨-, ht⟩, rfl⟩ := hrun
  constructor
  · intro hne
    obtain ⟨r, hr⟩ := List.exists_mem_of_ne_nil _ hne
    obtain ⟨hmem, hunrevoked, -⟩ := mem_moved.1 hr
    have hextra := mem_sessionsRevoked ht hr
    simp only [Bool.and_eq_true, decide_eq_true_eq] at hextra
    exact ⟨r, hmem, hextra.1, hextra.2, by simpa using hunrevoked⟩
  · rintro ⟨r, hr, rfl, rfl, hunrevoked⟩
    refine List.ne_nil_of_mem (mem_moved.2 ⟨hr, by simp [hunrevoked], ?_⟩)
    refine ⟨_, ht ▸ List.mem_map_of_mem hr, ?_⟩
    rw [Update.apply, if_pos (by simp [hunrevoked])]
    exact ⟨rfl, rfl⟩

theorem Commit.unannounced (h : Commit svc op acts body n next)
    (hrun : body.run svc.lower s = .ok (n, s')) (hop : .outboxEvents ∉ op.writes)
    (hrevoke : ∀ ctx userID tenantID reason, op = .revokeTenantSessions ctx userID tenantID reason →
      sessionsRevoked s s' = []) :
    Concerns (fun _ => False) s s' := by
  cases h with
  | loginFailed =>
    simp at hrun
    obtain ⟨⟨t, ht, -, rfl⟩, -⟩ := hrun
    refine { Concerns.refl (fun _ => False) s with users := fun u' hu' hdiff => ?_ }
    obtain ⟨u, hu, hg, -, hne⟩ := User.changed_of_update (fun _ => rfl) (ht ▸ hu') hdiff
    exact hne rfl
  | loginVerified =>
    simp at hrun
    obtain ⟨⟨t, ht, -, rfl⟩, -⟩ := hrun
    refine { Concerns.refl (fun _ => False) s with users := fun u' hu' hdiff => ?_ }
    obtain ⟨u, hu, hg, -, hne⟩ := User.changed_of_update (fun _ => rfl) (ht ▸ hu') hdiff
    exact hne rfl
  | loginChallenge =>
    simp at hrun
    obtain ⟨⟨t, -, rfl⟩, -⟩ := hrun
    exact { Concerns.refl (fun _ => False) s with }
  | loginSession =>
    simp at hrun
    obtain ⟨⟨t, ht, rfl⟩, -⟩ := hrun
    refine { Concerns.refl (fun _ => False) s with sessions := fun r hr => ?_ }
    rw [sessionsRevoked_of_append ht rfl] at hr
    cases hr
  | refresh =>
    simp at hrun
    obtain ⟨⟨⟨t, ht, rfl⟩, -⟩, -⟩ := hrun
    refine { Concerns.refl (fun _ => False) s with sessions := fun r hr => ?_ }
    rw [sessionsRevoked_of_update ht (fun r hg => (Repository.rotateUpdate_guard.1 hg).2.2.1)
      fun _ => rfl] at hr
    cases hr
  | issueTenantToken =>
    simp at hrun
    obtain ⟨⟨⟨t, ht, rfl⟩, -⟩, -⟩ := hrun
    refine { Concerns.refl (fun _ => False) s with sessions := fun r hr => ?_ }
    rw [sessionsRevoked_of_update ht (fun r hg => (Repository.scopeUpdate_guard.1 hg).2.2.1)
      fun _ => rfl] at hr
    cases hr
  | verifyMFAChallenge =>
    simp [spendFactor] at hrun
    obtain ⟨t, -, s1, hs1, ⟨t', ht', rfl⟩, -⟩ := hrun
    have hs : s1.sessions = s.sessions ∧ s1.users = s.users ∧ s1.credentials = s.credentials ∧
      s1.serviceAccounts = s.serviceAccounts := by grind
    have hmfa : ∀ user, s1.mfaEnabled user = s.mfaEnabled user := by
      intro user
      obtain ⟨-, ⟨t1, ht1, rfl⟩, -⟩ | ⟨-, ⟨t1, -, rfl⟩, -⟩ := hs1
      · exact mfaEnabled_of_update ht1 fun e _ => ⟨rfl, fun _ => Iff.rfl⟩
      · rfl
    constructor
    · exact fun u' hu' hdiff => hdiff u' (hs.2.1 ▸ hu') rfl rfl
    · exact fun r' hr' hnew => hnew (hs.2.2.1 ▸ hr')
    · exact fun user hne => hne (hmfa user)
    · exact fun a' ha' hnew => hnew (hs.2.2.2 ▸ ha')
    · intro r hr
      rw [sessionsRevoked_of_append (hs.1 ▸ ht') rfl] at hr
      cases hr
  | @startMFASetup _ _ _ _ _ _ _ _ _ _ current =>
    cases current with
    | none =>
      simp [storeSecret] at hrun
      obtain ⟨⟨t, ht, rfl⟩, -⟩ := hrun
      refine { Concerns.refl (fun _ => False) s with mfa := fun user hne => hne ?_ }
      simp [Store.mfaEnabled, ht]
    | some e =>
      simp [storeSecret] at hrun
      obtain ⟨t, ⟨ht, -⟩, ⟨t', -, rfl⟩, -⟩ := hrun
      refine { Concerns.refl (fun _ => False) s with mfa := fun user hne => hne ?_ }
      refine mfaEnabled_of_update ht fun e hg => ⟨rfl, fun _ => ?_⟩
      simp [(Repository.resetPendingUpdate_guard.1 hg).2.1]
  | issuePasswordReset =>
    simp at hrun
    obtain ⟨t, -, ⟨t', -, rfl⟩, -⟩ := hrun
    exact { Concerns.refl (fun _ => False) s with }
  | cleanSessions =>
    simp at hrun
    obtain ⟨t, ⟨-, ht⟩, rfl⟩ := hrun
    refine { Concerns.refl (fun _ => False) s with sessions := fun r hr => ?_ }
    rw [sessionsRevoked_of_sub fun r hr _ => List.mem_of_mem_filter (ht ▸ hr)] at hr
    cases hr
  | cleanMFAChallenges | cleanPasswordResetChallenges =>
    simp at hrun
    obtain ⟨t, -, rfl⟩ := hrun
    exact { Concerns.refl (fun _ => False) s with }
  | revokeTenantSessions =>
    have hnone := hrevoke _ _ _ _ rfl
    simp at hrun
    obtain ⟨t, -, rfl⟩ := hrun
    refine { Concerns.refl (fun _ => False) s with sessions := fun r hr => ?_ }
    rw [hnone] at hr
    cases hr
  | _ => exact absurd (by simp [Op.writes]) hop

theorem announced_of {event : OutboxEvent} {id : String} {payload : Payload}
    (hrows : s'.outboxEvents.rows = s.outboxEvents.rows ++ [event])
    (hevent : event.Describes id payload) (habout : payload.about = id)
    (hconcerns : Concerns (fun x => x = id) s s') :
    ∃ event, s'.outboxEvents.rows = s.outboxEvents.rows ++ [event] ∧
      event.payload.about = event.aggregateID ∧
        Concerns (fun id => id = event.aggregateID) s s' := by
  refine ⟨event, hrows, ?_, ?_⟩
  · rw [hevent.1, hevent.2, habout]
  · rw [hevent.1]
    exact hconcerns

theorem Commit.announced (h : Commit svc op acts body n next)
    (hrun : body.run svc.lower s = .ok (n, s')) (hreads : ReadsHold acts s)
    (hop : .outboxEvents ∈ op.writes) :
    ∃ event, s'.outboxEvents.rows = s.outboxEvents.rows ++ [event] ∧
      event.payload.about = event.aggregateID ∧
        Concerns (fun id => id = event.aggregateID) s s' := by
  cases h with
  | register huser hcredential hevent =>
    simp at hrun
    obtain ⟨t, ⟨ht, -⟩, t', ht', ⟨t'', ht'', rfl⟩, -⟩ := hrun
    refine announced_of ht'' hevent huser.1 { Concerns.refl (fun x => x = _) s with
      users := fun u' hu' hdiff => ?_, credentials := fun r' hr' hnew => ?_ }
    · rw [ht, List.mem_append, List.mem_singleton] at hu'
      obtain hu | rfl := hu'
      · exact absurd rfl (hdiff u' hu rfl)
      · exact huser.1
    · rw [ht', List.mem_append, List.mem_singleton] at hr'
      obtain hr | rfl := hr'
      · exact absurd hr hnew
      · exact hcredential.2.1
  | @logout sessionID _ _ _ actor session _ hevent =>
    simp at hrun
    obtain ⟨t, ⟨ht, -⟩, ⟨t', ht', rfl⟩, -⟩ := hrun
    refine announced_of ht' hevent rfl { Concerns.refl (fun x => x = _) s with
      sessions := fun r hr => .inl ?_ }
    have hextra := mem_sessionsRevoked ht hr
    have hid := hreads.session sessionID actor.id session (by simp)
    simp only [Bool.and_eq_true, decide_eq_true_eq] at hextra
    exact hextra.1.trans hid.symm
  | revokeOwnSessionByID hactor hevent =>
    simp at hrun
    obtain ⟨t, ⟨ht, -⟩, ⟨t', ht', rfl⟩, -⟩ := hrun
    refine announced_of ht' hevent rfl { Concerns.refl (fun x => x = _) s with
      sessions := fun r hr => .inl ?_ }
    have hextra := mem_sessionsRevoked ht hr
    simp only [Bool.and_eq_true, decide_eq_true_eq] at hextra
    exact hextra.1.1
  | revokeSessionByID hevent =>
    simp at hrun
    obtain ⟨t, ⟨ht, -⟩, ⟨t', ht', rfl⟩, -⟩ := hrun
    refine announced_of ht' hevent rfl { Concerns.refl (fun x => x = _) s with
      sessions := fun r hr => .inl ?_ }
    have hextra := mem_sessionsRevoked ht hr
    simp only [Bool.and_eq_true, decide_eq_true_eq] at hextra
    exact hextra.1
  | @changePassword _ _ _ _ _ _ actor credential _ hactor hactive hcurrent hnew hevent =>
    simp at hrun
    obtain ⟨t, ⟨ht, -⟩, t', ht', ⟨t'', ht'', rfl⟩, -⟩ := hrun
    refine announced_of ht'' (hevent _).2 rfl { Concerns.refl (fun x => x = _) s with
      credentials := credential_of_password ht
        (hreads.credential actor.id credential (by simp))
      sessions := sessions_of_user ht' fun r hr => ?_ }
    simp only [Bool.and_eq_true, decide_eq_true_eq] at hr
    exact hr.1.1
  | @confirmPasswordReset _ _ _ _ _ _ challenge _ credential _ _ _ _ _ _ hevent =>
    simp at hrun
    obtain ⟨t0, -, t, ⟨ht, -⟩, t', ht', ⟨t'', ht'', rfl⟩, -⟩ := hrun
    refine announced_of ht'' (hevent _).2 rfl { Concerns.refl (fun x => x = _) s with
      credentials := credential_of_password ht
        (hreads.credential challenge.userID credential (by simp))
      sessions := sessions_of_user ht' fun r hr => ?_ }
    simp only [Bool.and_eq_true, decide_eq_true_eq] at hr
    exact hr.1
  | updateUserStatus hstatus hevent =>
    simp at hrun
    obtain ⟨t, ⟨⟨ht, -⟩, -⟩, ⟨-, ⟨t', ht', rfl⟩, -⟩ | ⟨-, t1, ht1, ⟨t', ht', rfl⟩, -⟩⟩ := hrun
    · exact announced_of ht' hevent rfl { Concerns.refl (fun x => x = _) s with
        users := users_of_update ht (fun _ => rfl) fun u hg =>
          (Repository.statusUpdate_guard.1 hg).1 }
    · refine announced_of ht' hevent rfl { Concerns.refl (fun x => x = _) s with
        users := users_of_update ht (fun _ => rfl) fun u hg =>
          (Repository.statusUpdate_guard.1 hg).1
        sessions := sessions_of_user ht1 fun r hr => ?_ }
      simp only [Bool.and_eq_true, decide_eq_true_eq] at hr
      exact hr.1
  | @updateUserProfile id _ _ _ _ _ _ _ _ current _ hevent =>
    simp at hrun
    obtain ⟨t, ⟨⟨ht, -⟩, -⟩, ⟨t', ht', rfl⟩, -⟩ := hrun
    exact announced_of ht' hevent (hreads.user _ current (by simp))
      { Concerns.refl (fun x => x = _) s with
        users := users_of_update ht (fun _ => rfl) fun u hg =>
          (Repository.profileUpdate_guard.1 hg).1 }
  | confirmMFASetup _ _ _ _ _ _ hrows hcodes _ hevent =>
    simp [Repository.run_replaceRecoveryCodes (codes_ne_nil hrows) hcodes] at hrun
    obtain ⟨t, ⟨ht, -⟩, t1, -, t2, ht2, ⟨t', ht', rfl⟩, -⟩ := hrun
    refine announced_of ht' hevent rfl { Concerns.refl (fun x => x = _) s with
      mfa := mfa_of_update ht (fun _ => rfl) fun e hg => (Repository.enableUpdate_guard.1 hg).1
      sessions := sessions_of_user ht2 fun r hr => ?_ }
    simp only [Bool.and_eq_true, decide_eq_true_eq] at hr
    exact hr.1.1
  | disableMFA _ _ _ _ _ _ hevent =>
    simp at hrun
    obtain ⟨t, ⟨ht, -⟩, t1, -, t2, ht2, ⟨t', ht', rfl⟩, -⟩ := hrun
    refine announced_of ht' hevent rfl { Concerns.refl (fun x => x = _) s with
      mfa := mfa_of_update ht (fun _ => rfl) fun e hg => (Repository.disableUpdate_guard.1 hg).1
      sessions := sessions_of_user ht2 fun r hr => ?_ }
    simp only [Bool.and_eq_true, decide_eq_true_eq] at hr
    exact hr.1.1
  | adminResetMFA _ hevent =>
    simp at hrun
    obtain ⟨t, ⟨ht, -⟩, t1, -, t2, ht2, ⟨t', ht', rfl⟩, -⟩ := hrun
    refine announced_of ht' hevent rfl { Concerns.refl (fun x => x = _) s with
      mfa := mfa_of_update ht (fun _ => rfl) fun e hg => (Repository.adminResetUpdate_guard.1 hg).1
      sessions := sessions_of_user ht2 fun r hr => ?_ }
    simp only [Bool.and_eq_true, decide_eq_true_eq] at hr
    exact hr.1
  | regenerateMFARecoveryCodes _ _ _ _ _ _ _ hrows hcodes _ hevent =>
    simp [Repository.run_replaceRecoveryCodes (codes_ne_nil hrows) hcodes] at hrun
    obtain ⟨t, ⟨ht, -⟩, t1, -, ⟨t', ht', rfl⟩, -⟩ := hrun
    exact announced_of ht' hevent rfl { Concerns.refl (fun x => x = _) s with
      mfa := mfa_of_update ht (fun _ => rfl) fun e hg =>
        (Repository.advanceAtVersionUpdate_guard.1 hg).1 }
  | createServiceAccount haccount hevent =>
    simp at hrun
    obtain ⟨t, ht, ⟨t', ht', rfl⟩, -⟩ := hrun
    refine announced_of ht' hevent rfl { Concerns.refl (fun x => x = _) s with
      accounts := fun a' ha' hnew => ?_ }
    rw [ht, List.mem_append, List.mem_singleton] at ha'
    obtain ha | rfl := ha'
    · exact absurd ha hnew
    · exact haccount.1
  | rotateServiceAccountSecret hevent =>
    simp at hrun
    obtain ⟨t, ⟨ht, -⟩, ⟨t', ht', rfl⟩, -⟩ := hrun
    exact announced_of ht' hevent rfl { Concerns.refl (fun x => x = _) s with
      accounts := accounts_of_update ht (fun _ => rfl) fun a hg =>
        (Repository.accountSecretUpdate_guard.1 hg).1 }
  | updateServiceAccountStatus _ hevent =>
    simp at hrun
    obtain ⟨t, ⟨ht, -⟩, ⟨t', ht', rfl⟩, -⟩ := hrun
    exact announced_of ht' hevent rfl { Concerns.refl (fun x => x = _) s with
      accounts := accounts_of_update ht (fun _ => rfl) fun a hg =>
        (Repository.accountStatusUpdate_guard.1 hg).1 }
  | _ => simp [Op.writes] at hop

end Commits

section Steps

variable {svc : Service} {π : Policy} {w : World} {c d : Config} {ev : Event}
  {k : ev.call.Res → Prog Reply} {a : Answer}

theorem credential_owner (h : svc.machine.Reach π w c) (hd : svc.machine.Run π c d)
    {r r' : Credential} (hr : r ∈ c.state.store.credentials.rows)
    (hr' : r' ∈ d.state.store.credentials.rows) (hid : r'.id = r.id) : r'.userID = r.userID := by
  obtain ⟨x, hx, hxid, hxuser⟩ : ∃ x ∈ d.state.store.credentials.rows, x.id = r.id ∧
      x.userID = r.userID := by
    refine hd.invariant (I := fun d => ∃ x ∈ d.state.store.credentials.rows, x.id = r.id ∧
      x.userID = r.userID) ⟨r, hr, rfl, rfl⟩ (fun _ _ _ ih => ih) ?_
    rintro d ev d' k a hrun ⟨x, hx, hxid, hxuser⟩ hf -
    obtain ⟨x', hx', hid, huser, -⟩ := (credentialChange_of_step (h.trans hrun) hf).evolves hx
    exact ⟨x', hx', hid.trans hxid, huser.trans hxuser⟩
  rw [Table.eq_of_clash hr' hx (by simp [Constrained.clash, hid, hxid]), hxuser]

theorem readsHold (h : svc.machine.Reach π w c) (i : Nat) :
    ReadsHold (c.actsOf i) c.state.store := by
  constructor
  · intro id row hread
    obtain ⟨e, he, -, hact⟩ := Machine.Reach.mem_actsOf.1 hread
    simpa using (List.mem_filter.1 (read_select h he hact)).2
  · intro id row hread u hu hid
    obtain ⟨e, he, -, hact⟩ := Machine.Reach.mem_actsOf.1 hread
    have hselect := read_select h he hact
    obtain ⟨c0, c1, k, a, h0, hf, hp, h1⟩ := h.event_of_mem he
    rw [hf.before] at hselect
    obtain ⟨hmem, hsame⟩ := List.mem_filter.1 hselect
    simp only [decide_eq_true_eq] at hsame
    exact username_kept h0 ((Machine.Run.refl.fired hf hp).trans h1) hmem hu (hid.trans hsame.symm)
  · intro id row hread
    obtain ⟨e, he, -, hact⟩ := Machine.Reach.mem_actsOf.1 hread
    simpa using (List.mem_filter.1 (read_select h he hact)).2
  · intro id userID row hread
    obtain ⟨e, he, -, hact⟩ := Machine.Reach.mem_actsOf.1 hread
    have hsame := (List.mem_filter.1 (read_select h he hact)).2
    simp only [Bool.and_eq_true, decide_eq_true_eq] at hsame
    exact hsame.1
  · intro userID row hread r hr hid
    obtain ⟨e, he, -, hact⟩ := Machine.Reach.mem_actsOf.1 hread
    have hselect := read_select h he hact
    obtain ⟨c0, c1, k, a, h0, hf, hp, h1⟩ := h.event_of_mem he
    rw [hf.before] at hselect
    obtain ⟨hmem, hsame⟩ := List.mem_filter.1 hselect
    simp only [Bool.and_eq_true, decide_eq_true_eq] at hsame
    exact (credential_owner h0 ((Machine.Run.refl.fired hf hp).trans h1) hmem hr hid).trans hsame.1

theorem not_published {s s' : Store} (hrevoked : sessionsRevoked s s' ≠ [])
    (houtbox : s'.outboxEvents = s.outboxEvents) : ¬Published s s' := by
  rintro (hnone | ⟨event, hrows, -⟩)
  · obtain ⟨r, hr⟩ := List.exists_mem_of_ne_nil _ hrevoked
    exact (hnone.sessions r hr).elim id id
  · rw [houtbox] at hrows
    simpa using congrArg List.length hrows

end Steps

/-- A step announces the security relevant changes it makes exactly if it is not a
`RevokeTenantSessions` that commits while the user has an unrevoked session in the tenant; a step
that commits nothing announces nothing. -/
theorem security_changes_are_published (svc : Service) (w : World) (c : Config)
    (h : svc.machine.Reach .any w c) (ev : Event) (hev : ev ∈ c.history) :
    (Published ev.before.store ev.after.store ↔
      ¬∃ ctx userID tenantID reason, ev.request = .revokeTenantSessions ctx userID tenantID reason ∧
        (∃ body n, ev.act = Act.committed body n) ∧ ∃ r ∈ ev.before.store.sessions.rows,
          r.userID = userID ∧ r.tenantID = tenantID ∧ r.revokedAt = none) ∧
    ((¬∃ body n, ev.act = Act.committed body n) →
      ev.after.store.outboxEvents = ev.before.store.outboxEvents) := by
  obtain ⟨c0, c1, k, a, h0, hf, -, -⟩ := h.event_of_mem hev
  rw [hf.before, ← hf.state]
  refine ⟨⟨?_, fun hrevoke => ?_⟩, fun hcom => ?_⟩
  · rintro hpublished ⟨ctx, userID, tenantID, reason, hop, ⟨body, n, hact⟩, hopen⟩
    obtain ⟨next, hcom⟩ := committed_of_act h0 hf hact
    refine not_published ((hop ▸ hcom.commit).sessionsRevoked_tenant hcom.run |>.2 hopen) ?_
      hpublished
    exact (hcom.commit.frame hcom.run).outboxEvents (by simp [hop, Op.writes])
  · obtain ⟨body, n, next, hcom⟩ | hstore := committed_or_store_eq h0 hf
    · by_cases hwrites : .outboxEvents ∈ ev.request.writes
      · exact .inr (hcom.commit.announced hcom.run (readsHold h0 _) hwrites)
      · refine .inl (hcom.commit.unannounced hcom.run hwrites ?_)
        intro ctx userID tenantID reason hop
        by_contra hrevoked
        refine hrevoke ⟨ctx, userID, tenantID, reason, hop, ⟨body, n, hcom.act⟩, ?_⟩
        exact ((hop ▸ hcom.commit).sessionsRevoked_tenant hcom.run).1 hrevoked
    · rw [hstore]
      exact .inl (Concerns.refl _ _)
  · rw [store_eq_of_not_committed hf hcom]

def sample.leave : List (Choice Op Answer) :=
  [.start (.revokeTenantSessions sample.admin "u1" "" "left"), .step 2 (.time 50), .step 2 .done]

def Op.tenantRevoked : Op → Option (String × String)
  | .revokeTenantSessions _ userID tenantID _ => some (userID, tenantID)
  | _ => none

theorem tenant_revocation_unpublished : ∃ c : Config,
    (sample [] none).machine.Reach .any (start 0) c ∧
    ∃ ev ∈ c.history, Op.tenantRevoked ev.request = some ("u1", "") ∧
      (sessionsRevoked ev.before.store ev.after.store).map Session.id = ["s1"] ∧
      ev.after.store.outboxEvents.rows = ev.before.store.outboxEvents.rows ∧
      ¬Published ev.before.store ev.after.store := by
  obtain ⟨c, hc, ev, hev, hop, hrevoked, houtbox⟩ : ∃ c : Config,
      (sample [] none).machine.Reach .any (start 0) c ∧
      ∃ ev ∈ c.history, Op.tenantRevoked ev.request = some ("u1", "") ∧
        (sessionsRevoked ev.before.store ev.after.store).map Session.id = ["s1"] ∧
        ev.after.store.outboxEvents.rows = ev.before.store.outboxEvents.rows :=
    Machine.replay_exists (sample.signIn ++ sample.leave) (by decide +kernel)
  refine ⟨c, hc, ev, hev, hop, hrevoked, houtbox, not_published ?_ (Table.ext houtbox)⟩
  intro hnil
  rw [hnil] at hrevoked
  cases hrevoked

theorem security_changes_are_published_registered : ∃ c : Config,
    (sample [] none).machine.Reach .any (start 0) c ∧
    ∃ ev ∈ c.history, ev.before.store.users.rows = [] ∧
      ev.after.store.users.rows.map User.id = ["u1"] ∧
      ev.after.store.outboxEvents.rows.map OutboxEvent.aggregateID = ["u1"] ∧
      Published ev.before.store ev.after.store := by
  obtain ⟨c, hc, ev, hev, hbefore, hafter, houtbox, hop⟩ : ∃ c : Config,
      (sample [] none).machine.Reach .any (start 0) c ∧
      ∃ ev ∈ c.history, ev.before.store.users.rows = [] ∧
        ev.after.store.users.rows.map User.id = ["u1"] ∧
        ev.after.store.outboxEvents.rows.map OutboxEvent.aggregateID = ["u1"] ∧
        ev.request.writes = [.users, .credentials, .outboxEvents] :=
    Machine.replay_exists sample.signIn (by decide +kernel)
  refine ⟨c, hc, ev, hev, hbefore, hafter, houtbox,
    (security_changes_are_published _ _ c hc ev hev).1.2 ?_⟩
  rintro ⟨ctx, userID, tenantID, reason, hrequest, -⟩
  rw [hrequest] at hop
  cases hop

end IdentityService
