import IdentityService.Sessions.Acceptance

/-! What a committed transaction does to the `sessions` table. -/

namespace IdentityService

open Lib

/-- `SessionChange svc op acts granted rows rows'`: after `acts`, `op` turns `rows` into `rows'`
and answers with the tokens `granted`, if any. -/
inductive SessionChange (svc : Service) (op : Op) (acts : List Act) :
    Option Tokens → List Session → List Session → Prop
  | keep {rows} : SessionChange svc op acts none rows rows
  | create {rows} (d : Draft) (actor userID : String) (client : SessionClient) (rest : List Act)
      (hacts : acts = d.acts svc userID ++ rest) :
      SessionChange svc op acts (some (d.tokens svc)) rows
        (rows ++ [d.session svc actor userID client])
  | rotate {rows} (token access rawRefresh : String) (now expiresAt : Time) (session : Session)
      (hop : op = .refresh token) (hacts : Act.drew .refreshToken rawRefresh ∈ acts)
      (hmatch : ∃ r ∈ rows, r.id = session.id ∧ r.refreshTokenHash = svc.hashRefreshToken token ∧
        r.revokedAt = none ∧ r.version = session.version) :
      SessionChange svc op acts (some ⟨access, rawRefresh, "Bearer", expiresAt, session.id⟩) rows
        (rows.map (Repository.rotateUpdate (svc.rotated session rawRefresh now)
          (svc.hashRefreshToken token)).apply)
  | scope {rows} (ctx : Context) (userID tenantID membershipID sessionID actor : String)
      (now : Time) (hop : op = .issueTenantToken ctx userID tenantID membershipID sessionID) :
      SessionChange svc op acts none rows (rows.map (Repository.scopeUpdate
        (Go.trimSpace sessionID) (Go.trimSpace userID) (Go.trimSpace tenantID)
        (Go.trimSpace membershipID) actor now).apply)
  | revoke {rows} (extra : Session → Bool) (reason actor : String) (now : Time)
      (hacts : Act.clock now ∈ acts) :
      SessionChange svc op acts none rows
        (rows.map (Repository.revokeUpdate extra reason actor now).apply)
  | clean {rows} (cleaner : SessionCleaner) (fuel : Nat) (spared : Session → Bool)
      (hop : op = .clean cleaner fuel) :
      SessionChange svc op acts none rows (rows.filter spared)

theorem codes_ne_nil {rows : List MFARecoveryCode}
    (h : rows.length = MFACrypto.recoveryCodeCount) : rows ≠ [] := by
  intro hnil
  subst hnil
  cases h

theorem unrevoked_of_revoke {rows : List Session} {extra : Session → Bool} {reason actor : String}
    {now : Time} {r : Session}
    (hr : r ∈ rows.map (Repository.revokeUpdate extra reason actor now).apply)
    (hrev : r.revokedAt = none) : extra r = false := by
  rw [Update.mem_map_apply] at hr
  obtain ⟨-, hskip⟩ | ⟨old, -, -, rfl⟩ := hr
  · rw [← Bool.not_eq_true, Repository.revokeUpdate_guard] at hskip
    rw [← Bool.not_eq_true]
    exact fun hextra => hskip ⟨hextra, hrev⟩
  · simp at hrev

theorem Commit.sessionChange {svc : Service} {op : Op} {acts : List Act} {body : Tx Nat} {n : Nat}
    {next : Prog Reply} {s s' : Store} (h : Commit svc op acts body n next)
    (hrun : body.run svc.lower s = .ok (n, s'))
    (hclean : ∀ cleaner fuel, op = .clean cleaner fuel → issued next.outcome = none) :
    SessionChange svc op acts (issued next.outcome) s.sessions.rows s'.sessions.rows := by
  have hframe := h.frame hrun
  cases h with
  | loginSession =>
    simp at hrun
    obtain ⟨⟨t, ht, rfl⟩, -⟩ := hrun
    rw [ht]
    exact .create _ _ _ _ _ rfl
  | verifyMFAChallenge =>
    simp [Service.spendFactor] at hrun
    obtain ⟨_, -, s1, hs1, ⟨t, ht, rfl⟩, -⟩ := hrun
    have hs : s1.sessions = s.sessions := by grind
    rw [ht, hs]
    exact .create _ _ _ _ _ rfl
  | refresh =>
    simp at hrun
    obtain ⟨⟨⟨t, ht, rfl⟩, hmatch⟩, -⟩ := hrun
    rw [ht]
    exact .rotate _ _ _ _ _ _ rfl (by simp) hmatch
  | issueTenantToken =>
    simp at hrun
    obtain ⟨⟨⟨t, ht, rfl⟩, -⟩, -⟩ := hrun
    rw [ht]
    exact .scope _ _ _ _ _ _ _ rfl
  | logout | revokeOwnSessionByID | revokeSessionByID =>
    simp at hrun
    obtain ⟨t, ⟨ht, -⟩, ⟨_, -, rfl⟩, -⟩ := hrun
    rw [ht]
    exact .revoke _ _ _ _ (by simp)
  | revokeTenantSessions =>
    simp at hrun
    obtain ⟨t, ⟨-, ht⟩, rfl⟩ := hrun
    rw [ht]
    exact .revoke _ _ _ _ (by simp)
  | changePassword =>
    simp at hrun
    obtain ⟨_, -, t, ht, ⟨_, -, rfl⟩, -⟩ := hrun
    rw [ht]
    exact .revoke _ _ _ _ (by simp)
  | updateUserStatus =>
    simp at hrun
    obtain ⟨_, -, ⟨-, ⟨_, -, rfl⟩, -⟩ | ⟨-, t, ht, ⟨_, -, rfl⟩, -⟩⟩ := hrun
    · exact .keep
    · rw [ht]
      exact .revoke _ _ _ _ (by simp)
  | confirmMFASetup _ _ _ _ _ _ hrows hcodes =>
    simp [Repository.run_replaceRecoveryCodes (codes_ne_nil hrows) hcodes] at hrun
    obtain ⟨_, -, _, -, t, ht, ⟨_, -, rfl⟩, -⟩ := hrun
    rw [ht]
    exact .revoke _ _ _ _ (by simp)
  | disableMFA =>
    simp at hrun
    obtain ⟨_, -, _, -, t, ht, ⟨_, -, rfl⟩, -⟩ := hrun
    rw [ht]
    exact .revoke _ _ _ _ (by simp)
  | adminResetMFA =>
    simp at hrun
    obtain ⟨_, -, _, -, t, ht, ⟨_, -, rfl⟩, -⟩ := hrun
    rw [ht]
    exact .revoke _ _ _ _ (by simp)
  | confirmPasswordReset =>
    simp at hrun
    obtain ⟨_, -, _, -, t, ht, ⟨_, -, rfl⟩, -⟩ := hrun
    rw [ht]
    exact .revoke _ _ _ _ (by simp)
  | cleanSessions =>
    simp at hrun
    obtain ⟨t, ⟨-, ht⟩, rfl⟩ := hrun
    rw [ht, hclean _ _ rfl]
    exact .clean _ _ _ rfl
  | cleanMFAChallenges | cleanPasswordResetChallenges =>
    simp at hrun
    obtain ⟨_, -, rfl⟩ := hrun
    rw [hclean _ _ rfl]
    exact .keep
  | loginFailed | loginVerified =>
    simp at hrun
    obtain ⟨⟨_, -, -, rfl⟩, -⟩ := hrun
    exact .keep
  | loginChallenge =>
    simp at hrun
    obtain ⟨⟨_, -, rfl⟩, -⟩ := hrun
    exact .keep
  | _ =>
    rw [hframe.sessions (by simp [Op.writes])]
    exact .keep

theorem Commit.refresh_inv {svc : Service} {token : String} {acts : List Act} {body : Tx Nat}
    {n : Nat} {next : Prog Reply} {s s' : Store} (h : Commit svc (.refresh token) acts body n next)
    (hrun : body.run svc.lower s = .ok (n, s')) :
    ∃ (session : Session) (user : User) (g : Grant) (rawRefresh : String) (checkedAt now : Time),
      acts = g.acts svc user.id "user" session.id session.tenantID session.membershipID ++
        [.clock now, .drew .refreshToken rawRefresh, .read (.getUser session.userID) user,
          .clock checkedAt,
          .read (.sessionByRefreshHash (svc.hashRefreshToken token)) session] ∧
      next = .ret (.tokens ⟨g.access, rawRefresh, "Bearer", g.expiresAt svc, session.id⟩) ∧
      session.revokedAt = none ∧ checkedAt < session.expiresAt ∧ user.status = .active ∧
      (∃ r ∈ s.sessions.rows, r.id = session.id ∧
        r.refreshTokenHash = svc.hashRefreshToken token ∧ r.revokedAt = none ∧
        r.version = session.version) ∧
      s'.sessions.rows = s.sessions.rows.map (Repository.rotateUpdate
        (svc.rotated session rawRefresh now) (svc.hashRefreshToken token)).apply := by
  cases h with
  | @refresh _ checkedAt rawRefresh now _ session user g _ hrevoked hexpires hactive =>
    simp at hrun
    obtain ⟨⟨⟨t, ht, rfl⟩, hmatch⟩, -⟩ := hrun
    exact ⟨session, user, g, rawRefresh, checkedAt, now, rfl, rfl, hrevoked, hexpires, hactive,
      hmatch, ht⟩

theorem session_eq_of_id {t : Table Session} {r r' : Session} (hr : r ∈ t.rows) (hr' : r' ∈ t.rows)
    (hid : r.id = r'.id) : r = r' :=
  Table.eq_of_clash hr hr' (by simp [Constrained.clash, hid])

theorem id_ne_of_append {t : Table Session} {rows : List Session} {r : Session}
    (h : t.rows = rows ++ [r]) : ∀ old ∈ rows, old.id ≠ r.id := by
  intro old hold hid
  have hclash := (List.pairwise_append.1 (h ▸ t.distinct)).2.2 old hold r
      (List.mem_singleton_self r)
  simp [Constrained.clash, hid] at hclash

structure Session.Evolves (r r' : Session) : Prop where
  id : r'.id = r.id
  userID : r'.userID = r.userID
  expiresAt : r'.expiresAt = r.expiresAt
  final : r.revokedAt ≠ none → r' = r

namespace Session.Evolves

theorem unrevoked {r r' : Session} (h : r.Evolves r') (hrev : r'.revokedAt = none) :
    r.revokedAt = none := by
  by_contra hne
  exact hne (h.final hne ▸ hrev)

theorem refl (r : Session) : r.Evolves r := ⟨rfl, rfl, rfl, fun _ => rfl⟩

theorem apply {u : Update Session} (hguard : ∀ r, u.guard r = true → r.revokedAt = none)
    (hassign : ∀ r, (u.assign r).id = r.id ∧ (u.assign r).userID = r.userID ∧
      (u.assign r).expiresAt = r.expiresAt) (r : Session) : r.Evolves (u.apply r) := by
  unfold Update.apply
  by_cases hg : u.guard r = true
  · rw [if_pos hg]
    have h := hassign r
    exact ⟨h.1, h.2.1, h.2.2, fun hr => absurd (hguard r hg) hr⟩
  · rw [if_neg hg]
    exact refl r

theorem rotate (session : Session) (hash : String) (r : Session) :
    r.Evolves ((Repository.rotateUpdate session hash).apply r) :=
  apply (by grind [Repository.rotateUpdate_guard]) (by simp) r

theorem scope (id userID tenantID membershipID actor : String) (now : Time) (r : Session) :
    r.Evolves ((Repository.scopeUpdate id userID tenantID membershipID actor now).apply r) :=
  apply (by grind [Repository.scopeUpdate_guard]) (by simp) r

theorem revoke (extra : Session → Bool) (reason actor : String) (now : Time) (r : Session) :
    r.Evolves ((Repository.revokeUpdate extra reason actor now).apply r) :=
  apply (by grind [Repository.revokeUpdate_guard]) (by simp) r

end Session.Evolves

namespace SessionChange

variable {svc : Service} {op : Op} {acts : List Act} {granted : Option Tokens}
  {rows rows' : List Session} {r r' : Session}

theorem origin (h : SessionChange svc op acts granted rows rows') (hr' : r' ∈ rows') :
    (∃ r ∈ rows, r.Evolves r') ∨ ∃ (d : Draft) (actor userID : String) (client : SessionClient)
      (rest : List Act), acts = d.acts svc userID ++ rest ∧ granted = some (d.tokens svc) ∧
        r' = d.session svc actor userID client ∧ rows' = rows ++ [r'] := by
  cases h with
  | keep => exact .inl ⟨r', hr', .refl r'⟩
  | create d actor userID client rest hacts =>
    obtain hr' | hr' := List.mem_append.1 hr'
    · exact .inl ⟨r', hr', .refl r'⟩
    · have hr' := List.mem_singleton.1 hr'
      exact .inr ⟨d, actor, userID, client, rest, hacts, rfl, hr', hr' ▸ rfl⟩
  | rotate =>
    obtain ⟨r, hr, rfl⟩ := List.mem_map.1 hr'
    exact .inl ⟨r, hr, .rotate _ _ r⟩
  | scope =>
    obtain ⟨r, hr, rfl⟩ := List.mem_map.1 hr'
    exact .inl ⟨r, hr, .scope _ _ _ _ _ _ r⟩
  | revoke =>
    obtain ⟨r, hr, rfl⟩ := List.mem_map.1 hr'
    exact .inl ⟨r, hr, .revoke _ _ _ _ r⟩
  | clean => exact .inl ⟨r', (List.mem_filter.1 hr').1, .refl r'⟩

theorem fate (h : SessionChange svc op acts granted rows rows') (hr : r ∈ rows) :
    (∃ r' ∈ rows', r.Evolves r') ∨ ∃ cleaner fuel, op = .clean cleaner fuel := by
  cases h with
  | keep => exact .inl ⟨r, hr, .refl r⟩
  | create => exact .inl ⟨r, List.mem_append_left _ hr, .refl r⟩
  | rotate => exact .inl ⟨_, List.mem_map_of_mem hr, .rotate _ _ r⟩
  | scope => exact .inl ⟨_, List.mem_map_of_mem hr, .scope _ _ _ _ _ _ r⟩
  | revoke => exact .inl ⟨_, List.mem_map_of_mem hr, .revoke _ _ _ _ r⟩
  | clean cleaner fuel _ hop => exact .inr ⟨cleaner, fuel, hop⟩

end SessionChange

theorem sessionChange_of_step {svc : Service} {π : Policy} {w : World} {c d : Config} {ev : Event}
    {k : ev.call.Res → Prog Reply} {a : Answer} (h : svc.machine.Reach π w c)
    (hf : svc.machine.Fired c ev d k a) :
    SessionChange svc ev.request (c.actsOf ev.thread) (issued ev.outcome)
      c.state.store.sessions.rows d.state.store.sessions.rows := by
  by_cases hcom : ∃ body n, ev.act = Act.committed body n
  · obtain ⟨body, n, hact⟩ := hcom
    obtain ⟨next, hc⟩ := committed_of_act h hf hact
    rw [hc.outcome]
    exact hc.commit.sessionChange hc.run fun _ _ hop => hc.outcome ▸ clean_issued h hf hop
  · rw [store_eq_of_not_committed hf hcom, issued_eq_none h hf hcom]
    exact .keep

end IdentityService
