import IdentityService.Defs.System
import IdentityService.Defs.Transport
import IdentityService.Sessions.Change

/-! What a user can do to the rows of others through the requests that no authorization
decision protects. -/

namespace IdentityService

open Lib Service

structure OthersKept (a : String) (s s' : Store) : Prop where
  users : s'.users.rows.filter (fun r => r.id ≠ a) = s.users.rows.filter (fun r => r.id ≠ a)
  credentials : s'.credentials.rows.filter (fun r => r.userID ≠ a) =
    s.credentials.rows.filter (fun r => r.userID ≠ a)
  sessions : s'.sessions.rows.filter (fun r => r.userID ≠ a) =
    s.sessions.rows.filter (fun r => r.userID ≠ a)
  userMFA : s'.userMFA.rows.filter (fun r => r.userID ≠ a) =
    s.userMFA.rows.filter (fun r => r.userID ≠ a)
  mfaRecoveryCodes : s'.mfaRecoveryCodes.rows.filter (fun r => r.userID ≠ a) =
    s.mfaRecoveryCodes.rows.filter (fun r => r.userID ≠ a)
  mfaLoginChallenges : s'.mfaLoginChallenges.rows.filter (fun r => r.userID ≠ a) =
    s.mfaLoginChallenges.rows.filter (fun r => r.userID ≠ a)
  passwordResetChallenges : s'.passwordResetChallenges.rows.filter (fun r => r.userID ≠ a) =
    s.passwordResetChallenges.rows.filter (fun r => r.userID ≠ a)

namespace OthersKept

variable {a : String} {s s' s'' : Store}

theorem refl (a : String) (s : Store) : OthersKept a s s := ⟨rfl, rfl, rfl, rfl, rfl, rfl, rfl⟩

theorem trans (h : OthersKept a s s') (h' : OthersKept a s' s'') : OthersKept a s s'' where
  users := h'.users.trans h.users
  credentials := h'.credentials.trans h.credentials
  sessions := h'.sessions.trans h.sessions
  userMFA := h'.userMFA.trans h.userMFA
  mfaRecoveryCodes := h'.mfaRecoveryCodes.trans h.mfaRecoveryCodes
  mfaLoginChallenges := h'.mfaLoginChallenges.trans h.mfaLoginChallenges
  passwordResetChallenges := h'.passwordResetChallenges.trans h.passwordResetChallenges

end OthersKept

inductive SelfService (actor : Principal) : Op → Prop
  | logout (sessionID reason : String) : SelfService actor (.logout (some actor) sessionID reason)
  | changePassword (current new : String) :
      SelfService actor (.changePassword (some actor) current new)
  | mfaStatus : SelfService actor (.mfaStatus (some actor))
  | startMFASetup (password : String) : SelfService actor (.startMFASetup (some actor) password)
  | confirmMFASetup (code : String) (version : Int) :
      SelfService actor (.confirmMFASetup (some actor) code version)
  | regenerateMFARecoveryCodes (password code : String) (version : Int) :
      SelfService actor (.regenerateMFARecoveryCodes (some actor) password code version)
  | disableMFA (password code : String) (version : Int) :
      SelfService actor (.disableMFA (some actor) password code version)
  | listOwnSessions (status : String) (page pageSize : Int) :
      SelfService actor (.listOwnSessions (some actor) status page pageSize)
  | revokeOwnSessionByID (id reason : String) (version : Int) :
      SelfService actor (.revokeOwnSessionByID (some actor) id reason version)
  | getUser : SelfService actor (.getUser actor.id)
  | validateSession (id userID : String) : SelfService actor (.validateSession id userID)
  | issueTenantToken (userID tenantID membershipID sessionID : String) :
      SelfService actor (.issueTenantToken (some actor) userID tenantID membershipID sessionID)
  | getServiceAccount (id : String) : SelfService actor (.getServiceAccount id)

theorem selfService_of_call {actor : Principal} {request : Request} {op : Op}
    (hreq : request.unprotected = true) (hcall : request.call (some actor) = .ok (some op)) :
    SelfService actor op ∨ ∃ userID tenantID reason,
      request = .grpc (.revokeTenantSessions userID tenantID reason) ∧
      op = .revokeTenantSessions (some actor) userID tenantID reason := by
  cases request with
  | http request =>
    left
    simp only [Request.call, HTTPRequest.call] at hcall
    split at hcall
    · cases request with
      | me =>
        simp only [HTTPRequest.handle] at hcall
        split at hcall <;> cases hcall
        exact .getUser
      | logout | changePassword | mfaStatus | startMFASetup | confirmMFASetup
      | regenerateMFARecoveryCodes | disableMFA | listOwnSessions | revokeOwnSession =>
        cases hcall
        constructor
      | _ => simp [Request.unprotected, unprotectedRoute, HTTPRequest.path, skipHTTPPaths,
          identityHTTPRequirement, httpRequirements, List.lookup_cons] at hreq
    · cases hcall
  | grpc request =>
    cases hcall
    cases request with
    | revokeTenantSessions userID tenantID reason => exact .inr ⟨_, _, _, rfl, rfl⟩
    | validateSession | issueTenantToken | getServiceAccount =>
      left
      constructor
    | _ => cases hreq

section Frame

variable {svc : Service} {actor : Principal} {op : Op} {w : World} {c d : Config} {ev : Event}
  {k : ev.call.Res → Prog Reply} {x : Answer}

theorem revoke_kept {a : String} {rows : List Session} {extra : Session → Bool}
    {reason author : String} {now : Time} (h : ∀ r, extra r = true → r.userID = a) :
    (rows.map (Repository.revokeUpdate extra reason author now).apply).filter
      (fun r => r.userID ≠ a) = rows.filter (fun r => r.userID ≠ a) := by
  refine Update.filter_map_apply fun r _ hg => ?_
  have huser := h r (Repository.revokeUpdate_guard.1 hg).1
  simp [huser]

theorem enrollment_kept {a : String} {rows : List MFAEnrollment} {u : Update MFAEnrollment}
    (h : ∀ e, u.guard e = true → e.userID = a) (hassign : ∀ e, (u.assign e).userID = e.userID) :
    (rows.map u.apply).filter (fun r => r.userID ≠ a) = rows.filter (fun r => r.userID ≠ a) := by
  refine Update.filter_map_apply fun e _ hg => ?_
  simp [hassign, h e hg]

theorem codes_kept {a : String} {rows codes : List MFARecoveryCode}
    (h : ∀ code ∈ codes, code.userID = a) :
    (rows.filter (fun r => !decide (r.userID = a)) ++ codes).filter (fun r => r.userID ≠ a) =
      rows.filter (fun r => r.userID ≠ a) := by
  have hcodes : codes.filter (fun r => r.userID ≠ a) = [] := by simpa using h
  rw [List.filter_append, hcodes, List.append_nil, List.filter_filter]
  simp

theorem Commit.othersKept {acts : List Act} {body : Tx Nat} {n : Nat} {next : Prog Reply}
    {s s' : Store} (h : Commit svc op acts body n next) (hop : SelfService actor op)
    (hactor : actor.type = .user)
    (hown : (∀ body n, Act.committed body n ∉ acts) → ∀ credential : Credential,
      Act.read (.passwordCredential actor.id) credential ∈ acts →
        ∀ r ∈ s.credentials.rows, r.id = credential.id → r.userID = actor.id)
    (hrun : body.run svc.lower s = .ok (n, s')) : OthersKept actor.id s s' := by
  cases hop with
  | logout =>
    cases h with
    | logout =>
      simp at hrun
      obtain ⟨t, ⟨ht, -⟩, ⟨_, -, rfl⟩, -⟩ := hrun
      refine { OthersKept.refl _ s with sessions := ?_ }
      rw [ht]
      exact revoke_kept (by simp +contextual)
  | changePassword =>
    cases h with
    | @changePassword _ _ _ _ _ _ _ credential =>
      simp at hrun
      obtain ⟨t, ⟨ht, -⟩, t', ht', ⟨_, -, rfl⟩, -⟩ := hrun
      refine { OthersKept.refl _ s with credentials := ?_, sessions := ?_ }
      · rw [ht]
        refine Update.filter_map_apply fun r hr hg => ?_
        have huser :=
          hown (by simp) credential (by simp) r hr (Repository.passwordUpdate_guard.1 hg).1
        simp [huser]
      · rw [ht']
        exact revoke_kept (by simp +contextual)
  | startMFASetup =>
    cases h with
    | @startMFASetup _ _ _ _ _ _ _ _ _ _ current =>
      cases current <;> simp [Service.storeSecret] at hrun
      · obtain ⟨⟨t, ht, rfl⟩, -⟩ := hrun
        exact { OthersKept.refl _ s with userMFA := by simp [ht] }
      · obtain ⟨t, ⟨ht, -⟩, ⟨t', ht', rfl⟩, -⟩ := hrun
        refine { OthersKept.refl _ s with userMFA := ?_, mfaRecoveryCodes := ?_ }
        · rw [ht]
          exact enrollment_kept (by simp +contextual) (fun _ => rfl)
        · simp [ht', List.filter_filter]
  | confirmMFASetup =>
    cases h with
    | confirmMFASetup _ _ _ _ _ _ hrows hcodes =>
      simp [Repository.run_replaceRecoveryCodes (codes_ne_nil hrows) hcodes] at hrun
      obtain ⟨t, ⟨ht, -⟩, t', ht', t'', ht'', ⟨_, -, rfl⟩, -⟩ := hrun
      refine { OthersKept.refl _ s with sessions := ?_, userMFA := ?_, mfaRecoveryCodes := ?_ }
      · rw [ht'']
        exact revoke_kept (by simp +contextual)
      · rw [ht]
        exact enrollment_kept (by simp +contextual) (fun _ => rfl)
      · rw [ht']
        exact codes_kept fun code hcode => (hcodes code hcode).1
  | regenerateMFARecoveryCodes =>
    cases h with
    | regenerateMFARecoveryCodes _ _ _ _ _ _ _ hrows hcodes =>
      simp [Repository.run_replaceRecoveryCodes (codes_ne_nil hrows) hcodes] at hrun
      obtain ⟨t, ⟨ht, -⟩, t', ht', ⟨_, -, rfl⟩, -⟩ := hrun
      refine { OthersKept.refl _ s with userMFA := ?_, mfaRecoveryCodes := ?_ }
      · rw [ht]
        exact enrollment_kept (by simp +contextual) (fun _ => rfl)
      · rw [ht']
        exact codes_kept fun code hcode => (hcodes code hcode).1
  | disableMFA =>
    cases h with
    | disableMFA =>
      simp at hrun
      obtain ⟨t, ⟨ht, -⟩, t', ht', t'', ht'', ⟨_, -, rfl⟩, -⟩ := hrun
      refine { OthersKept.refl _ s with sessions := ?_, userMFA := ?_, mfaRecoveryCodes := ?_ }
      · rw [ht'']
        exact revoke_kept (by simp +contextual)
      · rw [ht]
        exact enrollment_kept (by simp +contextual) (fun _ => rfl)
      · simp [ht', List.filter_filter]
  | revokeOwnSessionByID =>
    cases h with
    | revokeOwnSessionByID =>
      simp at hrun
      obtain ⟨t, ⟨ht, -⟩, ⟨_, -, rfl⟩, -⟩ := hrun
      refine { OthersKept.refl _ s with sessions := ?_ }
      rw [ht]
      exact revoke_kept (by simp +contextual)
  | issueTenantToken =>
    cases h with
    | issueTenantToken htrusted =>
      rw [hactor] at htrusted
      simp at htrusted
  | _ => cases h

theorem uncommitted (h : svc.machine.Executes op w c)
    (hno : ∀ body n, Act.committed body n ∉ c.actsOf 0) :
    c.state.store = w.store ∧
      ∀ (q : Query) (row : q.Row), Act.read q row ∈ c.actsOf 0 →
        row ∈ w.store.select svc.lower q := by
  refine Machine.Run.invariant (I := fun c => (∀ body n, Act.committed body n ∉ c.actsOf 0) →
    c.state.store = w.store ∧ ∀ (q : Query) (row : q.Row), Act.read q row ∈ c.actsOf 0 →
      row ∈ w.store.select svc.lower q) h ?_ ?_ ?_ hno
  · intro _
    exact ⟨rfl, fun q row hrow => nomatch hrow⟩
  · intro d q _ ih
    exact ih
  · intro d ev d' k x hd ih hf _ hno
    have hacts := hf.actsOf_self
    rw [(Machine.Executes.fired hd hf).1] at hacts
    simp only [hacts, List.mem_cons, not_or] at hno ⊢
    obtain ⟨hstore, hreads⟩ := ih fun body n => (hno body n).2
    constructor
    · rw [store_eq_of_not_committed hf fun ⟨body, n, hact⟩ => (hno body n).1 hact.symm, hstore]
    · rintro q row (hrow | hrow)
      · have hperf := hf.performed
        rw [hf.before] at hperf
        obtain ⟨i, op, e, r, s, s', o⟩ := ev
        cases hrow
        rw [← hstore]
        exact (perform_query hperf).2.1 row rfl
      · exact hreads q row hrow

theorem othersKept_of_commits {user : String} (h : svc.machine.Executes op w c)
    (hcommit : ∀ d body n next s', svc.machine.Executes op w d →
      Commit svc op (d.actsOf 0) body n next → body.run svc.lower d.state.store = .ok (n, s') →
      OthersKept user d.state.store s') : OthersKept user w.store c.state.store := by
  refine Machine.Run.invariant (I := fun c => OthersKept user w.store c.state.store) h ?_ ?_ ?_
  · exact .refl _ _
  · intro d q _ ih
    exact ih
  · intro d ev d' k x hd ih hf _
    refine ih.trans ?_
    obtain ⟨body, n, next, hcom⟩ | hstore := committed_or_store_eq (Machine.Executes.reach hd) hf
    · obtain ⟨hth, hreq⟩ := Machine.Executes.fired hd hf
      exact hcommit d body n next _ hd (hth ▸ hreq ▸ hcom.commit) hcom.run
    · rw [hstore]
      exact .refl _ _

theorem SelfService.othersKept (hop : SelfService actor op) (hactor : actor.type = .user)
    (h : svc.machine.Executes op w c) : OthersKept actor.id w.store c.state.store := by
  refine othersKept_of_commits h fun d body n next s' hd hcommit hrun => ?_
  refine hcommit.othersKept hop hactor (fun hno credential hread r hr hid => ?_) hrun
  -- The credential read is still there, and its identifier is its own.
  obtain ⟨hstore, hreads⟩ := uncommitted hd hno
  have hread := List.mem_filter.1 (hreads _ _ hread)
  simp only [Bool.and_eq_true, decide_eq_true_eq] at hread
  rw [hstore] at hr
  have heq : r = credential := Table.eq_of_clash hr hread.1 (by simp [Constrained.clash, hid])
  rw [heq, hread.2.1]

variable {userID tenantID reason : String}

theorem revokeTenantSessions_othersKept
    (hnone : userID ≠ actor.id → ∀ r ∈ w.store.sessions.rows, r.userID = userID →
      r.tenantID = tenantID → r.revokedAt ≠ none)
    (h : svc.machine.Executes (.revokeTenantSessions (some actor) userID tenantID reason) w c) :
    OthersKept actor.id w.store c.state.store := by
  refine othersKept_of_commits h fun d body n next s' hd hcommit hrun => ?_
  generalize hacts : d.actsOf 0 = acts at hcommit
  cases hcommit with
  | revokeTenantSessions =>
    have hstore := (uncommitted hd (by simp [hacts])).1
    simp at hrun
    obtain ⟨t, ⟨-, ht⟩, rfl⟩ := hrun
    refine { OthersKept.refl _ d.state.store with sessions := ?_ }
    rw [ht]
    refine Update.filter_map_apply fun r hr hg => ?_
    simp only [Repository.revokeUpdate_guard, Bool.and_eq_true, decide_eq_true_eq] at hg
    obtain ⟨⟨huser, htenant⟩, hrev⟩ := hg
    have heq : userID = actor.id := by
      by_contra hne
      exact hnone hne r (hstore ▸ hr) huser htenant hrev
    simp [huser, heq]

theorem exists_revokeTenantSessions (svc : Service) (actor : Principal)
    (userID tenantID reason : String) (w : World) :
    ∃ c, svc.machine.Executes (.revokeTenantSessions (some actor) userID tenantID reason) w c ∧
      c.state.store.sessions.rows = w.store.sessions.rows.map (Repository.revokeUpdate
        (fun r => r.userID = userID && r.tenantID = tenantID) reason actor.id w.clock).apply := by
  obtain ⟨t, ht⟩ := Table.exists_map_apply (t := w.store.sessions) (u := Repository.revokeUpdate
    (fun r => r.userID = userID && r.tenantID = tenantID) reason actor.id w.clock) (by
      intro a b
      simp only [Update.apply]
      split <;> split <;> rfl)
  obtain ⟨n, hrun⟩ : ∃ n, (Repository.revokeTenantSessions userID tenantID reason actor.id
      w.clock).run svc.lower w.store = .ok (n, { w.store with sessions := t }) := by
    simp [ht]
  let body := Repository.revokeTenantSessions userID tenantID reason actor.id w.clock
  let op : Op := .revokeTenantSessions (some actor) userID tenantID reason
  obtain ⟨c, k, hc, hstate, hth⟩ : ∃ c k, svc.machine.Executes op w c ∧ c.state = w ∧
      c.threads[0]? = some ⟨op, .call (.within body) k⟩ :=
    ⟨_, _, .step 0 (.time w.clock) .refl rfl trivial, rfl, rfl⟩
  have hdone : svc.machine.perform c.state (.within body) .done =
      some (.ok n, ⟨{ w.store with sessions := t }, w.clock⟩) := by
    simp only [machine, Service.perform, hstate, body, hrun]
  obtain ⟨d, hd, hstate', -⟩ := hc.perform hth hdone
  exact ⟨d, hd, by rw [hstate', ht]⟩

end Frame

/-- A user's unprotected request leaves every row of other users as it was, unless it is a
`RevokeTenantSessions` that names another user with an unrevoked session in that tenant. -/
theorem self_service_touches_only_the_caller (svc : Service) (actor : Principal)
    (hactor : actor.type = .user) (w : World) (request : Request)
    (hreq : request.unprotected = true) :
    (∀ op c, request.call (some actor) = .ok (some op) → svc.machine.Executes op w c →
      OthersKept actor.id w.store c.state.store) ↔
    ¬∃ userID tenantID reason, request = .grpc (.revokeTenantSessions userID tenantID reason) ∧
      userID ≠ actor.id ∧ ∃ r ∈ w.store.sessions.rows,
        r.userID = userID ∧ r.tenantID = tenantID ∧ r.revokedAt = none := by
  constructor
  · rintro h ⟨userID, tenantID, reason, rfl, hne, r, hr, huser, htenant, hrev⟩
    obtain ⟨c, hc, hrows⟩ := exists_revokeTenantSessions svc actor userID tenantID reason w
    have hkept := (h _ c rfl hc).sessions
    have hmem : r ∈ c.state.store.sessions.rows.filter (fun r => r.userID ≠ actor.id) := by
      rw [hkept]
      simp [hr, huser, hne]
    have hmem := (List.mem_filter.1 hmem).1
    rw [hrows, Update.mem_map_apply] at hmem
    obtain ⟨-, hg⟩ | ⟨old, -, -, rfl⟩ := hmem
    · simp [← Bool.not_eq_true, huser, htenant, hrev] at hg
    · simp at hrev
  · intro hnone op c hcall hc
    obtain hop | ⟨userID, tenantID, reason, rfl, rfl⟩ := selfService_of_call hreq hcall
    · exact hop.othersKept hactor hc
    · refine revokeTenantSessions_othersKept (fun hne r hr huser htenant hrev => ?_) hc
      exact hnone ⟨userID, tenantID, reason, rfl, hne, r, hr, huser, htenant, hrev⟩

namespace sample

def mallory : Principal := ⟨"u1", .user, "", "", "s1"⟩

def twoSessions : World where
  store :=
    let row (id user : String) : Session :=
      ⟨⟨1, 0, 0, user, user⟩, id, user, id, "t1", "m1", 1000, none, "", 0, [], []⟩
    { Store.empty with sessions := ⟨[row "s1" "u1", row "s2" "u2"], by decide⟩ }
  clock := 0

end sample

/-- Any signed-in user may revoke the sessions of another user in a tenant. -/
theorem revokeTenantSessions_revokes_another_user :
    (Request.grpc (.revokeTenantSessions "u2" "t1" "mine")).unprotected = true ∧
    sample.mallory.id ≠ "u2" ∧ ∃ op c,
      (Request.grpc (.revokeTenantSessions "u2" "t1" "mine")).call (some sample.mallory) =
        .ok (some op) ∧
      (sample [] none).machine.Executes op sample.twoSessions c ∧
      ¬OthersKept sample.mallory.id sample.twoSessions.store c.state.store := by
  obtain ⟨c, hc, hrows⟩ : ∃ c, (sample [] none).machine.Executes
      (.revokeTenantSessions (some sample.mallory) "u2" "t1" "mine") sample.twoSessions c ∧
        c.state.store.sessions.rows.filter (fun r => r.userID ≠ "u1") ≠
          sample.twoSessions.store.sessions.rows.filter (fun r => r.userID ≠ "u1") :=
    Machine.replay_exists [.step 0 (.time 5), .step 0 .done] (by decide +kernel)
  exact ⟨rfl, by decide, _, c, rfl, hc, fun hkept => hrows hkept.sessions⟩

theorem self_service_touches_only_the_caller_logout : ∃ c,
    (sample [] none).machine.Executes (.logout (some sample.mallory) "s1" "") sample.twoSessions c ∧
      c.state.store.sessions.rows ≠ sample.twoSessions.store.sessions.rows ∧
      OthersKept "u1" sample.twoSessions.store c.state.store := by
  obtain ⟨c, hc, hrows⟩ : ∃ c, (sample [] none).machine.Executes
      (.logout (some sample.mallory) "s1" "") sample.twoSessions c ∧
        c.state.store.sessions.rows ≠ sample.twoSessions.store.sessions.rows :=
    Machine.replay_exists
      [.step 0 (.time 5), .step 0 (.row 0), .step 0 (.value "e1"), .step 0 .done]
        (by decide +kernel)
  refine ⟨c, hc, hrows, ?_⟩
  exact (self_service_touches_only_the_caller _ sample.mallory rfl _ (.http (.logout "s1" ""))
    (by decide +kernel)).2 (by simp) _ c rfl hc

end IdentityService
