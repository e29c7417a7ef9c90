import IdentityService.Sessions.Tenant

/-! The scope of the tokens that are returned, and the scope of their session. -/

namespace IdentityService

open Lib Service
open Lib.Program (outcome)

def Op.cleans : Op → Bool
  | .clean .. => true
  | _ => false

def Policy.uncleaned : Policy := .onEvents fun _ ev => ev.request.cleans = false

instance (c : Config) (q : Op) : Decidable (Policy.uncleaned.start c q) := .isTrue trivial

instance (c : Config) (ev : Event) : Decidable (Policy.uncleaned.event c ev) :=
  inferInstanceAs (Decidable (_ = _))

structure TokenClaims.Bound (claims : TokenClaims) (r : Session) : Prop where
  subject : claims.subject = r.userID
  sessionID : claims.sessionID = r.id
  tenantID : claims.tenantID = r.tenantID
  membershipID : claims.membershipID = r.membershipID

section Commits

variable {svc : Service} {op : Op} {acts : List Act} {body : Tx Nat} {n : Nat}
  {next : Prog Reply} {s s' : Store}

theorem SessionChange.continued {granted : Option Tokens} {rows rows' : List Session}
    (h : SessionChange svc op acts granted rows rows') (hop : op.cleans = false) {r : Session}
    (hr : r ∈ rows) : Continued r rows' := by
  cases h with
  | keep => exact .of_mem hr
  | create => exact .of_mem (List.mem_append_left _ hr)
  | rotate | scope | revoke => exact .of_map (fun _ => ⟨rfl, rfl⟩) hr
  | clean _ _ _ hclean =>
    rw [hclean] at hop
    cases hop

theorem Commit.refresh_bound {token : String} (h : Commit svc (.refresh token) acts body n next)
    (hrun : body.run svc.lower s = .ok (n, s'))
    (huser : ∀ (id : String) (user : User), Act.read (.getUser id) user ∈ acts → user.id = id)
    (hsession : ∀ (hash : String) (session : Session),
      Act.read (.sessionByRefreshHash hash) session ∈ acts →
        Continued session s.sessions.rows) :
    ∃ tokens claims r, next = .ret (.tokens tokens) ∧
      Act.signed claims tokens.accessToken ∈ acts ∧ r ∈ s'.sessions.rows ∧ claims.Bound r ∧
      r.revokedAt = none := by
  cases h with
  | @refresh _ _ raw now _ session user g =>
    have huser : user.id = session.userID := huser session.userID user (by simp)
    have hsession := hsession (svc.hashRefreshToken token) session (by simp)
    simp at hrun
    obtain ⟨⟨⟨t, ht, rfl⟩, r, hr, hid, hhash, hrevoked, hversion⟩, -⟩ := hrun
    obtain rfl := hsession.eq_of_version hr hid hversion
    obtain ⟨r', hr', rfl⟩ : ∃ r' ∈ t.rows, r' = (Repository.rotateUpdate (svc.rotated r raw now)
        (svc.hashRefreshToken token)).assign r :=
      ⟨_, ht ▸ Update.assign_mem hr (by simp [hhash, hrevoked, Service.rotated]), rfl⟩
    exact ⟨_, _, _, rfl, List.mem_append_left _ List.mem_cons_self, hr', ⟨huser, rfl, rfl, rfl⟩,
      hrevoked⟩

theorem Commit.tenant_bound {ctx : Context} {userID tenantID membershipID sessionID : String}
    (h : Commit svc (.issueTenantToken ctx userID tenantID membershipID sessionID) acts body n next)
    (hrun : body.run svc.lower s = .ok (n, s')) :
    ∃ raw expiresAt claims r, next = .ret (.token raw expiresAt) ∧
      Act.signed claims raw ∈ acts ∧ r ∈ s'.sessions.rows ∧ claims.Bound r ∧
      r.revokedAt = none := by
  cases h with
  | @issueTenantToken _ _ _ _ now _ actor g =>
    simp at hrun
    obtain ⟨⟨⟨t, ht, rfl⟩, r, hr, hid, huser, hrevoked, hexpires⟩, -⟩ := hrun
    obtain ⟨r', hr', rfl⟩ : ∃ r' ∈ t.rows, r' = (Repository.scopeUpdate (Go.trimSpace sessionID)
        (Go.trimSpace userID) (Go.trimSpace tenantID) (Go.trimSpace membershipID) actor.id
        now).assign r :=
      ⟨_, ht ▸ Update.assign_mem hr (by simp [hid, huser, hrevoked, hexpires]), rfl⟩
    exact ⟨_, _, _, _, rfl, List.mem_cons_of_mem _ List.mem_cons_self, hr',
      ⟨huser.symm, hid.symm, rfl, rfl⟩, hrevoked⟩

end Commits

section Runs

variable {svc : Service} {w : World} {c d : Config}

theorem sessions_continued (h : svc.machine.Reach Policy.uncleaned w c)
    (hd : svc.machine.Run Policy.uncleaned c d) :
    ∀ r ∈ c.state.store.sessions.rows, Continued r d.state.store.sessions.rows := by
  refine hd.invariant (I := fun d => ∀ r ∈ c.state.store.sessions.rows,
    Continued r d.state.store.sessions.rows) (fun _ => .of_mem) ?_ ?_
  · intro d q _ ih
    exact ih
  · intro d ev d' k a hrun ih hf hp r hr
    exact (ih r hr).trans fun _ => (sessionChange_of_step (h.trans hrun) hf).continued hp

theorem continued_of_read (h : svc.machine.Reach Policy.uncleaned w c) {i : Nat} {hash : String}
    {session : Session} (hread : Act.read (.sessionByRefreshHash hash) session ∈ c.actsOf i) :
    Continued session c.state.store.sessions.rows := by
  obtain ⟨e, he, -, hact⟩ := Machine.Reach.mem_actsOf.1 hread
  obtain ⟨c0, c1, k, a, h0, hf, hp, h1⟩ := h.event_of_mem he
  have hmem := (List.mem_filter.1 (read_of_fired hf hact)).1
  exact sessions_continued h0 ((Machine.Run.refl.fired hf hp).trans h1) session hmem

theorem id_of_getUser {π : Policy} (h : svc.machine.Reach π w c) {i : Nat} {id : String}
    {user : User} (hread : Act.read (.getUser id) user ∈ c.actsOf i) : user.id = id := by
  obtain ⟨e, he, -, hact⟩ := Machine.Reach.mem_actsOf.1 hread
  exact of_decide_eq_true (List.mem_filter.1 (read_select h he hact)).2

end Runs

/-- The access token that a `Refresh` or an `IssueTenantToken` returns carries the user, the
session, the tenant and the membership of the unrevoked session row that its commit leaves
behind. -/
theorem returned_token_bound (svc : Service) (w : World) (c : Config)
    (h : svc.machine.Reach Policy.uncleaned w c) (later earlier : List Event) (ev : Event)
    (hsplit : c.history = later ++ ev :: earlier) (raw : String)
    (htoken : Event.accessToken ev = some raw) :
    (∃ body n, ev.act = Act.committed body n) ∧
    ∃ claims r, Act.signed claims raw ∈ threadActs earlier ev.thread ∧
      raw = svc.issuer.signedString claims ∧ r ∈ ev.after.store.sessions.rows ∧ claims.Bound r ∧
      r.revokedAt = none := by
  obtain ⟨c0, c1, k, a, h0, rfl, hf, -, -⟩ := h.event_split hsplit
  obtain ⟨hop, -, body, n, next, hcom⟩ := accessToken_committed h0 hf htoken
  refine ⟨⟨body, n, hcom.act⟩, ?_⟩
  rw [← hf.state]
  have hsigned : ∀ claims, Act.signed claims raw ∈ c0.actsOf ev.thread →
      raw = svc.issuer.signedString claims := by
    intro claims hmem
    obtain ⟨e, he, -, hact⟩ := Machine.Reach.mem_actsOf.1 hmem
    exact raw_of_signed h0 he hact
  have hcommit := hcom.commit
  obtain ⟨token, hop⟩ | ⟨ctx, userID, tenantID, membershipID, sessionID, hop⟩ := hop
  · rw [hop] at hcommit
    obtain ⟨tokens, claims, r, hnext, hmem, hr, hbound, hrevoked⟩ := hcommit.refresh_bound hcom.run
      (fun _ _ => id_of_getUser h0) (fun _ _ => continued_of_read h0)
    simp only [Event.accessToken, hop, hcom.outcome, hnext, outcome, Option.some.injEq] at htoken
    subst htoken
    exact ⟨claims, r, hmem, hsigned claims hmem, hr, hbound, hrevoked⟩
  · rw [hop] at hcommit
    obtain ⟨raw', expiresAt, claims, r, hnext, hmem, hr, hbound, hrevoked⟩ :=
      hcommit.tenant_bound hcom.run
    simp only [Event.accessToken, hop, hcom.outcome, hnext, outcome, Option.some.injEq] at htoken
    subst htoken
    exact ⟨claims, r, hmem, hsigned claims hmem, hr, hbound, hrevoked⟩

namespace sample

def overtakenRefresh : List (Choice Op Answer) :=
  [.start (.refresh "r1"), .step 2 (.row 0), .step 2 (.time 45), .step 2 (.row 0),
    .step 2 (.value "r2"), .step 2 (.time 46), .step 2 (.time 47), .step 2 (.value "t2"),
    .step 2 .done,
    .start (.issueTenantToken ops "u1" "acme" "m1" "s1"), .step 3 (.time 60),
    .step 3 (.value "t3"), .step 3 .done, .step 3 (.time 70), .step 3 .done,
    .step 2 .done,
    .start (.refresh "r1"), .step 4 (.row 0), .step 4 (.time 80), .step 4 (.row 0),
    .step 4 (.value "r3"), .step 4 (.time 81), .step 4 (.time 82), .step 4 (.value "t4"),
    .step 4 .done, .step 4 .done]

end sample

theorem returned_token_bound_rescoped : ∃ (c : Config) (ev : Event) (earlier : List Event),
    (sample [] none).machine.Reach Policy.uncleaned (start 0) c ∧ c.history = ev :: earlier ∧
    Event.accessToken ev = some "t4" ∧
    (∃ body n, ev.act = Act.committed body n) ∧
    ∃ claims r, Act.signed claims "t4" ∈ threadActs earlier ev.thread ∧
      "t4" = (sample [] none).issuer.signedString claims ∧ r ∈ ev.after.store.sessions.rows ∧
      claims.Bound r ∧ r.revokedAt = none := by
  obtain ⟨c, hc, ev, hhead, htoken⟩ : ∃ c : Config,
      (sample [] none).machine.Reach Policy.uncleaned (start 0) c ∧
      ∃ ev ∈ c.history.head?, Event.accessToken ev = some "t4" :=
    Machine.replay_exists (sample.signIn ++ sample.overtakenRefresh) (by decide +kernel)
  have hsplit := List.eq_cons_of_mem_head? hhead
  exact ⟨c, ev, _, hc, hsplit, htoken,
    returned_token_bound _ _ c hc [] _ ev hsplit "t4" htoken⟩

end IdentityService
