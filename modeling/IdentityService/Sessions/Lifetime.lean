import IdentityService.Sessions.Scope

/-! What of a session is fixed when it is created. -/

namespace IdentityService

open Lib Service

structure Session.Same (r r' : Session) : Prop where
  id : r'.id = r.id
  userID : r'.userID = r.userID
  expiresAt : r'.expiresAt = r.expiresAt
  createdAt : r'.createdAt = r.createdAt
  createdBy : r'.createdBy = r.createdBy
  clientIP : r'.clientIP = r.clientIP
  userAgent : r'.userAgent = r.userAgent

namespace Session.Same

variable {r r' r'' : Session}

theorem refl (r : Session) : r.Same r := ⟨rfl, rfl, rfl, rfl, rfl, rfl, rfl⟩

theorem trans (h : r.Same r') (h' : r'.Same r'') : r.Same r'' where
  id := h'.id.trans h.id
  userID := h'.userID.trans h.userID
  expiresAt := h'.expiresAt.trans h.expiresAt
  createdAt := h'.createdAt.trans h.createdAt
  createdBy := h'.createdBy.trans h.createdBy
  clientIP := h'.clientIP.trans h.clientIP
  userAgent := h'.userAgent.trans h.userAgent

theorem of_update {u : Update Session} (hassign : ∀ r : Session, r.Same (u.assign r))
    {rows : List Session} (hr' : r' ∈ rows.map u.apply) : ∃ r ∈ rows, r.Same r' := by
  rw [Update.mem_map_apply] at hr'
  obtain ⟨hr, -⟩ | ⟨r, hr, -, rfl⟩ := hr'
  · exact ⟨r', hr, .refl r'⟩
  · exact ⟨r, hr, hassign r⟩

end Session.Same

theorem SessionChange.same {svc : Service} {op : Op} {acts : List Act} {granted : Option Tokens}
    {rows rows' : List Session} (h : SessionChange svc op acts granted rows rows') {r' : Session}
    (hr' : r' ∈ rows') : (∃ r ∈ rows, r.Same r') ∨
      ∃ (d : Draft) (actor userID : String) (client : SessionClient),
        r' = d.session svc actor userID client ∧ rows' = rows ++ [r'] := by
  cases h with
  | keep => exact .inl ⟨r', hr', .refl r'⟩
  | create d actor userID client _ _ =>
    obtain hr | hr := List.mem_append.1 hr'
    · exact .inl ⟨r', hr, .refl r'⟩
    · obtain rfl := List.mem_singleton.1 hr
      exact .inr ⟨d, actor, userID, client, rfl, rfl⟩
  | rotate | scope | revoke =>
    exact .inl (Session.Same.of_update (fun _ => ⟨rfl, rfl, rfl, rfl, rfl, rfl, rfl⟩) hr')
  | clean => exact .inl ⟨r', (List.mem_filter.1 hr').1, .refl r'⟩

section Runs

variable {svc : Service} {π : Policy} {w : World} {clock : Time} {c d : Config} {ev : Event}
  {k : ev.call.Res → Prog Reply} {a : Answer} {r r' : Session}

theorem same_of_step (h : svc.machine.Reach π w c) (hf : svc.machine.Fired c ev d k a)
    (hr : r ∈ c.state.store.sessions.rows) (hr' : r' ∈ d.state.store.sessions.rows)
    (hid : r'.id = r.id) : r.Same r' := by
  obtain ⟨x, hx, hsame⟩ | ⟨_, _, _, _, -, hrows⟩ := (sessionChange_of_step h hf).same hr'
  · obtain rfl := session_eq_of_id hx hr (hsame.id.symm.trans hid)
    exact hsame
  · exact absurd hid.symm (id_ne_of_append hrows r hr)

theorem same_of_present (h : svc.machine.Reach π w c) (hd : svc.machine.Run π c d)
    {later : List Event} (hlater : d.history = later ++ c.history)
    (hr : r ∈ c.state.store.sessions.rows)
    (hpresent : ∀ ev ∈ later, ∃ x ∈ ev.after.store.sessions.rows, x.id = r.id) :
    ∃ r' ∈ d.state.store.sessions.rows, r.Same r' := by
  refine (hd.restrict hlater hpresent).invariant
    (I := fun d => ∃ r' ∈ d.state.store.sessions.rows, r.Same r') ⟨r, hr, .refl r⟩ ?_ ?_
  · intro d q _ ih
    exact ih
  · rintro d ev d' k a hrun ⟨x, hx, hsame⟩ hf ⟨-, y, hy, hid⟩
    rw [← hf.state] at hy
    exact ⟨y, hy,
      hsame.trans (same_of_step (h.trans hrun.left) hf hx hy (hid.trans hsame.id.symm))⟩

theorem lifetime (h : svc.machine.Reach π (start clock) c) :
    ∀ r ∈ c.state.store.sessions.rows, r.expiresAt = r.createdAt + refreshTTL := by
  refine Machine.Run.invariant (I := fun c => ∀ r ∈ c.state.store.sessions.rows,
    r.expiresAt = r.createdAt + refreshTTL) h ?_ ?_ ?_
  · intro r hr
    cases hr
  · intro d q _ ih
    exact ih
  · intro d ev d' k a hd ih hf _ r' hr'
    obtain ⟨r, hr, hsame⟩ | ⟨_, _, _, _, rfl, -⟩ := (sessionChange_of_step hd hf).same hr'
    · rw [hsame.expiresAt, hsame.createdAt, ih r hr]
    · rfl

def Policy.nonemptyIDs : Policy := .onEvents fun _ ev => ∀ s ∈ Event.drawn ev .uuid, s ≠ ""

instance (c : Config) (q : Op) : Decidable (Policy.nonemptyIDs.start c q) := .isTrue trivial

instance (c : Config) (ev : Event) : Decidable (Policy.nonemptyIDs.event c ev) :=
  inferInstanceAs (Decidable (∀ s ∈ Event.drawn ev .uuid, _))

theorem uuid_ne_empty (h : svc.machine.Reach Policy.nonemptyIDs w c) {i : Nat} {s : String}
    (hmem : Act.drew .uuid s ∈ c.actsOf i) : s ≠ "" := by
  obtain ⟨e, he, -, hact⟩ := Machine.Reach.mem_actsOf.1 hmem
  obtain ⟨c0, c1, k, a, -, -, hp, -⟩ := h.event_of_mem he
  exact hp s (drawn_eq_some.2 hact)

theorem id_ne_empty (h : svc.machine.Reach Policy.nonemptyIDs (start clock) c)
    (hr : r ∈ c.state.store.sessions.rows) : r.id ≠ "" := by
  have hany : svc.machine.Reach (Policy.fresh []) (start clock) c :=
    Machine.Run.mono (fun _ _ _ => trivial) (fun _ _ _ => by rintro kind ⟨⟩) h
  obtain ⟨e, he, hact, -⟩ := spent_of_session hany hr
  exact uuid_ne_empty h (Machine.Reach.mem_actsOf.2 ⟨e, he, rfl, hact⟩)

end Runs

section Expired

variable {svc : Service} {clock : Time} {c d d' : Config} {ev : Event}
  {k : ev.call.Res → Prog Reply} {a : Answer} {r : Session}
  (hc : svc.machine.Reach (Policy.monotone.both (Policy.fresh [.uuid])) (start clock) c)
  (hd : svc.machine.Run (Policy.monotone.both (Policy.fresh [.uuid])) c d)
  (hr : r ∈ c.state.store.sessions.rows) (hold : r.createdAt + refreshTTL ≤ c.state.clock)
  (hi : c.actsOf ev.thread = [])

include hc hd hr

theorem same_of_id : ∀ r' ∈ d.state.store.sessions.rows, r'.id = r.id → r.Same r' := by
  refine hd.invariant
    (I := fun d => ∀ r' ∈ d.state.store.sessions.rows, r'.id = r.id → r.Same r') ?_ ?_ ?_
  · intro r' hr' hid
    rw [session_eq_of_id hr' hr hid]
    exact .refl r
  · intro d q _ ih
    exact ih
  · intro d ev d' k a hrun ih hf _ r' hr' hid
    obtain ⟨old, hold, hev⟩ := evolves_of_id hc.right hr hrun.right hf hr' hid
    exact (ih old hold (hev.id ▸ hid)).trans (same_of_step (hc.trans hrun) hf hold hr' hev.id)

include hold hi

theorem expired_of_read {q : Query} {row : q.Row} {session : Session}
    (hread : Act.read q row ∈ d.actsOf ev.thread)
    (hsel : ∀ s : Store, row ∈ s.select svc.lower q →
      session ∈ s.sessions.rows ∧ session.id = r.id) : session.expiresAt ≤ c.state.clock := by
  obtain ⟨c', hc', -, hrow⟩ := read_since hd (i := ev.thread) (by simp [hi]) hread
  obtain ⟨hmem, hid⟩ := hsel _ hrow
  rw [(same_of_id hc hc' hr session hmem hid).expiresAt, lifetime hc r hr]
  exact hold

theorem expired_not_refreshed (hf : svc.machine.Fired d ev d' k a) {token : String}
    (hop : ev.request = .refresh token) {tokens : Tokens}
    (hout : ev.outcome = some (.ok (.tokens tokens))) : tokens.sessionID ≠ r.id := by
  obtain ⟨body, n, next, hcom⟩ := issued_committed (hc.trans hd) hf (by rw [hout]; rfl)
  obtain ⟨session, user, g, raw, checkedAt, now, hacts, rfl, -, hlive, -⟩ :=
    (hop ▸ hcom.commit).refresh_inv hcom.run
  rw [hcom.outcome] at hout
  cases hout
  intro hid
  have hexpired := expired_of_read hc hd hr hold hi
    (q := .sessionByRefreshHash (svc.hashRefreshToken token)) (by simp [hacts])
    (fun _ h => ⟨(List.mem_filter.1 h).1, hid⟩)
  have hclock := clock_since hd.left hi (t := checkedAt) (by simp [hacts])
  exact absurd (hlive.trans_le (hexpired.trans hclock)) (lt_irrefl _)

theorem expired_not_borne (hf : svc.machine.Fired d ev d' k a)
    (hp : (Policy.monotone.both (Policy.fresh [.uuid])).event d ev) {raw : String}
    {claims : TokenClaims} (hraw : svc.issuer.verify raw = some claims)
    (huser : claims.subjectType = "user") (hclaims : claims.sessionID = r.id)
    (hop : ev.request = .verifyBearer raw) (principal : Principal) :
    ev.outcome ≠ some (.ok (.principal principal)) := by
  intro hout
  obtain ⟨row, now, t, hacts, -, hlive, -⟩ := bearer_accepts (hc.trans hd) hf hop hout hraw huser
    (hclaims ▸ session_id_ne_empty hc.right hr)
  have hbefore := hf.actsOf_self.symm.trans hacts
  have hread : Act.read (.getSession claims.sessionID claims.subject) row ∈ d.actsOf ev.thread := by
    simp [(List.cons.inj hbefore).2]
  have hexpired := expired_of_read hc hd hr hold hi hread fun _ h => by
    have hmem := List.mem_filter.1 h
    simp only [Bool.and_eq_true, decide_eq_true_eq] at hmem
    exact ⟨hmem.1, hmem.2.1.trans hclaims⟩
  have hclock := clock_since (hd.fired hf hp).left hi (t := t) (by simp [hacts])
  exact absurd (hlive.trans_le (hexpired.trans hclock)) (lt_irrefl _)

end Expired

def Event.returnedToken (ev : Event) : Option String :=
  match ev.request, ev.outcome with
  | .issueTenantToken _ _ _ _ _, some (.ok (.token raw _)) => some raw
  | .serviceAccountToken _ _, some (.ok (.token raw _)) => some raw
  | _, outcome => (issued outcome).map (·.accessToken)

section Tokens

variable {svc : Service} {op : Op} {acts : List Act} {body : Tx Nat} {n : Nat}
  {next : Prog Reply} {s s' : Store}

theorem Commit.issued_session (h : Commit svc op acts body n next)
    (hop : ∀ cleaner fuel, op ≠ .clean cleaner fuel)
    (hrun : body.run svc.lower s = .ok (n, s')) {tokens : Tokens}
    (hissued : issued next.outcome = some tokens) :
    ∃ claims, Act.signed claims tokens.accessToken ∈ acts ∧
      (Act.drew .uuid claims.sessionID ∈ acts ∨
        ∃ r ∈ s.sessions.rows, r.id = claims.sessionID) := by
  cases h with
  | loginSession | verifyMFAChallenge =>
    cases hissued
    exact ⟨_, List.mem_append_left _ List.mem_cons_self,
      .inl (by simp [Grant.claims, TokenIssuer.claims])⟩
  | refresh =>
    simp at hrun
    obtain ⟨⟨-, r, hr, hid, -⟩, -⟩ := hrun
    cases hissued
    exact ⟨_, List.mem_append_left _ List.mem_cons_self, .inr ⟨r, hr, hid⟩⟩
  | cleanSessions | cleanMFAChallenges | cleanPasswordResetChallenges =>
    exact absurd rfl (hop _ _)
  | _ => cases hissued

end Tokens

section Returned

variable {svc : Service} {π : Policy} {w : World} {clock : Time} {c d : Config} {ev : Event}
  {k : ev.call.Res → Prog Reply} {a : Answer} {raw : String}

theorem returnedToken_cases (h : Event.returnedToken ev = some raw) :
    (∃ tokens, issued ev.outcome = some tokens ∧ tokens.accessToken = raw) ∨
    (∃ ctx userID tenantID membershipID sessionID expiresAt,
      ev.request = .issueTenantToken ctx userID tenantID membershipID sessionID ∧
        ev.outcome = some (.ok (.token raw expiresAt))) ∨
    ∃ clientID secret expiresAt, ev.request = .serviceAccountToken clientID secret ∧
      ev.outcome = some (.ok (.token raw expiresAt)) := by
  unfold Event.returnedToken at h
  split at h
  · rename_i hop hout
    cases h
    exact .inr (.inl ⟨_, _, _, _, _, _, hop, hout⟩)
  · rename_i hop hout
    cases h
    exact .inr (.inr ⟨_, _, _, hop, hout⟩)
  · exact .inl (Option.map_eq_some_iff.1 h)

theorem returned_signed (h : svc.machine.Reach π w c) (hf : svc.machine.Fired c ev d k a)
    (hraw : Event.returnedToken ev = some raw) :
    ∃ claims, Act.signed claims raw ∈ d.actsOf ev.thread ∧
      (claims.subjectType = "user" → Act.drew .uuid claims.sessionID ∈ c.actsOf ev.thread ∨
        ∃ r ∈ c.state.store.sessions.rows, r.id = claims.sessionID) := by
  have hmono : ∀ x ∈ c.actsOf ev.thread, x ∈ d.actsOf ev.thread := fun x hx =>
    hf.actsOf_self ▸ List.mem_cons_of_mem _ hx
  obtain ⟨tokens, hissued, rfl⟩ | ⟨_, _, _, _, _, expiresAt, hop, hout⟩ |
    ⟨clientID, secret, expiresAt, hop, hout⟩ := returnedToken_cases hraw
  · obtain ⟨body, n, next, hcom⟩ := issued_committed h hf hissued
    have hclean : ∀ cleaner fuel, ev.request ≠ .clean cleaner fuel := fun cleaner fuel hop => by
      rw [clean_issued h hf hop] at hissued
      cases hissued
    obtain ⟨claims, hmem, hsession⟩ :=
      hcom.commit.issued_session hclean hcom.run (hcom.outcome ▸ hissued)
    exact ⟨claims, hmono _ hmem, fun _ => hsession⟩
  · have htoken : Event.accessToken ev = some raw := by simp only [Event.accessToken, hop, hout]
    obtain ⟨-, -, body, n, next, hcom⟩ := accessToken_committed h hf htoken
    have hcommit := hcom.commit
    rw [hop] at hcommit
    obtain ⟨raw', _, claims, -, rfl, hmem, -⟩ := hcommit.tenant_bound hcom.run
    obtain ⟨-, r, hr, hid⟩ :=
      hcommit.signed_session (.inr ⟨_, _, _, _, _, rfl⟩) hcom.run hmem
    rw [hcom.outcome] at hout
    cases hout
    exact ⟨claims, hmono _ hmem, fun _ => .inr ⟨r, hr, hid⟩⟩
  · have hends := ends_serviceAccountToken svc clientID secret
    rw [← hop] at hends
    obtain ⟨account, g, hacts, hreply⟩ := h.ends hf hends hout
    cases hreply
    exact ⟨_, by rw [hacts]; exact List.mem_cons_self,
      by simp [Grant.claims, TokenIssuer.claims]⟩

theorem returned_session_ne (h : svc.machine.Reach Policy.nonemptyIDs (start clock) c)
    (hf : svc.machine.Fired c ev d k a) (hraw : Event.returnedToken ev = some raw) :
    ∃ claims, Act.signed claims raw ∈ d.actsOf ev.thread ∧
      (claims.subjectType = "user" → claims.sessionID ≠ "") := by
  obtain ⟨claims, hmem, hsession⟩ := returned_signed h hf hraw
  refine ⟨claims, hmem, fun huser => ?_⟩
  obtain hdrawn | ⟨r, hr, hid⟩ := hsession huser
  · exact uuid_ne_empty h hdrawn
  · exact hid ▸ id_ne_empty h hr

theorem returned_signedString (h : svc.machine.Reach π w c) (hev : ev ∈ c.history)
    (hraw : Event.returnedToken ev = some raw) :
    ∃ claims, raw = svc.issuer.signedString claims := by
  obtain ⟨c0, c1, k, a, h0, hf, hp, h1⟩ := h.event_of_mem hev
  obtain ⟨claims, hmem, -⟩ := returned_signed h0 hf hraw
  obtain ⟨e, he, -, hact⟩ := Machine.Reach.mem_actsOf.1
    (Machine.Reach.actsOf_mono h1.history_suffix hmem)
  exact ⟨claims, raw_of_signed h he hact⟩

end Returned

/-- A session is the same from its insertion to its deletion and lives for thirty days: a call
that starts after that neither refreshes it nor accepts a token for it, deleted or not, and no
user's token comes without a session. -/
theorem session_fixed_at_creation (svc : Service) (clock : Time) :
    (∀ (w : World) (c d : Config) (later : List Event) (r : Session),
      svc.machine.Reach .any w c → svc.machine.Run .any c d → d.history = later ++ c.history →
      r ∈ c.state.store.sessions.rows →
      (∀ ev ∈ later, ∃ x ∈ ev.after.store.sessions.rows, x.id = r.id) →
      ∀ r' ∈ d.state.store.sessions.rows, r'.id = r.id → r.Same r') ∧
    (∀ c, svc.machine.Reach .any (start clock) c →
      ∀ r ∈ c.state.store.sessions.rows, r.expiresAt = r.createdAt + refreshTTL) ∧
    (∀ (c d : Config) (later : List Event) (r : Session),
      svc.machine.Reach (Policy.monotone.both (Policy.fresh [.uuid])) (start clock) c →
      svc.machine.Run (Policy.monotone.both (Policy.fresh [.uuid])) c d →
      d.history = later ++ c.history → r ∈ c.state.store.sessions.rows →
      r.createdAt + refreshTTL ≤ c.state.clock → ∀ ev ∈ later, c.actsOf ev.thread = [] →
      (∀ token tokens, ev.request = .refresh token →
        ev.outcome = some (.ok (.tokens tokens)) → tokens.sessionID ≠ r.id) ∧
      ∀ raw claims principal, svc.issuer.verify raw = some claims →
        claims.subjectType = "user" → claims.sessionID = r.id →
        ev.request = .verifyBearer raw → ev.outcome ≠ some (.ok (.principal principal))) ∧
    (∀ (c : Config) (ev : Event) (raw : String),
      svc.machine.Reach Policy.nonemptyIDs (start clock) c → ev ∈ c.history →
      Event.returnedToken ev = some raw →
      ∃ claims, Act.signed claims raw ∈ c.actsOf ev.thread ∧
        raw = svc.issuer.signedString claims ∧
        (claims.subjectType = "user" → claims.sessionID ≠ "")) := by
  refine ⟨?_, fun c hc => lifetime hc, ?_, ?_⟩
  · intro w c d later r hc hd hlater hr hpresent r' hr' hid
    obtain ⟨x, hx, hsame⟩ := same_of_present hc hd hlater hr hpresent
    rw [session_eq_of_id hr' hx (hid.trans hsame.id.symm)]
    exact hsame
  · intro c d later r hc hd hlater hr hold ev hev hi
    obtain ⟨c0, c1, k, a, h0, hf, hp, -⟩ := hd.event_of_mem hlater hev
    exact ⟨fun token tokens hop hout => expired_not_refreshed hc h0 hr hold hi hf hop hout,
      fun raw claims principal hraw huser hclaims hop =>
        expired_not_borne hc h0 hr hold hi hf hp hraw huser hclaims hop principal⟩
  · intro c ev raw hc hev hraw
    obtain ⟨c0, c1, k, a, h0, hf, hp, h1⟩ := hc.event_of_mem hev
    obtain ⟨claims, hmem, hsid⟩ := returned_session_ne h0 hf hraw
    have hsigned := Machine.Reach.actsOf_mono h1.history_suffix hmem
    obtain ⟨e, he, -, hact⟩ := Machine.Reach.mem_actsOf.1 hsigned
    exact ⟨claims, hsigned, raw_of_signed hc he hact, hsid⟩

namespace sample

def signedInLongAgo : List (Choice Op Answer) :=
  signIn ++
    [.start (.validateSession "s1" "u1"), .step 2 (.row 0), .step 2 (.time (30 + refreshTTL))]

def lateRefresh : List (Choice Op Answer) :=
  [.start (.clean ⟨1, 2⟩ 1), .step 3 (.time (40 + refreshTTL)), .step 3 (.row 0), .step 3 .done,
    .start (.refresh "r1"), .step 4 (.row 0)]

end sample

theorem session_fixed_at_creation_expired : ∃ (c d : Config) (later : List Event) (ev : Event)
    (r : Session),
    (sample [] none).machine.Reach (Policy.monotone.both (Policy.fresh [.uuid])) (start 0) c ∧
    (sample [] none).machine.Run (Policy.monotone.both (Policy.fresh [.uuid])) c d ∧
    d.history = later ++ c.history ∧ r ∈ c.state.store.sessions.rows ∧
    r.expiresAt = r.createdAt + refreshTTL ∧ d.state.store.sessions.rows = [] ∧ ev ∈ later ∧
    ev.outcome.isSome ∧ ∀ token tokens, ev.request = .refresh token →
      ev.outcome = some (.ok (.tokens tokens)) → tokens.sessionID ≠ r.id := by
  obtain ⟨c, hc, r, hr, hold, hi, hmore⟩ : ∃ c : Config,
      (sample [] none).machine.Reach (Policy.monotone.both (Policy.fresh [.uuid])) (start 0) c ∧
      ∃ r ∈ c.state.store.sessions.rows, r.createdAt + refreshTTL ≤ c.state.clock ∧
        (c.actsOf 4).length = 0 ∧
        ((sample [] none).machine.replay (Policy.monotone.both (Policy.fresh [.uuid]))
          sample.lateRefresh c).any (fun d => decide
            ((∃ ev ∈ d.history.head?, ev.thread = 4 ∧ ev.outcome.isSome) ∧
              c.history.length < d.history.length ∧ d.state.store.sessions.rows = [])) = true :=
    Machine.replay_exists sample.signedInLongAgo (by decide +kernel)
  obtain ⟨d, hd, ⟨ev, hev, hthread, hout⟩, hlen, hempty⟩ := Machine.replay_exists _ hmore
  obtain ⟨later, hlater⟩ := hd.history_suffix
  have hmem : ev ∈ later := by
    cases later with
    | nil =>
      rw [← hlater] at hlen
      exact absurd hlen (lt_irrefl _)
    | cons e later =>
      rw [← hlater] at hev
      cases hev
      exact List.mem_cons_self
  obtain ⟨-, hlifetime, hended, -⟩ := session_fixed_at_creation (sample [] none) 0
  have hended := hended c d later r hc hd hlater.symm hr hold ev hmem
    (hthread ▸ List.length_eq_zero_iff.1 hi)
  exact ⟨c, d, later, ev, r, hc, hd, hlater.symm, hr, hlifetime c hc.any r hr, hempty, hmem, hout,
    hended.1⟩

end IdentityService
