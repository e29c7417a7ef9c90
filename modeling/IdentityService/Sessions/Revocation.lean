import IdentityService.Sessions.Change

/-! Revocation is final: a revoked session is never written again, never refreshed and
never accepted, even after the cleaner has deleted its row. -/

namespace IdentityService

open Lib Service

variable {svc : Service} {w : World} {clock : Time} {c d : Config} {ev : Event}
  {k : ev.call.Res → Prog Reply} {a : Answer} {kinds : List Draw}

abbrev Spent (c : Config) (id : String) : Prop := UsedUp .uuid c id

theorem spent_of_session (h : svc.machine.Reach (Policy.fresh kinds) (start clock) c)
    {r : Session} (hr : r ∈ c.state.store.sessions.rows) : Spent c r.id := by
  refine Machine.Run.invariant
    (I := fun c => ∀ r ∈ c.state.store.sessions.rows, Spent c r.id) h ?_ ?_ ?_ r hr
  · intro r hr
    cases hr
  · intro d q _ ih r hr
    exact ih r hr
  · intro d ev d' k a hd ih hf _ r' hr'
    have hsub : d.history <:+ d'.history := hf.history ▸ List.suffix_cons _ _
    obtain ⟨r, hr, hev⟩ | ⟨draft, actor, userID, client, rest, hacts, hissued, rfl, -⟩ :=
      (sessionChange_of_step hd hf).origin hr'
    · rw [hev.id]
      exact (ih r hr).mono hsub
    · -- The creating call drew the identifier and ends with this step.
      exact .of_step hf (by simp [hacts, Draft.session, newSession]) (issued_isSome hissued)

theorem session_id_ne_empty (h : svc.machine.Reach (Policy.fresh [.uuid]) (start clock) c)
    {r : Session} (hr : r ∈ c.state.store.sessions.rows) : r.id ≠ "" := by
  obtain ⟨e, he, hact, -⟩ := spent_of_session h hr
  exact drawn_ne_empty (List.mem_singleton_self _) h he hact

theorem evolves_of_spent (huuid : .uuid ∈ kinds)
    (h : svc.machine.Reach (Policy.fresh kinds) w c) (hf : svc.machine.Fired c ev d k a)
    {r' : Session} (hr' : r' ∈ d.state.store.sessions.rows) (hspent : Spent c r'.id) :
    ∃ r ∈ c.state.store.sessions.rows, r.Evolves r' := by
  obtain hold | ⟨draft, actor, userID, client, rest, hacts, -, rfl, -⟩ :=
    (sessionChange_of_step h hf).origin hr'
  · exact hold
  · exact absurd (by simp [hacts, Draft.session, newSession]) (hspent.not_in_use huuid h hf)

theorem evolves_of_id {c0 : Config} {r r' : Session}
    (h0 : svc.machine.Reach (Policy.fresh [.uuid]) (start clock) c0)
    (hr : r ∈ c0.state.store.sessions.rows) (hrun : svc.machine.Run (Policy.fresh [.uuid]) c0 c)
    (hf : svc.machine.Fired c ev d k a) (hr' : r' ∈ d.state.store.sessions.rows)
    (hid : r'.id = r.id) : ∃ old ∈ c.state.store.sessions.rows, old.Evolves r' := by
  have hspent : Spent c r'.id := hid ▸ (spent_of_session h0 hr).mono hrun.history_suffix
  exact evolves_of_spent (List.mem_singleton_self _) (h0.trans hrun) hf hr' hspent

section Revoked

variable {r : Session} (hc : svc.machine.Reach (Policy.fresh [.uuid]) (start clock) c)
  (hd : svc.machine.Run (Policy.fresh [.uuid]) c d)
  (hr : r ∈ c.state.store.sessions.rows) (hrev : r.revokedAt ≠ none)

include hc hd hr hrev

theorem revoked_persists : ∀ r' ∈ d.state.store.sessions.rows, r'.id = r.id → r' = r := by
  refine hd.invariant
    (I := fun d => ∀ r' ∈ d.state.store.sessions.rows, r'.id = r.id → r' = r) ?_ ?_ ?_
  · intro r' hr' hid
    exact session_eq_of_id hr' hr hid
  · intro d q _ ih
    exact ih
  · intro d ev d' k a hrun ih hf _ r' hr' hid
    obtain ⟨old, hold, hev⟩ := evolves_of_id hc hr hrun hf hr' hid
    have holdr := ih old hold (hev.id ▸ hid)
    subst holdr
    exact hev.final hrev

theorem revoked_read {i : Nat} (hi : ∀ q x, (⟨.query q, x⟩ : Act) ∉ c.actsOf i)
    {userID : String} {row : Session}
    (hrow : Act.read (.getSession r.id userID) row ∈ d.actsOf i) : row = r := by
  obtain ⟨c', hc', -, hsel⟩ := read_since hd hi hrow
  have hmem := List.mem_filter.1 hsel
  simp only [Bool.and_eq_true, decide_eq_true_eq] at hmem
  exact revoked_persists hc hc' hr hrev row hmem.1 hmem.2.1

theorem revoked_not_validated (hi : ∀ q x, (⟨.query q, x⟩ : Act) ∉ c.actsOf ev.thread) {d' : Config}
    (hf : svc.machine.Fired d ev d' k a) (hp : (Policy.fresh [.uuid]).event d ev) {userID : String}
    (hop : ev.request = .validateSession r.id userID) (session : Option Session) :
    ev.outcome ≠ some (.ok (.validation session true)) := by
  intro hout
  obtain ⟨row, t, hacts, -, hvalid, -⟩ := validation_accepts (hc.trans hd) hf hop hout
  have hread : Act.read (.getSession r.id userID) row ∈ d'.actsOf ev.thread := by simp [hacts]
  rw [revoked_read hc (hd.fired hf hp) hr hrev hi hread] at hvalid
  exact hrev hvalid

theorem revoked_not_borne (hi : ∀ q x, (⟨.query q, x⟩ : Act) ∉ c.actsOf ev.thread) {d' : Config}
    (hf : svc.machine.Fired d ev d' k a) (hp : (Policy.fresh [.uuid]).event d ev) {raw : String}
    {claims : TokenClaims} (hraw : svc.issuer.verify raw = some claims)
    (huser : claims.subjectType = "user") (hclaims : claims.sessionID = r.id)
    (hop : ev.request = .verifyBearer raw) (principal : Principal) :
    ev.outcome ≠ some (.ok (.principal principal)) := by
  intro hout
  obtain ⟨row, now, t, hacts, hvalid, -⟩ := bearer_accepts (hc.trans hd) hf hop hout hraw huser
    (hclaims ▸ session_id_ne_empty hc hr)
  rw [hclaims] at hacts
  have hread : Act.read (.getSession r.id claims.subject) row ∈ d'.actsOf ev.thread := by
    simp [hacts]
  rw [revoked_read hc (hd.fired hf hp) hr hrev hi hread] at hvalid
  exact hrev hvalid

theorem revoked_not_refreshed {d' : Config} (hf : svc.machine.Fired d ev d' k a) {token : String}
    (hop : ev.request = .refresh token) {tokens : Tokens}
    (hout : ev.outcome = some (.ok (.tokens tokens))) : tokens.sessionID ≠ r.id := by
  obtain ⟨body, n, next, hcom⟩ := issued_committed (hc.trans hd) hf (by rw [hout]; rfl)
  obtain ⟨session, user, g, raw, checkedAt, now, -, rfl, -, -, -,
      ⟨row, hrow, hrowid, -, hvalid, -⟩, -⟩ :=
    (hop ▸ hcom.commit).refresh_inv hcom.run
  rw [hcom.outcome] at hout
  cases hout
  intro hid
  -- The row the rotation matched is not revoked, so it is not the revoked one.
  rw [revoked_persists hc hd hr hrev row hrow (hrowid.trans hid)] at hvalid
  exact hrev hvalid

end Revoked

/-- Once a session is revoked its row is never changed again and only the cleaner deletes
it; it is not refreshed; and a call that reads the database after that neither validates it nor
accepts a token that the service signed for it. -/
theorem revocation_is_final (svc : Service) (clock : Time) (c d : Config) (later : List Event)
    (r : Session) (hc : svc.machine.Reach (Policy.fresh [.uuid]) (start clock) c)
    (hd : svc.machine.Run (Policy.fresh [.uuid]) c d) (hlater : d.history = later ++ c.history)
    (hr : r ∈ c.state.store.sessions.rows) (hrev : r.revokedAt ≠ none) :
    (∀ r' ∈ d.state.store.sessions.rows, r'.id = r.id → r' = r) ∧
    ∀ ev ∈ later,
      (r ∈ ev.before.store.sessions.rows → r ∉ ev.after.store.sessions.rows →
        ∃ cleaner fuel, ev.request = .clean cleaner fuel) ∧
      (∀ token tokens, ev.request = .refresh token →
        ev.outcome = some (.ok (.tokens tokens)) → tokens.sessionID ≠ r.id) ∧
      ((∀ q x, (⟨.query q, x⟩ : Act) ∉ c.actsOf ev.thread) →
        (∀ userID session, ev.request = .validateSession r.id userID →
          ev.outcome ≠ some (.ok (.validation session true))) ∧
        (∀ raw claims principal, svc.issuer.verify raw = some claims → claims.sessionID = r.id →
          (∃ e ∈ d.history, ∃ text, e.act = Act.signed claims text) →
          ev.request = .verifyBearer raw → ev.outcome ≠ some (.ok (.principal principal)))) := by
  refine ⟨revoked_persists hc hd hr hrev, fun ev hev => ?_⟩
  obtain ⟨c0, c1, k, a, h0, hf, hp, h1⟩ := hd.event_of_mem hlater hev
  refine ⟨fun hbefore hafter => ?_, fun token tokens hop hout => ?_, fun hi => ⟨?_, ?_⟩⟩
  · rw [hf.before] at hbefore
    rw [← hf.state] at hafter
    obtain ⟨r', hr', hevolves⟩ | hclean :=
      (sessionChange_of_step (hc.trans h0) hf).fate hbefore
    · rw [hevolves.final hrev] at hr'
      exact absurd hr' hafter
    · exact hclean
  · exact revoked_not_refreshed hc h0 hr hrev hf hop hout
  · exact fun userID session hop => revoked_not_validated hc h0 hr hrev hi hf hp hop session
  · rintro raw claims principal hraw hsession ⟨e, he, text, hact⟩ hop
    have hid := session_id_ne_empty hc hr
    obtain huser | hempty := signed_user (hc.trans hd) he hact
    · exact revoked_not_borne hc h0 hr hrev hi hf hp hraw huser hsession hop principal
    · exact absurd (hsession.symm.trans hempty) hid

namespace sample

def signOut : List (Choice Op Answer) :=
  [.start (.logout (some ⟨"u1", .user, "", "", "s1"⟩) "s1" ""),
    .step 2 (.time 50), .step 2 (.row 0), .step 2 (.value "e2"), .step 2 .done]

end sample

theorem revocation_is_final_signed_out :
    ∃ (c d : Config) (later : List Event) (r : Session),
      ((sample [] none).machine.Reach (Policy.fresh [.uuid]) (start 0) c ∧
        (sample [] none).machine.Run (Policy.fresh [.uuid]) c d ∧
        d.history = later ++ c.history ∧ r ∈ c.state.store.sessions.rows ∧ r.revokedAt ≠ none) ∧
      d.history.length = c.history.length + 1 ∧
      ∀ r' ∈ d.state.store.sessions.rows, r'.id = r.id → r' = r := by
  obtain ⟨c, hc, r, hr, hrev⟩ : ∃ c,
      (sample [] none).machine.Reach (Policy.fresh [.uuid]) (start 0) c ∧
        ∃ r ∈ c.state.store.sessions.rows, r.revokedAt ≠ none ∧
          ((sample [] none).machine.replay (Policy.fresh [.uuid])
            [.start (.refresh "r1"), .step 3 (.row 0)] c).any
              (fun d => decide (d.history.length = c.history.length + 1)) = true :=
    Machine.replay_exists (sample.signIn ++ sample.signOut) (by decide +kernel)
  obtain ⟨hrev, hmore⟩ := hrev
  obtain ⟨d, hd, hlen⟩ := Machine.replay_exists _ hmore
  obtain ⟨later, hlater⟩ := hd.history_suffix
  exact ⟨c, d, later, r, ⟨hc, hd, hlater.symm, hr, hrev⟩, hlen,
    (revocation_is_final _ 0 c d later r hc hd hlater.symm hr hrev).1⟩

end IdentityService
