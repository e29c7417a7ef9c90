import IdentityService.Login.Opened
import IdentityService.MFA.Change

/-! A session of a user with a second factor has passed it. -/

namespace IdentityService

open Lib Service

def openedByChallenge (sessionID : String) : List Event → Bool
  | [] => false
  | ev :: earlier =>
    if Event.opened ev = some sessionID then
      match ev.request with
      | .verifyMFAChallenge _ _ _ => true
      | _ => false
    else openedByChallenge sessionID earlier

def Event.confirmed (ev : Event) : Option Principal :=
  match ev.request, ev.outcome with
  | .confirmMFASetup ctx _ _, some (.ok _) => ctx
  | _, _ => none

def confirmingSession (user : String) : List Event → Option String
  | [] => none
  | ev :: earlier =>
    match Event.confirmed ev with
    | some actor =>
      if actor.id = user then some actor.sessionID else confirmingSession user earlier
    | none => confirmingSession user earlier

theorem openedByChallenge_of_ne {sid : String} {ev : Event} {earlier : List Event}
    (h : Event.opened ev ≠ some sid) :
    openedByChallenge sid (ev :: earlier) = openedByChallenge sid earlier := by
  simp only [openedByChallenge, if_neg h]

theorem confirmingSession_of_ne {user : String} {ev : Event} {earlier : List Event}
    (h : ∀ actor, Event.confirmed ev = some actor → actor.id ≠ user) :
    confirmingSession user (ev :: earlier) = confirmingSession user earlier := by
  rw [confirmingSession]
  cases hc : Event.confirmed ev with
  | none => rfl
  | some actor => simp only [if_neg (h actor hc)]

theorem Commit.pending_of_confirm {svc : Service} {ctx : Context} {code : String} {version : Int}
    {acts : List Act} {body : Tx Nat} {n : Nat} {next : Prog Reply} {s s' : Store}
    (h : Commit svc (.confirmMFASetup ctx code version) acts body n next)
    (hrun : body.run svc.lower s = .ok (n, s')) :
    ∃ actor, ctx = some actor ∧ ∃ e ∈ s.userMFA.rows, e.userID = actor.id ∧
      e.status = .pending := by
  cases h with
  | @confirmMFASetup _ _ _ _ _ _ _ _ actor _ _ _ _ _ _ _ _ _ _ hrows hcodes =>
    simp [Repository.run_replaceRecoveryCodes (codes_ne_nil hrows) hcodes] at hrun
    obtain ⟨_, ⟨-, e, he, huser, hpending, -⟩, -⟩ := hrun
    exact ⟨actor, rfl, e, he, huser, hpending⟩

section Steps

variable {svc : Service} {π : Policy} {w : World} {c d : Config} {ev : Event}
  {k : ev.call.Res → Prog Reply} {a : Answer}

theorem not_enabled (h : svc.machine.Reach .sequential w c) (hf : svc.machine.Fired c ev d k a)
    {user : String} {result : Except RepositoryError MFAEnrollment}
    {enrollment : Option MFAEnrollment}
    (hread : (⟨.query (.getMFA user), result⟩ : Act) ∈ c.actsOf ev.thread)
    (hfound : found result = .ok enrollment)
    (hdisabled : enrollment.any (fun e => e.status = .enabled) = false) {e : MFAEnrollment}
    (he : e ∈ c.state.store.userMFA.rows) (huser : e.userID = user) : e.status ≠ .enabled := by
  obtain ⟨x, hx, hth, hact⟩ := Machine.Reach.mem_actsOf.1 hread
  have hsame : x.before.store.userMFA = c.state.store.userMFA :=
    unchanged_since (.inr rfl) (fun hframe hn => hframe.userMFA hn) h hf hx hth
  have hselect : e ∈ x.before.store.select svc.lower (.getMFA user) :=
    List.mem_filter.2 ⟨hsame ▸ he, by simpa using huser⟩
  obtain ⟨row, rfl, rfl⟩ | ⟨rfl, rfl⟩ := found_eq_ok.1 hfound
  · have hrow := List.mem_filter.1 (read_select h hx hact)
    simp only [decide_eq_true_eq] at hrow
    obtain rfl := Table.eq_of_clash he (hsame ▸ hrow.1)
      (by simp [Constrained.clash, huser, hrow.2])
    simpa using hdisabled
  · rw [read_notFound h hx hact] at hselect
    cases hselect

theorem pending_of_confirmed (h : svc.machine.Reach π w c) (hf : svc.machine.Fired c ev d k a)
    {actor : Principal} (hconfirmed : Event.confirmed ev = some actor) {e : MFAEnrollment}
    (he : e ∈ c.state.store.userMFA.rows) (huser : e.userID = actor.id) :
    e.status = .pending := by
  unfold Event.confirmed at hconfirmed
  split at hconfirmed
  · rename_i ctx code version reply hop hout
    obtain ⟨body, n, next, hcom⟩ := committed_of_ok h hf (by rw [hop]; rfl) hout
    have hcommit := hcom.commit
    rw [hop] at hcommit
    obtain ⟨actor', hctx, e', he', huser', hpending⟩ := hcommit.pending_of_confirm hcom.run
    cases hctx.symm.trans hconfirmed
    obtain rfl := Table.eq_of_clash he he' (by simp [Constrained.clash, huser, huser'])
    exact hpending
  · cases hconfirmed

def SecondFactorHeld (c : Config) : Prop :=
  ∀ e ∈ c.state.store.userMFA.rows, e.status = .enabled →
    ∀ r ∈ c.state.store.sessions.rows, r.userID = e.userID → r.revokedAt = none →
      c.state.clock < r.expiresAt →
        openedByChallenge r.id c.history = true ∨
          confirmingSession e.userID c.history = some r.id

theorem SecondFactorHeld.kept (ih : SecondFactorHeld c) (h : svc.machine.Reach .sequential w c)
    (hf : svc.machine.Fired c ev d k a) (hmono : c.state.clock ≤ d.state.clock) {e : MFAEnrollment}
    (he : e ∈ c.state.store.userMFA.rows) (henabled : e.status = .enabled) {r : Session}
    (hr : r ∈ d.state.store.sessions.rows) (huser : r.userID = e.userID)
    (hrev : r.revokedAt = none) (hlive : d.state.clock < r.expiresAt) :
    openedByChallenge r.id d.history = true ∨
      confirmingSession e.userID d.history = some r.id := by
  have hconfirmed : ∀ actor, Event.confirmed ev = some actor → actor.id ≠ e.userID := by
    intro actor hactor hid
    have := pending_of_confirmed h hf hactor he hid.symm
    rw [henabled] at this
    cases this
  rw [hf.history, confirmingSession_of_ne hconfirmed]
  obtain ⟨old, hold, hevolves⟩ | ⟨_, _, _, _, _, -, hissued, -, happend⟩ :=
    (sessionChange_of_step h hf).origin hr
  · rw [hevolves.id, openedByChallenge_of_ne (not_opened h hf hold)]
    refine ih e he henabled old hold (hevolves.userID ▸ huser) (hevolves.unrevoked hrev) ?_
    exact hevolves.expiresAt ▸ lt_of_le_of_lt hmono hlive
  · obtain ⟨hopened, hopening⟩ := opening_of_step h hf hissued happend
    generalize hop : ev.request = op at hopening
    generalize hacts : c.actsOf ev.thread = acts at hopening
    cases hopening with
    | login _ _ hfound hdisabled =>
      refine absurd henabled (not_enabled h hf ?_ hfound hdisabled he huser.symm)
      rw [hacts]
      simp
    | challenge => exact .inl (by simp only [openedByChallenge, hopened, if_true, hop])

theorem SecondFactorHeld.step (ih : SecondFactorHeld c)
    (h : svc.machine.Reach (.both .sequential Policy.monotone) w c)
    (hf : svc.machine.Fired c ev d k a) (hmono : c.state.clock ≤ d.state.clock) :
    SecondFactorHeld d := by
  intro e' he' henabled r hr huser hrev hlive
  obtain ⟨body, n, next, hcom⟩ | hstore := committed_or_store_eq h hf
  · obtain ⟨e, he, hid, hold⟩ | ⟨actor, code, version, now, hop, hid, hclock, hsessions⟩ :=
      (hcom.commit.mfaChange hcom.run).enabled_origin he' henabled
    · rw [← hid] at huser ⊢
      exact ih.kept h.left hf hmono he hold hr huser hrev hlive
    · -- Every session but the confirming one has been revoked, or is past its time.
      have hacting : r.id = actor.sessionID := by
        by_contra hne
        have hexpired := hsessions r hr (huser.trans hid) hne hrev
        exact absurd (hexpired.trans ((time_le h.right hclock).trans hmono)) (not_le.2 hlive)
      obtain ⟨reply, hreply⟩ := hcom.ok (by rw [hop]; rfl)
      refine .inr ?_
      rw [hf.history, confirmingSession]
      simp only [Event.confirmed, hop, hreply, hid, if_true, hacting]
  · exact ih.kept h.left hf hmono (hstore ▸ he') henabled hr huser hrev hlive

end Steps

/-- When calls run one at a time, every live session of a user whose second factor is enabled was
opened by `VerifyMFAChallenge`, or is the one that performed the latest `ConfirmMFASetup`. -/
theorem live_sessions_passed_second_factor (svc : Service) (clock : Time) (c : Config)
    (h : svc.machine.Reach (.both .sequential Policy.monotone) (start clock) c) :
    ∀ e ∈ c.state.store.userMFA.rows, e.status = .enabled →
      ∀ r ∈ c.state.store.sessions.rows, r.userID = e.userID → r.revokedAt = none →
        c.state.clock < r.expiresAt →
          openedByChallenge r.id c.history = true ∨
            confirmingSession e.userID c.history = some r.id := by
  refine Machine.Run.invariant (I := SecondFactorHeld) h ?_ ?_ ?_
  · intro e he
    cases he
  · intro d q _ ih
    exact ih
  · intro d ev d' k a hd ih hf hp
    refine ih.step hd hf ?_
    rw [hf.state, ← hf.before]
    exact hp.2

theorem live_sessions_passed_second_factor_enrolled : ∃ c : Config,
    (sample [] (some sample.crypto)).machine.Reach (.both .sequential Policy.monotone) (start 0) c ∧
    ∃ e ∈ c.state.store.userMFA.rows, e.status = .enabled ∧
      ∃ r ∈ c.state.store.sessions.rows, r.userID = e.userID ∧ r.revokedAt = none ∧
        c.state.clock < r.expiresAt ∧
        (openedByChallenge r.id c.history = true ∨
          confirmingSession e.userID c.history = some r.id) := by
  obtain ⟨c, hc, e, he, henabled, r, hr, huser, hrev, hlive⟩ : ∃ c,
      (sample [] (some sample.crypto)).machine.Reach (.both .sequential Policy.monotone)
        (start 0) c ∧
      ∃ e ∈ c.state.store.userMFA.rows, e.status = .enabled ∧
        ∃ r ∈ c.state.store.sessions.rows, r.userID = e.userID ∧ r.revokedAt = none ∧
          c.state.clock < r.expiresAt :=
    Machine.replay_exists (sample.signIn ++ sample.enrol ++ sample.challenge ++ sample.answer 5)
      (by decide +kernel)
  exact ⟨c, hc, e, he, henabled, r, hr, huser, hrev, hlive,
    live_sessions_passed_second_factor _ _ c hc e he henabled r hr huser hrev hlive⟩

end IdentityService
