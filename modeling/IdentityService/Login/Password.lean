import IdentityService.Login.Opened

/-! Replacing a password, and the sessions that the old password has opened. -/

namespace IdentityService

open Lib Service

def actingSession : Op → Option String
  | .changePassword (some actor) _ _ => some actor.sessionID
  | _ => none

inductive CredentialChange (op : Op) (acts : List Act) (s s' : Store) : Prop
  | keep (hrows : s'.credentials = s.credentials)
  | insert (credential : Credential)
      (hrows : s'.credentials.rows = s.credentials.rows ++ [credential])
  | replace (credential : Credential) (hash actor user : String) (now : Time)
      (hread : Act.read (.passwordCredential user) credential ∈ acts)
      (hclock : Act.clock now ∈ acts)
      (hrows : s'.credentials.rows = s.credentials.rows.map
        (Repository.passwordUpdate credential.id hash actor credential.version now).apply)
      (hsessions : ∀ r ∈ s'.sessions.rows, r.userID = user → actingSession op ≠ some r.id →
        r.revokedAt = none → r.expiresAt ≤ now)

theorem Commit.credentialChange {svc : Service} {op : Op} {acts : List Act} {body : Tx Nat}
    {n : Nat} {next : Prog Reply} {s s' : Store} (h : Commit svc op acts body n next)
    (hrun : body.run svc.lower s = .ok (n, s')) : CredentialChange op acts s s' := by
  have hframe := h.frame hrun
  cases h with
  | register =>
    simp at hrun
    obtain ⟨_, -, t, ht, ⟨_, -, rfl⟩, -⟩ := hrun
    exact .insert _ ht
  | @changePassword _ _ _ _ _ _ actor credential =>
    simp at hrun
    obtain ⟨t, ⟨ht, -⟩, t', ht', ⟨_, -, rfl⟩, -⟩ := hrun
    refine .replace credential _ _ actor.id _ (by simp) (by simp) ht ?_
    intro r hr huser hacting hrev
    rw [ht'] at hr
    have hextra := unrevoked_of_revoke hr hrev
    simp only [actingSession, ne_eq, Option.some.injEq] at hacting
    simpa [huser, Ne.symm hacting] using hextra
  | @confirmPasswordReset _ _ _ _ _ _ challenge _ credential =>
    simp at hrun
    obtain ⟨_, -, t, ⟨ht, -⟩, t', ht', ⟨_, -, rfl⟩, -⟩ := hrun
    refine .replace credential _ _ challenge.userID _ (by simp) (by simp) ht ?_
    intro r hr huser _ hrev
    rw [ht'] at hr
    have hextra := unrevoked_of_revoke hr hrev
    simpa [huser] using hextra
  | _ => exact .keep (hframe.credentials (by simp [Op.writes]))

theorem CredentialChange.evolves {op : Op} {acts : List Act} {s s' : Store}
    (h : CredentialChange op acts s s') {r : Credential} (hr : r ∈ s.credentials.rows) :
    ∃ r' ∈ s'.credentials.rows, r'.id = r.id ∧ r'.userID = r.userID ∧ r'.type = r.type ∧
      r.version ≤ r'.version := by
  cases h with
  | keep hrows => exact ⟨r, hrows ▸ hr, rfl, rfl, rfl, le_rfl⟩
  | insert credential hrows =>
    exact ⟨r, hrows ▸ List.mem_append_left _ hr, rfl, rfl, rfl, le_rfl⟩
  | replace credential hash actor user now hread hclock hrows =>
    refine ⟨_, hrows ▸ List.mem_map_of_mem hr, ?_⟩
    unfold Update.apply
    split
    · refine ⟨rfl, rfl, rfl, ?_⟩
      rw [Repository.passwordUpdate_assign]
      exact Int.le_add_one le_rfl
    · exact ⟨rfl, rfl, rfl, le_rfl⟩

def Act.credentialVersion : Act → Option Int
  | ⟨.query (.passwordCredential _), .ok row⟩ =>
    let credential : Credential := row
    some credential.version
  | _ => none

def checkedVersion (history : List Event) (thread : Nat) : Option Int :=
  (threadActs history thread).findSome? Act.credentialVersion

def Event.challenged (ev : Event) : Option String :=
  match ev.request, ev.outcome with
  | .login _ _ _, some (.ok (.login result)) =>
    if result.mfaRequired then some result.mfaChallengeToken else none
  | _, _ => none

def challengeVersion (svc : Service) (tokenHash : String) : List Event → Option Int
  | [] => none
  | ev :: earlier =>
    if (Event.challenged ev).any (fun token => svc.hashMFAChallengeToken token = tokenHash) then
      checkedVersion earlier ev.thread
    else challengeVersion svc tokenHash earlier

def flowVersion (svc : Service) (sessionID : String) : List Event → Option Int
  | [] => none
  | ev :: earlier =>
    if Event.opened ev = some sessionID then
      match ev.request with
      | .verifyMFAChallenge token _ _ =>
        challengeVersion svc (svc.hashMFAChallengeToken (Go.trimSpace token)) earlier
      | _ => checkedVersion earlier ev.thread
    else flowVersion svc sessionID earlier

theorem flowVersion_of_ne {svc : Service} {sid : String} {ev : Event} {earlier : List Event}
    (h : Event.opened ev ≠ some sid) :
    flowVersion svc sid (ev :: earlier) = flowVersion svc sid earlier := by
  simp only [flowVersion, if_neg h]

/-- A challenge is only turned into a session while the credential still has the version that
the login had checked. -/
def Policy.currentChallenges (svc : Service) : Policy :=
  .onEvents fun c ev =>
    match ev.request with
    | .verifyMFAChallenge token _ _ =>
      ∀ r ∈ ev.after.store.sessions.rows, r ∉ ev.before.store.sessions.rows →
        ∀ credential ∈ ev.before.store.credentials.rows, credential.userID = r.userID →
          challengeVersion svc (svc.hashMFAChallengeToken (Go.trimSpace token)) c.history =
            some credential.version
    | _ => True

instance (svc : Service) (c : Config) (q : Op) :
    Decidable ((Policy.currentChallenges svc).start c q) := .isTrue trivial

instance (svc : Service) (c : Config) (ev : Event) :
    Decidable ((Policy.currentChallenges svc).event c ev) := by
  show Decidable (match ev.request with | .verifyMFAChallenge token _ _ => _ | _ => True)
  split <;> infer_instance

section Steps

variable {svc : Service} {π : Policy} {w : World} {c d : Config} {ev : Event}
  {k : ev.call.Res → Prog Reply} {a : Answer}

theorem credentialChange_of_step (h : svc.machine.Reach π w c)
    (hf : svc.machine.Fired c ev d k a) :
    CredentialChange ev.request (c.actsOf ev.thread) c.state.store d.state.store := by
  obtain ⟨body, n, next, hcom⟩ | hstore := committed_or_store_eq h hf
  · exact hcom.commit.credentialChange hcom.run
  · exact .keep (by rw [hstore])

theorem credential_current (h : svc.machine.Reach .sequential w c)
    (hf : svc.machine.Fired c ev d k a) {user : String} {credential : Credential}
    (hread : Act.read (.passwordCredential user) credential ∈ c.actsOf ev.thread) :
    credential ∈ c.state.store.credentials.rows ∧ credential.userID = user ∧
      credential.type = "password" := by
  obtain ⟨e, he, hth, hact⟩ := Machine.Reach.mem_actsOf.1 hread
  have hsame : e.before.store.credentials = c.state.store.credentials :=
    unchanged_since (.inl rfl) (fun hframe hn => hframe.credentials hn) h hf he hth
  have hrow := List.mem_filter.1 (read_select h he hact)
  simp only [Bool.and_eq_true, decide_eq_true_eq] at hrow
  exact ⟨hsame ▸ hrow.1, hrow.2⟩

theorem flowVersion_of_created (h : svc.machine.Reach .sequential w c)
    (hf : svc.machine.Fired c ev d k a) (hp : (Policy.currentChallenges svc).event c ev)
    {tokens : Tokens} (hissued : issued ev.outcome = some tokens) {r : Session}
    (hrows : d.state.store.sessions.rows = c.state.store.sessions.rows ++ [r]) {x : Credential}
    (hx : x ∈ c.state.store.credentials.rows) (huser : x.userID = r.userID)
    (htype : x.type = "password") : flowVersion svc r.id d.history = some x.version := by
  obtain ⟨hopened, hopening⟩ := opening_of_step h hf hissued hrows
  rw [hf.history]
  simp only [flowVersion, hopened, if_true]
  generalize hop : ev.request = op at hopening
  generalize hacts : c.actsOf ev.thread = acts at hopening
  cases hopening with
  | @login _ _ _ _ _ _ _ _ _ credential =>
    have hread : Act.read (.passwordCredential r.userID) credential ∈ c.actsOf ev.thread := by
      rw [hacts]
      simp
    obtain ⟨hmem, howner, hkind⟩ := credential_current h hf hread
    have heq : credential = x := Table.eq_of_clash hmem hx
      (by simp [Constrained.clash, howner, hkind, huser, htype])
    rw [← heq]
    show (threadActs c.history ev.thread).findSome? Act.credentialVersion = _
    rw [show threadActs c.history ev.thread = c.actsOf ev.thread from rfl, hacts]
    rfl
  | challenge =>
    have hnew : r ∉ c.state.store.sessions.rows := fun hr => id_ne_of_append hrows r hr rfl
    simp only [Policy.currentChallenges, Lib.Policy.onEvents, hop] at hp
    refine hp r ?_ ?_ x ?_ huser
    · rw [← hf.state, hrows]
      simp
    · rwa [hf.before]
    · rwa [hf.before]

structure PasswordMoved (svc : Service) (user : String) (version : Int) (acting : Option String)
    (c : Config) : Prop where
  credential : ∃ x ∈ c.state.store.credentials.rows, x.userID = user ∧ x.type = "password" ∧
    version < x.version
  sessions : ∀ r ∈ c.state.store.sessions.rows, r.userID = user → acting ≠ some r.id →
    r.revokedAt = none → c.state.clock < r.expiresAt →
      ∃ v, flowVersion svc r.id c.history = some v ∧ version < v

variable {user : String} {version : Int} {acting : Option String}

theorem PasswordMoved.step (ih : PasswordMoved svc user version acting c)
    (h : svc.machine.Reach .sequential w c) (hf : svc.machine.Fired c ev d k a)
    (hmono : ev.before.clock ≤ ev.after.clock) (hp : (Policy.currentChallenges svc).event c ev) :
    PasswordMoved svc user version acting d := by
  obtain ⟨x, hx, hxuser, hxtype, hxversion⟩ := ih.credential
  refine ⟨?_, fun r' hr' huser hacting hrev hlive => ?_⟩
  · obtain ⟨x', hx', -, huser, htype, hversion⟩ := (credentialChange_of_step h hf).evolves hx
    exact ⟨x', hx', huser.trans hxuser, htype.trans hxtype, hxversion.trans_le hversion⟩
  · obtain ⟨r, hr, hevolves⟩ | ⟨_, _, _, _, _, -, hissued, -, happend⟩ :=
      (sessionChange_of_step h hf).origin hr'
    · rw [← hf.state, hf.before] at hmono
      rw [hevolves.expiresAt] at hlive
      rw [hevolves.id] at hacting ⊢
      rw [hf.history, flowVersion_of_ne (not_opened h hf hr)]
      exact ih.sessions r hr (hevolves.userID ▸ huser) hacting (hevolves.unrevoked hrev)
        (lt_of_le_of_lt hmono hlive)
    · exact ⟨x.version, flowVersion_of_created h hf hp hissued happend hx
        (hxuser.trans huser.symm) hxtype, hxversion⟩

theorem PasswordMoved.of_replaced (h : svc.machine.Reach (.both .sequential Policy.monotone) w c)
    (hf : svc.machine.Fired c ev d k a) {x : Credential}
    (hbefore : x ∈ ev.before.store.credentials.rows)
    (hafter : x ∉ ev.after.store.credentials.rows) :
    PasswordMoved svc x.userID x.version (actingSession ev.request) d := by
  rw [hf.before] at hbefore
  rw [← hf.state] at hafter
  obtain ⟨body, n, next, hcom⟩ | hstore := committed_or_store_eq h hf
  · cases hcom.commit.credentialChange hcom.run with
    | keep hrows => exact absurd (hrows ▸ hbefore) hafter
    | insert credential hrows => exact absurd (hrows ▸ List.mem_append_left _ hbefore) hafter
    | replace credential hash actor user now hread hclock hrows hsessions =>
      have hg : (Repository.passwordUpdate credential.id hash actor credential.version now).guard x
          = true := by
        by_contra hg
        exact hafter (hrows ▸ Update.mem_map_apply.2 (.inl ⟨hbefore, Bool.eq_false_iff.2 hg⟩))
      obtain ⟨hid, htype, -, hversion⟩ := Repository.passwordUpdate_guard.1 hg
      -- The replaced row is the one the call has read.
      obtain ⟨hmem, howner, -⟩ := credential_current h.left hf hread
      obtain rfl := Table.eq_of_clash hbefore hmem (by simp [Constrained.clash, hid])
      have hnew : (Repository.passwordUpdate x.id hash actor x.version now).assign x ∈
          d.state.store.credentials.rows :=
        hrows ▸ Update.assign_mem hbefore hg
      refine ⟨⟨_, hnew, rfl, htype, ?_⟩, ?_⟩
      · rw [Repository.passwordUpdate_assign]
        exact Int.lt_add_one_of_le le_rfl
      · intro r hr huser hacting hrev hlive
        have hexpired := hsessions r hr (huser.trans howner) hacting hrev
        have hnow := time_le h.right hclock
        rw [hcom.clock] at hlive
        exact absurd (hexpired.trans hnow) (not_le.2 hlive)
  · exact absurd (hstore ▸ hbefore) hafter

end Steps

/-- When challenges are only turned into sessions under the credential version that the login
had checked, then after a password has been replaced every live session of the user, but the one
that changed it, was opened by a flow that checked a later version. -/
theorem replaced_password_ends_sessions (svc : Service) (w : World) (c : Config)
    (h : svc.machine.Reach (.both (.both .sequential Policy.monotone)
      (Policy.currentChallenges svc)) w c) :
    ∀ e ∈ c.history, ∀ x ∈ e.before.store.credentials.rows,
      x ∉ e.after.store.credentials.rows →
      ∀ r ∈ c.state.store.sessions.rows, r.userID = x.userID →
        actingSession e.request ≠ some r.id → r.revokedAt = none → c.state.clock < r.expiresAt →
        ∃ v, flowVersion svc r.id c.history = some v ∧ x.version < v := by
  intro e he x hbefore hafter
  obtain ⟨c0, c1, k, a, h0, hf, hp, h1⟩ := h.event_of_mem he
  have hmoved := PasswordMoved.of_replaced h0.left hf hbefore hafter
  have hreach := h0.trans (Machine.Run.fired .refl hf hp)
  refine (Machine.Run.invariant (I := PasswordMoved svc x.userID x.version
    (actingSession e.request)) h1 hmoved ?_ ?_).sessions
  · intro d q _ ih
    exact ⟨ih.credential, ih.sessions⟩
  · intro d ev d' k a hd ih hf hp
    exact ih.step (hreach.trans hd).left.left hf hp.1.2 hp.2

namespace sample

def change (thread : Nat) : List (Choice Op Answer) :=
  [.start (.changePassword bob "correct horse" "battery staple"), .step thread (.row 0),
    .step thread (.value "salt2"), .step thread (.time (210 * Go.second)),
    .step thread (.value "e3"), .step thread .done]

def relogin : List (Choice Op Answer) :=
  [.start (.login "bob" "battery staple" client), .step 3 (.row 0), .step 3 (.row 0),
    .step 3 (.time (230 * Go.second)), .step 3 .done, .step 3 (.row 0),
    .step 3 (.time (231 * Go.second)), .step 3 (.value "r3"), .step 3 (.value "s3"),
    .step 3 (.time (232 * Go.second)), .step 3 (.value "t3"), .step 3 .done, .step 3 .done]

end sample

/-- A challenge that the old password has earned still opens a session after the change. -/
theorem challenge_outlives_password : ∃ c : Config,
    (sample [] (some sample.crypto)).machine.Reach (.both .sequential Policy.monotone) (start 0) c ∧
    ∃ e ∈ c.history, ∃ x ∈ e.before.store.credentials.rows,
      x ∉ e.after.store.credentials.rows ∧
      ∃ r ∈ c.state.store.sessions.rows, r.userID = x.userID ∧
        actingSession e.request ≠ some r.id ∧ r.revokedAt = none ∧ c.state.clock < r.expiresAt ∧
        flowVersion (sample [] (some sample.crypto)) r.id c.history = some x.version :=
  Machine.replay_exists
    (sample.signIn ++ sample.enrol ++ sample.challenge ++ sample.change 5 ++ sample.answer 6)
    (by decide +kernel)

theorem replaced_password_ends_sessions_relogin : ∃ c : Config,
    (sample [] none).machine.Reach (.both (.both .sequential Policy.monotone)
      (Policy.currentChallenges (sample [] none))) (start 0) c ∧
    ∃ e ∈ c.history, ∃ x ∈ e.before.store.credentials.rows,
      x ∉ e.after.store.credentials.rows ∧ ∃ r ∈ c.state.store.sessions.rows,
        r.userID = x.userID ∧ actingSession e.request ≠ some r.id ∧ r.revokedAt = none ∧
        c.state.clock < r.expiresAt ∧
        ∃ v, flowVersion (sample [] none) r.id c.history = some v ∧ x.version < v := by
  obtain ⟨c, hc, e, he, x, hx, hx', r, hr, huser, hacting, hrev, hlive⟩ : ∃ c,
      (sample [] none).machine.Reach (.both (.both .sequential Policy.monotone)
        (Policy.currentChallenges (sample [] none))) (start 0) c ∧
      ∃ e ∈ c.history, ∃ x ∈ e.before.store.credentials.rows,
        x ∉ e.after.store.credentials.rows ∧ ∃ r ∈ c.state.store.sessions.rows,
          r.userID = x.userID ∧ actingSession e.request ≠ some r.id ∧ r.revokedAt = none ∧
          c.state.clock < r.expiresAt :=
    Machine.replay_exists (sample.signIn ++ sample.change 2 ++ sample.relogin) (by decide +kernel)
  exact ⟨c, hc, e, he, x, hx, hx', r, hr, huser, hacting, hrev, hlive,
    replaced_password_ends_sessions _ _ c hc e he x hx hx' r hr huser hacting hrev hlive⟩

end IdentityService
