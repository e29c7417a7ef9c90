import IdentityService.Login.Opened

/-! Sessions and locked accounts. -/

namespace IdentityService

open Lib Service

def User.lockedAt (u : User) (t : Time) : Bool := u.lockedUntil.any (fun until' => t < until')

section Commits

variable {svc : Service} {name password : String} {client : SessionClient} {acts : List Act}
  {body : Tx Nat} {n : Nat} {next : Prog Reply} {s s' : Store}

theorem Commit.first_of_login (h : Commit svc (.login name password client) acts body n next)
    (hrun : body.run svc.lower s = .ok (n, s')) {now : Time} {user : User} {credential : Credential}
    (hacts : acts = [.clock now, .read (.passwordCredential user.id) credential,
      .read (.userByLogin (Go.trimSpace name)) user]) :
    next.outcome.isSome ∨ ∀ u ∈ s'.users.rows, u.id = user.id → u.lockedUntil = none := by
  cases h with
  | loginFailed => exact .inl rfl
  | @loginVerified _ _ _ _ _ user' =>
    obtain rfl : user' = user := by
      have hlast := congrArg List.getLast? hacts
      simp only [List.getLast?_cons_cons, List.getLast?_singleton, Option.some.injEq,
        Sigma.mk.injEq, heq_eq_eq, true_and] at hlast
      exact Except.ok.inj hlast
    simp at hrun
    obtain ⟨⟨t, ht, -, rfl⟩, -⟩ := hrun
    refine .inr fun u hu hid => ?_
    have hu : u ∈ t.rows := hu
    rw [ht, Update.mem_map_apply] at hu
    obtain ⟨-, hg⟩ | ⟨old, -, -, rfl⟩ := hu
    · by_contra hlocked
      rw [Repository.resetLoginUpdate_guard.2 ⟨hid, .inr hlocked⟩] at hg
      cases hg
    · rfl
  | loginChallenge | loginSession =>
    have hlength := congrArg List.length hacts
    simp at hlength

end Commits

section Steps

variable {svc : Service} {w : World} {c d : Config} {ev : Event} {k : ev.call.Res → Prog Reply}
  {a : Answer}

theorem unlocked_of_login (h : svc.machine.Reach .sequential w c)
    (hf : svc.machine.Fired c ev d k a) {name password : String} {client : SessionClient}
    (hop : ev.request = .login name password client) (newer : List Act) {body : Tx Nat} {m : Nat}
    {now : Time} {user : User} {credential : Credential}
    (hacts : c.actsOf ev.thread = newer ++ .committed body m :: [.clock now,
      .read (.passwordCredential user.id) credential,
      .read (.userByLogin (Go.trimSpace name)) user])
    (hquiet : ∀ body n, Act.committed body n ∉ newer) :
    ∀ u ∈ c.state.store.users.rows, u.id = user.id → u.lockedUntil = none := by
  obtain ⟨c0, c1, e, k', a', h0, hf', hact, hacts', he, hthread, hstore⟩ :=
    store_since h hf hacts hquiet
  obtain ⟨next, hcom⟩ := committed_of_act h0 hf' hact
  have hcommit := hcom.commit
  rw [h.request_eq hf he hthread, hop] at hcommit
  rw [← hstore]
  obtain hend | hunlocked := hcommit.first_of_login hcom.run hacts'
  · exact absurd hthread (h.thread_ne_of_outcome hf he (hcom.outcome ▸ hend))
  · exact hunlocked

theorem user_of_challenge (h : svc.machine.Reach .sequential w c)
    (hf : svc.machine.Fired c ev d k a) (newer : List Act) {older : List Act} {userID : String}
    {user : User}
    (hacts : c.actsOf ev.thread = newer ++ .read (.getUser userID) user :: older)
    (hquiet : ∀ body n, Act.committed body n ∉ newer) :
    user ∈ c.state.store.users.rows ∧ user.id = userID := by
  obtain ⟨c0, c1, e, k', a', h0, hf', hact, -, he, -, hstore⟩ := store_since h hf hacts hquiet
  obtain ⟨hmem, hid⟩ := List.mem_filter.1 (read_select h he hact)
  rw [hf'.before, ← store_eq_of_not_committed hf' (by simp [hact, Act.committed]), hstore] at hmem
  exact ⟨hmem, of_decide_eq_true hid⟩

end Steps

/-- With operations run one after another, a session is inserted for a user who is locked at the
time of the operation exactly when a challenge is answered and the user that the call has read is
locked. -/
theorem session_while_locked_iff (svc : Service) (clock : Time) (d : Config)
    (h : svc.machine.Reach .sequential (start clock) d) (later earlier : List Event) (ev : Event)
    (hsplit : d.history = later ++ ev :: earlier) (r : Session)
    (hr : r ∈ ev.after.store.sessions.rows)
    (hnew : ∀ x ∈ ev.before.store.sessions.rows, x.id ≠ r.id) :
    ∃ now, callTime earlier ev.thread = some now ∧
      ((∃ u ∈ ev.before.store.users.rows, u.id = r.userID ∧ u.lockedAt now = true) ↔
        (∃ token code recoveryCode, ev.request = .verifyMFAChallenge token code recoveryCode) ∧
        ∃ user : User, Act.read (.getUser r.userID) user ∈ threadActs earlier ev.thread ∧
          user.lockedAt now = true) := by
  obtain ⟨c, c', k, a, hc, rfl, hf, -, -⟩ := h.event_split hsplit
  rw [hf.before] at hnew ⊢
  rw [← hf.state] at hr
  obtain ⟨x, hx, hev⟩ | ⟨draft, actor, userID, client, rest, -, hissued, -, hrows⟩ :=
    (sessionChange_of_step hc hf).origin hr
  · exact absurd hev.id.symm (hnew x hx)
  · obtain ⟨-, hopening⟩ := opening_of_step hc hf hissued hrows
    have hacts : threadActs c.history ev.thread = c.actsOf ev.thread := rfl
    rw [callTime, hacts]
    generalize hop : ev.request = op at hopening
    generalize hthread : c.actsOf ev.thread = acts at hopening
    cases hopening with
    | @login _ _ _ now body m result _ user credential draft huser =>
      refine ⟨now, rfl, ⟨?_, ?_⟩⟩
      · rintro ⟨u, hu, hid, hlocked⟩
        rw [← huser] at hthread hid
        have hnone := unlocked_of_login hc hf hop
          (draft.acts svc user.id ++ [⟨.query (.getMFA user.id), result⟩])
          (by rw [hthread, List.append_assoc]; rfl) (by simp [Sigma.ext_iff]) u hu hid
        simp [User.lockedAt, hnone] at hlocked
      · rintro ⟨⟨_, _, _, hop'⟩, -⟩
        cases hop'
    | @challenge _ _ _ now challenge user enrollment draft =>
      obtain ⟨huser, hid⟩ := user_of_challenge hc hf
        (draft.acts svc r.userID ++ [.read (.getMFA r.userID) enrollment])
        (by rw [hthread, List.append_assoc]; rfl) (by simp)
      refine ⟨now, rfl, ⟨?_, ?_⟩⟩
      · rintro ⟨u, hu, huid, hlocked⟩
        obtain rfl := Table.eq_of_key hu huser (huid.trans hid.symm)
        exact ⟨⟨_, _, _, rfl⟩, u, by simp, hlocked⟩
      · rintro ⟨-, user', hread, hlocked⟩
        simp at hread
        obtain rfl := Except.ok.inj hread
        exact ⟨user', huser, hid, hlocked⟩

namespace sample

def lockOut : List (Choice Op Answer) :=
  (List.range 5).flatMap fun n => [.start (.login "bob" "wrong password" client),
    .step (5 + n) (.row 0), .step (5 + n) (.row 0), .step (5 + n) (.time (210 * Go.second)),
    .step (5 + n) .done]

end sample

theorem locked_user_gets_session : ∃ d : Config,
    (sample [] (some sample.crypto)).machine.Reach (Policy.sequential.both Policy.monotone)
      (start 0) d ∧
    ∃ ev ∈ d.history.take 1, ∃ r ∈ ev.after.store.sessions.rows,
      (∀ x ∈ ev.before.store.sessions.rows, x.id ≠ r.id) ∧
      ∃ u ∈ ev.before.store.users.rows, u.id = r.userID ∧
        (callTime (d.history.drop 1) ev.thread).any u.lockedAt = true :=
  Machine.replay_exists
    (sample.signIn ++ sample.enrol ++ sample.challenge ++ sample.lockOut ++ sample.answer 10)
    (by decide +kernel)

theorem session_while_locked_iff_signed_in : ∃ d : Config,
    (sample [] none).machine.Reach .sequential (start 0) d ∧
    ∃ ev ∈ d.history, ∃ r ∈ ev.after.store.sessions.rows,
      (∀ x ∈ ev.before.store.sessions.rows, x.id ≠ r.id) ∧
      ∃ earlier now, callTime earlier ev.thread = some now ∧
        ((∃ u ∈ ev.before.store.users.rows, u.id = r.userID ∧ u.lockedAt now = true) ↔
          (∃ token code recoveryCode, ev.request = .verifyMFAChallenge token code recoveryCode) ∧
          ∃ user : User, Act.read (.getUser r.userID) user ∈ threadActs earlier ev.thread ∧
            user.lockedAt now = true) := by
  obtain ⟨d, hd, ev, hev, r, hr, hnew⟩ : ∃ d : Config,
      (sample [] none).machine.Reach .sequential (start 0) d ∧
      ∃ ev ∈ d.history, ∃ r ∈ ev.after.store.sessions.rows,
        ∀ x ∈ ev.before.store.sessions.rows, x.id ≠ r.id :=
    Machine.replay_exists sample.signIn (by decide +kernel)
  obtain ⟨later, earlier, hsplit⟩ := List.append_of_mem hev
  exact ⟨d, hd, ev, hev, r, hr, hnew, earlier,
    session_while_locked_iff _ 0 d hd later earlier ev hsplit r hr hnew⟩

end IdentityService
