import IdentityService.Sessions.Change

/-! Revoking the sessions of a user all at once: which rows are hit, and how they are counted. -/

namespace IdentityService

open Lib Service

def Op.revokesAll : Op → Bool
  | .changePassword .. | .confirmMFASetup .. | .disableMFA .. | .confirmPasswordReset ..
  | .adminResetMFA .. => true
  | .updateUserStatus _ _ status _ _ => Status.ofString status ≠ some .active
  | _ => false

/-- The user whose sessions are revoked and the session that is spared.  A password reset learns
the user from the challenge it has read. -/
inductive Op.Revokes (svc : Service) (acts : List Act) : Op → String → Option String → Prop
  | changePassword {actor : Principal} {current new : String} :
      Op.Revokes svc acts (.changePassword (some actor) current new) actor.id
        (some actor.sessionID)
  | confirmMFASetup {actor : Principal} {code : String} {version : Int} :
      Op.Revokes svc acts (.confirmMFASetup (some actor) code version) actor.id
        (some actor.sessionID)
  | disableMFA {actor : Principal} {password code : String} {version : Int} :
      Op.Revokes svc acts (.disableMFA (some actor) password code version) actor.id
        (some actor.sessionID)
  | confirmPasswordReset {token new : String} {challenge : PasswordResetChallenge}
      (hread : Act.read (.getPasswordResetChallenge
        (svc.hashPasswordResetToken (Go.trimSpace token))) challenge ∈ acts) :
      Op.Revokes svc acts (.confirmPasswordReset token new) challenge.userID none
  | adminResetMFA {ctx : Context} {userID reason : String} {version : Int} :
      Op.Revokes svc acts (.adminResetMFA ctx userID reason version) (Go.trimSpace userID) none
  | updateUserStatus {ctx : Context} {userID status reason : String} {version : Int} :
      Op.Revokes svc acts (.updateUserStatus ctx userID status reason version) userID none

def Session.revocable (userID : String) (spared : Option String) (now : Time) (r : Session) :
    Bool :=
  r.userID = userID && spared ≠ some r.id && r.revokedAt = none && now < r.expiresAt

structure Session.RevokedAs (now : Time) (r r' : Session) : Prop where
  revokedAt : r'.revokedAt = some now
  version : r'.version = r.version + 1
  only : ∃ reason actor, r' = { r with
    revokedAt := r'.revokedAt, revokeReason := reason, version := r'.version, updatedAt := now,
    updatedBy := actor }

def RevokesExactly (userID : String) (spared : Option String) (now : Time) :
    List Session → List Session → Prop :=
  List.Forall₂ fun r r' => if r.revocable userID spared now then r.RevokedAs now r' else r' = r

def Reply.revokedSessions : Reply → Option Nat
  | .count n => some n
  | .mfaConfirmation confirmation => some confirmation.revokedSessions
  | .mfaReset result => some result.revokedSessions
  | .passwordReset result => some result.revokedSessions
  | _ => none

def Payload.revokedSessions : Payload → Option Nat
  | .passwordChanged _ count _ _ => some count
  | _ => none

def Op.changesPassword : Op → Bool
  | .changePassword .. | .confirmPasswordReset .. => true
  | _ => false

theorem Op.commitsLast_or_status {op : Op} (h : op.revokesAll = true) :
    op.commitsLast = true ∨
      ∃ ctx id status reason version, op = .updateUserStatus ctx id status reason version := by
  cases op with
  | changePassword | confirmMFASetup | disableMFA | confirmPasswordReset | adminResetMFA =>
    exact .inl rfl
  | updateUserStatus ctx id status reason version =>
    exact .inr ⟨ctx, id, status, reason, version, rfl⟩
  | _ => cases h

section Commits

variable {svc : Service} {op : Op} {acts : List Act} {body : Tx Nat} {n : Nat}
  {next : Prog Reply} {s s' : Store}

theorem revocable_other (userID sessionID : String) (now : Time) (r : Session) :
    (r.userID = userID && !decide (r.id = sessionID) && now < r.expiresAt && r.revokedAt = none) =
      r.revocable userID (some sessionID) now := by
  grind [Session.revocable]

theorem revocable_user (userID : String) (now : Time) (r : Session) :
    (r.userID = userID && now < r.expiresAt && r.revokedAt = none) =
      r.revocable userID none now := by
  grind [Session.revocable]

section Update

variable {userID reason actor : String} {spared : Option String} {now : Time}
  {extra : Session → Bool}
  (hextra : ∀ r, (extra r && r.revokedAt = none) = r.revocable userID spared now)

include hextra

theorem revocable_count (rows : List Session) :
    rows.countP (Repository.revokeUpdate extra reason actor now).guard =
      rows.countP (Session.revocable userID spared now) :=
  congrArg (rows.countP ·) (funext hextra)

theorem revokesExactly_update (rows : List Session) : RevokesExactly userID spared now rows
    (rows.map (Repository.revokeUpdate extra reason actor now).apply) := by
  rw [RevokesExactly, List.forall₂_map_right_iff, List.forall₂_same]
  intro r _
  have hguard : (Repository.revokeUpdate extra reason actor now).guard r =
      r.revocable userID spared now := hextra r
  rw [Update.apply, hguard]
  split
  · exact ⟨rfl, rfl, reason, actor, rfl⟩
  · rfl

end Update

structure MassRevocation (svc : Service) (op : Op) (acts : List Act) (s s' : Store)
    (userID : String) (spared : Option String) (now : Time) : Prop where
  target : op.Revokes svc acts userID spared
  clock : ∀ t, Act.clock t ∈ acts ↔ t = now
  sessions : RevokesExactly userID spared now s.sessions.rows s'.sessions.rows
  event : ∃ e : OutboxEvent, s'.outboxEvents.rows = s.outboxEvents.rows ++ [e] ∧
    e.payload.revokedSessions = if op.changesPassword then
      some (s.sessions.rows.countP (Session.revocable userID spared now)) else none

theorem massRevocation_of_update {userID reason actor : String} {spared : Option String}
    {now : Time} {extra : Session → Bool} {e : OutboxEvent}
    (hextra : ∀ r, (extra r && r.revokedAt = none) = r.revocable userID spared now)
    (htarget : op.Revokes svc acts userID spared) (hclock : ∀ t, Act.clock t ∈ acts ↔ t = now)
    (hsessions : s'.sessions.rows =
      s.sessions.rows.map (Repository.revokeUpdate extra reason actor now).apply)
    (hevents : s'.outboxEvents.rows = s.outboxEvents.rows ++ [e])
    (he : e.payload.revokedSessions = if op.changesPassword then
      some (s.sessions.rows.countP (Repository.revokeUpdate extra reason actor now).guard)
        else none)
    (hreply : ∀ reply, next = .ret reply → reply.revokedSessions =
      some (s.sessions.rows.countP (Repository.revokeUpdate extra reason actor now).guard)) :
    ∃ userID spared now, MassRevocation svc op acts s s' userID spared now ∧
      ∀ reply, next = .ret reply → reply.revokedSessions =
        some (s.sessions.rows.countP (Session.revocable userID spared now)) := by
  rw [revocable_count hextra] at he hreply
  exact ⟨userID, spared, now, ⟨htarget, hclock, hsessions ▸ revokesExactly_update hextra _,
    e, hevents, he⟩, hreply⟩

theorem not_drawn {draws : List Act} (hdraws : ∀ a ∈ draws, ∃ kind s, a = Act.drew kind s) {x : Act}
    (hx : ∀ kind s, x ≠ Act.drew kind s) : x ∉ draws := by
  intro hmem
  obtain ⟨kind, s, heq⟩ := hdraws x hmem
  exact hx kind s heq

theorem Commit.massRevocation (h : Commit svc op acts body n next) (hop : op.revokesAll = true)
    (hrun : body.run svc.lower s = .ok (n, s')) :
    ∃ userID spared now, MassRevocation svc op acts s s' userID spared now ∧
      ∀ reply, next = .ret reply → reply.revokedSessions =
        some (s.sessions.rows.countP (Session.revocable userID spared now)) := by
  cases h with
  | changePassword _ _ _ _ hevent =>
    simp at hrun
    obtain ⟨_, -, t, ht, ⟨_, hevents, rfl⟩, rfl⟩ := hrun
    refine massRevocation_of_update (revocable_other _ _ _) .changePassword (by simp) ht hevents
      ?_ ?_
    · rw [(hevent _).2.2]
      rfl
    · rintro reply ⟨⟩
      rfl
  | confirmMFASetup _ _ _ _ _ hdraws hrows hcodes _ hevent =>
    simp [Repository.run_replaceRecoveryCodes (codes_ne_nil hrows) hcodes] at hrun
    obtain ⟨_, -, _, -, t, ht, ⟨_, hevents, rfl⟩, rfl⟩ := hrun
    refine massRevocation_of_update (revocable_other _ _ _) .confirmMFASetup (fun t => ?_) ht
      hevents ?_ ?_
    · simp [not_drawn hdraws (x := Act.clock t) (by simp)]
    · rw [hevent.2]
      rfl
    · rintro reply ⟨⟩
      rfl
  | disableMFA _ _ _ _ _ _ hevent =>
    simp at hrun
    obtain ⟨_, -, _, -, t, ht, ⟨_, hevents, rfl⟩, rfl⟩ := hrun
    refine massRevocation_of_update (revocable_other _ _ _) .disableMFA (by simp) ht hevents ?_ ?_
    · rw [hevent.2]
      rfl
    · rintro reply ⟨⟩
      rfl
  | confirmPasswordReset _ _ _ _ _ hevent =>
    simp at hrun
    obtain ⟨_, -, _, -, t, ht, ⟨_, hevents, rfl⟩, rfl⟩ := hrun
    refine massRevocation_of_update (revocable_user _ _) (.confirmPasswordReset (by simp))
      (by simp) ht hevents ?_ ?_
    · rw [(hevent _).2.2]
      rfl
    · rintro reply ⟨⟩
      rfl
  | adminResetMFA _ hevent =>
    simp at hrun
    obtain ⟨_, -, _, -, t, ht, ⟨_, hevents, rfl⟩, rfl⟩ := hrun
    refine massRevocation_of_update (revocable_user _ _) .adminResetMFA (by simp) ht hevents ?_ ?_
    · rw [hevent.2]
      rfl
    · rintro reply ⟨⟩
      rfl
  | updateUserStatus hstatus hevent =>
    simp at hrun
    simp only [Op.revokesAll, hstatus, ne_eq, Option.some.injEq, decide_eq_true_eq] at hop
    obtain ⟨_, -, ⟨hactive, -⟩ | ⟨-, t, ht, ⟨_, hevents, rfl⟩, -⟩⟩ := hrun
    · exact absurd hactive hop
    · refine massRevocation_of_update (revocable_user _ _) .updateUserStatus (by simp) ht hevents
        ?_ ?_
      · rw [hevent.2]
        rfl
      · intro reply hreply
        cases hreply
  | _ => cases hop

theorem Commit.quiet_before (h : Commit svc op acts body n next) (hop : op.revokesAll = true)
    (b : Tx Nat) (m : Nat) : Act.committed b m ∉ acts := by
  cases h with
  | confirmMFASetup _ _ _ _ _ hdraws =>
    simp [not_drawn hdraws (x := Act.committed b m) (by simp)]
  | changePassword | disableMFA | confirmPasswordReset | adminResetMFA | updateUserStatus => simp
  | _ => cases hop

end Commits

section Runs

variable {svc : Service} {π : Policy} {w : World} {c : Config} {later earlier : List Event}
  {e : Event}

theorem committed_of_split (h : svc.machine.Reach π w c)
    (hsplit : c.history = later ++ e :: earlier) {body : Tx Nat} {n : Nat}
    (hact : e.act = Act.committed body n) :
    ∃ next, Commit svc e.request (threadActs earlier e.thread) body n next ∧
      body.run svc.lower e.before.store = .ok (n, e.after.store) ∧ e.outcome = next.outcome := by
  obtain ⟨c0, c1, k, a, h0, rfl, hf, -, -⟩ := h.event_split hsplit
  obtain ⟨next, hcom⟩ := committed_of_act h0 hf hact
  exact ⟨next, hcom.commit, hf.before ▸ hf.state ▸ hcom.run, hcom.outcome⟩

theorem not_committed_before (h : svc.machine.Reach π w c)
    (hsplit : c.history = later ++ e :: earlier) (hop : e.request.revokesAll = true)
    {body : Tx Nat} {n : Nat} (hact : e.act = Act.committed body n) {x : Event} (hx : x ∈ earlier)
    (hthread : x.thread = e.thread) (body' : Tx Nat) (n' : Nat) :
    x.act ≠ Act.committed body' n' := by
  intro hact'
  obtain ⟨next, hcommit, -⟩ := committed_of_split h hsplit hact
  refine hcommit.quiet_before hop body' n' ?_
  rw [← hact']
  exact List.mem_map_of_mem (List.mem_filter.2 ⟨hx, by simpa using hthread⟩)

theorem store_eq_elsewhere (h : svc.machine.Reach π w c)
    (hsplit : c.history = later ++ e :: earlier) (hop : e.request.revokesAll = true)
    {body : Tx Nat} {n : Nat} (hact : e.act = Act.committed body n) {x : Event}
    (hx : x ∈ later ++ earlier) (hthread : x.thread = e.thread) :
    x.after.store = x.before.store := by
  have hmem : x ∈ c.history ∧ e ∈ c.history := by
    rw [hsplit]
    refine ⟨?_, List.mem_append_right _ List.mem_cons_self⟩
    obtain hx | hx := List.mem_append.1 hx
    · exact List.mem_append_left _ hx
    · exact List.mem_append_right _ (List.mem_cons_of_mem _ hx)
  obtain ⟨c0, c1, k, a, h0, hf, -, h1⟩ := h.event_of_mem hmem.1
  rw [← hf.state, hf.before]
  refine store_eq_of_not_committed hf ?_
  rintro ⟨body', n', hact'⟩
  obtain hx | hx := List.mem_append.1 hx
  · obtain ⟨newer, older, rfl⟩ := List.append_of_mem hx
    have hsplit' : c.history = newer ++ x :: (older ++ e :: earlier) := by simp [hsplit]
    have hrequest : x.request = e.request := h.request_eq_of_mem hmem.1 hmem.2 hthread
    exact not_committed_before h hsplit' (hrequest ▸ hop) hact' (by simp) hthread.symm body n hact
  · exact not_committed_before h hsplit hop hact hx hthread body' n' hact'

theorem commit_of_revokesAll (h : svc.machine.Reach π w c) {ev : Event} (hev : ev ∈ c.history)
    (hop : ev.request.revokesAll = true) {reply : Reply} (hout : ev.outcome = some (.ok reply)) :
    ∃ e ∈ c.history, e.thread = ev.thread ∧ (∃ body n, e.act = Act.committed body n) ∧
      (e = ev ∨ ev.request.commitsLast = false) := by
  obtain ⟨c0, c1, k, a, h0, hf, -, h1⟩ := h.event_of_mem hev
  by_cases hlast : ev.request.commitsLast = true
  · obtain ⟨body, n, next, hcom⟩ := committed_of_ok h0 hf hlast hout
    exact ⟨ev, hev, rfl, ⟨body, n, hcom.act⟩, .inl rfl⟩
  · have hclean : ∀ cleaner fuel, ev.request ≠ .clean cleaner fuel := by
      intro cleaner fuel hreq
      rw [hreq] at hop
      cases hop
    have hwrites : ev.request.writes ≠ [] := by
      intro hnil
      cases hreq : ev.request <;> simp [hreq, Op.revokesAll, Op.writes] at hop hnil
    obtain ⟨body, n, hmem⟩ := h0.ends hf (ends_hasCommit svc _ hwrites hclean) hout
    obtain ⟨e, he, hthread, hact⟩ := Machine.Reach.mem_actsOf.1 hmem
    exact ⟨e, h1.history_suffix.mem he, hthread, ⟨body, n, hact⟩, .inr (by simpa using hlast)⟩

end Runs

/-- A successful operation of this kind revokes the live sessions of its user at the time it
reads, in one step, and reports how many there were. -/
theorem mass_revocation_exact (svc : Service) (w : World) (c : Config)
    (hc : svc.machine.Reach .any w c) (ev : Event) (hev : ev ∈ c.history)
    (hop : ev.request.revokesAll = true) (reply : Reply) (hout : ev.outcome = some (.ok reply)) :
    ∃ (later earlier : List Event) (e : Event) (userID : String) (spared : Option String)
      (now : Time), c.history = later ++ e :: earlier ∧ e.thread = ev.thread ∧
      MassRevocation svc ev.request (threadActs earlier ev.thread) e.before.store e.after.store
        userID spared now ∧
      (∀ x ∈ later ++ earlier, x.thread = ev.thread →
        x.after.store.sessions = x.before.store.sessions) ∧
      ((∀ ctx id status reason version,
          ev.request ≠ .updateUserStatus ctx id status reason version) →
        e = ev ∧ reply.revokedSessions =
          some (e.before.store.sessions.rows.countP (Session.revocable userID spared now))) := by
  obtain ⟨e, he, hthread, ⟨body, n, hact⟩, hlast⟩ := commit_of_revokesAll hc hev hop hout
  obtain ⟨later, earlier, hsplit⟩ := List.append_of_mem he
  have hrequest : e.request = ev.request := hc.request_eq_of_mem he hev hthread
  obtain ⟨next, hcommit, hrun, hnext⟩ := committed_of_split hc hsplit hact
  rw [hrequest, hthread] at hcommit
  obtain ⟨userID, spared, now, hrevoked, hreply⟩ := hcommit.massRevocation hop hrun
  refine ⟨later, earlier, e, userID, spared, now, hsplit, hthread, hrevoked, ?_, ?_⟩
  · intro x hx hxthread
    rw [store_eq_elsewhere hc hsplit (hrequest ▸ hop) hact hx (hxthread.trans hthread.symm)]
  · intro hstatus
    obtain hends | ⟨ctx, id, status, reason, version, hreq⟩ := Op.commitsLast_or_status hop
    case inr => exact absurd hreq (hstatus ctx id status reason version)
    obtain rfl : e = ev := hlast.resolve_right (by simp [hends])
    obtain ⟨reply', rfl⟩ := hcommit.ends hends
    rw [hnext] at hout
    cases hout
    exact ⟨rfl, hreply reply rfl⟩

namespace sample

def passwordChange : List (Choice Op Answer) :=
  signIn ++
    [.start (.login "bob" "correct horse" client),
      .step 2 (.row 0), .step 2 (.row 0), .step 2 (.time 50), .step 2 .done, .step 2 (.row 0),
      .step 2 (.time 60), .step 2 (.value "r2"), .step 2 (.value "s2"), .step 2 (.time 70),
      .step 2 (.value "t2"), .step 2 .done, .step 2 .done,
      .start (.changePassword bob "correct horse" "battery staple"), .step 3 (.row 0),
      .step 3 (.value "salt"), .step 3 (.time 80), .step 3 (.value "e2"), .step 3 .done]

end sample

theorem mass_revocation_exact_other : ∃ (c : Config) (ev : Event) (reply : Reply)
    (earlier : List Event) (userID : String) (spared : Option String) (now : Time),
    (sample [] none).machine.Reach .any (start 0) c ∧ ev ∈ c.history ∧
    ev.request.revokesAll = true ∧ ev.outcome = some (.ok reply) ∧
    MassRevocation (sample [] none) ev.request (threadActs earlier ev.thread) ev.before.store
      ev.after.store userID spared now ∧
    ev.before.store.sessions.rows.length = 2 ∧
    ev.before.store.sessions.rows.countP (Session.revocable userID spared now) = 1 := by
  obtain ⟨c, hc, ev, hev, hop, hlast, hrows, hone⟩ : ∃ c : Config,
      (sample [] none).machine.Reach .any (start 0) c ∧ ∃ ev ∈ c.history,
        ev.request.revokesAll = true ∧ ev.request.commitsLast = true ∧
        ev.before.store.sessions.rows.length = 2 ∧
        (ev.outcome.bind Except.toOption).bind Reply.revokedSessions = some 1 :=
    Machine.replay_exists sample.passwordChange (by decide +kernel)
  obtain ⟨reply, hok, hreplied⟩ := Option.bind_eq_some_iff.1 hone
  obtain ⟨_ | reply', hout, hok⟩ := Option.bind_eq_some_iff.1 hok <;> cases hok
  obtain ⟨later, earlier, e, userID, spared, now, -, -, hrevoked, -, hcount⟩ :=
    mass_revocation_exact (sample [] none) (start 0) c hc ev hev hop reply hout
  obtain ⟨rfl, hreply⟩ := hcount fun ctx id status reason version hreq => by
    rw [hreq] at hlast
    cases hlast
  exact ⟨c, e, reply, earlier, userID, spared, now, hc, hev, hop, hout, hrevoked, hrows,
    Option.some.inj (hreply.symm.trans hreplied)⟩

end IdentityService
