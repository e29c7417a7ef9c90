import IdentityService.Outbox.Published

/-! Whether an event tells the transition that was committed with it. -/

namespace IdentityService

open Lib Service

def Payload.Tells (s s' : Store) : Payload → Prop
  | .sessionRevoked sessionID _ tenantID _ =>
    ∃ r ∈ sessionsRevoked s s', r.id = sessionID ∧ r.tenantID = tenantID
  | .userStatusChanged userID previous _ _ =>
    ∃ u ∈ s.users.rows, u.id = userID ∧ u.status = previous
  | .serviceAccountStatusChanged id previous _ _ =>
    ∃ a ∈ s.serviceAccounts.rows, a.id = id ∧ some a.status = previous
  | .userProfileUpdated user _ =>
    ∃ u ∈ s'.users.rows, u.id = user.id ∧ u.username = user.username ∧
      u.profile = user.profile ∧ u.version = user.version
  | _ => True

def Op.tells : Op → Bool
  | .logout .. | .revokeOwnSessionByID .. | .revokeSessionByID .. | .updateUserStatus ..
  | .updateUserProfile .. | .updateServiceAccountStatus .. => true
  | _ => false

def Act.Current (s : Store) : Act → Prop
  | ⟨.query (.getSession _ _), .ok row⟩ =>
    ∃ r ∈ s.sessions.rows, r.id = Session.id row ∧ r.tenantID = Session.tenantID row
  | ⟨.query (.getSessionByID _), .ok row⟩ =>
    ∃ r ∈ s.sessions.rows, r.id = Session.id row ∧ r.tenantID = Session.tenantID row
  | ⟨.query (.getUser _), .ok row⟩ =>
    ∃ u ∈ s.users.rows, u.id = User.id row ∧ u.status = User.status row
  | ⟨.query (.getServiceAccount _), .ok row⟩ =>
    ∃ a ∈ s.serviceAccounts.rows, a.id = ServiceAccount.id row ∧
      a.status = ServiceAccount.status row
  | _ => True

section Commits

variable {svc : Service} {op : Op} {acts : List Act} {body : Tx Nat} {n : Nat} {next : Prog Reply}
  {s s' : Store} {event : OutboxEvent}

theorem eq_of_new {e : OutboxEvent} {t : Table OutboxEvent}
    (ht : t.rows = s.outboxEvents.rows ++ [e]) (hmem : event ∈ t.rows)
    (hnew : event ∉ s.outboxEvents.rows) : event = e := by
  rw [ht, List.mem_append, List.mem_singleton] at hmem
  exact hmem.resolve_left hnew

theorem tells_revoked {row : Session} {reason : String} {extra : Session → Bool}
    {why actor : String} {now : Time}
    (hits : (Repository.revokeUpdate extra why actor now).Hits s.sessions.rows s'.sessions.rows)
    (hextra : ∀ r, extra r = true → r.id = row.id) :
    (Payload.sessionRevoked row.id row.userID row.tenantID reason).Tells s s' ↔
      ∃ r ∈ s.sessions.rows, r.id = row.id ∧ r.tenantID = row.tenantID := by
  obtain ⟨r, hr, hg⟩ := hits.found
  obtain ⟨hr', hunrevoked⟩ := Repository.revokeUpdate_guard.1 hg
  have hrevoked : r ∈ sessionsRevoked s s' := by
    refine mem_moved.2 ⟨hr, by simp [hunrevoked],
      (Repository.revokeUpdate extra why actor now).assign r, ?_, rfl, rfl⟩
    rw [hits.map, Update.mem_map_apply]
    exact .inr ⟨r, hr, hg, rfl⟩
  constructor
  · rintro ⟨x, hx, hid, htenant⟩
    exact ⟨x, (mem_moved.1 hx).1, hid, htenant⟩
  · rintro ⟨x, hx, hid, htenant⟩
    obtain rfl := session_eq_of_id hx hr (hid.trans (hextra r hr').symm)
    exact ⟨x, hrevoked, hid, htenant⟩

theorem Commit.tells_iff (h : Commit svc op acts body n next)
    (hrun : body.run svc.lower s = .ok (n, s')) (hreads : ReadsHold acts s)
    (hop : op.tells = true) (hmem : event ∈ s'.outboxEvents.rows)
    (hnew : event ∉ s.outboxEvents.rows) :
    event.payload.Tells s s' ↔ ∀ act ∈ acts, Act.Current s act := by
  cases h with
  | @logout sessionID reason now _ actor session _ hevent =>
    simp at hrun
    obtain ⟨t, ⟨ht, hmatch⟩, ⟨t', ht', rfl⟩, -⟩ := hrun
    obtain rfl := eq_of_new ht' hmem hnew
    have hid := hreads.session sessionID actor.id session (by simp)
    rw [hevent.2, tells_revoked ⟨ht, by simpa [and_assoc] using hmatch⟩]
    · simp [Act.Current]
    · intro r hr
      simp only [Bool.and_eq_true, decide_eq_true_eq] at hr
      exact hr.1.trans hid.symm
  | revokeOwnSessionByID hactor hevent =>
    simp at hrun
    obtain ⟨t, ⟨ht, hmatch⟩, ⟨t', ht', rfl⟩, -⟩ := hrun
    obtain rfl := eq_of_new ht' hmem hnew
    rw [hevent.2, tells_revoked ⟨ht, by simpa [and_assoc] using hmatch⟩]
    · simp [Act.Current]
    · intro r hr
      simp only [Bool.and_eq_true, decide_eq_true_eq] at hr
      exact hr.1.1
  | revokeSessionByID hevent =>
    simp at hrun
    obtain ⟨t, ⟨ht, hmatch⟩, ⟨t', ht', rfl⟩, -⟩ := hrun
    obtain rfl := eq_of_new ht' hmem hnew
    rw [hevent.2, tells_revoked ⟨ht, by simpa [and_assoc] using hmatch⟩]
    · simp [Act.Current]
    · intro r hr
      simp only [Bool.and_eq_true, decide_eq_true_eq] at hr
      exact hr.1
  | @updateUserStatus id _ _ _ _ _ _ _ current _ hstatus hevent =>
    have hid := hreads.user id current (by simp)
    simp at hrun
    obtain ⟨t, -, ⟨-, ⟨t', ht', rfl⟩, -⟩ | ⟨-, _, -, ⟨t', ht', rfl⟩, -⟩⟩ := hrun <;>
    · obtain rfl := eq_of_new ht' hmem hnew
      simp [hevent.2, Payload.Tells, Act.Current, hid]
  | @updateUserProfile id displayName email phone _ version now _ actor current _ hevent =>
    have hid := hreads.user (Go.trimSpace id) current (by simp)
    have hname := hreads.username (Go.trimSpace id) current (by simp)
    simp at hrun
    obtain ⟨t, ⟨⟨ht, -⟩, hmatch⟩, ⟨t', ht', rfl⟩, -⟩ := hrun
    obtain rfl := eq_of_new ht' hmem hnew
    obtain ⟨u, hu, huid, hversion⟩ := hmatch
    -- The row written is the one with this identifier, before and after.
    have hwritten : (Repository.profileUpdate (Go.trimSpace id) (Go.trimSpace displayName)
        (svc.toLower (Go.trimSpace email)) (Go.trimSpace phone) actor.id version now).assign u ∈
        t.rows := by
      rw [ht, Update.mem_map_apply]
      exact .inr ⟨u, hu, Repository.profileUpdate_guard.2 ⟨huid, hversion⟩, rfl⟩
    have hcurrent : (∀ act ∈ [Act.drew .uuid event.id, Act.clock now,
        Act.read (.getUser (Go.trimSpace id)) current], Act.Current s act) ↔
        u.status = current.status := by
      simp only [Act.Current, List.forall_mem_cons, List.not_mem_nil, false_imp_iff, implies_true,
        and_true, true_and]
      constructor
      · rintro ⟨x, hx, hxid, hstatus⟩
        rwa [← user_eq_of_id hx hu (hxid.trans (hid.trans huid.symm))]
      · exact fun hstatus => ⟨u, hu, huid.trans hid.symm, hstatus⟩
    rw [hcurrent, hevent.2]
    constructor
    · rintro ⟨x, hx, hxid, -, hprofile, -⟩
      rw [user_eq_of_id hx hwritten (hxid.trans (hid.trans huid.symm))] at hprofile
      simp only [User.profile, Repository.profileUpdate_assign, Prod.mk.injEq] at hprofile
      exact hprofile.1
    · intro hstatus
      refine ⟨_, hwritten, huid.trans hid.symm, hname u hu huid, ?_, ?_⟩
      · simp [User.profile, hstatus]
      · simp [hversion]
  | @updateServiceAccountStatus id _ _ _ _ _ _ current _ hstatus hevent =>
    have hid := hreads.account id current (by simp)
    simp at hrun
    obtain ⟨t, -, ⟨t', ht', rfl⟩, -⟩ := hrun
    obtain rfl := eq_of_new ht' hmem hnew
    simp [hevent.2, Payload.Tells, Act.Current, hid]
  | _ => cases hop

end Commits

/-- An event of these operations tells the transition committed with it exactly if the row that
the operation had read still has, at the commit, the tenant or status that was read.  Client
versions make no difference. -/
theorem events_tell_the_transition (svc : Service) (w : World) (c : Config)
    (h : svc.machine.Reach .any w c) (later earlier : List Event) (ev : Event)
    (hsplit : c.history = later ++ ev :: earlier) (hop : ev.request.tells = true)
    (event : OutboxEvent) (hmem : event ∈ ev.after.store.outboxEvents.rows)
    (hnew : event ∉ ev.before.store.outboxEvents.rows) :
    event.payload.Tells ev.before.store ev.after.store ↔
      ∀ act ∈ threadActs earlier ev.thread, Act.Current ev.before.store act := by
  obtain ⟨c0, c1, k, a, h0, rfl, hf, -, -⟩ := h.event_split hsplit
  rw [← hf.state] at hmem
  rw [hf.before] at hnew
  rw [hf.before, ← hf.state, show threadActs c0.history ev.thread = c0.actsOf ev.thread from rfl]
  obtain ⟨body, n, next, hcom⟩ | hstore := committed_or_store_eq h0 hf
  · exact hcom.commit.tells_iff hcom.run (readsHold h0 _) hop hmem hnew
  · exact absurd (hstore ▸ hmem) hnew

namespace sample

def gateway : Context := some ⟨"svc1", .serviceAccount, "", "", ""⟩

def rescoped : List (Choice Op Answer) :=
  [.start (.logout bob "s1" ""), .step 2 (.time 50), .step 2 (.row 0), .step 2 (.value "e2"),
    .start (.issueTenantToken gateway "u1" "t1" "m1" "s1"), .step 3 (.time 60),
    .step 3 (.value "t2"), .step 3 .done, .step 3 (.time 70), .step 3 .done, .step 2 .done]

def undisturbedLogout : List (Choice Op Answer) :=
  [.start (.logout bob "s1" ""), .step 2 (.time 50), .step 2 (.row 0), .step 2 (.value "e2"),
    .step 2 .done]

end sample

theorem logout_event_of_old_tenant : ∃ c : Config,
    (sample [] none).machine.Reach .any (start 0) c ∧
    ∃ ev ∈ c.history, ∃ event ∈ ev.after.store.outboxEvents.rows,
      event ∉ ev.before.store.outboxEvents.rows ∧ ev.request.tells = true ∧
      event.payload = .sessionRevoked "s1" "u1" "" "logout" ∧
      (sessionsRevoked ev.before.store ev.after.store).map (fun r => (r.id, r.tenantID)) =
        [("s1", "t1")] ∧
      ¬event.payload.Tells ev.before.store ev.after.store := by
  obtain ⟨c, hc, ev, hev, event, hmem, hnew, hop, hpayload, hrevoked⟩ : ∃ c : Config,
      (sample [] none).machine.Reach .any (start 0) c ∧
      ∃ ev ∈ c.history, ∃ event ∈ ev.after.store.outboxEvents.rows,
        event ∉ ev.before.store.outboxEvents.rows ∧ ev.request.tells = true ∧
        event.payload = .sessionRevoked "s1" "u1" "" "logout" ∧
        (sessionsRevoked ev.before.store ev.after.store).map (fun r => (r.id, r.tenantID)) =
          [("s1", "t1")] :=
    Machine.replay_exists (sample.signIn ++ sample.rescoped) (by decide +kernel)
  refine ⟨c, hc, ev, hev, event, hmem, hnew, hop, hpayload, hrevoked, ?_⟩
  rw [hpayload]
  rintro ⟨r, hr, -, htenant⟩
  have hpair := List.mem_map_of_mem (f := fun r : Session => (r.id, r.tenantID)) hr
  rw [hrevoked, List.mem_singleton, Prod.mk.injEq, htenant] at hpair
  exact absurd hpair.2 (by decide)

theorem events_tell_the_transition_signed_out : ∃ (c : Config) (later earlier : List Event)
    (ev : Event) (event : OutboxEvent), (sample [] none).machine.Reach .any (start 0) c ∧
    c.history = later ++ ev :: earlier ∧ event ∈ ev.after.store.outboxEvents.rows ∧
    event ∉ ev.before.store.outboxEvents.rows ∧
    event.payload = .sessionRevoked "s1" "u1" "" "logout" ∧
    event.payload.Tells ev.before.store ev.after.store ∧
    ∀ act ∈ threadActs earlier ev.thread, Act.Current ev.before.store act := by
  obtain ⟨c, hc, ev, hev, event, hmem, hnew, hop, hpayload, r, hr, hid, htenant⟩ : ∃ c : Config,
      (sample [] none).machine.Reach .any (start 0) c ∧
      ∃ ev ∈ c.history, ∃ event ∈ ev.after.store.outboxEvents.rows,
        event ∉ ev.before.store.outboxEvents.rows ∧ ev.request.tells = true ∧
        event.payload = .sessionRevoked "s1" "u1" "" "logout" ∧
        ∃ r ∈ sessionsRevoked ev.before.store ev.after.store, r.id = "s1" ∧ r.tenantID = "" :=
    Machine.replay_exists (sample.signIn ++ sample.undisturbedLogout) (by decide +kernel)
  obtain ⟨later, earlier, hsplit⟩ := List.append_of_mem hev
  have htells : event.payload.Tells ev.before.store ev.after.store := by
    rw [hpayload]
    exact ⟨r, hr, hid, htenant⟩
  exact ⟨c, later, earlier, ev, event, hc, hsplit, hmem, hnew, hpayload, htells,
    (events_tell_the_transition _ _ c hc later earlier ev hsplit hop event hmem hnew).1 htells⟩

end IdentityService
