import IdentityService.Lib.Projection
import IdentityService.Outbox.Published
import IdentityService.Users.References

/-! The directory that a consumer of the events keeps: replayed from the outbox it is what the
tables say. -/

namespace IdentityService

open Lib Service

structure DirectoryUser where
  username : String
  status : Status
  displayName : String
  email : String
  phone : String
deriving DecidableEq

structure DirectoryEntry where
  user : Option DirectoryUser
  passwordVersion : Option Int
  mfaEnabled : Bool
  account : Option (Status × Int)
deriving DecidableEq

namespace DirectoryEntry

def empty : DirectoryEntry := ⟨none, none, false, none⟩

/-- The status and the version in the message about a profile are not looked at: they were read
before the transaction. -/
def apply (e : DirectoryEntry) (event : OutboxEvent) : DirectoryEntry :=
  match event.payload with
  | .userCreated u =>
    { e with
      user := some ⟨u.username, u.status, u.displayName, u.email, u.phone⟩
      passwordVersion := some 1 }
  | .userStatusChanged _ _ current _ =>
    { e with user := e.user.map fun u => { u with status := current } }
  | .userProfileUpdated new _ =>
    { e with
      user := e.user.map fun u =>
        { u with displayName := new.displayName, email := new.email, phone := new.phone } }
  | .passwordChanged .. => { e with passwordVersion := e.passwordVersion.map (· + 1) }
  | .sessionRevoked .. => e
  | .mfaStatusChanged _ enabled .. => { e with mfaEnabled := enabled }
  | .serviceAccountStatusChanged _ none current _ => { e with account := some (current, 1) }
  | .serviceAccountStatusChanged _ (some _) current _ =>
    { e with account := e.account.map fun a => (current, a.2 + 1) }
  | .serviceAccountSecretRotated _ version =>
    { e with account := e.account.map fun a => (a.1, version) }

end DirectoryEntry

abbrev Directory := String → DirectoryEntry

def Directory.replay (events : List OutboxEvent) : Directory :=
  Lib.replay OutboxEvent.aggregateID DirectoryEntry.apply (fun _ => .empty) events

def User.listed (u : User) : DirectoryUser :=
  ⟨u.username, u.status, u.displayName, u.email, u.phone⟩

def ServiceAccount.listed (a : ServiceAccount) : Status × Int := (a.status, a.version)

def Store.directory (s : Store) : Directory := fun id =>
  { user := project User.id User.listed s.users.rows id
    passwordVersion := project Credential.userID (fun r => r.version) s.credentials.rows id
    mfaEnabled := s.mfaEnabled id
    account := project ServiceAccount.id ServiceAccount.listed s.serviceAccounts.rows id }

def Replays (s s' : Store) : Prop :=
  ∃ events, s'.outboxEvents.rows = s.outboxEvents.rows ++ events ∧
    s'.directory = replay OutboxEvent.aggregateID DirectoryEntry.apply s.directory events

section Rules

variable {s s' : Store}

theorem Replays.silent (hout : s'.outboxEvents = s.outboxEvents) (h : s'.directory = s.directory) :
    Replays s s' :=
  ⟨[], by rw [hout, List.append_nil], h⟩

theorem Replays.told {event : OutboxEvent} {id : String} {payload : Payload}
    (hout : s'.outboxEvents.rows = s.outboxEvents.rows ++ [event])
    (hevent : event.Describes id payload)
    (h : ∀ k, s'.directory k = if k = id then (s.directory k).apply event else s.directory k) :
    Replays s s' := by
  refine ⟨[event], hout, ?_⟩
  funext k
  rw [h, ← hevent.1]
  by_cases hk : k = event.aggregateID
  · subst hk
    simp [replay, advance]
  · simp [replay, advance, hk]

theorem Store.directory_congr (husers : s'.users = s.users)
    (hcredentials : s'.credentials = s.credentials)
    (hmfa : ∀ user, s'.mfaEnabled user = s.mfaEnabled user)
    (haccounts : s'.serviceAccounts = s.serviceAccounts) : s'.directory = s.directory := by
  funext k
  simp only [Store.directory, husers, hcredentials, hmfa, haccounts]

theorem Replays.user {event : OutboxEvent} {id : String} {payload : Payload}
    {g : DirectoryUser → DirectoryUser} {u : Update User}
    (hout : s'.outboxEvents.rows = s.outboxEvents.rows ++ [event])
    (hevent : event.Describes id payload)
    (happly : ∀ e : DirectoryEntry, e.apply event = { e with user := e.user.map g })
    (hits : u.Hits s.users.rows s'.users.rows) (hkey : ∀ r, (u.assign r).id = r.id)
    (hview : ∀ r, u.guard r = true → (u.assign r).listed = g r.listed)
    (hguard : ∀ r, u.guard r = true → r.id = id) (hcredentials : s'.credentials = s.credentials)
    (hmfa : s'.userMFA = s.userMFA) (haccounts : s'.serviceAccounts = s.serviceAccounts) :
    Replays s s' := by
  refine .told hout hevent fun k => ?_
  have hunique : ∀ r ∈ s.users.rows, ∀ r' ∈ s.users.rows, r.id = r'.id → r = r' :=
    fun r hr r' hr' hid => s.users.eq_of_key hr hr' hid
  rw [happly]
  simp only [Store.directory, Store.mfaEnabled, hcredentials, hmfa, haccounts,
    project_of_hits hits hkey hview (fun r _ => hguard r) hunique]
  split <;> rfl

theorem Replays.account {event : OutboxEvent} {id : String} {payload : Payload}
    {g : Status × Int → Status × Int} {u : Update ServiceAccount}
    (hout : s'.outboxEvents.rows = s.outboxEvents.rows ++ [event])
    (hevent : event.Describes id payload)
    (happly : ∀ e : DirectoryEntry, e.apply event = { e with account := e.account.map g })
    (hits : u.Hits s.serviceAccounts.rows s'.serviceAccounts.rows)
    (hkey : ∀ r, (u.assign r).id = r.id)
    (hview : ∀ r, u.guard r = true → (u.assign r).listed = g r.listed)
    (hguard : ∀ r, u.guard r = true → r.id = id) (husers : s'.users = s.users)
    (hcredentials : s'.credentials = s.credentials) (hmfa : s'.userMFA = s.userMFA) :
    Replays s s' := by
  refine .told hout hevent fun k => ?_
  have hunique : ∀ r ∈ s.serviceAccounts.rows, ∀ r' ∈ s.serviceAccounts.rows,
      r.id = r'.id → r = r' := fun r hr r' hr' hid => s.serviceAccounts.eq_of_key hr hr' hid
  rw [happly]
  simp only [Store.directory, Store.mfaEnabled, hcredentials, hmfa, husers,
    project_of_hits hits hkey hview (fun r _ => hguard r) hunique]
  split <;> rfl

theorem Store.Linked.credential_unique (h : s.Linked) :
    ∀ r ∈ s.credentials.rows, ∀ r' ∈ s.credentials.rows, r.userID = r'.userID → r = r' := by
  intro r hr r' hr' huser
  have htype := (h.credentials r hr).2.1.trans (h.credentials r' hr').2.1.symm
  exact Table.eq_of_clash hr hr' (by simp [Constrained.clash, huser, htype])

theorem Replays.password {event : OutboxEvent} {user id hash actor : String} {version : Int}
    {now : Time} {sessions : Nat} {type : PasswordChangeType} {reason : String}
    (hout : s'.outboxEvents.rows = s.outboxEvents.rows ++ [event])
    (hevent : event.Describes user (.passwordChanged user sessions type reason))
    (hits : (Repository.passwordUpdate id hash actor version now).Hits s.credentials.rows
      s'.credentials.rows)
    (hread : ∀ r ∈ s.credentials.rows, r.id = id → r.userID = user) (hlinked : s.Linked)
    (husers : s'.users = s.users) (hmfa : s'.userMFA = s.userMFA)
    (haccounts : s'.serviceAccounts = s.serviceAccounts) : Replays s s' := by
  refine .told hout hevent fun k => ?_
  have hproject : project Credential.userID (fun r => r.version) s'.credentials.rows k =
      if k = user then
        (project Credential.userID (fun r => r.version) s.credentials.rows k).map (· + 1)
      else project Credential.userID (fun r => r.version) s.credentials.rows k :=
    project_of_hits hits (fun _ => rfl) (fun _ _ => rfl)
      (fun r hr hg => hread r hr (Repository.passwordUpdate_guard.1 hg).1) hlinked.credential_unique
  simp only [Store.directory, Store.mfaEnabled, husers, hmfa, haccounts, hproject,
    DirectoryEntry.apply, hevent.2]
  split <;> rfl

theorem mfaEnabled_of_hits {u : Update MFAEnrollment} {user id : String} {b : Bool}
    (h : u.Hits s.userMFA.rows s'.userMFA.rows) (huser : ∀ e, (u.assign e).userID = e.userID)
    (hstatus : ∀ e, u.guard e = true → ((u.assign e).status = .enabled ↔ b = true))
    (hguard : ∀ e, u.guard e = true → e.userID = user) :
    s'.mfaEnabled id = if id = user then b else s.mfaEnabled id := by
  by_cases hid : id = user
  · subst hid
    obtain ⟨e, he, hg⟩ := h.found
    rw [if_pos rfl, Bool.eq_iff_iff, ← hstatus e hg]
    simp only [Store.mfaEnabled, h.map, List.any_eq_true, Bool.and_eq_true, decide_eq_true_eq]
    constructor
    · rintro ⟨x, hx, hxid, hxstatus⟩
      obtain ⟨hx, hxg⟩ | ⟨old, hold, -, rfl⟩ := Update.mem_map_apply.1 hx
      · rw [s.userMFA.eq_of_key hx he (hxid.trans (hguard e hg).symm), hg] at hxg
        cases hxg
      · rwa [s.userMFA.eq_of_key hold he ((huser old).symm.trans (hxid.trans (hguard e hg).symm))]
          at hxstatus
    · exact fun hx => ⟨u.assign e, Update.assign_mem he hg, (huser e).trans (hguard e hg), hx⟩
  · rw [if_neg hid]
    exact mfaEnabled_of_update h.map fun e hg => ⟨huser e, fun he => absurd (he ▸ hguard e hg) hid⟩

theorem Replays.mfa {event : OutboxEvent} {user : String} {enabled : Bool} {count : Nat}
    {type : MFAStatusChangeType} {reason : String} {u : Update MFAEnrollment}
    (hout : s'.outboxEvents.rows = s.outboxEvents.rows ++ [event])
    (hevent : event.Describes user (.mfaStatusChanged user enabled count type reason))
    (hits : u.Hits s.userMFA.rows s'.userMFA.rows) (hkey : ∀ e, (u.assign e).userID = e.userID)
    (hstatus : ∀ e, u.guard e = true → ((u.assign e).status = .enabled ↔ enabled = true))
    (hguard : ∀ e, u.guard e = true → e.userID = user) (husers : s'.users = s.users)
    (hcredentials : s'.credentials = s.credentials)
    (haccounts : s'.serviceAccounts = s.serviceAccounts) : Replays s s' := by
  refine .told hout hevent fun k => ?_
  simp only [Store.directory, husers, hcredentials, haccounts,
    mfaEnabled_of_hits hits hkey hstatus hguard, DirectoryEntry.apply, hevent.2]
  split <;> rfl

end Rules

section Commits

variable {svc : Service} {op : Op} {acts : List Act} {body : Tx Nat} {n : Nat} {next : Prog Reply}
  {s s' : Store}

theorem Commit.replays (h : Commit svc op acts body n next)
    (hrun : body.run svc.lower s = .ok (n, s')) (hreads : ReadsHold acts s) (hlinked : s.Linked) :
    Replays s s' := by
  have hframe := h.frame hrun
  cases h with
  | register hu hc hevent =>
    simp at hrun
    obtain ⟨t, ⟨ht, -⟩, t', ht', ⟨t'', ht'', rfl⟩, -⟩ := hrun
    refine .told ht'' hevent fun k => ?_
    have hfresh := Table.key_ne_of_concat User.id ht (by simp [Constrained.clash])
    -- Nobody has a credential before being registered.
    have hfresh' : ∀ r ∈ s.credentials.rows, r.userID ≠ _ := fun r hr hid => by
      obtain ⟨u, hu', huid⟩ := (hlinked.credentials r hr).1
      exact hfresh u hu' (huid.trans (hid.trans (hc.2.1.trans hu.1.symm)))
    simp only [Store.directory, ht, ht', project_concat hfresh, project_concat hfresh', hu.1,
      hc.2.1, hc.2.2.2.2, DirectoryEntry.apply, hevent.2]
    split <;> rfl
  | loginFailed | loginVerified =>
    simp at hrun
    obtain ⟨⟨t, ht, -, rfl⟩, -⟩ := hrun
    refine .silent rfl ?_
    funext k
    simp only [Store.directory, ht]
    rw [project_map_of_hidden (fun _ => rfl) fun _ _ => rfl]
    rfl
  | logout hevent | revokeOwnSessionByID hactor hevent | revokeSessionByID hevent =>
    simp at hrun
    obtain ⟨t, -, ⟨t', ht', rfl⟩, -⟩ := hrun
    refine .told ht' hevent fun k => ?_
    simp [DirectoryEntry.apply, hevent.2, Store.directory, Store.mfaEnabled]
  | @changePassword _ _ _ _ _ _ actor credential _ hactor hactive hcurrent hnew hevent =>
    simp at hrun
    obtain ⟨t, ⟨ht, hfound⟩, t', -, ⟨t'', ht'', rfl⟩, -⟩ := hrun
    exact .password ht'' (hevent _).2 ⟨ht, by simpa using hfound⟩
      (hreads.credential actor.id credential (by simp)) hlinked rfl rfl rfl
  | @confirmPasswordReset _ _ _ _ _ _ challenge _ credential _ _ _ _ _ _ hevent =>
    simp at hrun
    obtain ⟨t0, -, t, ⟨ht, hfound⟩, t', -, ⟨t'', ht'', rfl⟩, -⟩ := hrun
    exact .password ht'' (hevent _).2 ⟨ht, by simpa using hfound⟩
      (hreads.credential challenge.userID credential (by simp)) hlinked rfl rfl rfl
  | updateUserStatus hstatus hevent =>
    simp at hrun
    obtain ⟨t, ⟨⟨ht, -⟩, hfound⟩,
      ⟨-, ⟨t', ht', rfl⟩, -⟩ | ⟨-, t1, -, ⟨t', ht', rfl⟩, -⟩⟩ := hrun <;>
    · refine .user ht' hevent (fun e => by rw [DirectoryEntry.apply, hevent.2])
        ⟨ht, by simpa using hfound⟩ (fun _ => rfl) (fun _ _ => rfl)
        (fun u hg => (Repository.statusUpdate_guard.1 hg).1) rfl rfl rfl
  | updateUserProfile hevent =>
    simp at hrun
    obtain ⟨t, ⟨⟨ht, -⟩, hfound⟩, ⟨t', ht', rfl⟩, -⟩ := hrun
    refine .user ht' hevent (fun e => by rw [DirectoryEntry.apply, hevent.2])
      ⟨ht, by simpa using hfound⟩ (fun _ => rfl) (fun _ _ => rfl)
      (fun u hg => (Repository.profileUpdate_guard.1 hg).1) rfl rfl rfl
  | confirmMFASetup _ _ _ _ _ _ hrows hcodes _ hevent =>
    simp [Repository.run_replaceRecoveryCodes (codes_ne_nil hrows) hcodes] at hrun
    obtain ⟨t, ⟨ht, hfound⟩, t1, -, t2, -, ⟨t', ht', rfl⟩, -⟩ := hrun
    exact .mfa ht' hevent ⟨ht, by simpa using hfound⟩ (fun _ => rfl) (fun _ _ => by simp)
      (fun e hg => (Repository.enableUpdate_guard.1 hg).1) rfl rfl rfl
  | disableMFA _ _ _ _ _ _ hevent =>
    simp at hrun
    obtain ⟨t, ⟨ht, hfound⟩, t1, -, t2, -, ⟨t', ht', rfl⟩, -⟩ := hrun
    exact .mfa ht' hevent ⟨ht, by simpa using hfound⟩ (fun _ => rfl) (fun _ _ => by simp)
      (fun e hg => (Repository.disableUpdate_guard.1 hg).1) rfl rfl rfl
  | adminResetMFA _ hevent =>
    simp at hrun
    obtain ⟨t, ⟨ht, hfound⟩, t1, -, t2, -, ⟨t', ht', rfl⟩, -⟩ := hrun
    exact .mfa ht' hevent ⟨ht, by simpa using hfound⟩ (fun _ => rfl) (fun _ _ => by simp)
      (fun e hg => (Repository.adminResetUpdate_guard.1 hg).1) rfl rfl rfl
  | regenerateMFARecoveryCodes _ _ _ _ _ _ _ hrows hcodes _ hevent =>
    simp [Repository.run_replaceRecoveryCodes (codes_ne_nil hrows) hcodes] at hrun
    obtain ⟨t, ⟨ht, hfound⟩, t1, -, ⟨t', ht', rfl⟩, -⟩ := hrun
    -- The status stays what it was, and the guard says that it was enabled.
    refine .mfa ht' hevent ⟨ht, by simpa using hfound⟩ (fun _ => rfl) (fun e hg => ?_)
      (fun e hg => (Repository.advanceAtVersionUpdate_guard.1 hg).1) rfl rfl rfl
    simp [(Repository.advanceAtVersionUpdate_guard.1 hg).2.1]
  | createServiceAccount haccount hevent =>
    simp at hrun
    obtain ⟨t, ht, ⟨t', ht', rfl⟩, -⟩ := hrun
    refine .told ht' hevent fun k => ?_
    have hfresh := Table.key_ne_of_concat ServiceAccount.id ht
      (by simp +contextual [Constrained.clash])
    simp only [Store.directory, ht, project_concat hfresh, haccount.1, ServiceAccount.listed,
      haccount.2.2.2.1, haccount.2.2.2.2, DirectoryEntry.apply, hevent.2]
    split <;> rfl
  | rotateServiceAccountSecret hevent =>
    simp at hrun
    obtain ⟨t, ⟨ht, hfound⟩, ⟨t', ht', rfl⟩, -⟩ := hrun
    refine .account ht' hevent (fun e => by rw [DirectoryEntry.apply, hevent.2])
      ⟨ht, by simpa using hfound⟩ (fun _ => rfl) (fun a hg => ?_)
      (fun a hg => (Repository.accountSecretUpdate_guard.1 hg).1) rfl rfl rfl
    simp [ServiceAccount.listed, (Repository.accountSecretUpdate_guard.1 hg).2]
  | updateServiceAccountStatus _ hevent =>
    simp at hrun
    obtain ⟨t, ⟨ht, hfound⟩, ⟨t', ht', rfl⟩, -⟩ := hrun
    exact .account ht' hevent (fun e => by rw [DirectoryEntry.apply, hevent.2])
      ⟨ht, by simpa using hfound⟩ (fun _ => rfl) (fun _ _ => rfl)
      (fun a hg => (Repository.accountStatusUpdate_guard.1 hg).1) rfl rfl rfl
  | loginChallenge | loginSession =>
    simp at hrun
    obtain ⟨⟨t, -, rfl⟩, -⟩ := hrun
    exact .silent rfl rfl
  | verifyMFAChallenge =>
    refine .silent (hframe.outboxEvents (by simp [Op.writes])) (Store.directory_congr
      (hframe.users (by simp [Op.writes])) (hframe.credentials (by simp [Op.writes]))
      (fun user => ?_) (hframe.serviceAccounts (by simp [Op.writes])))
    simp [spendFactor] at hrun
    obtain ⟨t, -, s1, ⟨-, ⟨t1, ht1, rfl⟩, -⟩ | ⟨-, ⟨t1, -, rfl⟩, -⟩, ⟨t', -, rfl⟩, -⟩ := hrun
    · exact mfaEnabled_of_update ht1 fun e _ => ⟨rfl, fun _ => Iff.rfl⟩
    · rfl
  | @startMFASetup _ _ _ _ _ _ _ _ _ _ current =>
    refine .silent (hframe.outboxEvents (by simp [Op.writes])) (Store.directory_congr
      (hframe.users (by simp [Op.writes])) (hframe.credentials (by simp [Op.writes]))
      (fun user => ?_) (hframe.serviceAccounts (by simp [Op.writes])))
    cases current with
    | none =>
      simp [storeSecret] at hrun
      obtain ⟨⟨t, ht, rfl⟩, -⟩ := hrun
      simp [Store.mfaEnabled, ht]
    | some e =>
      simp [storeSecret] at hrun
      obtain ⟨t, ⟨ht, -⟩, ⟨t', -, rfl⟩, -⟩ := hrun
      refine mfaEnabled_of_update ht fun e hg => ⟨rfl, fun _ => ?_⟩
      simp [(Repository.resetPendingUpdate_guard.1 hg).2.1]
  | _ =>
    -- The others write neither to these tables nor to the outbox.
    exact .silent (hframe.outboxEvents (by simp [Op.writes])) (Store.directory_congr
      (hframe.users (by simp [Op.writes])) (hframe.credentials (by simp [Op.writes]))
      (fun user => by rw [Store.mfaEnabled, hframe.userMFA (by simp [Op.writes]), Store.mfaEnabled])
      (hframe.serviceAccounts (by simp [Op.writes])))

end Commits

section Runs

variable {svc : Service} {π : Policy} {clock : Time} {c d : Config} {ev : Event}
  {k : ev.call.Res → Prog Reply} {a : Answer}

theorem replays_of_step (h : svc.machine.Reach π (start clock) c)
    (hf : svc.machine.Fired c ev d k a) : Replays c.state.store d.state.store := by
  obtain ⟨body, n, next, hcom⟩ | hstore := committed_or_store_eq h hf
  · exact hcom.commit.replays hcom.run (readsHold h ev.thread) (linked h)
  · rw [hstore]
    exact .silent rfl rfl

theorem directory_eq_replay (h : svc.machine.Reach π (start clock) c) :
    c.state.store.directory = .replay c.state.store.outboxEvents.rows := by
  refine h.invariant
    (I := fun d => d.state.store.directory = .replay d.state.store.outboxEvents.rows) rfl ?_ ?_
  · intro d q _ ih
    exact ih
  · intro d ev d' k a hrun ih hf _
    obtain ⟨events, hout, hdirectory⟩ := replays_of_step hrun hf
    rw [hdirectory, ih, hout, Directory.replay, Directory.replay, replay_append]

end Runs

/-- A consumer that applies the events of each aggregate in the order of their commits, whatever
the order of aggregates, knows what the tables say: who exists, with which status, profile and
version of the password, who has the second factor enabled, and which service accounts there are. -/
theorem directory_follows_outbox (svc : Service) (clock : Time) (c : Config)
    (h : svc.machine.Reach .any (start clock) c) (delivered : List OutboxEvent)
    (horder : ∀ id, delivered.filter (fun e => e.aggregateID = id) =
      c.state.store.outboxEvents.rows.filter (fun e => e.aggregateID = id)) :
    Directory.replay delivered = c.state.store.directory := by
  rw [directory_eq_replay h]
  exact replay_congr horder

def sample.disabled : List (Choice Op Answer) :=
  [.start (.register admin "bob" "Bob" "bob@example" "" "correct horse"),
    .step 0 (.value "salt"), .step 0 (.time 10), .step 0 (.value "u1"), .step 0 (.value "c1"),
    .step 0 (.value "e1"), .step 0 .done,
    .start (.register admin "alice" "Alice" "alice@example" "" "battery staple"),
    .step 1 (.value "salt"), .step 1 (.time 20), .step 1 (.value "u2"), .step 1 (.value "c2"),
    .step 1 (.value "e2"), .step 1 .done,
    .start (.updateUserStatus admin "u1" "disabled" "left" 1), .step 2 (.row 0),
    .step 2 (.time 30), .step 2 (.value "e3"), .step 2 .done]

theorem directory_follows_outbox_reordered : ∃ (c : Config) (e₁ e₂ e₃ : OutboxEvent),
    (sample [] none).machine.Reach .any (start 0) c ∧
    c.state.store.outboxEvents.rows = [e₁, e₂, e₃] ∧
    Directory.replay [e₂, e₁, e₃] = c.state.store.directory ∧
    (c.state.store.directory "u1").user =
      some ⟨"bob", .disabled, "Bob", "bob@example", ""⟩ := by
  obtain ⟨c, hc, hids, hbob⟩ : ∃ c : Config, (sample [] none).machine.Reach .any (start 0) c ∧
      c.state.store.outboxEvents.rows.map OutboxEvent.aggregateID = ["u1", "u2", "u1"] ∧
      (c.state.store.directory "u1").user =
        some ⟨"bob", .disabled, "Bob", "bob@example", ""⟩ :=
    Machine.replay_exists sample.disabled (by decide +kernel)
  obtain ⟨e₁, rest, hrows, h₁, hrest⟩ := List.map_eq_cons_iff.1 hids
  obtain ⟨e₂, rest, rfl, h₂, hrest⟩ := List.map_eq_cons_iff.1 hrest
  obtain ⟨e₃, rest, rfl, h₃, hrest⟩ := List.map_eq_cons_iff.1 hrest
  obtain rfl := List.map_eq_nil_iff.1 hrest
  refine ⟨c, e₁, e₂, e₃, hc, hrows,
    directory_follows_outbox _ 0 c hc [e₂, e₁, e₃] fun id => ?_, hbob⟩
  rw [hrows]
  by_cases hid : id = "u1"
  · simp [h₁, h₂, h₃, hid]
  · simp [List.filter_cons, h₁, h₃, Ne.symm hid]

end IdentityService
