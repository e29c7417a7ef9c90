import IdentityService.Defs.Outcome
import IdentityService.Sessions.Revocation

/-! Optimistic locking over whole runs. -/

namespace IdentityService

open Lib Service

namespace Store

def versionOf (s : Store) (table : TableName) (key : String) : Option Int :=
  match table with
  | .users => Lib.versionOf key s.users.rows
  | .credentials => Lib.versionOf key s.credentials.rows
  | .sessions => Lib.versionOf key s.sessions.rows
  | .userMFA => Lib.versionOf key s.userMFA.rows
  | .mfaRecoveryCodes => Lib.versionOf key s.mfaRecoveryCodes.rows
  | .mfaLoginChallenges => Lib.versionOf key s.mfaLoginChallenges.rows
  | .passwordResetChallenges => Lib.versionOf key s.passwordResetChallenges.rows
  | .serviceAccounts => Lib.versionOf key s.serviceAccounts.rows
  | .outboxEvents => none

end Store

namespace Op

def expected : Op → Option (TableName × String × Int)
  | .updateUserStatus _ id _ _ version => some (.users, id, version)
  | .updateUserProfile _ id _ _ _ _ version => some (.users, Go.trimSpace id, version)
  | .revokeOwnSessionByID _ id _ version | .revokeSessionByID _ id _ version =>
    some (.sessions, Go.trimSpace id, version)
  | .rotateServiceAccountSecret _ id version => some (.serviceAccounts, Go.trimSpace id, version)
  | .updateServiceAccountStatus _ id _ version => some (.serviceAccounts, id, version)
  | .confirmMFASetup (some actor) _ version | .disableMFA (some actor) _ _ version
  | .regenerateMFARecoveryCodes (some actor) _ _ version => some (.userMFA, actor.id, version)
  | .adminResetMFA _ userID _ version => some (.userMFA, Go.trimSpace userID, version)
  | _ => none

def returns : Op → Option (TableName × String)
  | .startMFASetup (some actor) _ | .confirmMFASetup (some actor) _ _
  | .regenerateMFARecoveryCodes (some actor) _ _ _ => some (.userMFA, actor.id)
  | .adminResetMFA _ userID _ _ => some (.userMFA, Go.trimSpace userID)
  | .rotateServiceAccountSecret _ id _ => some (.serviceAccounts, Go.trimSpace id)
  | _ => none

end Op

def Reply.version : Reply → Option Int
  | .mfaSetup setup => some setup.version
  | .mfaConfirmation confirmation => some confirmation.version
  | .mfaRotation rotation => some rotation.version
  | .mfaReset result => some result.version
  | .secretRotated _ version => some version
  | _ => none

structure Continues (s s' : Store) : Prop where
  users : ∀ r ∈ s.users.rows, Continued r s'.users.rows
  credentials : ∀ r ∈ s.credentials.rows, Continued r s'.credentials.rows
  userMFA : ∀ r ∈ s.userMFA.rows, Continued r s'.userMFA.rows
  serviceAccounts : ∀ r ∈ s.serviceAccounts.rows, Continued r s'.serviceAccounts.rows

namespace Continues

variable {s s' s'' : Store}

theorem refl (s : Store) : Continues s s := by
  constructor <;> exact fun _ => .of_mem

theorem trans (h : Continues s s') (h' : Continues s' s'') : Continues s s'' where
  users r hr := (h.users r hr).trans h'.users
  credentials r hr := (h.credentials r hr).trans h'.credentials
  userMFA r hr := (h.userMFA r hr).trans h'.userMFA
  serviceAccounts r hr := (h.serviceAccounts r hr).trans h'.serviceAccounts

theorem of_exec {lower : String → String} {q : Stmt} {n : Nat} (hbumps : q.Bumps)
    (hkeeps : q.Keeps) (h : s.exec lower q = some (n, s')) : Continues s s' := by
  cases q with
  | users q =>
    obtain ⟨t, ht, -, rfl⟩ := Store.exec_users.1 h
    exact { refl s with users := fun _ => .run ht hbumps hkeeps }
  | credentials q =>
    obtain ⟨t, ht, rfl⟩ := Store.exec_credentials.1 h
    exact { refl s with credentials := fun _ => .run ht hbumps hkeeps }
  | userMFA q =>
    obtain ⟨t, ht, rfl⟩ := Store.exec_userMFA.1 h
    exact { refl s with userMFA := fun _ => .run ht hbumps hkeeps }
  | serviceAccounts q =>
    obtain ⟨t, ht, rfl⟩ := Store.exec_serviceAccounts.1 h
    exact { refl s with serviceAccounts := fun _ => .run ht hbumps hkeeps }
  | sessions | mfaRecoveryCodes | mfaLoginChallenges | passwordResetChallenges | outboxEvents =>
    simp only [Store.exec_sessions, Store.exec_mfaRecoveryCodes, Store.exec_mfaLoginChallenges,
      Store.exec_passwordResetChallenges, Store.exec_outboxEvents] at h
    obtain ⟨t, -, rfl⟩ := h
    exact { refl s with }

end Continues

theorem Commit.continues {svc : Service} {op : Op} {acts : List Act} {body : Tx Nat} {n : Nat}
    {next : Prog Reply} {s s' : Store} (h : Commit svc op acts body n next)
    (hrun : body.run svc.lower s = .ok (n, s')) : Continues s s' :=
  h.every.relate Continues.refl (fun _ _ _ => Continues.trans)
    (fun _ _ _ _ hq => Continues.of_exec hq.2.1 hq.2.2) hrun

section Steps

variable {svc : Service} {π : Policy} {w : World} {c d : Config} {ev : Event}
  {k : ev.call.Res → Prog Reply} {a : Answer}

theorem continues_of_step (h : svc.machine.Reach π w c) (hf : svc.machine.Fired c ev d k a) :
    Continues c.state.store d.state.store := by
  obtain ⟨body, n, next, hcom⟩ | hstore := committed_or_store_eq h hf
  · exact hcom.commit.continues hcom.run
  · rw [hstore]
    exact .refl _

theorem continues_of_run (h : svc.machine.Reach π w c) (hd : svc.machine.Run π c d) :
    Continues c.state.store d.state.store := by
  refine hd.invariant (I := fun d => Continues c.state.store d.state.store) (.refl _) ?_ ?_
  · intro d q _ ih
    exact ih
  · intro d ev d' k a hrun ih hf _
    exact ih.trans (continues_of_step (h.trans hrun) hf)

end Steps

structure Advanced (table : TableName) (key : String) (v : Int) (s s' : Store) : Prop where
  before : s.versionOf table key = some v
  after : s'.versionOf table key = some (v + 1)
  kept : table ∈ [.users, .userMFA, .serviceAccounts] ∨
    table = .sessions ∧ ∃ r ∈ s'.sessions.rows, r.id = key ∧ r.revokedAt ≠ none

theorem Advanced.of_hits {ρ : Type} [Constrained ρ] [Versioned ρ] {t t' : Table ρ} {u : Update ρ}
    {table : TableName} {key : String} {v : Int} {s s' : Store}
    (hkept : table ∈ [.users, .userMFA, .serviceAccounts])
    (hbefore : s.versionOf table key = Lib.versionOf key t.rows)
    (hafter : s'.versionOf table key = Lib.versionOf key t'.rows) (h : u.Hits t.rows t'.rows)
    (hbumps : u.Bumps)
    (hguard : ∀ r, u.guard r = true → Versioned.key r = key ∧ Versioned.version r = v) :
    Advanced table key v s s' := by
  obtain ⟨hv, hv'⟩ := h.versionOf hbumps hguard
  exact ⟨hbefore.trans hv, hafter.trans hv', .inl hkept⟩

theorem Advanced.of_revoked {t t' : Table Session} {u : Update Session} {key : String} {v : Int}
    {s s' : Store} (hs : s.sessions = t) (hs' : s'.sessions = t') (h : u.Hits t.rows t'.rows)
    (hbumps : u.Bumps) (hguard : ∀ r, u.guard r = true → r.id = key ∧ r.version = v)
    (hrevoked : ∀ r, (u.assign r).revokedAt ≠ none) : Advanced .sessions key v s s' := by
  subst hs hs'
  obtain ⟨hv, hv'⟩ := h.versionOf hbumps hguard
  refine ⟨hv, hv', .inr ⟨rfl, ?_⟩⟩
  obtain ⟨r, hr, hg⟩ := h.found
  exact ⟨u.assign r, h.map ▸ Update.assign_mem hr hg, (hbumps r).1.trans (hguard r hg).1,
    hrevoked r⟩

theorem Commit.advanced {svc : Service} {op : Op} {acts : List Act} {body : Tx Nat} {n : Nat}
    {next : Prog Reply} {s s' : Store} (h : Commit svc op acts body n next)
    (hrun : body.run svc.lower s = .ok (n, s'))
    (hown : ∀ id user r, Act.read (.getSession id user) r ∈ acts → r.id = id)
    (hany : ∀ id r, Act.read (.getSessionByID id) r ∈ acts → r.id = id)
    {table : TableName} {key : String} {v : Int} (hexp : op.expected = some (table, key, v)) :
    Advanced table key v s s' := by
  cases h with
  | updateUserStatus =>
    cases hexp
    simp at hrun
    obtain ⟨t, ⟨⟨ht, -⟩, hmatch⟩, ⟨-, ⟨_, -, rfl⟩, -⟩ | ⟨-, _, -, ⟨_, -, rfl⟩, -⟩⟩ := hrun
    all_goals
      exact .of_hits (by simp) rfl rfl ⟨ht, by simpa using hmatch⟩ (fun _ => ⟨rfl, rfl⟩)
        fun _ => Repository.statusUpdate_guard.1
  | updateUserProfile =>
    cases hexp
    simp at hrun
    obtain ⟨t, ⟨⟨ht, -⟩, hmatch⟩, ⟨_, -, rfl⟩, -⟩ := hrun
    exact .of_hits (by simp) rfl rfl ⟨ht, by simpa using hmatch⟩ (fun _ => ⟨rfl, rfl⟩)
      fun _ => Repository.profileUpdate_guard.1
  | @revokeOwnSessionByID id _ _ _ _ actor current =>
    cases hexp
    rw [hown (Go.trimSpace id) actor.id current (by simp)] at hrun
    simp at hrun
    obtain ⟨t, ⟨ht, hmatch⟩, ⟨_, -, rfl⟩, -⟩ := hrun
    refine .of_revoked rfl rfl ⟨ht, by simpa [and_assoc] using hmatch⟩ (fun _ => ⟨rfl, rfl⟩)
      (fun r hr => ?_) (by simp)
    simp only [Repository.revokeUpdate_guard, Bool.and_eq_true, decide_eq_true_eq] at hr
    exact ⟨hr.1.1.1, hr.1.2⟩
  | @revokeSessionByID id _ _ _ _ _ current =>
    cases hexp
    rw [hany (Go.trimSpace id) current (by simp)] at hrun
    simp at hrun
    obtain ⟨t, ⟨ht, hmatch⟩, ⟨_, -, rfl⟩, -⟩ := hrun
    refine .of_revoked rfl rfl ⟨ht, by simpa [and_assoc] using hmatch⟩ (fun _ => ⟨rfl, rfl⟩)
      (fun r hr => ?_) (by simp)
    simp only [Repository.revokeUpdate_guard, Bool.and_eq_true, decide_eq_true_eq] at hr
    exact hr.1
  | rotateServiceAccountSecret =>
    cases hexp
    simp at hrun
    obtain ⟨t, ⟨ht, hmatch⟩, ⟨_, -, rfl⟩, -⟩ := hrun
    exact .of_hits (by simp) rfl rfl ⟨ht, by simpa using hmatch⟩ (fun _ => ⟨rfl, rfl⟩)
      fun _ => Repository.accountSecretUpdate_guard.1
  | updateServiceAccountStatus =>
    cases hexp
    simp at hrun
    obtain ⟨t, ⟨ht, hmatch⟩, ⟨_, -, rfl⟩, -⟩ := hrun
    exact .of_hits (by simp) rfl rfl ⟨ht, by simpa using hmatch⟩ (fun _ => ⟨rfl, rfl⟩)
      fun _ => Repository.accountStatusUpdate_guard.1
  | confirmMFASetup _ _ _ _ _ _ hrows hcodes =>
    cases hexp
    simp [Repository.run_replaceRecoveryCodes (codes_ne_nil hrows) hcodes] at hrun
    obtain ⟨t, ⟨ht, hmatch⟩, _, -, _, -, ⟨_, -, rfl⟩, -⟩ := hrun
    refine .of_hits (by simp) rfl rfl ⟨ht, by simpa using hmatch⟩ (fun _ => ⟨rfl, rfl⟩)
      fun r hr => ?_
    obtain ⟨hk, -, hv⟩ := Repository.enableUpdate_guard.1 hr
    exact ⟨hk, hv⟩
  | regenerateMFARecoveryCodes _ _ _ _ _ _ _ hrows hcodes =>
    cases hexp
    simp [Repository.run_replaceRecoveryCodes (codes_ne_nil hrows) hcodes] at hrun
    obtain ⟨t, ⟨ht, hmatch⟩, _, -, ⟨_, -, rfl⟩, -⟩ := hrun
    refine .of_hits (by simp) rfl rfl ⟨ht, by simpa using hmatch⟩ (fun _ => ⟨rfl, rfl⟩)
      fun r hr => ?_
    obtain ⟨hk, -, -, hv⟩ := Repository.advanceAtVersionUpdate_guard.1 hr
    exact ⟨hk, hv⟩
  | disableMFA =>
    cases hexp
    simp at hrun
    obtain ⟨t, ⟨ht, hmatch⟩, _, -, _, -, ⟨_, -, rfl⟩, -⟩ := hrun
    refine .of_hits (by simp) rfl rfl ⟨ht, by simpa using hmatch⟩ (fun _ => ⟨rfl, rfl⟩)
      fun r hr => ?_
    obtain ⟨hk, -, -, hv⟩ := Repository.disableUpdate_guard.1 hr
    exact ⟨hk, hv⟩
  | adminResetMFA =>
    cases hexp
    simp at hrun
    obtain ⟨t, ⟨ht, hmatch⟩, _, -, _, -, ⟨_, -, rfl⟩, -⟩ := hrun
    refine .of_hits (by simp) rfl rfl ⟨ht, by simpa using hmatch⟩ (fun _ => ⟨rfl, rfl⟩)
      fun r hr => ?_
    obtain ⟨hk, -, hv⟩ := Repository.adminResetUpdate_guard.1 hr
    exact ⟨hk, hv⟩
  | _ => cases hexp

theorem Commit.returns {svc : Service} {op : Op} {acts : List Act} {body : Tx Nat} {n : Nat}
    {reply : Reply} {s s' : Store} (h : Commit svc op acts body n (.ret reply))
    (hrun : body.run svc.lower s = .ok (n, s')) {table : TableName} {key : String}
    (hrow : op.returns = some (table, key))
    (hadvanced : ∀ v, op.expected = some (table, key, v) → Advanced table key v s s') :
    ∃ v, reply.version = some v ∧ s'.versionOf table key = some v := by
  cases h with
  | @startMFASetup _ _ _ _ _ _ actor _ _ _ current =>
    cases hrow
    cases current with
    | none =>
      simp [storeSecret] at hrun
      obtain ⟨⟨t, ht, rfl⟩, -⟩ := hrun
      have hnew := ht ▸ List.mem_append_right _ (List.mem_singleton_self _)
      exact ⟨1, rfl, versionOf_eq_some.2 ⟨_, hnew, rfl, rfl⟩⟩
    | some current =>
      simp [storeSecret] at hrun
      obtain ⟨t, ⟨ht, hmatch⟩, ⟨_, -, rfl⟩, -⟩ := hrun
      refine ⟨current.version + 1, rfl, (Update.Hits.versionOf ⟨ht, by simpa using hmatch⟩
        (fun _ => ⟨rfl, rfl⟩) fun r hr => ?_).2⟩
      obtain ⟨hk, -, hv⟩ := Repository.resetPendingUpdate_guard.1 hr
      exact ⟨hk, hv⟩
  | confirmMFASetup | regenerateMFARecoveryCodes | adminResetMFA | rotateServiceAccountSecret =>
    cases hrow
    exact ⟨_, rfl, (hadvanced _ rfl).after⟩
  | _ => cases hrow

section Runs

variable {svc : Service} {π : Policy} {w : World} {clock : Time} {c d : Config} {ev e e' : Event}
  {k : ev.call.Res → Prog Reply} {a : Answer} {body body' : Tx Nat} {n n' : Nat}
  {table : TableName} {key : String} {v : Int}

theorem advanced_of_step (h : svc.machine.Reach π w c) (hf : svc.machine.Fired c ev d k a)
    (hact : ev.act = Act.committed body n) (hexp : ev.request.expected = some (table, key, v)) :
    Advanced table key v c.state.store d.state.store := by
  obtain ⟨next, hcom⟩ := committed_of_act h hf hact
  refine hcom.commit.advanced hcom.run ?_ ?_ hexp
  · intro id user r hmem
    obtain ⟨e, he, -, hread⟩ := Machine.Reach.mem_actsOf.1 hmem
    have hsel := (List.mem_filter.1 (read_select h he hread)).2
    simp only [Bool.and_eq_true, decide_eq_true_eq] at hsel
    exact hsel.1
  · intro id r hmem
    obtain ⟨e, he, -, hread⟩ := Machine.Reach.mem_actsOf.1 hmem
    exact of_decide_eq_true (List.mem_filter.1 (read_select h he hread)).2

theorem not_advanced_again (hc : svc.machine.Reach (Policy.fresh [.uuid]) (start clock) c)
    (hd : svc.machine.Run (Policy.fresh [.uuid]) c d) {s s' : Store}
    (h : Advanced table key v s c.state.store) : ¬Advanced table key v d.state.store s' := by
  intro h'
  have hcont := continues_of_run hc hd
  obtain hkept | ⟨rfl, r, hr, hid, hrev⟩ := h.kept
  · simp only [List.mem_cons, List.not_mem_nil, or_false] at hkept
    obtain rfl | rfl | rfl := hkept
    · exact versionOf_ne hcont.users h.after h'.before
    · exact versionOf_ne hcont.userMFA h.after h'.before
    · exact versionOf_ne hcont.serviceAccounts h.after h'.before
  · -- The session may be gone, but it has not come back.
    obtain ⟨x, hx, hxid, hxv⟩ := versionOf_eq_some.1 h'.before
    obtain ⟨y, hy, hyid, hyv⟩ := versionOf_eq_some.1 h.after
    obtain rfl := revoked_persists hc hd hr hrev x hx (hxid.trans hid.symm)
    obtain rfl := Table.eq_of_key hy hr (hyid.trans hid.symm)
    omega

theorem commit_unique (h : svc.machine.Reach (Policy.fresh [.uuid]) (start clock) d)
    (he : e ∈ d.history) (he' : e' ∈ d.history) (hact : e.act = Act.committed body n)
    (hact' : e'.act = Act.committed body' n') (hexp : e.request.expected = some (table, key, v))
    (hexp' : e'.request.expected = some (table, key, v)) : e = e' := by
  -- Of two such commits the later one would find the row beyond its version.
  have hlate : ∀ {x y : Event} {bx bY : Tx Nat} {nx nY : Nat} {later earlier : List Event},
      d.history = later ++ x :: earlier → y ∈ earlier → x.act = Act.committed bx nx →
      y.act = Act.committed bY nY → x.request.expected = some (table, key, v) →
      y.request.expected = some (table, key, v) → False := by
    intro x y bx bY nx nY later earlier hd hy hx hyact hxexp hyexp
    obtain ⟨c2, c3, k, a, h2, rfl, hf, -, -⟩ := h.event_split hd
    obtain ⟨c0, c1, k', a', h0, hf', hp', h1⟩ := h2.event_of_mem hy
    exact not_advanced_again (h0.trans (Machine.Run.refl.fired hf' hp')) h1
      (advanced_of_step h0 hf' hyact hyexp) (advanced_of_step h2 hf hx hxexp)
  obtain ⟨later, earlier, hd⟩ := List.append_of_mem he
  rw [hd, List.mem_append, List.mem_cons] at he'
  obtain hmem | rfl | hmem := he'
  · obtain ⟨l, l', rfl⟩ := List.append_of_mem hmem
    rw [List.append_assoc, List.cons_append] at hd
    exact (hlate hd (by simp) hact' hact hexp' hexp).elim
  · rfl
  · exact (hlate hd hmem hact hact' hexp hexp').elim

def Succeeded (c : Config) (i : Nat) (target : TableName × String × Int) : Prop :=
  ∃ th reply, c.threads[i]? = some th ∧ th.request.expected = some target ∧
    th.rest.outcome = some (.ok reply)

instance (c : Config) (i : Nat) (target : TableName × String × Int) :
    Decidable (Succeeded c i target) :=
  match hth : c.threads[i]? with
  | none => .isFalse (by simp [Succeeded, hth])
  | some ⟨op, .ret reply⟩ => decidable_of_iff (op.expected = some target) (by simp [Succeeded, hth])
  | some ⟨op, .fail _⟩ => .isFalse (by simp [Succeeded, hth])
  | some ⟨op, .call _ _⟩ => .isFalse (by simp [Succeeded, hth])

theorem Succeeded.committed {target : TableName × String × Int} {i : Nat}
    (h : svc.machine.Reach π w d) (hi : Succeeded d i target) :
    ∃ e ∈ d.history, e.thread = i ∧ e.request.expected = some target ∧
      ∃ body n, e.act = Act.committed body n := by
  obtain ⟨th, reply, hth, hexp, hout⟩ := hi
  have hwrites : th.request.writes ≠ [] := by
    intro hnil
    cases hop : th.request <;> simp [hop, Op.expected, Op.writes] at hexp hnil
  have hclean : ∀ cleaner fuel, th.request ≠ .clean cleaner fuel := by
    intro cleaner fuel hop
    rw [hop] at hexp
    cases hexp
  obtain ⟨body, n, hmem⟩ := ((ends_hasCommit svc th.request hwrites hclean).of_path
    (h.path hth)).of_outcome hout
  obtain ⟨e, he, rfl, hact⟩ := Machine.Reach.mem_actsOf.1 hmem
  obtain ⟨th', hth', hrequest, -⟩ := h.thread_of_mem he
  cases hth.symm.trans hth'
  exact ⟨e, he, rfl, hrequest ▸ hexp, body, n, hact⟩

end Runs

/-- Every committed `UPDATE` adds one to the version of each row it changes.  Of the calls that
expect one version of one row at most one succeeds, and it commits when the row is at that
version.  A version that is answered is the one stored right after the commit. -/
theorem no_update_is_lost (svc : Service) (clock : Time) (d : Config)
    (h : svc.machine.Reach (Policy.fresh [.uuid]) (start clock) d) :
    (∀ ev ∈ d.history, ∀ body n, ev.act = Act.committed body n → body.Every Stmt.Bumps) ∧
    (∀ i j target, Succeeded d i target → Succeeded d j target → i = j) ∧
    (∀ i table key v, Succeeded d i (table, key, v) → ∃ ev ∈ d.history, ev.thread = i ∧
      (∃ body n, ev.act = Act.committed body n) ∧ ev.before.store.versionOf table key = some v ∧
      ev.after.store.versionOf table key = some (v + 1)) ∧
    ∀ ev ∈ d.history, ∀ table key reply, ev.request.returns = some (table, key) →
      ev.outcome = some (.ok reply) → (∃ body n, ev.act = Act.committed body n) ∧
        ∃ v, reply.version = some v ∧ ev.after.store.versionOf table key = some v := by
  refine ⟨?_, ?_, ?_, ?_⟩
  · intro ev hev body n hact
    obtain ⟨c0, c1, k, a, h0, hf, -, -⟩ := h.event_of_mem hev
    obtain ⟨next, hcom⟩ := committed_of_act h0 hf hact
    exact hcom.commit.every.mono fun q hq => hq.2.1
  · rintro i j ⟨table, key, v⟩ hi hj
    obtain ⟨e, he, rfl, hexp, body, n, hact⟩ := hi.committed h
    obtain ⟨e', he', rfl, hexp', body', n', hact'⟩ := hj.committed h
    rw [commit_unique h he he' hact hact' hexp hexp']
  · intro i table key v hi
    obtain ⟨e, he, rfl, hexp, body, n, hact⟩ := hi.committed h
    obtain ⟨c0, c1, k, a, h0, hf, -, -⟩ := h.event_of_mem he
    have hadv := advanced_of_step h0 hf hact hexp
    rw [← hf.before, hf.state] at hadv
    exact ⟨e, he, rfl, ⟨body, n, hact⟩, hadv.before, hadv.after⟩
  · intro ev hev table key reply hrow hout
    obtain ⟨c0, c1, k, a, h0, hf, -, -⟩ := h.event_of_mem hev
    have hlast : ev.request.commitsLast = true := by
      cases hop : ev.request <;> simp [hop, Op.returns] at hrow <;> rfl
    obtain ⟨body, n, next, hcom⟩ := committed_of_ok h0 hf hlast hout
    obtain ⟨reply', rfl⟩ := hcom.commit.ends hlast
    cases hout.symm.trans hcom.outcome
    refine ⟨⟨body, n, hcom.act⟩, ?_⟩
    rw [← hf.state]
    exact hcom.commit.returns hcom.run hrow fun v hexp => advanced_of_step h0 hf hcom.act hexp

namespace sample

def race : List (Choice Op Answer) :=
  signIn ++ [.start (.updateUserStatus admin "u1" "disabled" "left" 1),
    .start (.updateUserStatus admin "u1" "locked" "audit" 1),
    .step 2 (.row 0), .step 3 (.row 0), .step 3 (.time 50), .step 2 (.time 51),
    .step 2 (.value "e2"), .step 3 (.value "e3"), .step 2 .done, .step 3 .done, .step 2 (.row 0)]

end sample

theorem no_update_is_lost_raced : ∃ d : Config,
    (sample [] none).machine.Reach (Policy.fresh [.uuid]) (start 0) d ∧
    Succeeded d 2 (.users, "u1", 1) ∧ ¬Succeeded d 3 (.users, "u1", 1) ∧
    ∃ ev ∈ d.history, ev.thread = 2 ∧ ev.before.store.versionOf .users "u1" = some 1 ∧
      ev.after.store.versionOf .users "u1" = some 2 := by
  obtain ⟨d, hd, hfirst⟩ : ∃ d : Config,
      (sample [] none).machine.Reach (Policy.fresh [.uuid]) (start 0) d ∧
        Succeeded d 2 (.users, "u1", 1) :=
    Machine.replay_exists sample.race (by decide +kernel)
  obtain ⟨-, hone, hversion, -⟩ := no_update_is_lost _ 0 d hd
  obtain ⟨ev, hev, hthread, -, hbefore, hafter⟩ := hversion 2 .users "u1" 1 hfirst
  refine ⟨d, hd, hfirst, fun hsecond => ?_, ev, hev, hthread, hbefore, hafter⟩
  cases hone 2 3 _ hfirst hsecond

end IdentityService
