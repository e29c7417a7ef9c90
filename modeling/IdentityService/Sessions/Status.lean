import IdentityService.Sessions.Change

/-! A user who is not active and the sessions of that user. -/

namespace IdentityService

open Lib Service

inductive UserChange (svc : Service) (op : Op) (acts : List Act) (s s' : Store) : Prop
  | keep (husers : s'.users = s.users)
  | other (hsessions : s'.sessions = s.sessions)
      (husers : ∀ u' ∈ s'.users.rows, u'.status = .active ∨
        ∃ u ∈ s.users.rows, u.id = u'.id ∧ u.status = u'.status)
  | status (id reason actor : String) (status : Status) (version : Int) (now : Time)
      (hacts : Act.clock now ∈ acts)
      (husers : s'.users.rows =
        s.users.rows.map (Repository.statusUpdate id status actor version now).apply)
      (hsessions : status ≠ .active → s'.sessions.rows = s.sessions.rows.map
        (Repository.revokeUpdate (fun r => r.userID = id && now < r.expiresAt) reason actor
          now).apply)
      (hactive : status = .active → s'.sessions = s.sessions)

theorem UserChange.of_update {svc : Service} {op : Op} {acts : List Act} {s s' : Store}
    {u : Update User} (hassign : ∀ r, (u.assign r).id = r.id ∧ (u.assign r).status = r.status)
    (hrows : s'.users.rows = s.users.rows.map u.apply) (hsessions : s'.sessions = s.sessions) :
    UserChange svc op acts s s' := by
  refine .other hsessions fun u' hu' => .inr ?_
  rw [hrows, Update.mem_map_apply] at hu'
  obtain ⟨hu', -⟩ | ⟨old, hold, -, rfl⟩ := hu'
  · exact ⟨u', hu', rfl, rfl⟩
  · exact ⟨old, hold, (hassign old).1.symm, (hassign old).2.symm⟩

theorem Commit.userChange {svc : Service} {op : Op} {acts : List Act} {body : Tx Nat} {n : Nat}
    {next : Prog Reply} {s s' : Store} (h : Commit svc op acts body n next)
    (hrun : body.run svc.lower s = .ok (n, s')) : UserChange svc op acts s s' := by
  have hframe := h.frame hrun
  cases h with
  | register huser =>
    simp at hrun
    obtain ⟨t, ⟨ht, -⟩, _, -, ⟨_, -, rfl⟩, -⟩ := hrun
    refine .other rfl fun u' hu' => ?_
    rw [ht, List.mem_append, List.mem_singleton] at hu'
    obtain hu' | rfl := hu'
    · exact .inr ⟨u', hu', rfl, rfl⟩
    · exact .inl huser.2.1
  | loginFailed | loginVerified =>
    simp at hrun
    obtain ⟨⟨t, ht, -, rfl⟩, -⟩ := hrun
    exact .of_update (fun _ => ⟨rfl, rfl⟩) ht rfl
  | loginChallenge | loginSession =>
    simp at hrun
    obtain ⟨⟨_, -, rfl⟩, -⟩ := hrun
    exact .keep rfl
  | updateUserProfile =>
    simp at hrun
    obtain ⟨t, ⟨⟨ht, -⟩, -⟩, ⟨_, -, rfl⟩, -⟩ := hrun
    exact .of_update (fun _ => ⟨rfl, rfl⟩) ht rfl
  | updateUserStatus =>
    simp at hrun
    obtain ⟨t, ⟨⟨ht, -⟩, -⟩, ⟨hactive, ⟨_, -, rfl⟩, -⟩ | ⟨hactive, t', ht', ⟨_, -, rfl⟩, -⟩⟩ := hrun
    · exact .status _ "" _ _ _ _ (by simp) ht (fun h => absurd hactive h) fun _ => rfl
    · exact .status _ _ _ _ _ _ (by simp) ht (fun _ => ht') fun h => absurd h hactive
  | _ => exact .keep (hframe.users (by simp [Op.writes]))

section Live

variable {svc : Service} {π : Policy} {w : World} {clock : Time} {c d : Config} {ev : Event}
  {k : ev.call.Res → Prog Reply} {a : Answer}

def Policy.createsForActive : Policy :=
  .onEvents fun _ ev => ∀ r ∈ ev.after.store.sessions.rows,
    (∀ old ∈ ev.before.store.sessions.rows, old.id ≠ r.id) →
    ∀ u ∈ ev.before.store.users.rows, u.id = r.userID → u.status = .active

instance (c : Config) (q : Op) : Decidable (Policy.createsForActive.start c q) := .isTrue trivial

instance (c : Config) (ev : Event) : Decidable (Policy.createsForActive.event c ev) :=
  inferInstanceAs (Decidable (∀ r ∈ ev.after.store.sessions.rows, _ → ∀ u ∈ _, _))

def NoneLive (w : World) : Prop :=
  ∀ u ∈ w.store.users.rows, u.status ≠ .active → ∀ r ∈ w.store.sessions.rows, r.userID = u.id →
    r.revokedAt = none → r.expiresAt ≤ w.clock

theorem noneLive_step (h : svc.machine.Reach Policy.monotone w c)
    (hf : svc.machine.Fired c ev d k a) (hmono : ev.before.clock ≤ ev.after.clock)
    (hcreate : (Policy.createsForActive).event c ev) (ih : NoneLive c.state) :
    NoneLive d.state := by
  obtain ⟨body, n, next, hcom⟩ | hstore := committed_or_store_eq h hf
  · intro u' hu' hactive r' hr' huser hrev
    rw [hcom.clock]
    cases hcom.commit.userChange hcom.run with
    | keep husers =>
      rw [husers] at hu'
      obtain ⟨r, hr, hevolves⟩ | ⟨_, _, _, _, _, _, _, _, happend⟩ :=
        (sessionChange_of_step h hf).origin hr'
      · rw [hevolves.expiresAt]
        exact ih u' hu' hactive r hr (hevolves.userID ▸ huser) (hevolves.unrevoked hrev)
      · rw [← hf.before] at hu'
        refine absurd (hcreate r' ?_ ?_ u' hu' huser.symm) hactive
        · rw [← hf.state]
          exact hr'
        · rw [hf.before]
          exact id_ne_of_append happend
    | other hsessions husers =>
      rw [hsessions] at hr'
      obtain hnew | ⟨u, hu, hid, hstatus⟩ := husers u' hu'
      · exact absurd hnew hactive
      · exact ih u hu (hstatus ▸ hactive) r' hr' (huser.trans hid.symm) hrev
    | status id reason actor status version now hacts husers hsessions hactivated =>
      have hnow := time_le h hacts
      obtain ⟨r, hr, hevolves⟩ : ∃ r ∈ c.state.store.sessions.rows, r.Evolves r' := by
        by_cases hstatus : status = .active
        · rw [hactivated hstatus] at hr'
          exact ⟨r', hr', .refl r'⟩
        · rw [hsessions hstatus] at hr'
          obtain ⟨r, hr, rfl⟩ := List.mem_map.1 hr'
          exact ⟨r, hr, .revoke _ _ _ _ r⟩
      rw [husers, Update.mem_map_apply] at hu'
      obtain ⟨hu', -⟩ | ⟨u, hu, hguard, rfl⟩ := hu'
      · rw [hevolves.expiresAt]
        exact ih u' hu' hactive r hr (hevolves.userID ▸ huser) (hevolves.unrevoked hrev)
      · -- The user's own change: what it left unrevoked had expired by then.
        rw [hsessions hactive, Update.mem_map_apply] at hr'
        rw [Repository.statusUpdate_assign] at huser
        obtain ⟨-, hskip⟩ | ⟨old, -, -, rfl⟩ := hr'
        · have hid := (Repository.statusUpdate_guard.1 hguard).1
          rw [← Bool.not_eq_true, Repository.revokeUpdate_guard] at hskip
          simp only [Bool.and_eq_true, decide_eq_true_eq] at hskip
          exact (not_lt.1 fun hlt => hskip ⟨⟨huser.trans hid, hlt⟩, hrev⟩).trans hnow
        · simp at hrev
  · intro u hu hactive r hr huser hrev
    rw [hstore] at hu hr
    rw [← hf.state, hf.before] at hmono
    exact (ih u hu hactive r hr huser hrev).trans hmono

theorem noneLive (h : svc.machine.Reach (Policy.monotone.both Policy.createsForActive)
    (start clock) c) : NoneLive c.state := by
  refine Machine.Run.invariant (I := fun c => NoneLive c.state) h ?_ ?_ ?_
  · intro u hu
    cases hu
  · intro d q _ ih
    exact ih
  · intro d ev d' k a hd ih hf hp
    exact noneLive_step hd.left hf hp.1 hp.2 ih

theorem read_expired (h : svc.machine.Reach (Policy.monotone.both Policy.createsForActive)
    (start clock) c) {e : Event} (he : e ∈ c.history) {id userID : String} {row : Session}
    (hact : e.act = Act.read (.getSession id userID) row) {u : User}
    (hu : u ∈ e.before.store.users.rows) (hid : u.id = userID) (hactive : u.status ≠ .active)
    (hrev : row.revokedAt = none) : row.expiresAt ≤ c.state.clock := by
  have hrow := List.mem_filter.1 (read_select h he hact)
  simp only [Bool.and_eq_true, decide_eq_true_eq] at hrow
  obtain ⟨c0, c1, k, a, h0, hf, hp, -⟩ := h.event_of_mem he
  have hexpired := noneLive h0 u (hf.before ▸ hu) hactive row (hf.before ▸ hrow.1)
    (hrow.2.2.trans hid.symm) hrev
  rw [← hf.before] at hexpired
  have hmono := clock_le h.left he
  exact hexpired.trans (hp.1.trans hmono)

theorem read_not_live (h : svc.machine.Reach (Policy.monotone.both Policy.createsForActive)
    (start clock) c) (hf : svc.machine.Fired c ev d k a)
    (hp : (Policy.monotone.both Policy.createsForActive).event c ev) {e : Event}
    (he : e ∈ ev :: c.history) (hth : ev.thread = e.thread) {id userID : String} {row : Session}
    (hact : e.act = Act.read (.getSession id userID) row) {u : User}
    (hu : u ∈ e.before.store.users.rows) (hid : u.id = userID) (hactive : u.status ≠ .active)
    {t : Time} {rest : List Act} (hacts : d.actsOf ev.thread = Act.clock t :: rest)
    (hlive : ∀ id userID (row : Session), Act.read (.getSession id userID) row ∈ rest →
      row.revokedAt = none ∧ t < row.expiresAt) : False := by
  rw [hf.actsOf_self] at hacts
  obtain ⟨hclock, hrest⟩ := List.cons.inj hacts
  obtain rfl | he := List.mem_cons.1 he
  · cases hact.symm.trans hclock
  · have hmem := Machine.Reach.mem_actsOf.2 ⟨e, he, hth.symm, hact⟩
    obtain ⟨hrev, hlt⟩ := hlive _ _ _ (hrest ▸ hmem)
    have hexpired := read_expired h he hact hu hid hactive hrev
    have hmono : c.state.clock ≤ t := clock_of_act hf hclock ▸ hf.before ▸ hp.1
    exact absurd (hexpired.trans hmono) (not_le.2 hlt)

end Live

/-- When sessions are only created for active users, a user who is not active has no live
session, and a call that reads a session of such a user accepts nothing. -/
theorem inactive_user_has_no_live_session (svc : Service) (clock : Time) (c : Config)
    (h : svc.machine.Reach (Policy.monotone.both Policy.createsForActive) (start clock) c) :
    (∀ u ∈ c.state.store.users.rows, u.status ≠ .active →
      ∀ r ∈ c.state.store.sessions.rows, r.userID = u.id →
        ¬(r.revokedAt = none ∧ c.state.clock < r.expiresAt)) ∧
    ∀ e ∈ c.history, ∀ (id userID : String) (row : Session),
      e.act = Act.read (.getSession id userID) row →
      ∀ u ∈ e.before.store.users.rows, u.id = userID → u.status ≠ .active →
      ∀ ev ∈ c.history, ev.thread = e.thread →
        (∀ id userID session, ev.request = .validateSession id userID →
          ev.outcome ≠ some (.ok (.validation session true))) ∧
        (∀ raw principal, ev.request = .verifyBearer raw →
          ev.outcome ≠ some (.ok (.principal principal))) := by
  refine ⟨fun u hu hactive r hr huser hlive => ?_, ?_⟩
  · exact absurd hlive.2 (not_lt.2 (noneLive h u hu hactive r hr huser hlive.1))
  intro e he id userID row hact u hu hid hactive ev hev hth
  obtain ⟨later, earlier, hc⟩ := List.append_of_mem hev
  obtain ⟨c0, c1, k, a, h0, rfl, hf, hp, -⟩ := h.event_split hc
  refine ⟨fun id' userID' session hop hout => ?_, fun raw principal hop hout => ?_⟩
  · obtain ⟨row', t, hacts, -, hrev, hlive⟩ := validation_accepts h0 hf hop hout
    have hmem := h.mem_of_thread_eq hc (by rw [hout]; rfl) he hth.symm
    refine read_not_live h0 hf hp hmem hth hact hu hid hactive hacts ?_
    intro i o r hr
    cases List.mem_singleton.1 hr
    exact ⟨hrev, hlive⟩
  · obtain ⟨claims, now, -, ⟨hacts, -⟩ | ⟨row', t, hacts, hrev, hlive⟩⟩ :=
      principal_accepts h0 hf hop hout
    all_goals have hmem := h.mem_of_thread_eq hc (by rw [hout]; rfl) he hth.symm
    · refine read_not_live h0 hf hp hmem hth hact hu hid hactive hacts ?_
      intro i o r hr
      cases hr
    · refine read_not_live h0 hf hp hmem hth hact hu hid hactive hacts ?_
      intro i o r hr
      obtain hr | hr := List.mem_cons.1 hr
      · cases hr
        exact ⟨hrev, hlive⟩
      · cases List.mem_singleton.1 hr

namespace sample

def overtaken : List (Choice Op Answer) :=
  signIn.dropLast ++
    [.start (.updateUserStatus admin "u1" "disabled" "left" 1),
      .step 2 (.row 0), .step 2 (.time 50), .step 2 (.value "e2"), .step 2 .done, .step 2 (.row 0),
      .step 1 .done,
      .start (.validateSession "s1" "u1"), .step 3 (.row 0), .step 3 (.time 60)]

def suspended : List (Choice Op Answer) :=
  signIn ++ [.start (.updateUserStatus admin "u1" "disabled" "left" 1),
    .step 2 (.row 0), .step 2 (.time 50), .step 2 (.value "e2"), .step 2 .done, .step 2 (.row 0)]

end sample

/-- The status is checked long before the session is inserted: a user who has been disabled in
between gets a live session, and it is accepted. -/
theorem disabled_user_live_session : ∃ c : Config,
    (sample [] none).machine.Reach Policy.monotone (start 0) c ∧
    (∃ u ∈ c.state.store.users.rows, u.status ≠ .active ∧ ∃ r ∈ c.state.store.sessions.rows,
      r.userID = u.id ∧ r.revokedAt = none ∧ c.state.clock < r.expiresAt) ∧
    ∃ ev ∈ c.history, ∃ session ∈ Event.validated ev,
      ∃ u ∈ ev.before.store.users.rows, u.id = session.userID ∧ u.status ≠ .active :=
  Machine.replay_exists sample.overtaken (by decide +kernel)

theorem inactive_user_has_no_live_session_suspended : ∃ c : Config,
    (sample [] none).machine.Reach (Policy.monotone.both Policy.createsForActive) (start 0) c ∧
    (∃ u ∈ c.state.store.users.rows, u.status ≠ .active ∧
      ∃ r ∈ c.state.store.sessions.rows, r.userID = u.id) ∧
    ∀ u ∈ c.state.store.users.rows, u.status ≠ .active →
      ∀ r ∈ c.state.store.sessions.rows, r.userID = u.id →
        ¬(r.revokedAt = none ∧ c.state.clock < r.expiresAt) := by
  obtain ⟨c, hc, hu⟩ : ∃ c,
      (sample [] none).machine.Reach (Policy.monotone.both Policy.createsForActive) (start 0) c ∧
        ∃ u ∈ c.state.store.users.rows, u.status ≠ .active ∧
          ∃ r ∈ c.state.store.sessions.rows, r.userID = u.id :=
    Machine.replay_exists sample.suspended (by decide +kernel)
  exact ⟨c, hc, hu, (inactive_user_has_no_live_session _ 0 c hc).1⟩

end IdentityService
