import IdentityService.MFA.Change

/-! The column `enabled_at` next to the status of an enrolment. -/

namespace IdentityService

open Lib Service
open Lib.Program (Ends ends_expect ends_perform ends_reject ends_require ends_pure)

/-- Whether a commit of the operation leaves the enrolment of a user behind disabled by its owner
(`true`) or set up anew (`false`). -/
def Op.leaves (user : String) : Op → Option Bool
  | .disableMFA (some actor) _ _ _ => if actor.id = user then some true else none
  | .startMFASetup (some actor) _ => if actor.id = user then some false else none
  | _ => none

def Event.leaves (user : String) (ev : Event) : Option Bool :=
  match ev.act with
  | ⟨.within _, .ok _⟩ => ev.request.leaves user
  | _ => none

def leftDisabled (user : String) (history : List Event) : Bool :=
  history.findSome? (Event.leaves user) = some true

inductive EnrolmentStep (leaves : Option Bool) (rows : List MFAEnrollment) (e' : MFAEnrollment) :
    Prop
  | keep (e : MFAEnrollment) (hleaves : leaves = none) (he : e ∈ rows)
      (huser : e'.userID = e.userID) (hstatus : e'.status = e.status)
      (hat : e'.enabledAt = e.enabledAt)
  | setUp (hleaves : leaves = some false) (hstatus : e'.status = .pending)
      (hat : e'.enabledAt = none)
  | enable (e : MFAEnrollment) (hleaves : leaves = none) (he : e ∈ rows)
      (huser : e'.userID = e.userID) (hold : e.status = .pending) (hstatus : e'.status = .enabled)
      (hat : e'.enabledAt ≠ none)
  | disable (e : MFAEnrollment) (hleaves : leaves = some true) (he : e ∈ rows)
      (huser : e'.userID = e.userID) (hold : e.status = .enabled) (hstatus : e'.status = .disabled)
      (hat : e'.enabledAt = e.enabledAt)
  | clear (e : MFAEnrollment) (hleaves : leaves = none) (he : e ∈ rows)
      (huser : e'.userID = e.userID) (hold : e.status = .enabled) (hstatus : e'.status = .disabled)
      (hat : e'.enabledAt = none)

section Steps

variable {svc : Service} {op : Op} {acts : List Act} {body : Tx Nat} {n : Nat}
  {next : Prog Reply} {s s' : Store} {e' : MFAEnrollment}

theorem MFAChange.enrolmentStep (h : MFAChange svc op acts s s')
    (hleaves : ∀ user, op.leaves user = none) (he' : e' ∈ s'.userMFA.rows) :
    EnrolmentStep none s.userMFA.rows e' := by
  have hcase : ∀ {u : Update MFAEnrollment}, u.Hits s.userMFA.rows s'.userMFA.rows →
      (∀ e ∈ s.userMFA.rows, u.guard e = true →
        EnrolmentStep none s.userMFA.rows (u.assign e)) →
      EnrolmentStep none s.userMFA.rows e' := by
    intro u hits hassign
    rw [hits.map, Update.mem_map_apply] at he'
    obtain ⟨he, -⟩ | ⟨e, he, hg, rfl⟩ := he'
    · exact .keep e' rfl he rfl rfl rfl
    · exact hassign e he hg
  cases h with
  | keep henr hcodes | spend _ _ _ _ _ _ _ henr => exact .keep e' rfl (henr ▸ he') rfl rfl rfl
  | enrol actor password ciphertext now hop | reset actor password ciphertext version now hop =>
    have := hleaves actor.id
    simp [hop, Op.leaves] at this
  | disable actor password code step version now hop =>
    have := hleaves actor.id
    simp [hop, Op.leaves] at this
  | enable actor code step version now codes hop hclock hcode henr =>
    exact hcase henr fun e he hg =>
      .enable e rfl he rfl (Repository.enableUpdate_guard.1 hg).2.1 rfl nofun
  | adminReset actor userID reason version now hop henr =>
    exact hcase henr fun e he hg =>
      .clear e rfl he rfl (Repository.adminResetUpdate_guard.1 hg).2.1 rfl rfl
  | regenerate actor password code step version now codes hop hcode henr =>
    exact hcase henr fun e he _ => .keep e rfl he rfl rfl rfl
  | advance token code recoveryCode user step now hop hcode henr =>
    exact hcase henr fun e he _ => .keep e rfl he rfl rfl rfl

theorem Commit.enrolmentStep (h : Commit svc op acts body n next)
    (hrun : body.run svc.lower s = .ok (n, s')) (he' : e' ∈ s'.userMFA.rows) :
    EnrolmentStep (op.leaves e'.userID) s.userMFA.rows e' := by
  have hchange := h.mfaChange hrun
  cases h with
  | @startMFASetup _ _ _ _ _ _ actor _ _ _ current =>
    cases current with
    | none =>
      simp [storeSecret] at hrun
      obtain ⟨⟨t, ht, rfl⟩, -⟩ := hrun
      have hnew := (List.pairwise_append.1 (ht ▸ t.distinct)).2.2
      have he' : e' ∈ t.rows := he'
      rw [ht, List.mem_append, List.mem_singleton] at he'
      obtain he | rfl := he'
      · have hne := hnew e' he _ (List.mem_singleton_self _)
        exact .keep e' (if_neg (by simpa [Constrained.clash, eq_comm] using hne)) he rfl rfl rfl
      · exact .setUp (if_pos rfl) rfl rfl
    | some current =>
      simp [storeSecret] at hrun
      obtain ⟨t, ⟨ht, hmatch⟩, ⟨t', ht', rfl⟩, -⟩ := hrun
      obtain ⟨e, he, hg, rfl⟩ | ⟨he, hne⟩ := hit_or_other ⟨ht, by simpa using hmatch⟩
        (fun e hg => (Repository.resetPendingUpdate_guard.1 hg).1) he'
      · exact .setUp (if_pos (Repository.resetPendingUpdate_guard.1 hg).1.symm) rfl rfl
      · exact .keep e' (if_neg (Ne.symm hne)) he rfl rfl rfl
  | @disableMFA _ _ _ _ _ step _ actor =>
    simp at hrun
    obtain ⟨t, ⟨ht, hmatch⟩, t', ht', _, -, ⟨_, -, rfl⟩, -⟩ := hrun
    obtain ⟨e, he, hg, rfl⟩ | ⟨he, hne⟩ := hit_or_other ⟨ht, by simpa using hmatch⟩
      (fun e hg => (Repository.disableUpdate_guard.1 hg).1) he'
    · obtain ⟨huser, henabled, -⟩ := Repository.disableUpdate_guard.1 hg
      exact .disable e (if_pos huser.symm) he rfl henabled rfl rfl
    · exact .keep e' (if_neg (Ne.symm hne)) he rfl rfl rfl
  | _ => exact hchange.enrolmentStep (fun _ => rfl) he'

end Steps

def MFAEnrollment.Dated (left : Bool) (e : MFAEnrollment) : Prop :=
  if left then e.status = .disabled ∧ e.enabledAt ≠ none
  else e.enabledAt ≠ none ↔ e.status = .enabled

namespace MFAEnrollment.Dated

variable {left : Bool} {e : MFAEnrollment}

theorem agree_iff (h : e.Dated left) :
    (e.enabledAt ≠ none ↔ e.status = .enabled) ↔ left = false := by
  cases left with
  | false => exact iff_of_true h rfl
  | true =>
    obtain ⟨hstatus, hat⟩ := h
    simp [hstatus, hat]

theorem left_eq_false (h : e.Dated left) (hstatus : e.status ≠ .disabled) : left = false := by
  cases left with
  | false => rfl
  | true => exact absurd h.1 hstatus

theorem ne_none (h : e.Dated left) (hstatus : e.status = .enabled) : e.enabledAt ≠ none := by
  have hleft := h.left_eq_false (by rw [hstatus]; nofun)
  exact (h.agree_iff.2 hleft).2 hstatus

end MFAEnrollment.Dated

theorem EnrolmentStep.dated {leaves : Option Bool} {rows : List MFAEnrollment}
    {e' : MFAEnrollment} (h : EnrolmentStep leaves rows e') (left : String → Bool)
    (ih : ∀ e ∈ rows, e.Dated (left e.userID)) : e'.Dated (leaves.getD (left e'.userID)) := by
  cases h with
  | keep e hleaves he huser hstatus hat =>
    have hdated := ih e he
    rw [hleaves, huser]
    rwa [MFAEnrollment.Dated, ← hstatus, ← hat] at hdated
  | setUp hleaves hstatus hat => simp [MFAEnrollment.Dated, hleaves, hstatus, hat]
  | enable e hleaves he huser hold hstatus hat =>
    have hleft := (ih e he).left_eq_false (by rw [hold]; nofun)
    simp [MFAEnrollment.Dated, hleaves, huser, hleft, hstatus, hat]
  | disable e hleaves he huser hold hstatus hat =>
    simpa [MFAEnrollment.Dated, hleaves, hstatus, hat] using (ih e he).ne_none hold
  | clear e hleaves he huser hold hstatus hat =>
    have hleft := (ih e he).left_eq_false (by rw [hold]; nofun)
    simp [MFAEnrollment.Dated, hleaves, huser, hleft, hstatus, hat]

theorem leftDisabled_cons (user : String) (ev : Event) (earlier : List Event) :
    leftDisabled user (ev :: earlier) =
      (Event.leaves user ev).getD (leftDisabled user earlier) := by
  rw [leftDisabled, List.findSome?_cons]
  split <;> simp_all [leftDisabled]

theorem leaves_of_not_committed {user : String} {ev : Event}
    (h : ¬∃ body n, ev.act = Act.committed body n) : Event.leaves user ev = none := by
  unfold Event.leaves
  split
  · rename_i hact
    exact absurd ⟨_, _, hact⟩ h
  · rfl

theorem dated_of_reach {svc : Service} {π : Policy} {clock : Time} {c : Config}
    (h : svc.machine.Reach π (start clock) c) :
    ∀ e ∈ c.state.store.userMFA.rows, e.Dated (leftDisabled e.userID c.history) := by
  refine Machine.Run.invariant (I := fun c => ∀ e ∈ c.state.store.userMFA.rows,
    e.Dated (leftDisabled e.userID c.history)) h ?_ ?_ ?_
  · intro e he
    cases he
  · intro d q _ ih
    exact ih
  · intro d ev d' k a hd ih hf _ e' he'
    rw [hf.history, leftDisabled_cons]
    by_cases hcom : ∃ body n, ev.act = Act.committed body n
    · obtain ⟨body, n, hact⟩ := hcom
      obtain ⟨next, hcom⟩ := committed_of_act hd hf hact
      have hleaves : Event.leaves e'.userID ev = ev.request.leaves e'.userID := by
        rw [Event.leaves, hact]
      rw [hleaves]
      exact (hcom.commit.enrolmentStep hcom.run he').dated (leftDisabled · d.history) ih
    · rw [leaves_of_not_committed hcom]
      rw [store_eq_of_not_committed hf hcom] at he'
      exact ih e' he'

def Event.reported (ev : Event) : Option MFAStatusReport :=
  match ev.request, ev.outcome with
  | .mfaStatus _, some (.ok (.mfaStatus report)) => some report
  | .adminMFAStatus _ _, some (.ok (.mfaStatus report)) => some report
  | _, _ => none

def Reporting (acts : List Act) (reply : Reply) : Prop :=
  ∃ report, reply = .mfaStatus report ∧
    ((∀ (user : String) (e : MFAEnrollment), Act.read (.getMFA user) e ∉ acts) ∧
        report.enabledAt = none ∧ report.enabled = false ∨
      ∃ user e, (∀ (user' : String) (e' : MFAEnrollment),
          Act.read (.getMFA user') e' ∈ acts ↔ user' = user ∧ e' = e) ∧
        report.enabledAt = e.enabledAt ∧ report.enabled = decide (e.status = .enabled))

theorem ends_reportMFA (user : String) (acts : List Act)
    (hacts : ∀ user' e', Act.read (.getMFA user') e' ∉ acts) :
    Ends Reporting acts (reportMFA user >>= fun report => pure (.mfaStatus report)) := by
  simp only [reportMFA, query, bind_assoc, ends_perform, ends_expect]
  intro result enrollment hfound
  cases result with
  | error err =>
    cases err <;> cases hfound
    simp only [pure_bind, ends_pure]
    refine ⟨_, rfl, .inl ⟨fun user' e' hmem => ?_, rfl, rfl⟩⟩
    obtain hhead | htail := List.mem_cons.1 hmem
    · cases hhead
    · exact hacts user' e' htail
  | ok e =>
    cases hfound
    have hread : ∀ (user' : String) (e' : MFAEnrollment),
        Act.read (.getMFA user') e' ∈ Act.read (.getMFA user) e :: acts ↔
          user' = user ∧ e' = e := by
      intro user' e'
      constructor
      · intro hmem
        obtain hhead | htail := List.mem_cons.1 hmem
        · cases hhead
          exact ⟨rfl, rfl⟩
        · exact absurd htail (hacts user' e')
      · rintro ⟨rfl, rfl⟩
        exact List.mem_cons_self
    simp only
    split
    · simp only [bind_assoc, ends_perform, ends_expect, pure_bind, ends_pure]
      intro count remaining _
      exact ⟨_, rfl, .inr ⟨user, e, by simpa [Act.read] using hread, rfl, by simp [*]⟩⟩
    · simp only [pure_bind, ends_pure]
      exact ⟨_, rfl, .inr ⟨user, e, hread, rfl, by simp [*]⟩⟩

theorem ends_mfaStatus (svc : Service) (ctx : Context) :
    Ends Reporting [] (svc.program (.mfaStatus ctx)) := by
  simp only [program, mfaStatus, bind_assoc, ends_require]
  intro actor _
  split
  · simp only [pure_bind, ends_pure]
    exact ⟨_, rfl, .inl ⟨by simp, rfl, rfl⟩⟩
  · exact ends_reportMFA actor.id [] (by simp)

theorem ends_adminMFAStatus (svc : Service) (ctx : Context) (userID : String) :
    Ends Reporting [] (svc.program (.adminMFAStatus ctx userID)) := by
  simp only [program, adminMFAStatus, query, bind_assoc, ends_require, ends_reject, ends_perform,
    ends_expect]
  intro actor _ _ result user _
  exact ends_reportMFA _ _ (by simp)

section Reports

variable {svc : Service} {π : Policy} {w : World} {clock : Time} {c d : Config} {ev : Event}
  {k : ev.call.Res → Prog Reply} {a : Answer} {report : MFAStatusReport}

theorem reporting_of_fired (h : svc.machine.Reach π w c) (hf : svc.machine.Fired c ev d k a)
    (hreport : Event.reported ev = some report) :
    Reporting (d.actsOf ev.thread) (.mfaStatus report) := by
  unfold Event.reported at hreport
  split at hreport
  · rename_i ctx _ hop hout
    cases hreport
    exact h.ends hf (hop ▸ ends_mfaStatus svc ctx) hout
  · rename_i ctx userID _ hop hout
    cases hreport
    exact h.ends hf (hop ▸ ends_adminMFAStatus svc ctx userID) hout
  · cases hreport

theorem reported_isSome (h : Event.reported ev = some report) : ev.outcome.isSome := by
  unfold Event.reported at h
  split at h
  · rename_i hout
    rw [hout]
    rfl
  · rename_i hout
    rw [hout]
    rfl
  · cases h

def ReadLeftDisabled (history : List Event) (thread : Nat) : Prop :=
  ∃ (later : List Event) (rd : Event) (earlier : List Event) (user : String) (e : MFAEnrollment),
    history = later ++ rd :: earlier ∧ rd.thread = thread ∧ rd.act = Act.read (.getMFA user) e ∧
      leftDisabled user earlier = true

theorem readLeftDisabled_iff {i : Nat} (h : svc.machine.Reach π (start clock) c) :
    ReadLeftDisabled c.history i ↔ ∃ (user : String) (e : MFAEnrollment),
      Act.read (.getMFA user) e ∈ c.actsOf i ∧ ¬(e.enabledAt ≠ none ↔ e.status = .enabled) := by
  have hread : ∀ {later rd earlier user} {e : MFAEnrollment}, c.history = later ++ rd :: earlier →
      rd.act = Act.read (.getMFA user) e →
      (leftDisabled user earlier = true ↔ ¬(e.enabledAt ≠ none ↔ e.status = .enabled)) := by
    intro later rd earlier user e hsplit hact
    obtain ⟨c0, c1, k, a, h0, rfl, hf, -, -⟩ := h.event_split hsplit
    obtain ⟨he, huser⟩ := List.mem_filter.1 (read_of_fired hf hact)
    rw [(dated_of_reach h0 e he).agree_iff, of_decide_eq_true huser, Bool.not_eq_false]
  constructor
  · rintro ⟨later, rd, earlier, user, e, hsplit, hth, hact, hleft⟩
    have hrd : rd ∈ c.history := by simp [hsplit]
    exact ⟨user, e, Machine.Reach.mem_actsOf.2 ⟨rd, hrd, hth, hact⟩, (hread hsplit hact).1 hleft⟩
  · rintro ⟨user, e, hmem, hdisagree⟩
    obtain ⟨rd, hrd, hth, hact⟩ := Machine.Reach.mem_actsOf.1 hmem
    obtain ⟨later, earlier, hsplit⟩ := List.append_of_mem hrd
    exact ⟨later, rd, earlier, user, e, hsplit, hth, hact, (hread hsplit hact).2 hdisagree⟩

end Reports

/-- `enabled_at` is set exactly for the enabled enrolments, but for those that their owner has
disabled, and the status calls report what they read. -/
theorem enabled_at_agrees_iff (svc : Service) (clock : Time) (c : Config)
    (h : svc.machine.Reach .any (start clock) c) :
    (∀ e ∈ c.state.store.userMFA.rows,
      ((e.enabledAt ≠ none ↔ e.status = .enabled) ↔ leftDisabled e.userID c.history = false)) ∧
    ∀ ev ∈ c.history, ∀ report, Event.reported ev = some report →
      ((report.enabledAt ≠ none ↔ report.enabled = true) ↔
        ¬ReadLeftDisabled c.history ev.thread) := by
  refine ⟨fun e he => (dated_of_reach h e he).agree_iff, fun ev hev report hreport => ?_⟩
  obtain ⟨later, earlier, hsplit⟩ := List.append_of_mem hev
  obtain ⟨c0, c1, k, a, h0, rfl, hf, hp, h1⟩ := h.event_split hsplit
  have hread : ∀ x, x ∈ c.actsOf ev.thread ↔ x ∈ c1.actsOf ev.thread := by
    intro x
    refine ⟨fun hx => ?_, Machine.Reach.actsOf_mono h1.history_suffix⟩
    obtain ⟨e, he, hth, hact⟩ := Machine.Reach.mem_actsOf.1 hx
    have he := h.mem_of_thread_eq hsplit (reported_isSome hreport) he hth
    exact Machine.Reach.mem_actsOf.2 ⟨e, hf.history ▸ he, hth, hact⟩
  simp only [readLeftDisabled_iff h, hread]
  obtain ⟨_, hreply, ⟨hnone, hat, henabled⟩ | ⟨user, e, honly, hat, henabled⟩⟩ :=
    reporting_of_fired h0 hf hreport
  · cases hreply
    simp [hnone, hat, henabled]
  · cases hreply
    simp [honly, hat, henabled]

namespace sample

def disable : List (Choice Op Answer) :=
  [.start (.disableMFA bob "correct horse" code 2), .step 4 (.row 0), .step 4 (.row 0),
    .step 4 (.time (160 * Go.second)), .step 4 (.value "e4"), .step 4 .done,
    .start (.mfaStatus bob), .step 5 (.row 0)]

end sample

theorem disabled_with_enabled_at : ∃ c : Config,
    (sample [] (some sample.crypto)).machine.Reach .any (start 0) c ∧
    (∃ e ∈ c.state.store.userMFA.rows, e.status = .disabled ∧
      e.enabledAt = some (130 * Go.second)) ∧
    ∃ ev ∈ c.history, ∃ report, Event.reported ev = some report ∧ report.enabled = false ∧
      report.enabledAt = some (130 * Go.second) := by
  obtain ⟨c, hc, he, ev, hev, hreport⟩ : ∃ c : Config,
      (sample [] (some sample.crypto)).machine.Reach .any (start 0) c ∧
      (∃ e ∈ c.state.store.userMFA.rows, e.status = .disabled ∧
        e.enabledAt = some (130 * Go.second)) ∧
      ∃ ev ∈ c.history, (Event.reported ev).any (fun report => report.enabled = false ∧
        report.enabledAt = some (130 * Go.second)) = true :=
    Machine.replay_exists (sample.signIn ++ sample.enrol ++ sample.disable) (by decide +kernel)
  obtain ⟨report, hreport, hshown⟩ := (Option.any_eq_true _ _).1 hreport
  exact ⟨c, hc, he, ev, hev, report, hreport, of_decide_eq_true hshown⟩

theorem enabled_at_agrees_iff_confirmed : ∃ c : Config,
    (sample [] (some sample.crypto)).machine.Reach .any (start 0) c ∧
    (∃ e ∈ c.state.store.userMFA.rows, leftDisabled e.userID c.history = false) ∧
    ∀ e ∈ c.state.store.userMFA.rows,
      ((e.enabledAt ≠ none ↔ e.status = .enabled) ↔
        leftDisabled e.userID c.history = false) := by
  obtain ⟨c, hc, he⟩ : ∃ c : Config,
      (sample [] (some sample.crypto)).machine.Reach .any (start 0) c ∧
      ∃ e ∈ c.state.store.userMFA.rows, leftDisabled e.userID c.history = false :=
    Machine.replay_exists (sample.signIn ++ sample.enrol) (by decide +kernel)
  exact ⟨c, hc, he, (enabled_at_agrees_iff _ 0 c hc).1⟩

end IdentityService
