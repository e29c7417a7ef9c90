import IdentityService.MFA.Change

/-! One time codes: which secret a code is checked against, and in which order steps are used. -/

namespace IdentityService

open Lib

def Op.totpCode : Op → Option String
  | .confirmMFASetup _ code _ => some code
  | .disableMFA _ _ code _ => some code
  | .regenerateMFARecoveryCodes _ _ code _ => some code
  | .verifyMFAChallenge _ code _ => some code
  | _ => none

def Event.written (ev : Event) : List MFAEnrollment :=
  ev.after.store.userMFA.rows.filter (fun e => e ∉ ev.before.store.userMFA.rows)

def Event.accepted (ev : Event) : List MFAEnrollment :=
  if ev.request.totpCode.isSome then Event.written ev else []

def Event.stored (ev : Event) : List MFAEnrollment :=
  match ev.request with
  | .startMFASetup _ _ => Event.written ev
  | _ => []

def sinceEnrolmentRead (history : List Event) (thread : Nat) : List Event :=
  history.takeWhile (fun ev => ¬(ev.thread = thread ∧ Act.readsEnrolment ev.act = true))

theorem MFAChange.row_origin {svc : Service} {op : Op} {acts : List Act} {s s' : Store}
    (h : MFAChange svc op acts s s') {e' : MFAEnrollment} (he' : e' ∈ s'.userMFA.rows) :
    e' ∈ s.userMFA.rows ∨
    (∃ ctx password, op = .startMFASetup ctx password ∧ e'.status = .pending) ∨
    ∃ e ∈ s.userMFA.rows, e'.userID = e.userID ∧ e'.secretCiphertext = e.secretCiphertext ∧
      (op.totpCode = none ∧ e'.status = .disabled ∨
        ∃ code, op.totpCode = some code ∧ CheckedCode svc acts e'.userID code e'.lastUsedStep ∧
          e'.status ≠ .pending ∧
            (e.status = .pending ∨ e.status = .enabled ∧ e.lastUsedStep < e'.lastUsedStep)) := by
  have hsplit : ∀ {u : Update MFAEnrollment}, u.Hits s.userMFA.rows s'.userMFA.rows →
      e' ∈ s.userMFA.rows ∨ ∃ e ∈ s.userMFA.rows, u.guard e = true ∧ e' = u.assign e := by
    intro u hits
    rw [hits.map, Update.mem_map_apply] at he'
    exact he'.imp And.left id
  cases h with
  | keep henr hcodes | spend _ _ _ _ _ _ _ henr => exact .inl (henr ▸ he')
  | enrol actor password ciphertext now hop henr =>
    rw [henr, List.mem_append, List.mem_singleton] at he'
    obtain he | rfl := he'
    · exact .inl he
    · exact .inr (.inl ⟨_, _, hop, rfl⟩)
  | reset actor password ciphertext version now hop henr =>
    obtain he | ⟨e, he, hg, rfl⟩ := hsplit henr
    · exact .inl he
    · exact .inr (.inl ⟨_, _, hop, rfl⟩)
  | adminReset actor userID reason version now hop henr =>
    obtain he | ⟨e, he, hg, rfl⟩ := hsplit henr
    · exact .inl he
    · exact .inr (.inr ⟨e, he, rfl, rfl, .inl ⟨by rw [hop]; rfl, rfl⟩⟩)
  | enable actor code step version now codes hop hclock hcode henr =>
    obtain he | ⟨e, he, hg, rfl⟩ := hsplit henr
    · exact .inl he
    · obtain ⟨huser, hpending, -⟩ := Repository.enableUpdate_guard.1 hg
      exact .inr (.inr ⟨e, he, rfl, rfl, .inr ⟨code, by rw [hop]; rfl, huser ▸ hcode,
        nofun, .inl hpending⟩⟩)
  | disable actor password code step version now hop hcode henr =>
    obtain he | ⟨e, he, hg, rfl⟩ := hsplit henr
    · exact .inl he
    · obtain ⟨huser, henabled, hlt, -⟩ := Repository.disableUpdate_guard.1 hg
      exact .inr (.inr ⟨e, he, rfl, rfl, .inr ⟨code, by rw [hop]; rfl, huser ▸ hcode,
        nofun, .inr ⟨henabled, hlt⟩⟩⟩)
  | regenerate actor password code step version now codes hop hcode henr =>
    obtain he | ⟨e, he, hg, rfl⟩ := hsplit henr
    · exact .inl he
    · obtain ⟨huser, henabled, hlt, -⟩ := Repository.advanceAtVersionUpdate_guard.1 hg
      exact .inr (.inr ⟨e, he, rfl, rfl, .inr ⟨code, by rw [hop]; rfl, huser ▸ hcode,
        fun hpending => (nomatch henabled.symm.trans hpending), .inr ⟨henabled, hlt⟩⟩⟩)
  | advance token code recoveryCode user step now hop hcode henr =>
    obtain he | ⟨e, he, hg, rfl⟩ := hsplit henr
    · exact .inl he
    · obtain ⟨huser, henabled, hlt⟩ := Repository.advanceUpdate_guard.1 hg
      exact .inr (.inr ⟨e, he, rfl, rfl, .inr ⟨code, by rw [hop]; rfl, huser ▸ hcode,
        fun hpending => (nomatch henabled.symm.trans hpending), .inr ⟨henabled, hlt⟩⟩⟩)

theorem accepted_sub {ev : Event} {e : MFAEnrollment} (he : e ∈ Event.accepted ev) :
    e ∈ Event.written ev := by
  unfold Event.accepted at he
  split at he
  · exact he
  · cases he

section Written

variable {svc : Service} {π : Policy} {w : World} {c d : Config} {ev : Event}
  {k : ev.call.Res → Prog Reply} {a : Answer} {e : MFAEnrollment}

theorem mem_written (hf : svc.machine.Fired c ev d k a) :
    e ∈ Event.written ev ↔ e ∈ d.state.store.userMFA.rows ∧ e ∉ c.state.store.userMFA.rows := by
  rw [hf.state, ← hf.before]
  simp [Event.written]

theorem accepted_of_step (h : svc.machine.Reach π w c) (hf : svc.machine.Fired c ev d k a)
    (he : e ∈ Event.accepted ev) :
    ∃ old ∈ c.state.store.userMFA.rows, e.userID = old.userID ∧
      e.secretCiphertext = old.secretCiphertext ∧
      ∃ code, ev.request.totpCode = some code ∧
        CheckedCode svc (c.actsOf ev.thread) e.userID code e.lastUsedStep ∧
        e.status ≠ .pending ∧
        (old.status = .pending ∨ old.status = .enabled ∧ old.lastUsedStep < e.lastUsedStep) := by
  unfold Event.accepted at he
  split at he
  · rename_i hcode
    obtain ⟨hnew, hnot⟩ := (mem_written hf).1 he
    obtain hold | ⟨ctx, password, hop, -⟩ | ⟨old, hold, huser, hsecret, hcase⟩ :=
      (mfaChange_of_step h hf).row_origin hnew
    · exact absurd hold hnot
    · rw [hop] at hcode
      cases hcode
    · obtain ⟨hnone, -⟩ | hchecked := hcase
      · rw [hnone] at hcode
        cases hcode
      · exact ⟨old, hold, huser, hsecret, hchecked⟩
  · cases he

end Written

def storedCiphertexts (history : List Event) : List String :=
  history.flatMap (fun ev => (Event.stored ev).map MFAEnrollment.secretCiphertext)

/-- The outputs of `EncryptSecret` never repeat: no secret is stored under a ciphertext that was
stored before. -/
def Policy.freshCiphertexts : Policy :=
  .onEvents fun c ev => ∀ e ∈ Event.stored ev, e.secretCiphertext ∉ storedCiphertexts c.history

instance (c : Config) (q : Op) : Decidable (Policy.freshCiphertexts.start c q) := .isTrue trivial

instance (c : Config) (ev : Event) : Decidable (Policy.freshCiphertexts.event c ev) :=
  inferInstanceAs (Decidable (∀ e ∈ Event.stored ev, _ ∉ _))

structure StepsOrdered (c : Config) : Prop where
  ordered : c.history.Pairwise fun later earlier =>
    ∀ e ∈ Event.accepted later, ∀ e' ∈ Event.accepted earlier, e'.userID = e.userID →
      e'.secretCiphertext = e.secretCiphertext → e'.lastUsedStep < e.lastUsedStep
  current : ∀ r ∈ c.state.store.userMFA.rows, ∀ x ∈ c.history, ∀ e ∈ Event.accepted x,
    e.userID = r.userID → e.secretCiphertext = r.secretCiphertext →
      r.status ≠ .pending ∧ (r.status = .enabled → e.lastUsedStep ≤ r.lastUsedStep)
  stored : ∀ r ∈ c.state.store.userMFA.rows, r.secretCiphertext ∈ storedCiphertexts c.history
  known : ∀ x ∈ c.history, ∀ e ∈ Event.accepted x,
    e.secretCiphertext ∈ storedCiphertexts c.history

theorem StepsOrdered.step {svc : Service} {π : Policy} {w : World} {c d : Config} {ev : Event}
    {k : ev.call.Res → Prog Reply} {a : Answer} (ih : StepsOrdered c)
    (h : svc.machine.Reach π w c) (hf : svc.machine.Fired c ev d k a)
    (hfresh : Policy.freshCiphertexts.event c ev) : StepsOrdered d := by
  have hgrow : ∀ ct, ct ∈ storedCiphertexts c.history → ct ∈ storedCiphertexts d.history := by
    intro ct hct
    rw [hf.history]
    exact List.mem_append_right _ hct
  -- A row that is new and not set up anew keeps the secret of an older one.
  have horigin : ∀ r ∈ d.state.store.userMFA.rows, r ∈ c.state.store.userMFA.rows ∨
      (r ∈ Event.stored ev ∧ Event.accepted ev = []) ∨
      ∃ old ∈ c.state.store.userMFA.rows, r.userID = old.userID ∧
        r.secretCiphertext = old.secretCiphertext ∧ r.status ≠ .pending ∧
        (r.status = .enabled →
          old.status = .pending ∨ old.status = .enabled ∧ old.lastUsedStep ≤ r.lastUsedStep) := by
    intro r hr
    by_cases hold : r ∈ c.state.store.userMFA.rows
    · exact .inl hold
    · have hnew := (mem_written hf).2 ⟨hr, hold⟩
      obtain h' | ⟨ctx, password, hop, -⟩ | ⟨old, hmem, huser, hsecret, hcase⟩ :=
        (mfaChange_of_step h hf).row_origin hr
      · exact .inl h'
      · refine .inr (.inl ⟨?_, ?_⟩)
        · simpa only [Event.stored, hop] using hnew
        · simp [Event.accepted, hop, Op.totpCode]
      · refine .inr (.inr ⟨old, hmem, huser, hsecret, ?_⟩)
        obtain ⟨-, hdisabled⟩ | ⟨code, -, -, hstatus, hpending | ⟨henabled, hlt⟩⟩ := hcase
        · simp [hdisabled]
        · exact ⟨hstatus, fun _ => .inl hpending⟩
        · exact ⟨hstatus, fun _ => .inr ⟨henabled, hlt.le⟩⟩
  refine ⟨?_, ?_, ?_, ?_⟩
  · rw [hf.history, List.pairwise_cons]
    refine ⟨fun x hx e he e' he' huser hsecret => ?_, ih.ordered⟩
    obtain ⟨old, hold, huser', hsecret', -, -, -, -, hcase⟩ := accepted_of_step h hf he
    obtain ⟨hpending, hle⟩ := ih.current old hold x hx e' he' (huser.trans huser')
      (hsecret.trans hsecret')
    obtain hstatus | ⟨henabled, hlt⟩ := hcase
    · exact absurd hstatus hpending
    · exact (hle henabled).trans_lt hlt
  · intro r hr x hx e he huser hsecret
    rw [hf.history, List.mem_cons] at hx
    obtain rfl | hx := hx
    · -- The row just accepted is the one in the table.
      have hmem := List.mem_of_mem_filter (accepted_sub he)
      rw [← hf.state] at hmem
      obtain rfl := Table.eq_of_clash hmem hr (by simp [Constrained.clash, huser])
      obtain ⟨_, _, _, _, _, _, _, hstatus, _⟩ := accepted_of_step h hf he
      exact ⟨hstatus, fun _ => le_rfl⟩
    · obtain hold | ⟨hstored, -⟩ | ⟨old, hold, huser', hsecret', hstatus, hle⟩ := horigin r hr
      · exact ih.current r hold x hx e he huser hsecret
      · exact absurd (hsecret ▸ ih.known x hx e he) (hfresh r hstored)
      · obtain ⟨hpending, hle'⟩ := ih.current old hold x hx e he (huser.trans huser')
          (hsecret.trans hsecret')
        refine ⟨hstatus, fun henabled => ?_⟩
        obtain hstatus | ⟨henabled, hle⟩ := hle henabled
        · exact absurd hstatus hpending
        · exact (hle' henabled).trans hle
  · intro r hr
    obtain hold | ⟨hstored, -⟩ | ⟨old, hold, -, hsecret, -, -⟩ := horigin r hr
    · exact hgrow _ (ih.stored r hold)
    · rw [hf.history]
      exact List.mem_append_left _ (List.mem_map_of_mem hstored)
    · exact hsecret ▸ hgrow _ (ih.stored old hold)
  · intro x hx e he
    rw [hf.history, List.mem_cons] at hx
    obtain rfl | hx := hx
    · obtain ⟨old, hold, -, hsecret, -⟩ := accepted_of_step h hf he
      exact hsecret ▸ hgrow _ (ih.stored old hold)
    · exact hgrow _ (ih.known x hx e he)

/-- For one user and one stored ciphertext the accepted steps strictly increase, and a step
accepts at most one code for a user. -/
theorem accepted_steps_increase (svc : Service) (clock : Time) (c : Config)
    (h : svc.machine.Reach Policy.freshCiphertexts (start clock) c) :
    (c.history.Pairwise fun later earlier =>
      ∀ e ∈ Event.accepted later, ∀ e' ∈ Event.accepted earlier, e'.userID = e.userID →
        e'.secretCiphertext = e.secretCiphertext → e'.lastUsedStep < e.lastUsedStep) ∧
    ∀ ev ∈ c.history, (Event.accepted ev).Pairwise fun e e' => e.userID ≠ e'.userID := by
  have hordered : StepsOrdered c := by
    refine Machine.Run.invariant (I := StepsOrdered) h ?_ ?_ ?_
    · refine ⟨.nil, ?_, ?_, ?_⟩ <;> intro x hx <;> cases hx
    · intro d q _ ih
      exact ⟨ih.ordered, ih.current, ih.stored, ih.known⟩
    · intro d ev d' k a hd ih hf hp
      exact ih.step hd hf hp
  refine ⟨hordered.ordered, fun ev _ => ?_⟩
  have hdistinct := ev.after.store.userMFA.distinct.filter
    (fun e => decide (e ∉ ev.before.store.userMFA.rows))
  unfold Event.accepted
  split
  · refine hdistinct.imp fun hclash huser => ?_
    simp [Constrained.clash, huser] at hclash
  · exact .nil

theorem accepted_steps_increase_enrolled : ∃ c : Config,
    (sample [] (some sample.crypto)).machine.Reach Policy.freshCiphertexts (start 0) c ∧
    (c.history.flatMap Event.accepted).length = 2 ∧
    c.history.Pairwise fun later earlier =>
      ∀ e ∈ Event.accepted later, ∀ e' ∈ Event.accepted earlier, e'.userID = e.userID →
        e'.secretCiphertext = e.secretCiphertext → e'.lastUsedStep < e.lastUsedStep := by
  obtain ⟨c, hc, hlength⟩ : ∃ c,
      (sample [] (some sample.crypto)).machine.Reach Policy.freshCiphertexts (start 0) c ∧
      (c.history.flatMap Event.accepted).length = 2 :=
    Machine.replay_exists (sample.signIn ++ sample.enrol ++ sample.challenge ++ sample.answer 5)
      (by decide +kernel)
  exact ⟨c, hc, hlength, (accepted_steps_increase _ _ c hc).1⟩

theorem MFAChange.row_fate {svc : Service} {op : Op} {acts : List Act} {s s' : Store}
    (h : MFAChange svc op acts s s') {e : MFAEnrollment} (he : e ∈ s.userMFA.rows) :
    ∃ e' ∈ s'.userMFA.rows, e'.userID = e.userID ∧
      (e'.secretCiphertext = e.secretCiphertext ∨ ∃ ctx password,
        op = .startMFASetup ctx password) := by
  have hmap : ∀ {u : Update MFAEnrollment}, u.Hits s.userMFA.rows s'.userMFA.rows →
      (∀ e, (u.assign e).userID = e.userID) →
      ∃ e' ∈ s'.userMFA.rows, e'.userID = e.userID ∧
        ((∀ e, (u.assign e).secretCiphertext = e.secretCiphertext) →
          e'.secretCiphertext = e.secretCiphertext) := by
    intro u hits huser
    refine ⟨u.apply e, hits.map ▸ List.mem_map_of_mem he, ?_⟩
    unfold Update.apply
    split
    · exact ⟨huser e, fun hsecret => hsecret e⟩
    · exact ⟨rfl, fun _ => rfl⟩
  cases h with
  | keep henr hcodes | spend _ _ _ _ _ _ _ henr => exact ⟨e, henr ▸ he, rfl, .inl rfl⟩
  | enrol actor password ciphertext now hop henr =>
    exact ⟨e, henr ▸ List.mem_append_left _ he, rfl, .inl rfl⟩
  | reset actor password ciphertext version now hop henr =>
    obtain ⟨e', he', huser, -⟩ := hmap henr (by simp)
    exact ⟨e', he', huser, .inr ⟨_, _, hop⟩⟩
  | enable _ _ _ _ _ _ _ _ _ henr =>
    obtain ⟨e', he', huser, hsecret⟩ := hmap henr (by simp)
    exact ⟨e', he', huser, .inl (hsecret (by simp))⟩
  | disable _ _ _ _ _ _ _ _ henr | adminReset _ _ _ _ _ _ henr
  | regenerate _ _ _ _ _ _ _ _ _ henr | advance _ _ _ _ _ _ _ _ henr =>
    obtain ⟨e', he', huser, hsecret⟩ := hmap henr (by simp)
    exact ⟨e', he', huser, .inl (hsecret (by simp))⟩

theorem secret_kept {svc : Service} {π : Policy} {w : World} {c d : Config}
    (h : svc.machine.Reach π w c) (hrun : svc.machine.Run π c d) {user : String}
    {later : List Event} (hlater : d.history = later ++ c.history)
    (hnone : ∀ x ∈ later, ∀ e ∈ Event.stored x, e.userID ≠ user) {e : MFAEnrollment}
    (he : e ∈ c.state.store.userMFA.rows) (huser : e.userID = user) :
    ∃ e' ∈ d.state.store.userMFA.rows, e'.userID = user ∧
      e'.secretCiphertext = e.secretCiphertext := by
  refine Machine.Run.invariant (I := fun d => ∃ e' ∈ d.state.store.userMFA.rows,
    e'.userID = user ∧ e'.secretCiphertext = e.secretCiphertext) (hrun.restrict hlater hnone)
    ⟨e, he, huser, rfl⟩ (fun _ _ _ ih => ih) ?_
  rintro c' x d' k a hc' ⟨r, hr, hruser, hsecret⟩ hf hp
  obtain ⟨r', hr', hruser', hcase⟩ :=
    (mfaChange_of_step (h.trans hc'.left) hf).row_fate hr
  refine ⟨r', hr', hruser'.trans hruser, ?_⟩
  by_cases hold : r' ∈ c'.state.store.userMFA.rows
  · obtain rfl := Table.eq_of_clash hold hr (by simp [Constrained.clash, hruser'])
    exact hsecret
  · obtain hsame | ⟨ctx, password, hop⟩ := hcase
    · exact hsame.trans hsecret
    · have hstored : r' ∈ Event.stored x := by
        simpa only [Event.stored, hop] using (mem_written hf).2 ⟨hr', hold⟩
      exact absurd (hruser'.trans hruser) (hp.2 r' hstored)

/-- Between the read of the enrolment and the commit no new secret is stored for the user. -/
def Policy.undisturbedSecrets : Policy :=
  .onEvents fun c ev => ∀ e ∈ Event.accepted ev, ∀ x ∈ sinceEnrolmentRead c.history ev.thread,
    ∀ e' ∈ Event.stored x, e'.userID ≠ e.userID

instance (c : Config) (q : Op) : Decidable (Policy.undisturbedSecrets.start c q) := .isTrue trivial

instance (c : Config) (ev : Event) : Decidable (Policy.undisturbedSecrets.event c ev) :=
  inferInstanceAs (Decidable (∀ e ∈ Event.accepted ev, ∀ x ∈ _, ∀ e' ∈ _, _))

theorem sinceEnrolmentRead_split {history : List Event} {thread : Nat} {e : Event}
    (he : e ∈ history) (hthread : e.thread = thread) (hreads : Act.readsEnrolment e.act = true) :
    ∃ r earlier, history = sinceEnrolmentRead history thread ++ r :: earlier ∧
      r.thread = thread ∧ Act.readsEnrolment r.act = true := by
  induction history with
  | nil => cases he
  | cons x history ih =>
    by_cases hx : x.thread = thread ∧ Act.readsEnrolment x.act = true
    · exact ⟨x, history, by simp [sinceEnrolmentRead, hx], hx⟩
    · obtain rfl | he := List.mem_cons.1 he
      · exact absurd ⟨hthread, hreads⟩ hx
      · obtain ⟨r, earlier, hsplit, hr⟩ := ih he
        have hcons : sinceEnrolmentRead (x :: history) thread =
            x :: sinceEnrolmentRead history thread :=
          List.takeWhile_cons_of_pos (decide_eq_true hx)
        refine ⟨r, earlier, ?_, hr⟩
        rw [hcons, List.cons_append]
        exact congrArg _ hsplit

theorem secret_since_read {svc : Service} {π : Policy} {w : World} {c : Config} {thread : Nat}
    (h : svc.machine.Reach π w c) {user : String} {enrollment : MFAEnrollment}
    (hread : Act.read (.getMFA user) enrollment ∈ c.actsOf thread)
    (honly : ∀ a ∈ c.actsOf thread, Act.readsEnrolment a = true →
      a = Act.read (.getMFA user) enrollment)
    (hnone : ∀ x ∈ sinceEnrolmentRead c.history thread, ∀ e ∈ Event.stored x, e.userID ≠ user)
    {e : MFAEnrollment} (he : e ∈ c.state.store.userMFA.rows) (huser : e.userID = user) :
    e.secretCiphertext = enrollment.secretCiphertext := by
  obtain ⟨x, hx, hthread, hact⟩ := Machine.Reach.mem_actsOf.1 hread
  obtain ⟨r, earlier, hsplit, hrthread, hreads⟩ :=
    sinceEnrolmentRead_split hx hthread (by rw [hact]; rfl)
  have hr : r ∈ c.history := by
    rw [hsplit]
    simp
  have hract := honly _ (Machine.Reach.mem_actsOf.2 ⟨r, hr, hrthread, rfl⟩) hreads
  obtain ⟨c0, c1, k, a, h0, rfl, hf, hp, h1⟩ := h.event_split hsplit
  have hrow := List.mem_filter.1 (read_select h hr hract)
  simp only [decide_eq_true_eq] at hrow
  have hstore : c1.state.store = r.before.store := by
    rw [hf.before]
    refine store_eq_of_not_committed hf ?_
    rintro ⟨body, n, hcom⟩
    cases hract.symm.trans hcom
  obtain ⟨e', he', huser', hsecret⟩ := secret_kept (h0.trans (Machine.Run.fired .refl hf hp)) h1
    (by rw [hf.history]; exact hsplit) hnone (hstore ▸ hrow.1) hrow.2
  obtain rfl := Table.eq_of_clash he he' (by simp [Constrained.clash, huser, huser'])
  exact hsecret

/-- When no new secret is stored for the user between the read and the commit, a code is only
accepted if it is valid, at the time the call captured, for the secret of the row written. -/
theorem accepted_code_is_of_stored_secret (svc : Service) (w : World) (c : Config)
    (h : svc.machine.Reach Policy.undisturbedSecrets w c) :
    ∀ later ev earlier, c.history = later ++ ev :: earlier → ∀ e ∈ Event.accepted ev,
      ∃ m code now secret, svc.mfa = some m ∧ ev.request.totpCode = some code ∧
        callTime earlier ev.thread = some now ∧
        m.decryptSecret e.userID e.secretCiphertext = some secret ∧
        m.validateTOTP secret (Go.trimSpace code) now = some e.lastUsedStep := by
  intro later ev earlier hsplit e he
  obtain ⟨c0, c1, k, a, h0, rfl, hf, hp, -⟩ := h.event_split hsplit
  obtain ⟨old, hold, huser, hsecret, code, hcode, hchecked, -⟩ := accepted_of_step h0 hf he
  obtain ⟨m, enrollment, secret, now, hmfa, hread, honly, hnow, hdecrypt, hstep⟩ := hchecked
  have hsame := secret_since_read h0 hread honly (hp e he) hold huser.symm
  refine ⟨m, code, now, secret, hmfa, hcode, hnow, ?_, hstep⟩
  rw [hsecret, hsame]
  exact hdecrypt

namespace sample

def setup (thread : Nat) (secret nonce : String) (t : Time) : List (Choice Op Answer) :=
  [.start (.startMFASetup bob "correct horse"), .step thread (.row 0), .step thread (.row 0),
    .step thread (.value secret), .step thread (.value nonce), .step thread (.time t),
    .step thread (.row 0), .step thread .done]

def otherSecret : String := "BAAAAAAA"

def swap : List (Choice Op Answer) :=
  setup 2 secret "n1" (100 * Go.second) ++
    [.start (.confirmMFASetup bob code 2), .step 3 (.row 0), .step 3 (.time (130 * Go.second))] ++
    codesDrawn 3 "k" ++ setup 4 otherSecret "n2" (131 * Go.second) ++ [.step 3 .done]

end sample

/-- A code of one secret enables another. -/
theorem code_enables_another_secret : ∃ c : Config,
    (sample [] (some sample.crypto)).machine.Reach .any (start 0) c ∧
    ∃ ev ∈ c.history.head?, ∃ e ∈ Event.accepted ev,
      ev.request.totpCode = some sample.code ∧
      callTime c.history.tail ev.thread = some (130 * Go.second) ∧
      sample.crypto.decryptSecret e.userID e.secretCiphertext = some sample.otherSecret ∧
      sample.crypto.validateTOTP sample.otherSecret (Go.trimSpace sample.code)
        (130 * Go.second) = none :=
  Machine.replay_exists (sample.signIn ++ sample.swap) (by decide +kernel)

theorem accepted_code_is_of_stored_secret_enrolled : ∃ c : Config,
    (sample [] (some sample.crypto)).machine.Reach Policy.undisturbedSecrets (start 0) c ∧
    ∃ later ev earlier, c.history = later ++ ev :: earlier ∧ ∃ e ∈ Event.accepted ev,
      ∃ m code now secret, (sample [] (some sample.crypto)).mfa = some m ∧
        ev.request.totpCode = some code ∧ callTime earlier ev.thread = some now ∧
        m.decryptSecret e.userID e.secretCiphertext = some secret ∧
        m.validateTOTP secret (Go.trimSpace code) now = some e.lastUsedStep := by
  obtain ⟨c, hc, ev, hev, hany⟩ : ∃ c,
      (sample [] (some sample.crypto)).machine.Reach Policy.undisturbedSecrets (start 0) c ∧
      ∃ ev ∈ c.history, Event.accepted ev ≠ [] :=
    Machine.replay_exists (sample.signIn ++ sample.enrol) (by decide +kernel)
  obtain ⟨later, earlier, hsplit⟩ := List.append_of_mem hev
  obtain ⟨e, he⟩ := List.exists_mem_of_ne_nil _ hany
  exact ⟨c, hc, later, ev, earlier, hsplit, e, he,
    accepted_code_is_of_stored_secret _ _ c hc later ev earlier hsplit e he⟩

end IdentityService
