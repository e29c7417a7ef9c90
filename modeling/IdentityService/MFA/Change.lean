import IdentityService.Sessions.Change

/-! What a committed transaction does to the enrolments and the recovery codes. -/

namespace IdentityService

open Lib Service

def Store.codesOfOthers (s : Store) (user : String) : List MFARecoveryCode :=
  s.mfaRecoveryCodes.rows.filter (fun r => !decide (r.userID = user))

structure NewCodes (acts : List Act) (user : String) (codes : List MFARecoveryCode) : Prop where
  length : codes.length = MFACrypto.recoveryCodeCount
  owner : ∀ row ∈ codes, row.userID = user
  unused : ∀ row ∈ codes, row.consumedAt = none
  drawn : ∀ row ∈ codes, Act.drew .uuid row.id ∈ acts

def Act.readsEnrolment : Act → Bool
  | ⟨.query (.getMFA _), _⟩ => true
  | _ => false

section Acts

variable (t : Time) (kind : Draw) (s : String) (claims : TokenClaims)

@[simp] theorem readsEnrolment_clock : (Act.clock t).readsEnrolment = false := rfl

@[simp] theorem readsEnrolment_drew : (Act.drew kind s).readsEnrolment = false := rfl

@[simp] theorem readsEnrolment_signed : (Act.signed claims s).readsEnrolment = false := rfl

end Acts

inductive CheckedCode (svc : Service) (acts : List Act) (user code : String) (step : Int) : Prop
  | intro (m : MFACrypto) (enrollment : MFAEnrollment) (secret : String) (now : Time)
      (hmfa : svc.mfa = some m) (hread : Act.read (.getMFA user) enrollment ∈ acts)
      (honly : ∀ a ∈ acts, a.readsEnrolment = true → a = Act.read (.getMFA user) enrollment)
      (hnow : acts.reverse.findSome? Act.time = some now)
      (hsecret : m.decryptSecret user enrollment.secretCiphertext = some secret)
      (hstep : m.validateTOTP secret (Go.trimSpace code) now = some step)

inductive MFAChange (svc : Service) (op : Op) (acts : List Act) (s s' : Store) : Prop
  | keep (henrollments : s'.userMFA = s.userMFA)
      (hcodes : s'.mfaRecoveryCodes = s.mfaRecoveryCodes)
  | enrol (actor : Principal) (password ciphertext : String) (now : Time)
      (hop : op = .startMFASetup (some actor) password)
      (henrollments : s'.userMFA.rows = s.userMFA.rows ++
        [⟨⟨1, now, now, actor.id, actor.id⟩, actor.id, "totp", ciphertext, .pending, -1, none⟩])
      (hcodes : s'.mfaRecoveryCodes = s.mfaRecoveryCodes)
  | reset (actor : Principal) (password ciphertext : String) (version : Int) (now : Time)
      (hop : op = .startMFASetup (some actor) password)
      (henrollments : (Repository.resetPendingUpdate actor.id ciphertext actor.id version now).Hits
        s.userMFA.rows s'.userMFA.rows)
      (hcodes : s'.mfaRecoveryCodes.rows = s.codesOfOthers actor.id)
  | enable (actor : Principal) (code : String) (step version : Int) (now : Time)
      (codes : List MFARecoveryCode)
      (hop : op = .confirmMFASetup (some actor) code version) (hclock : Act.clock now ∈ acts)
      (hcode : CheckedCode svc acts actor.id code step)
      (henrollments : (Repository.enableUpdate actor.id step actor.id version now).Hits
        s.userMFA.rows s'.userMFA.rows)
      (hcodes : s'.mfaRecoveryCodes.rows = s.codesOfOthers actor.id ++ codes)
      (hnew : NewCodes acts actor.id codes)
      (hsessions : ∀ r ∈ s'.sessions.rows, r.userID = actor.id → r.id ≠ actor.sessionID →
        r.revokedAt = none → r.expiresAt ≤ now)
  | disable (actor : Principal) (password code : String) (step version : Int) (now : Time)
      (hop : op = .disableMFA (some actor) password code version)
      (hcode : CheckedCode svc acts actor.id code step)
      (henrollments : (Repository.disableUpdate actor.id step actor.id version now).Hits
        s.userMFA.rows s'.userMFA.rows)
      (hcodes : s'.mfaRecoveryCodes.rows = s.codesOfOthers actor.id)
  | adminReset (actor : Principal) (userID reason : String) (version : Int) (now : Time)
      (hop : op = .adminResetMFA (some actor) userID reason version)
      (henrollments : (Repository.adminResetUpdate (Go.trimSpace userID) actor.id version now).Hits
        s.userMFA.rows s'.userMFA.rows)
      (hcodes : s'.mfaRecoveryCodes.rows = s.codesOfOthers (Go.trimSpace userID))
  | regenerate (actor : Principal) (password code : String) (step version : Int) (now : Time)
      (codes : List MFARecoveryCode)
      (hop : op = .regenerateMFARecoveryCodes (some actor) password code version)
      (hcode : CheckedCode svc acts actor.id code step)
      (henrollments : (Repository.advanceAtVersionUpdate actor.id step actor.id version now).Hits
        s.userMFA.rows s'.userMFA.rows)
      (hcodes : s'.mfaRecoveryCodes.rows = s.codesOfOthers actor.id ++ codes)
      (hnew : NewCodes acts actor.id codes)
  | advance (token code recoveryCode user : String) (step : Int) (now : Time)
      (hop : op = .verifyMFAChallenge token code recoveryCode)
      (hcode : CheckedCode svc acts user code step)
      (henrollments : (Repository.advanceUpdate user step "identity:mfa" now).Hits
        s.userMFA.rows s'.userMFA.rows)
      (hcodes : s'.mfaRecoveryCodes = s.mfaRecoveryCodes)
  | spend (token code recoveryCode user hash : String) (now : Time)
      (hop : op = .verifyMFAChallenge token code recoveryCode)
      (henrollments : s'.userMFA = s.userMFA)
      (hcodes : (Repository.consumeCodeUpdate user hash "identity:mfa" now).Hits
        s.mfaRecoveryCodes.rows s'.mfaRecoveryCodes.rows)

theorem MFACrypto.validateTOTP_nonneg {m : MFACrypto} {secret code : String} {now : Time}
    {step : Int} (h : m.validateTOTP secret code now = some step) : 0 ≤ step := by
  unfold MFACrypto.validateTOTP at h
  split at h
  · cases h
  · split at h
    · cases h
    · have hmem := List.mem_of_find?_eq_some h
      simp only [MFACrypto.window, List.mem_filter, decide_eq_true_eq] at hmem
      exact hmem.2

theorem MFACrypto.recoveryCodeHash_ne (m : MFACrypto) (code : String) :
    m.recoveryCodeHash code ≠ "" :=
  m.recoveryMAC_ne _

theorem readsEnrolment_of_draws {draws rest : List Act} {x : Act}
    (hdraws : ∀ a ∈ draws, ∃ kind s, a = Act.drew kind s)
    (hrest : ∀ a ∈ rest, a.readsEnrolment = true → a = x) :
    ∀ a ∈ draws ++ rest, a.readsEnrolment = true → a = x := by
  intro a ha hreads
  obtain ha | ha := List.mem_append.1 ha
  · obtain ⟨kind, s, rfl⟩ := hdraws a ha
    cases hreads
  · exact hrest a ha hreads

theorem CheckedCode.step_nonneg {svc : Service} {acts : List Act} {user code : String} {step : Int}
    (h : CheckedCode svc acts user code step) : 0 ≤ step := by
  cases h with
  | intro _ _ _ _ _ _ _ _ _ hstep => exact MFACrypto.validateTOTP_nonneg hstep

theorem Commit.mfaChange {svc : Service} {op : Op} {acts : List Act} {body : Tx Nat} {n : Nat}
    {next : Prog Reply} {s s' : Store} (h : Commit svc op acts body n next)
    (hrun : body.run svc.lower s = .ok (n, s')) : MFAChange svc op acts s s' := by
  have hframe := h.frame hrun
  cases h with
  | @startMFASetup _ _ _ _ _ _ actor _ _ _ current =>
    cases current with
    | none =>
      simp [storeSecret] at hrun
      obtain ⟨⟨t, ht, rfl⟩, -⟩ := hrun
      exact .enrol actor _ _ _ rfl ht rfl
    | some current =>
      simp [storeSecret] at hrun
      obtain ⟨t, ⟨ht, hmatch⟩, ⟨t', ht', rfl⟩, -⟩ := hrun
      exact .reset actor _ _ _ _ rfl ⟨ht, by simpa using hmatch⟩ ht'
  | @confirmMFASetup _ _ _ _ step _ draws _ actor m enrollment codes _ _ hmfa _ hsecret hstep
      hdraws hrows hcodes hids =>
    simp [Repository.run_replaceRecoveryCodes (codes_ne_nil hrows) hcodes] at hrun
    obtain ⟨t, ⟨ht, hmatch⟩, t', ht', t'', ht'', ⟨_, -, rfl⟩, -⟩ := hrun
    refine .enable actor _ step _ _ codes rfl (by simp)
      (.intro m enrollment _ _ hmfa (by simp)
        (readsEnrolment_of_draws hdraws (by simp [Act.readsEnrolment]))
        (by rw [List.reverse_append]; rfl) hsecret hstep)
      ⟨ht, by simpa using hmatch⟩ ht' ⟨hrows, fun k hk => (hcodes k hk).1,
        fun k hk => (hcodes k hk).2, fun k hk => List.mem_append_left _ (hids k hk)⟩ ?_
    intro r hr huser hacting hrev
    rw [ht''] at hr
    have hextra := unrevoked_of_revoke hr hrev
    simpa [huser, hacting] using hextra
  | @disableMFA _ _ _ _ _ step _ actor m _ enrollment _ _ hmfa _ hsecret hstep _ =>
    simp at hrun
    obtain ⟨t, ⟨ht, hmatch⟩, t', ht', _, -, ⟨_, -, rfl⟩, -⟩ := hrun
    exact .disable actor _ _ step _ _ rfl
      (.intro m enrollment _ _ hmfa (by simp) (by simp [Act.readsEnrolment]) rfl
        hsecret hstep) ⟨ht, by simpa using hmatch⟩ ht'
  | @regenerateMFARecoveryCodes _ _ _ _ _ step _ draws _ actor m _ enrollment codes _ _ hmfa _
      hsecret hstep _ hdraws hrows hcodes hids =>
    simp [Repository.run_replaceRecoveryCodes (codes_ne_nil hrows) hcodes] at hrun
    obtain ⟨t, ⟨ht, hmatch⟩, t', ht', ⟨_, -, rfl⟩, -⟩ := hrun
    exact .regenerate actor _ _ step _ _ codes rfl
      (.intro m enrollment _ _ hmfa (by simp)
        (readsEnrolment_of_draws hdraws (by simp [Act.readsEnrolment]))
        (by rw [List.reverse_append]; rfl) hsecret hstep) ⟨ht, by simpa using hmatch⟩ ht'
      ⟨hrows, fun k hk => (hcodes k hk).1, fun k hk => (hcodes k hk).2,
        fun k hk => List.mem_append_left _ (hids k hk)⟩
  | @adminResetMFA _ _ _ _ _ actor =>
    simp at hrun
    obtain ⟨t, ⟨ht, hmatch⟩, t', ht', _, -, ⟨_, -, rfl⟩, -⟩ := hrun
    exact .adminReset actor _ _ _ _ rfl ⟨ht, by simpa using hmatch⟩ ht'
  | @verifyMFAChallenge _ _ _ now step hash _ m challenge _ enrollment d hmfa _ _ _ _ _ hfactor =>
    simp [spendFactor] at hrun
    obtain ⟨_, -, s1, hs1, ⟨t, ht, rfl⟩, -⟩ := hrun
    obtain ⟨hhash, ⟨t', ht', rfl⟩, hmatch⟩ | ⟨-, ⟨t', ht', rfl⟩, hmatch⟩ := hs1
    · obtain ⟨secret, hsecret, hstep, -, -⟩ | hrecovery := hfactor
      · exact .advance _ _ _ challenge.userID step now rfl
          (.intro m enrollment secret now hmfa (by simp) (by simp [Act.readsEnrolment])
            rfl hsecret hstep) ⟨ht', by simpa using hmatch⟩ rfl
      · exact absurd (hrecovery.symm.trans hhash) (m.recoveryCodeHash_ne _)
    · exact .spend _ _ _ challenge.userID hash now rfl rfl ⟨ht', by simpa using hmatch⟩
  | _ =>
    exact .keep (hframe.userMFA (by simp [Op.writes]))
      (hframe.mfaRecoveryCodes (by simp [Op.writes]))

theorem hit_or_other {s : Store} {u : Update MFAEnrollment} {rows : List MFAEnrollment}
    {user : String} {e' : MFAEnrollment}
    (hits : u.Hits s.userMFA.rows rows) (hguard : ∀ e, u.guard e = true → e.userID = user)
    (he' : e' ∈ rows) :
    (∃ e ∈ s.userMFA.rows, u.guard e = true ∧ e' = u.assign e) ∨
      e' ∈ s.userMFA.rows ∧ e'.userID ≠ user := by
  rw [hits.map, Update.mem_map_apply] at he'
  obtain ⟨he, hskip⟩ | hhit := he'
  · refine .inr ⟨he, fun huser => ?_⟩
    obtain ⟨e0, he0, hg0⟩ := hits.found
    obtain rfl := Table.eq_of_clash he he0 (by simp [Constrained.clash, huser, hguard e0 hg0])
    rw [hg0] at hskip
    cases hskip
  · exact .inl hhit

theorem enabled_of_hits {u : Update MFAEnrollment} {rows rows' : List MFAEnrollment}
    (h : u.Hits rows rows')
    (hassign : ∀ e, u.guard e = true → (u.assign e).userID = e.userID ∧
      ((u.assign e).status = .enabled → e.status = .enabled))
    {e' : MFAEnrollment} (he' : e' ∈ rows') (hstatus : e'.status = .enabled) :
    ∃ e ∈ rows, e.userID = e'.userID ∧ e.status = .enabled := by
  rw [h.map, Update.mem_map_apply] at he'
  obtain ⟨he, -⟩ | ⟨e, he, hg, rfl⟩ := he'
  · exact ⟨e', he, rfl, hstatus⟩
  · obtain ⟨huser, henabled⟩ := hassign e hg
    exact ⟨e, he, huser.symm, henabled hstatus⟩

theorem MFAChange.enabled_origin {svc : Service} {op : Op} {acts : List Act} {s s' : Store}
    (h : MFAChange svc op acts s s') {e' : MFAEnrollment} (he' : e' ∈ s'.userMFA.rows)
    (hstatus : e'.status = .enabled) :
    (∃ e ∈ s.userMFA.rows, e.userID = e'.userID ∧ e.status = .enabled) ∨
      ∃ (actor : Principal) (code : String) (version : Int) (now : Time),
        op = .confirmMFASetup (some actor) code version ∧ e'.userID = actor.id ∧
        Act.clock now ∈ acts ∧ ∀ r ∈ s'.sessions.rows, r.userID = actor.id →
          r.id ≠ actor.sessionID → r.revokedAt = none → r.expiresAt ≤ now := by
  cases h with
  | keep henr hcodes | spend _ _ _ _ _ _ _ henr => exact .inl ⟨e', henr ▸ he', rfl, hstatus⟩
  | enrol actor password ciphertext now hop henr =>
    rw [henr, List.mem_append, List.mem_singleton] at he'
    obtain he | rfl := he'
    · exact .inl ⟨e', he, rfl, hstatus⟩
    · cases hstatus
  | enable actor code step version now codes hop hclock hcode henr hcodes hnew hsessions =>
    rw [henr.map, Update.mem_map_apply] at he'
    obtain ⟨he, -⟩ | ⟨e, he, hg, rfl⟩ := he'
    · exact .inl ⟨e', he, rfl, hstatus⟩
    · have huser := (Repository.enableUpdate_guard.1 hg).1
      exact .inr ⟨actor, code, version, now, hop, huser, hclock, hsessions⟩
  | reset actor password ciphertext version now hop henr =>
    exact .inl (enabled_of_hits henr (by simp) he' hstatus)
  | disable actor password code step version now hop hcode henr =>
    exact .inl (enabled_of_hits henr (by simp) he' hstatus)
  | adminReset actor userID reason version now hop henr =>
    exact .inl (enabled_of_hits henr (by simp) he' hstatus)
  | regenerate actor password code step version now codes hop hcode henr =>
    exact .inl (enabled_of_hits henr (by simp) he' hstatus)
  | advance token code recoveryCode user step now hop hcode henr =>
    exact .inl (enabled_of_hits henr (by simp) he' hstatus)

theorem mfaChange_of_step {svc : Service} {π : Policy} {w : World} {c d : Config} {ev : Event}
    {k : ev.call.Res → Prog Reply} {a : Answer} (h : svc.machine.Reach π w c)
    (hf : svc.machine.Fired c ev d k a) :
    MFAChange svc ev.request (c.actsOf ev.thread) c.state.store d.state.store := by
  obtain ⟨body, n, next, hcom⟩ | hstore := committed_or_store_eq h hf
  · exact hcom.commit.mfaChange hcom.run
  · exact .keep (by rw [hstore]) (by rw [hstore])

end IdentityService
