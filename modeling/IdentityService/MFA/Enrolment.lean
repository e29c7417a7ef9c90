import IdentityService.MFA.Change

/-! Enrolments and recovery codes stay in step. -/

namespace IdentityService

open Lib

def Store.codesOf (s : Store) (user : String) : List MFARecoveryCode :=
  s.mfaRecoveryCodes.rows.filter (fun r => r.userID = user)

def MFAEnrollment.Agrees (e : MFAEnrollment) (codes : List MFARecoveryCode) : Prop :=
  match e.status with
  | .enabled => 0 ≤ e.lastUsedStep ∧ codes.length = MFACrypto.recoveryCodeCount
  | .pending => e.lastUsedStep = -1 ∧ codes = []
  | .disabled => codes = []

theorem MFAEnrollment.Agrees.map {e : MFAEnrollment} {codes : List MFARecoveryCode}
    (h : e.Agrees codes) (f : MFARecoveryCode → MFARecoveryCode) : e.Agrees (codes.map f) := by
  unfold MFAEnrollment.Agrees at h ⊢
  split at h
  · exact ⟨h.1, by rw [List.length_map, h.2]⟩
  · exact ⟨h.1, by rw [h.2, List.map_nil]⟩
  · rw [h, List.map_nil]

structure CodesInStep (s : Store) : Prop where
  enrolled : ∀ e ∈ s.userMFA.rows, e.Agrees (s.codesOf e.userID)
  unenrolled : ∀ user, (∀ e ∈ s.userMFA.rows, e.userID ≠ user) → s.codesOf user = []

section Codes

variable {s s' : Store} {user other : String} {codes : List MFARecoveryCode}

theorem codesOf_others (hcodes : s'.mfaRecoveryCodes.rows = s.codesOfOthers user ++ codes)
    (howner : ∀ k ∈ codes, k.userID = user) (hne : other ≠ user) :
    s'.codesOf other = s.codesOf other := by
  have hnew : codes.filter (fun r => decide (r.userID = other)) = [] :=
    List.filter_eq_nil_iff.2 fun k hk => by simp [howner k hk, hne.symm]
  rw [Store.codesOf, hcodes, List.filter_append, hnew, List.append_nil, Store.codesOfOthers,
    List.filter_filter]
  refine List.filter_congr fun k _ => ?_
  by_cases hk : k.userID = other <;> simp [hk, hne]

theorem codesOf_self (hcodes : s'.mfaRecoveryCodes.rows = s.codesOfOthers user ++ codes)
    (howner : ∀ k ∈ codes, k.userID = user) : s'.codesOf user = codes := by
  have hold : (s.codesOfOthers user).filter (fun r => decide (r.userID = user)) = [] :=
    List.filter_eq_nil_iff.2 fun k hk => by simpa using (List.mem_filter.1 hk).2
  have hnew : codes.filter (fun r => decide (r.userID = user)) = codes :=
    List.filter_eq_self.2 fun k hk => by simp [howner k hk]
  rw [Store.codesOf, hcodes, List.filter_append, hold, hnew, List.nil_append]

end Codes

section Steps

variable {s s' : Store} {user : String} {u : Update MFAEnrollment}

theorem CodesInStep.update (ih : CodesInStep s) (hits : u.Hits s.userMFA.rows s'.userMFA.rows)
    (hguard : ∀ e, u.guard e = true → e.userID = user)
    (hassign : ∀ e, (u.assign e).userID = e.userID)
    (hothers : ∀ other, other ≠ user → s'.codesOf other = s.codesOf other)
    (hnew : ∀ e, u.guard e = true → e.Agrees (s.codesOf user) →
      (u.assign e).Agrees (s'.codesOf user)) : CodesInStep s' := by
  obtain ⟨e0, he0, hg0⟩ := hits.found
  constructor
  · intro e' he'
    obtain ⟨e, he, hg, rfl⟩ | ⟨he, hne⟩ := hit_or_other hits hguard he'
    · rw [hassign, hguard e hg]
      exact hnew e hg (hguard e hg ▸ ih.enrolled e he)
    · rw [hothers _ hne]
      exact ih.enrolled e' he
  · intro other hnone
    have hold : ∀ e ∈ s.userMFA.rows, e.userID ≠ other := by
      intro e he hother
      have he' := List.mem_map_of_mem he (f := u.apply)
      rw [← hits.map] at he'
      refine hnone _ he' ?_
      unfold Update.apply
      split
      · rw [hassign, hother]
      · exact hother
    rw [hothers other (fun heq => hold e0 he0 ((hguard e0 hg0).trans heq.symm))]
    exact ih.unenrolled other hold

theorem CodesInStep.replace (ih : CodesInStep s) (hits : u.Hits s.userMFA.rows s'.userMFA.rows)
    (hguard : ∀ e, u.guard e = true → e.userID = user)
    (hassign : ∀ e, (u.assign e).userID = e.userID) {codes : List MFARecoveryCode}
    (hcodes : s'.mfaRecoveryCodes.rows = s.codesOfOthers user ++ codes)
    (howner : ∀ k ∈ codes, k.userID = user)
    (hnew : ∀ e, u.guard e = true → e.Agrees (s.codesOf user) → (u.assign e).Agrees codes) :
    CodesInStep s' := by
  refine ih.update hits hguard hassign (fun other => codesOf_others hcodes howner) ?_
  rw [codesOf_self hcodes howner]
  exact hnew

theorem MFAChange.codesInStep {svc : Service} {op : Op} {acts : List Act}
    (h : MFAChange svc op acts s s')
    (ih : CodesInStep s) : CodesInStep s' := by
  have hnil : ∀ {user}, s'.mfaRecoveryCodes.rows = s.codesOfOthers user →
      s'.mfaRecoveryCodes.rows = s.codesOfOthers user ++ [] := fun h => by rw [h, List.append_nil]
  cases h with
  | keep henr hcodes =>
    have hsame : s'.codesOf = s.codesOf := by
      funext user
      rw [Store.codesOf, hcodes, Store.codesOf]
    exact ⟨by rw [henr, hsame]; exact ih.enrolled, by rw [henr, hsame]; exact ih.unenrolled⟩
  | enrol actor password ciphertext now hop henr hcodes =>
    have hsame : s'.codesOf = s.codesOf := by
      funext user
      rw [Store.codesOf, hcodes, Store.codesOf]
    -- The user was not enrolled, so has no codes.
    have hnone : ∀ e ∈ s.userMFA.rows, e.userID ≠ actor.id := by
      intro e he huser
      have hclash := (List.pairwise_append.1 (henr ▸ s'.userMFA.distinct)).2.2 e he _
        (List.mem_singleton_self _)
      simp [Constrained.clash, huser] at hclash
    constructor
    · intro e' he'
      rw [henr, List.mem_append, List.mem_singleton] at he'
      rw [hsame]
      obtain he | rfl := he'
      · exact ih.enrolled e' he
      · exact ⟨rfl, ih.unenrolled actor.id hnone⟩
    · intro other hother
      rw [hsame]
      exact ih.unenrolled other fun e he =>
        hother e (by rw [henr]; exact List.mem_append_left _ he)
  | reset actor password ciphertext version now hop henr hcodes =>
    refine ih.replace henr (by grind [Repository.resetPendingUpdate_guard]) (by simp) (hnil hcodes)
      (by simp) ?_
    intro e _ _
    exact ⟨rfl, rfl⟩
  | enable actor code step version now codes hop hclock hcode henr hcodes hnew =>
    refine ih.replace henr (by grind [Repository.enableUpdate_guard]) (by simp) hcodes hnew.owner ?_
    intro e _ _
    exact ⟨hcode.step_nonneg, hnew.length⟩
  | disable actor password code step version now hop _ henr hcodes =>
    refine ih.replace henr (by grind [Repository.disableUpdate_guard]) (by simp) (hnil hcodes)
      (by simp) ?_
    intro e _ _
    rfl
  | adminReset actor userID reason version now hop henr hcodes =>
    refine ih.replace henr (by grind [Repository.adminResetUpdate_guard]) (by simp) (hnil hcodes)
      (by simp) ?_
    intro e _ _
    rfl
  | regenerate actor password code step version now codes hop _ henr hcodes hnew =>
    refine ih.replace henr (by grind [Repository.advanceAtVersionUpdate_guard]) (by simp) hcodes
      hnew.owner ?_
    intro e hg hagrees
    obtain ⟨-, henabled, hlast, -⟩ := Repository.advanceAtVersionUpdate_guard.1 hg
    simp only [MFAEnrollment.Agrees, henabled, Repository.advanceAtVersionUpdate_assign]
      at hagrees ⊢
    exact ⟨by omega, hnew.length⟩
  | advance token code recoveryCode user step now hop _ henr hcodes =>
    have hsame : ∀ other, s'.codesOf other = s.codesOf other := by
      intro other
      rw [Store.codesOf, hcodes, Store.codesOf]
    refine ih.update henr (by grind [Repository.advanceUpdate_guard]) (by simp)
      (fun other (_ : other ≠ user) => hsame other) ?_
    intro e hg hagrees
    obtain ⟨-, henabled, hlast⟩ := Repository.advanceUpdate_guard.1 hg
    simp only [MFAEnrollment.Agrees, henabled, Repository.advanceUpdate_assign, hsame]
      at hagrees ⊢
    exact ⟨by omega, hagrees.2⟩
  | spend token code recoveryCode user hash now hop henr hcodes =>
    have hmap : ∀ other, s'.codesOf other = (s.codesOf other).map
        (Repository.consumeCodeUpdate user hash "identity:mfa" now).apply := by
      intro other
      rw [Store.codesOf, hcodes.map, List.filter_map, Store.codesOf]
      congr 1
      refine List.filter_congr fun k _ => ?_
      simp only [Function.comp, Update.apply]
      split <;> rfl
    constructor
    · intro e he
      rw [hmap]
      exact (ih.enrolled e (henr ▸ he)).map _
    · intro other hother
      rw [hmap, ih.unenrolled other (henr ▸ hother), List.map_nil]

end Steps

theorem codesOf_hash_nodup (s : Store) (user : String) :
    ((s.codesOf user).map MFARecoveryCode.codeHash).Nodup := by
  rw [List.nodup_iff_pairwise_ne, List.pairwise_map]
  refine List.Pairwise.imp_of_mem ?_ (s.mfaRecoveryCodes.distinct.filter _)
  intro k k' hk hk' hclash hhash
  have huser := (List.mem_filter.1 hk).2
  have huser' := (List.mem_filter.1 hk').2
  simp only [decide_eq_true_eq] at huser huser'
  simp [Constrained.clash, huser, huser', hhash] at hclash

/-- A user with the second factor enabled has a step on record and ten codes, and any other user
has no codes; a pending enrolment has no step on record. -/
theorem enrolments_and_codes_in_step (svc : Service) (clock : Time) (c : Config)
    (h : svc.machine.Reach .any (start clock) c) (user : String) :
    (∀ e ∈ c.state.store.userMFA.rows, e.userID = user →
      (e.status = .enabled → 0 ≤ e.lastUsedStep ∧ (c.state.store.codesOf user).length = 10 ∧
        ((c.state.store.codesOf user).map MFARecoveryCode.codeHash).Nodup) ∧
      (e.status = .pending → e.lastUsedStep = -1) ∧
      (e.status = .pending ∨ e.status = .disabled → c.state.store.codesOf user = [])) ∧
    ((∀ e ∈ c.state.store.userMFA.rows, e.userID ≠ user) → c.state.store.codesOf user = []) := by
  have hinv : CodesInStep c.state.store := by
    refine Machine.Run.invariant (I := fun c => CodesInStep c.state.store) h ?_ ?_ ?_
    · exact ⟨fun e he => (nomatch he), fun _ _ => rfl⟩
    · intro d q _ ih
      exact ih
    · intro d ev d' k a hd ih hf _
      exact (mfaChange_of_step hd hf).codesInStep ih
  refine ⟨?_, hinv.unenrolled user⟩
  rintro e he rfl
  have hagrees := hinv.enrolled e he
  unfold MFAEnrollment.Agrees at hagrees
  refine ⟨fun hs => ?_, fun hs => ?_, fun hs => ?_⟩
  · rw [hs] at hagrees
    exact ⟨hagrees.1, hagrees.2, codesOf_hash_nodup _ _⟩
  · rw [hs] at hagrees
    exact hagrees.1
  · obtain hs | hs := hs <;> rw [hs] at hagrees
    · exact hagrees.2
    · exact hagrees

theorem enrolments_and_codes_in_step_enrolled : ∃ c : Config,
    (sample [] (some sample.crypto)).machine.Reach .any (start 0) c ∧
    ∃ e ∈ c.state.store.userMFA.rows, e.status = .enabled ∧ 0 ≤ e.lastUsedStep ∧
      (c.state.store.codesOf e.userID).length = 10 := by
  obtain ⟨c, hc, e, he, henabled⟩ : ∃ c,
      (sample [] (some sample.crypto)).machine.Reach .any (start 0) c ∧
      ∃ e ∈ c.state.store.userMFA.rows, e.status = .enabled :=
    Machine.replay_exists (sample.signIn ++ sample.enrol) (by decide +kernel)
  obtain ⟨hstep, hlength, -⟩ :=
    ((enrolments_and_codes_in_step _ _ c hc e.userID).1 e he rfl).1 henabled
  exact ⟨c, hc, e, he, henabled, hstep, hlength⟩

end IdentityService
