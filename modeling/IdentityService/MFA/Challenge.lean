import IdentityService.MFA.Totp

/-! What a login by a second factor spends: one challenge and one factor. -/

namespace IdentityService

open Lib Service

inductive ChallengeChange (svc : Service) (op : Op) (acts : List Act)
    (outcome : Option (Except AppError Reply)) (rows rows' : List MFALoginChallenge) : Prop
  | keep (hrows : rows' = rows)
  | insert (token : String) (row : MFALoginChallenge)
      (hdraw : Act.drew .challengeToken token ∈ acts) (hrows : rows' = rows ++ [row])
      (hhash : row.tokenHash = svc.hashMFAChallengeToken token) (hunused : row.consumedAt = none)
      (hend : outcome.isSome)
  | consume (token code recoveryCode : String) (version : Int) (now : Time)
      (hop : op = .verifyMFAChallenge token code recoveryCode)
      (hrows : (Repository.consumeChallengeUpdate
        (svc.hashMFAChallengeToken (Go.trimSpace token)) "identity:mfa" version
          now).Hits rows rows')
  | clean (spared : MFALoginChallenge → Bool) (hrows : rows' = rows.filter spared)

theorem Commit.challengeChange {svc : Service} {op : Op} {acts : List Act} {body : Tx Nat} {n : Nat}
    {next : Prog Reply} {s s' : Store} (h : Commit svc op acts body n next)
    (hrun : body.run svc.lower s = .ok (n, s')) :
    ChallengeChange svc op acts next.outcome s.mfaLoginChallenges.rows
      s'.mfaLoginChallenges.rows := by
  have hframe := h.frame hrun
  cases h with
  | @loginChallenge _ _ _ _ _ _ token =>
    simp at hrun
    obtain ⟨⟨t, ht, rfl⟩, -⟩ := hrun
    exact .insert token _ (by simp) ht rfl rfl rfl
  | loginFailed | loginVerified =>
    simp at hrun
    obtain ⟨⟨_, -, -, rfl⟩, -⟩ := hrun
    exact .keep rfl
  | loginSession =>
    simp at hrun
    obtain ⟨⟨t, ht, rfl⟩, -⟩ := hrun
    exact .keep rfl
  | verifyMFAChallenge =>
    simp [spendFactor] at hrun
    obtain ⟨t, ⟨ht, hmatch⟩, s1, hs1, ⟨t', ht', rfl⟩, -⟩ := hrun
    have hs : s1.mfaLoginChallenges = t := by grind
    exact .consume _ _ _ _ _ rfl ⟨hs ▸ ht, by simpa using hmatch⟩
  | cleanMFAChallenges =>
    simp at hrun
    obtain ⟨t, ⟨-, ht⟩, rfl⟩ := hrun
    exact .clean _ ht
  | cleanSessions | cleanPasswordResetChallenges =>
    simp at hrun
    obtain ⟨_, -, rfl⟩ := hrun
    exact .keep rfl
  | _ => exact .keep (by rw [hframe.mfaLoginChallenges (by simp [Op.writes])])

theorem ChallengeChange.origin {svc : Service} {op : Op} {acts : List Act}
    {outcome : Option (Except AppError Reply)} {rows rows' : List MFALoginChallenge}
    (h : ChallengeChange svc op acts outcome rows rows') {r' : MFALoginChallenge}
    (hr' : r' ∈ rows') :
    (∃ r ∈ rows, r'.tokenHash = r.tokenHash ∧ r'.userID = r.userID ∧
      (r.consumedAt ≠ none → r'.consumedAt ≠ none)) ∨
    ∃ token, Act.drew .challengeToken token ∈ acts ∧
      r'.tokenHash = svc.hashMFAChallengeToken token ∧ outcome.isSome := by
  cases h with
  | keep hrows => exact .inl ⟨r', hrows ▸ hr', rfl, rfl, id⟩
  | insert token row hdraw hrows hhash hunused hend =>
    rw [hrows, List.mem_append, List.mem_singleton] at hr'
    obtain hr | rfl := hr'
    · exact .inl ⟨r', hr, rfl, rfl, id⟩
    · exact .inr ⟨token, hdraw, hhash, hend⟩
  | consume token code recoveryCode version now hop hrows =>
    rw [hrows.map, Update.mem_map_apply] at hr'
    obtain ⟨hr, -⟩ | ⟨r, hr, -, rfl⟩ := hr'
    · exact .inl ⟨r', hr, rfl, rfl, id⟩
    · exact .inl ⟨r, hr, rfl, rfl, fun _ => nofun⟩
  | clean spared hrows =>
    exact .inl ⟨r', List.mem_of_mem_filter (hrows ▸ hr'), rfl, rfl, id⟩

section Challenges

variable {svc : Service} {π : Policy} {w : World} {clock : Time} {c d : Config} {ev : Event}
  {k : ev.call.Res → Prog Reply} {a : Answer} {kinds : List Draw}

theorem challengeChange_of_step (h : svc.machine.Reach π w c) (hf : svc.machine.Fired c ev d k a) :
    ChallengeChange svc ev.request (c.actsOf ev.thread) ev.outcome
      c.state.store.mfaLoginChallenges.rows d.state.store.mfaLoginChallenges.rows := by
  obtain ⟨body, n, next, hcom⟩ | hstore := committed_or_store_eq h hf
  · rw [hcom.outcome]
    exact hcom.commit.challengeChange hcom.run
  · exact .keep (by rw [hstore])

def Introduced (svc : Service) (c : Config) (hash : String) : Prop :=
  ∃ token, UsedUp .challengeToken c token ∧ svc.hashMFAChallengeToken token = hash

theorem introduced_of_challenge (h : svc.machine.Reach π (start clock) c) {r : MFALoginChallenge}
    (hr : r ∈ c.state.store.mfaLoginChallenges.rows) : Introduced svc c r.tokenHash := by
  refine Machine.Run.invariant (I := fun c => ∀ r ∈ c.state.store.mfaLoginChallenges.rows,
    Introduced svc c r.tokenHash) h ?_ ?_ ?_ r hr
  · intro r hr
    cases hr
  · intro d q _ ih r hr
    exact ih r hr
  · intro d ev d' k a hd ih hf _ r' hr'
    have hsub : d.history <:+ d'.history := hf.history ▸ List.suffix_cons _ _
    obtain ⟨r, hr, hhash, -⟩ | ⟨token, hdraw, hhash, hend⟩ :=
      (challengeChange_of_step hd hf).origin hr'
    · obtain ⟨token, hused, htoken⟩ := ih r hr
      exact ⟨token, hused.mono hsub, htoken.trans hhash.symm⟩
    · exact ⟨token, .of_step hf hdraw hend, hhash.symm⟩

theorem challenge_kept (hkind : .challengeToken ∈ kinds)
    (hc : svc.machine.Reach (Policy.fresh kinds) (start clock) c)
    (hd : svc.machine.Run (Policy.fresh kinds) c d)
    (hinj : Set.InjOn svc.hashMFAChallengeToken {t | t ∈ Config.drawn d .challengeToken})
    {r r' : MFALoginChallenge} (hr : r ∈ c.state.store.mfaLoginChallenges.rows)
    (hr' : r' ∈ d.state.store.mfaLoginChallenges.rows) (hhash : r'.tokenHash = r.tokenHash) :
    r'.userID = r.userID ∧ (r.consumedAt ≠ none → r'.consumedAt ≠ none) := by
  refine hd.invariant (I := fun d =>
    Set.InjOn svc.hashMFAChallengeToken {t | t ∈ Config.drawn d .challengeToken} →
    ∀ r' ∈ d.state.store.mfaLoginChallenges.rows, r'.tokenHash = r.tokenHash →
      r'.userID = r.userID ∧ (r.consumedAt ≠ none → r'.consumedAt ≠ none)) ?_ ?_ ?_
    hinj r' hr' hhash
  · intro _ r' hr' hhash
    obtain rfl := Table.eq_of_clash hr' hr (by simp [Constrained.clash, hhash])
    exact ⟨rfl, id⟩
  · intro d q _ ih
    exact ih
  · intro d ev d' k a hrun ih hf _ hinj r' hr' hhash
    have hsub : d.history <:+ d'.history := hf.history ▸ List.suffix_cons _ _
    have hd := hc.trans hrun
    obtain ⟨old, hold, holdhash, huser, hconsumed⟩ | ⟨token, hdraw, htoken, -⟩ :=
      (challengeChange_of_step hd hf).origin hr'
    · obtain ⟨huser', hconsumed'⟩ := ih (hinj.mono fun t ht => drawn_mono hsub ht) old hold
        (holdhash.symm.trans hhash)
      exact ⟨huser.trans huser', fun hr => hconsumed (hconsumed' hr)⟩
    · -- A token with this hash was drawn before, so it is the same token.
      obtain ⟨token', hused, htoken'⟩ := introduced_of_challenge hc hr
      have hused := hused.mono hrun.history_suffix
      have heq := hinj (drawn_mono hsub (mem_drawn_of_acts hdraw)) (drawn_mono hsub hused.drawn)
        (htoken.symm.trans (hhash.trans htoken'.symm))
      subst heq
      exact absurd hdraw (hused.not_in_use hkind hd hf)

theorem MFAChange.code_origin {op : Op} {acts : List Act} {s s' : Store}
    (h : MFAChange svc op acts s s') {r' : MFARecoveryCode}
    (hr' : r' ∈ s'.mfaRecoveryCodes.rows) :
    (∃ r ∈ s.mfaRecoveryCodes.rows, r'.id = r.id ∧ (r.consumedAt ≠ none → r'.consumedAt ≠ none)) ∨
      Act.drew .uuid r'.id ∈ acts ∧ r'.consumedAt = none ∧ op.commitsLast = true := by
  have hothers : ∀ {user}, r' ∈ s.codesOfOthers user → ∃ r ∈ s.mfaRecoveryCodes.rows,
      r'.id = r.id ∧ (r.consumedAt ≠ none → r'.consumedAt ≠ none) :=
    fun h => ⟨r', List.mem_of_mem_filter h, rfl, id⟩
  cases h with
  | keep _ hcodes | enrol _ _ _ _ _ _ hcodes | advance _ _ _ _ _ _ _ _ _ hcodes =>
    exact .inl ⟨r', hcodes ▸ hr', rfl, id⟩
  | reset _ _ _ _ _ _ _ hcodes | disable _ _ _ _ _ _ _ _ _ hcodes
  | adminReset _ _ _ _ _ _ _ hcodes => exact .inl (hothers (hcodes ▸ hr'))
  | enable _ _ _ _ _ _ hop _ _ _ hcodes hnew =>
    rw [hcodes, List.mem_append] at hr'
    obtain hr | hr := hr'
    · exact .inl (hothers hr)
    · exact .inr ⟨hnew.drawn _ hr, hnew.unused _ hr, by rw [hop]; rfl⟩
  | regenerate _ _ _ _ _ _ _ hop _ _ hcodes hnew =>
    rw [hcodes, List.mem_append] at hr'
    obtain hr | hr := hr'
    · exact .inl (hothers hr)
    · exact .inr ⟨hnew.drawn _ hr, hnew.unused _ hr, by rw [hop]; rfl⟩
  | spend _ _ _ _ _ _ _ _ hcodes =>
    rw [hcodes.map, Update.mem_map_apply] at hr'
    obtain ⟨hr, -⟩ | ⟨r, hr, -, rfl⟩ := hr'
    · exact .inl ⟨r', hr, rfl, id⟩
    · exact .inl ⟨r, hr, rfl, fun _ => nofun⟩

theorem code_origin_of_step (h : svc.machine.Reach π w c) (hf : svc.machine.Fired c ev d k a)
    {r' : MFARecoveryCode} (hr' : r' ∈ d.state.store.mfaRecoveryCodes.rows) :
    (∃ r ∈ c.state.store.mfaRecoveryCodes.rows, r'.id = r.id ∧
      (r.consumedAt ≠ none → r'.consumedAt ≠ none)) ∨
    Act.drew .uuid r'.id ∈ c.actsOf ev.thread ∧ ev.outcome.isSome := by
  obtain ⟨body, n, next, hcom⟩ | hstore := committed_or_store_eq h hf
  · obtain hold | ⟨hdraw, -, hlast⟩ := (hcom.commit.mfaChange hcom.run).code_origin hr'
    · exact .inl hold
    · obtain ⟨reply, hreply⟩ := hcom.ok hlast
      exact .inr ⟨hdraw, by rw [hreply]; rfl⟩
  · exact .inl ⟨r', hstore ▸ hr', rfl, id⟩

theorem usedUp_of_code (h : svc.machine.Reach π (start clock) c) {r : MFARecoveryCode}
    (hr : r ∈ c.state.store.mfaRecoveryCodes.rows) : UsedUp .uuid c r.id := by
  refine Machine.Run.invariant (I := fun c => ∀ r ∈ c.state.store.mfaRecoveryCodes.rows,
    UsedUp .uuid c r.id) h ?_ ?_ ?_ r hr
  · intro r hr
    cases hr
  · intro d q _ ih r hr
    exact ih r hr
  · intro d ev d' k a hd ih hf _ r' hr'
    obtain ⟨r, hr, hid, -⟩ | ⟨hdraw, hend⟩ := code_origin_of_step hd hf hr'
    · rw [hid]
      exact (ih r hr).mono (hf.history ▸ List.suffix_cons _ _)
    · exact .of_step hf hdraw hend

theorem code_since (hkind : .uuid ∈ kinds) (hc : svc.machine.Reach (Policy.fresh kinds) w c)
    (hd : svc.machine.Run (Policy.fresh kinds) c d) {id : String} (hused : UsedUp .uuid c id)
    {r' : MFARecoveryCode} (hr' : r' ∈ d.state.store.mfaRecoveryCodes.rows) (hid : r'.id = id) :
    ∃ r ∈ c.state.store.mfaRecoveryCodes.rows, r.id = id ∧
      (r.consumedAt ≠ none → r'.consumedAt ≠ none) := by
  refine hd.invariant (I := fun d => ∀ r' ∈ d.state.store.mfaRecoveryCodes.rows, r'.id = id →
    ∃ r ∈ c.state.store.mfaRecoveryCodes.rows, r.id = id ∧
      (r.consumedAt ≠ none → r'.consumedAt ≠ none)) ?_ ?_ ?_ r' hr' hid
  · intro r' hr' hid
    exact ⟨r', hr', hid, fun h => h⟩
  · intro d q _ ih
    exact ih
  · intro d ev d' k a hrun ih hf _ r' hr' hid
    obtain ⟨old, hold, holdid, hconsumed⟩ | ⟨hdraw, -⟩ :=
      code_origin_of_step (hc.trans hrun) hf hr'
    · obtain ⟨r, hr, hrid, hconsumed'⟩ := ih old hold (holdid.symm.trans hid)
      exact ⟨r, hr, hrid, fun h => hconsumed (hconsumed' h)⟩
    · rw [hid] at hdraw
      exact absurd hdraw ((hused.mono hrun.history_suffix).not_in_use hkind (hc.trans hrun) hf)

end Challenges

end IdentityService
