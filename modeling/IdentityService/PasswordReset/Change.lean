import IdentityService.Defs.System

/-! What a committed transaction does to the password-reset challenges. -/

namespace IdentityService

open Lib Service

inductive ResetChange (svc : Service) (op : Op) (acts : List Act)
    (outcome : Option (Except AppError Reply)) (rows rows' : List PasswordResetChallenge) : Prop
  | keep (hrows : rows' = rows)
  | issue (actor : Principal) (userID reason : String) (now : Time)
      (row : PasswordResetChallenge) (issued : PasswordResetIssue)
      (hop : op = .issuePasswordReset (some actor) userID reason)
      (hrow : row.tokenHash = svc.hashPasswordResetToken issued.resetToken ∧
        row.userID = Go.trimSpace userID ∧ row.consumedAt = none)
      (hrows : rows' = rows.map
        (Repository.invalidateUpdate (Go.trimSpace userID) actor.id now).apply ++ [row])
      (hend : outcome = some (.ok (.passwordResetIssue issued)))
  | confirm (token new : String) (challenge : PasswordResetChallenge) (now : Time)
      (hop : op = .confirmPasswordReset token new) (hend : outcome.any Except.isOk)
      (hrows : (Repository.consumeResetUpdate (svc.hashPasswordResetToken (Go.trimSpace token))
        challenge.version "identity:password-reset" now).Hits rows rows')
  | clean (cleaner : SessionCleaner) (fuel : Nat) (spared : PasswordResetChallenge → Bool)
      (hop : op = .clean cleaner fuel) (hrows : rows' = rows.filter spared)

theorem Commit.resetChange {svc : Service} {op : Op} {acts : List Act} {body : Tx Nat} {n : Nat}
    {next : Prog Reply} {s s' : Store} (h : Commit svc op acts body n next)
    (hrun : body.run svc.lower s = .ok (n, s')) :
    ResetChange svc op acts next.outcome s.passwordResetChallenges.rows
      s'.passwordResetChallenges.rows := by
  have hframe := h.frame hrun
  cases h with
  | @issuePasswordReset _ _ _ _ _ _ _ challenge hchallenge =>
    simp at hrun
    obtain ⟨t, ht, ⟨t', ht', rfl⟩, -⟩ := hrun
    rw [ht] at ht'
    exact .issue _ _ _ _ { challenge with consumedAt := none } _ rfl
      ⟨hchallenge.1, hchallenge.2, rfl⟩ ht' rfl
  | confirmPasswordReset =>
    simp at hrun
    obtain ⟨t, ⟨ht, hmatch⟩, _, -, _, -, ⟨_, -, rfl⟩, -⟩ := hrun
    exact .confirm _ _ _ _ rfl rfl ⟨ht, by simpa using hmatch⟩
  | cleanPasswordResetChallenges =>
    simp at hrun
    obtain ⟨t, ⟨-, ht⟩, rfl⟩ := hrun
    exact .clean _ _ _ rfl ht
  | cleanSessions | cleanMFAChallenges =>
    simp at hrun
    obtain ⟨_, -, rfl⟩ := hrun
    exact .keep rfl
  | _ => exact .keep (by rw [hframe.passwordResetChallenges (by simp [Op.writes])])

structure PasswordResetChallenge.Evolves (r r' : PasswordResetChallenge) : Prop where
  tokenHash : r'.tokenHash = r.tokenHash
  userID : r'.userID = r.userID
  final : r.consumedAt ≠ none → r' = r

namespace PasswordResetChallenge.Evolves

variable {r r' r'' : PasswordResetChallenge}

theorem refl (r : PasswordResetChallenge) : r.Evolves r := ⟨rfl, rfl, fun _ => rfl⟩

theorem trans (h : r.Evolves r') (h' : r'.Evolves r'') : r.Evolves r'' where
  tokenHash := h'.tokenHash.trans h.tokenHash
  userID := h'.userID.trans h.userID
  final hconsumed := by
    obtain rfl := h.final hconsumed
    exact h'.final hconsumed

end PasswordResetChallenge.Evolves

def Event.resetHash (svc : Service) (ev : Event) : Option String :=
  match ev.outcome with
  | some (.ok (.passwordResetIssue issued)) => some (svc.hashPasswordResetToken issued.resetToken)
  | _ => none

theorem ResetChange.origin {svc : Service} {op : Op} {acts : List Act}
    {outcome : Option (Except AppError Reply)} {rows rows' : List PasswordResetChallenge}
    (h : ResetChange svc op acts outcome rows rows') {r' : PasswordResetChallenge}
    (hr' : r' ∈ rows') :
    (∃ r ∈ rows, r.Evolves r') ∨ ∃ issued, outcome = some (.ok (.passwordResetIssue issued)) ∧
      r'.tokenHash = svc.hashPasswordResetToken issued.resetToken := by
  cases h with
  | keep hrows => exact .inl ⟨r', hrows ▸ hr', .refl r'⟩
  | issue actor userID reason now row issued hop hrow hrows hend =>
    rw [hrows, List.mem_append, List.mem_singleton, Update.mem_map_apply] at hr'
    obtain (⟨hr, -⟩ | ⟨r, hr, hg, rfl⟩) | rfl := hr'
    · exact .inl ⟨r', hr, .refl r'⟩
    · have hopen := (Repository.invalidateUpdate_guard.1 hg).2
      exact .inl ⟨r, hr, rfl, rfl, fun hconsumed => absurd hopen hconsumed⟩
    · exact .inr ⟨issued, hend, hrow.1⟩
  | confirm token new challenge now hop hend hrows =>
    rw [hrows.map, Update.mem_map_apply] at hr'
    obtain ⟨hr, -⟩ | ⟨r, hr, hg, rfl⟩ := hr'
    · exact .inl ⟨r', hr, .refl r'⟩
    · have hopen := (Repository.consumeResetUpdate_guard.1 hg).2.1
      exact .inl ⟨r, hr, rfl, rfl, fun hconsumed => absurd hopen hconsumed⟩
  | clean cleaner fuel spared hop hrows =>
    exact .inl ⟨r', List.mem_of_mem_filter (hrows ▸ hr'), .refl r'⟩

section Steps

variable {svc : Service} {π : Policy} {w : World} {clock : Time} {c d : Config} {ev : Event}
  {k : ev.call.Res → Prog Reply} {a : Answer}

theorem resetChange_of_step (h : svc.machine.Reach π w c) (hf : svc.machine.Fired c ev d k a) :
    ResetChange svc ev.request (c.actsOf ev.thread) ev.outcome
      c.state.store.passwordResetChallenges.rows d.state.store.passwordResetChallenges.rows := by
  obtain ⟨body, n, next, hcom⟩ | hstore := committed_or_store_eq h hf
  · rw [hcom.outcome]
    exact hcom.commit.resetChange hcom.run
  · exact .keep (by rw [hstore])

theorem evolves_or_issued (h : svc.machine.Reach π w c) (hf : svc.machine.Fired c ev d k a)
    {r' : PasswordResetChallenge} (hr' : r' ∈ d.state.store.passwordResetChallenges.rows) :
    (∃ r ∈ c.state.store.passwordResetChallenges.rows, r.Evolves r') ∨
      Event.resetHash svc ev = some r'.tokenHash := by
  obtain hold | ⟨issued, hout, hhash⟩ := (resetChange_of_step h hf).origin hr'
  · exact .inl hold
  · refine .inr ?_
    rw [hhash]
    simp only [Event.resetHash, hout]

theorem issued_of_challenge (h : svc.machine.Reach π (start clock) c) {r : PasswordResetChallenge}
    (hr : r ∈ c.state.store.passwordResetChallenges.rows) :
    r.tokenHash ∈ c.history.filterMap (Event.resetHash svc) := by
  refine Machine.Run.invariant (I := fun c => ∀ r ∈ c.state.store.passwordResetChallenges.rows,
    r.tokenHash ∈ c.history.filterMap (Event.resetHash svc)) h ?_ ?_ ?_ r hr
  · intro r hr
    cases hr
  · intro d q _ ih
    exact ih
  · intro d ev d' k a hd ih hf _ r' hr'
    rw [hf.history]
    obtain ⟨r, hr, hev⟩ | hnew := evolves_or_issued hd hf hr'
    · rw [hev.tokenHash]
      exact ((List.sublist_cons_self _ _).filterMap _).subset (ih r hr)
    · exact List.mem_filterMap.2 ⟨ev, List.mem_cons_self, hnew⟩

theorem evolves_of_run (h : svc.machine.Reach π (start clock) c) (hd : svc.machine.Run π c d)
    (hinj : (d.history.filterMap (Event.resetHash svc)).Nodup) {r : PasswordResetChallenge}
    (hr : r ∈ c.state.store.passwordResetChallenges.rows) {r' : PasswordResetChallenge}
    (hr' : r' ∈ d.state.store.passwordResetChallenges.rows) (hsame : r'.tokenHash = r.tokenHash) :
    r.Evolves r' := by
  refine Machine.Run.invariant (I := fun d => (d.history.filterMap (Event.resetHash svc)).Nodup →
    ∀ r' ∈ d.state.store.passwordResetChallenges.rows, r'.tokenHash = r.tokenHash → r.Evolves r')
    hd ?_ ?_ ?_ hinj r' hr' hsame
  · intro _ r' hr' hsame
    rw [Table.eq_of_key hr' hr hsame]
    exact .refl r
  · intro d q _ ih
    exact ih
  · intro d ev d' k a hrun ih hf _ hinj r' hr' hsame
    rw [hf.history, List.filterMap_cons] at hinj
    obtain ⟨x, hx, hev⟩ | hnew := evolves_or_issued (h.trans hrun) hf hr'
    · have hinj : (d.history.filterMap (Event.resetHash svc)).Nodup := by
        split at hinj
        · exact hinj
        · exact hinj.of_cons
      exact (ih hinj x hx (hev.tokenHash.symm.trans hsame)).trans hev
    · -- The hash has been issued before.
      rw [hnew] at hinj
      have hold := issued_of_challenge h hr
      rw [← hsame] at hold
      exact absurd ((hrun.history_suffix.sublist.filterMap _).subset hold)
        (List.nodup_cons.1 hinj).1

end Steps

end IdentityService
