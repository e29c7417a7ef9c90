import IdentityService.PasswordReset.Change
import IdentityService.Versions.Locking

/-! A password is replaced only where it was checked, and a reset token works once. -/

namespace IdentityService

open Lib Service

structure Overwritten (svc : Service) (user new : String) (r : Credential) (s s' : Store) :
    Prop where
  owner : r.userID = user
  replaced : ∃ salt actor now, Replaced r
    { r with
      secretHash := svc.hasher.encode salt new
      version := r.version + 1
      updatedAt := now
      updatedBy := actor } s.credentials.rows s'.credentials.rows
  differs : svc.verified new r.secretHash = false

def Op.spends (svc : Service) (r : PasswordResetChallenge) : Op → Prop
  | .confirmPasswordReset token _ => svc.hashPasswordResetToken (Go.trimSpace token) = r.tokenHash
  | .issuePasswordReset _ userID _ => Go.trimSpace userID = r.userID
  | .clean _ _ => True
  | _ => False

theorem ResetChange.fate {svc : Service} {op : Op} {acts : List Act}
    {outcome : Option (Except AppError Reply)} {rows rows' : List PasswordResetChallenge}
    (h : ResetChange svc op acts outcome rows rows') {r : PasswordResetChallenge} (hr : r ∈ rows) :
    r ∈ rows' ∨ op.spends svc r := by
  cases h with
  | keep hrows => exact .inl (hrows ▸ hr)
  | issue actor userID reason now row issued hop hrow hrows =>
    cases hg : (Repository.invalidateUpdate (Go.trimSpace userID) actor.id now).guard r with
    | false =>
      rw [hrows, List.mem_append, Update.mem_map_apply]
      exact .inl (.inl (.inl ⟨hr, hg⟩))
    | true =>
      subst hop
      exact .inr (Repository.invalidateUpdate_guard.1 hg).1.symm
  | confirm token new challenge now hop hend hrows =>
    cases hg : (Repository.consumeResetUpdate (svc.hashPasswordResetToken (Go.trimSpace token))
      challenge.version "identity:password-reset" now).guard r with
    | false =>
      rw [hrows.map, Update.mem_map_apply]
      exact .inl (.inl ⟨hr, hg⟩)
    | true =>
      subst hop
      exact .inr (Repository.consumeResetUpdate_guard.1 hg).1.symm
  | clean cleaner fuel spared hop =>
    subst hop
    exact .inr trivial

section Credentials

variable {svc : Service} {π : Policy} {w : World} {c : Config} {i : Nat} {user new : String}
  {credential : Credential}

theorem credential_unchanged (h : svc.machine.Reach π w c)
    (hread : Act.read (.passwordCredential user) credential ∈ c.actsOf i) {r : Credential}
    (hr : r ∈ c.state.store.credentials.rows) (hid : r.id = credential.id)
    (hversion : r.version = credential.version) : r = credential := by
  obtain ⟨e, he, -, hact⟩ := Machine.Reach.mem_actsOf.1 hread
  have hrow := (List.mem_filter.1 (read_select h he hact)).1
  obtain ⟨c0, c1, k, a, h0, hf, hp, h1⟩ := h.event_of_mem he
  rw [hf.before] at hrow
  have hcont := continues_of_run h0 ((Machine.Run.refl.fired hf hp).trans h1)
  exact (hcont.credentials credential hrow).eq_of_version hr hid hversion

theorem overwritten_of_hits (h : svc.machine.Reach π w c)
    (hread : Act.read (.passwordCredential user) credential ∈ c.actsOf i)
    (hnew : svc.verified new credential.secretHash = false) {salt actor : String} {now : Time}
    {s' : Store}
    (hrows : (Repository.passwordUpdate credential.id (svc.hasher.encode salt new) actor
      credential.version now).Hits c.state.store.credentials.rows s'.credentials.rows) :
    Overwritten svc user new credential c.state.store s' := by
  obtain ⟨e, he, -, hact⟩ := Machine.Reach.mem_actsOf.1 hread
  have howner := (List.mem_filter.1 (read_select h he hact)).2
  simp only [Bool.and_eq_true, decide_eq_true_eq] at howner
  obtain ⟨r, hr, hg, hreplaced⟩ := Table.replaced_of_hits hrows (by
    intro a b ha hb
    rw [Repository.passwordUpdate_guard] at ha hb
    simp [Constrained.clash, ha.1, hb.1])
  obtain ⟨hid, -, -, hversion⟩ := Repository.passwordUpdate_guard.1 hg
  obtain rfl := credential_unchanged h hread hr hid hversion
  exact ⟨howner.1, ⟨salt, actor, now, hreplaced⟩, hnew⟩

end Credentials

section Commits

variable {svc : Service} {op : Op} {acts : List Act} {body : Tx Nat} {n : Nat}
  {next : Prog Reply} {s s' : Store}

theorem Commit.changePassword_inv {ctx : Context} {current new : String}
    (h : Commit svc (.changePassword ctx current new) acts body n next)
    (hrun : body.run svc.lower s = .ok (n, s')) :
    ∃ (actor : Principal) (credential : Credential) (salt : String) (now : Time),
      ctx = some actor ∧ Act.read (.passwordCredential actor.id) credential ∈ acts ∧
      svc.verified current credential.secretHash = true ∧
      svc.verified new credential.secretHash = false ∧
      (Repository.passwordUpdate credential.id (svc.hasher.encode salt new) actor.id
        credential.version now).Hits s.credentials.rows s'.credentials.rows := by
  cases h with
  | @changePassword _ _ now salt _ _ actor credential _ _ _ hcurrent hnew =>
    simp at hrun
    obtain ⟨t, ⟨ht, hmatch⟩, _, -, ⟨_, -, rfl⟩, -⟩ := hrun
    exact ⟨actor, credential, salt, now, rfl, by simp, hcurrent, hnew, ht,
      by simpa [and_assoc] using hmatch⟩

theorem Commit.confirmPasswordReset_inv {token new : String}
    (h : Commit svc (.confirmPasswordReset token new) acts body n next)
    (hrun : body.run svc.lower s = .ok (n, s')) :
    ∃ (challenge : PasswordResetChallenge) (credential : Credential) (salt : String) (now : Time),
      Act.read (.getPasswordResetChallenge (svc.hashPasswordResetToken (Go.trimSpace token)))
        challenge ∈ acts ∧
      Act.read (.passwordCredential challenge.userID) credential ∈ acts ∧
      acts.reverse.findSome? Act.time = some now ∧
      svc.verified new credential.secretHash = false ∧
      (Repository.consumeResetUpdate (svc.hashPasswordResetToken (Go.trimSpace token))
        challenge.version "identity:password-reset" now).Hits s.passwordResetChallenges.rows
          s'.passwordResetChallenges.rows ∧
      (Repository.passwordUpdate credential.id (svc.hasher.encode salt new)
        "identity:password-reset" credential.version now).Hits s.credentials.rows
          s'.credentials.rows := by
  cases h with
  | @confirmPasswordReset _ _ salt now _ _ challenge _ credential _ _ _ _ _ hnew =>
    simp at hrun
    obtain ⟨t, ⟨ht, hmatch⟩, t', ⟨ht', hmatch'⟩, _, -, ⟨_, -, rfl⟩, -⟩ := hrun
    exact ⟨challenge, credential, salt, now, by simp, by simp, rfl, hnew,
      ⟨ht, by simpa [and_assoc] using hmatch⟩, ⟨ht', by simpa [and_assoc] using hmatch'⟩⟩

theorem Commit.issuePasswordReset_inv {ctx : Context} {userID reason : String}
    (h : Commit svc (.issuePasswordReset ctx userID reason) acts body n next)
    (hrun : body.run svc.lower s = .ok (n, s')) :
    ∃ actor now row, s'.passwordResetChallenges.rows = s.passwordResetChallenges.rows.map
      (Repository.invalidateUpdate (Go.trimSpace userID) actor now).apply ++ [row] := by
  cases h with
  | issuePasswordReset =>
    simp at hrun
    obtain ⟨t, ht, ⟨t', ht', rfl⟩, -⟩ := hrun
    exact ⟨_, _, _, ht ▸ ht'⟩

end Commits

section Runs

variable {svc : Service} {π : Policy} {w : World} {clock : Time} {c d : Config} {ev e : Event}
  {k : ev.call.Res → Prog Reply} {a : Answer} {body : Tx Nat} {n : Nat} {token new : String}

theorem consumed_persists (h : svc.machine.Reach π (start clock) c) (hd : svc.machine.Run π c d)
    (hinj : (d.history.filterMap (Event.resetHash svc)).Nodup) {x r : PasswordResetChallenge}
    (hx : x ∈ c.state.store.passwordResetChallenges.rows) (hconsumed : x.consumedAt ≠ none)
    (hr : r ∈ d.state.store.passwordResetChallenges.rows) (hsame : r.tokenHash = x.tokenHash) :
    r.consumedAt ≠ none := by
  rw [(evolves_of_run h hd hinj hx hr hsame).final hconsumed]
  exact hconsumed

theorem consumed_of_issue (h : svc.machine.Reach π w c) (hf : svc.machine.Fired c ev d k a)
    (hact : ev.act = Act.committed body n) {ctx : Context} {userID reason : String}
    (hop : ev.request = .issuePasswordReset ctx userID reason) {x : PasswordResetChallenge}
    (hx : x ∈ c.state.store.passwordResetChallenges.rows)
    (huser : x.userID = Go.trimSpace userID) :
    ∃ x' ∈ d.state.store.passwordResetChallenges.rows, x'.tokenHash = x.tokenHash ∧
      x'.consumedAt ≠ none := by
  obtain ⟨next, hcom⟩ := committed_of_act h hf hact
  obtain ⟨actor, now, row, hrows⟩ := (hop ▸ hcom.commit).issuePasswordReset_inv hcom.run
  refine ⟨_, hrows ▸ List.mem_append_left _ (List.mem_map_of_mem hx), ?_⟩
  unfold Update.apply
  split
  · exact ⟨rfl, nofun⟩
  · rename_i hg
    exact ⟨rfl, fun hopen => hg (Repository.invalidateUpdate_guard.2 ⟨huser, hopen⟩)⟩

theorem confirmation (h : svc.machine.Reach π (start clock) c)
    (hf : svc.machine.Fired c ev d k a) (hact : ev.act = Act.committed body n)
    (hop : ev.request = .confirmPasswordReset token new)
    (hinj : (c.history.filterMap (Event.resetHash svc)).Nodup) :
    ∃ challenge ∈ c.state.store.passwordResetChallenges.rows, ∃ now credential,
      challenge.tokenHash = svc.hashPasswordResetToken (Go.trimSpace token) ∧
      challenge.consumedAt = none ∧ callTime c.history ev.thread = some now ∧
      now < challenge.expiresAt ∧
      Overwritten svc challenge.userID new credential c.state.store d.state.store ∧
      ∃ r ∈ d.state.store.passwordResetChallenges.rows, r.tokenHash = challenge.tokenHash ∧
        r.consumedAt ≠ none := by
  obtain ⟨next, hcom⟩ := committed_of_act h hf hact
  obtain ⟨read, credential, salt, now, hread, hcredential, htime, hnew, hconsume, hreplace⟩ :=
    (hop ▸ hcom.commit).confirmPasswordReset_inv hcom.run
  obtain ⟨r, hr, hg⟩ := hconsume.found
  obtain ⟨hhash, hopen, hexpires, -⟩ := Repository.consumeResetUpdate_guard.1 hg
  -- What was read under the hash was the same user's.
  have huser : r.userID = read.userID := by
    obtain ⟨e, he, -, hact⟩ := Machine.Reach.mem_actsOf.1 hread
    obtain ⟨hmem, hsame⟩ := List.mem_filter.1 (read_select h he hact)
    obtain ⟨c0, c1, k, a, h0, hf, hp, h1⟩ := h.event_of_mem he
    rw [hf.before] at hmem
    have hhash' : r.tokenHash = read.tokenHash := hhash.trans (of_decide_eq_true hsame).symm
    exact (evolves_of_run h0 ((Machine.Run.refl.fired hf hp).trans h1) hinj hmem hr hhash').userID
  have hassign := hconsume.map ▸ Update.assign_mem hr hg
  refine ⟨r, hr, now, credential, hhash, hopen, htime, hexpires, ?_, _, hassign, rfl, nofun⟩
  rw [huser]
  exact overwritten_of_hits h hcredential hnew hreplace

theorem confirmed_once (h : svc.machine.Reach π (start clock) d)
    (hinj : (d.history.filterMap (Event.resetHash svc)).Nodup) {later earlier : List Event}
    (hsplit : d.history = later ++ ev :: earlier) (he : e ∈ earlier) {body' : Tx Nat} {n' : Nat}
    {token' new' : String} (hact : ev.act = Act.committed body n)
    (hact' : e.act = Act.committed body' n') (hop : ev.request = .confirmPasswordReset token new)
    (hop' : e.request = .confirmPasswordReset token' new') :
    svc.hashPasswordResetToken (Go.trimSpace token) ≠
      svc.hashPasswordResetToken (Go.trimSpace token') := by
  intro hsame
  obtain ⟨c2, c3, k, a, h2, rfl, hf, -, -⟩ := h.event_split hsplit
  obtain ⟨c0, c1, k', a', h0, hf', hp', h1⟩ := h2.event_of_mem he
  have hsub : c2.history <:+ d.history :=
    hsplit ▸ (List.suffix_cons _ _).trans (List.suffix_append _ _)
  have hinj2 := hinj.sublist (hsub.sublist.filterMap _)
  have hsub0 : c0.history <:+ c2.history :=
    (hf'.history ▸ List.suffix_cons _ _).trans h1.history_suffix
  have hinj0 := hinj2.sublist (hsub0.sublist.filterMap _)
  obtain ⟨r, hr, -, -, hhash, hopen, -⟩ := confirmation h2 hf hact hop hinj2
  obtain ⟨x, -, -, -, hxhash, -, -, -, -, x', hx', hxhash', hconsumed⟩ :=
    confirmation h0 hf' hact' hop' hinj0
  refine consumed_persists (h0.trans (Machine.Run.refl.fired hf' hp')) h1 hinj2 hx' hconsumed hr
    ?_ hopen
  rw [hhash, hsame, ← hxhash, hxhash']

theorem store_eq_of_failed (h : svc.machine.Reach π w d) {i : Nat} {th : Thread Op Effect
    Effect.Res AppError Reply} {err : AppError} (hth : d.threads[i]? = some th)
    (hlast : th.request.commitsLast = true) (hout : th.rest.outcome = some (.error err))
    (he : e ∈ d.history) (hi : e.thread = i) : e.after.store = e.before.store := by
  obtain ⟨c0, c1, k, a, h0, hf, -, -⟩ := h.event_of_mem he
  rw [← hf.state, hf.before]
  obtain ⟨body, n, next, hcom⟩ | hstore := committed_or_store_eq h0 hf
  · obtain ⟨th', hth', hrequest, hend⟩ := h.thread_of_mem he
    rw [hi, hth] at hth'
    cases hth'
    obtain ⟨reply, hreply⟩ := hcom.ok (hrequest ▸ hlast)
    rw [hend (by rw [hreply]; rfl), hreply] at hout
    cases hout
  · exact hstore

theorem spent_by_others (h : svc.machine.Reach π w d) {i : Nat}
    (hkeep : ∀ e ∈ d.history, e.thread = i → e.after.store = e.before.store)
    (he : e ∈ d.history) {r : PasswordResetChallenge}
    (hr : r ∈ e.before.store.passwordResetChallenges.rows) :
    r ∈ d.state.store.passwordResetChallenges.rows ∨ ∃ ev ∈ d.history, ev.thread ≠ i ∧
      ev.request.spends svc r ∧ r ∈ ev.before.store.passwordResetChallenges.rows ∧
      r ∉ ev.after.store.passwordResetChallenges.rows := by
  obtain ⟨c0, c1, k, a, h0, hf, hp, h1⟩ := h.event_of_mem he
  rw [hf.before] at hr
  refine Machine.Run.invariant (I := fun c => c.history <:+ d.history →
    r ∈ c.state.store.passwordResetChallenges.rows ∨ ∃ ev ∈ d.history, ev.thread ≠ i ∧
      ev.request.spends svc r ∧ r ∈ ev.before.store.passwordResetChallenges.rows ∧
      r ∉ ev.after.store.passwordResetChallenges.rows)
    ((Machine.Run.refl.fired hf hp).trans h1) (fun _ => .inl hr) ?_ ?_ (List.suffix_refl _)
  · intro c q _ ih
    exact ih
  · intro c ev c' k a hrun ih hf _ hsub
    obtain hmem | hspent := ih ((hf.history ▸ List.suffix_cons _ _).trans hsub)
    · by_cases hstays : r ∈ c'.state.store.passwordResetChallenges.rows
      · exact .inl hstays
      · have hev : ev ∈ d.history := hsub.mem (hf.history ▸ List.mem_cons_self)
        obtain hstays' | hspends := (resetChange_of_step (h0.trans hrun) hf).fate hmem
        · exact absurd hstays' hstays
        · rw [hf.state] at hstays
          rw [← hf.before] at hmem
          refine .inr ⟨ev, hev, fun hi => hstays ?_, hspends, hmem, hstays⟩
          rw [hkeep ev hev hi]
          exact hmem
    · exact .inr hspent

end Runs

/-- Passwords are replaced one after another, each against the credential it was checked
against; a reset token that is confirmed is the latest of its user, works once, and stays as it is
when its confirmation fails.  No two tokens issued have the same hash. -/
theorem password_replacements_are_serialised (svc : Service) (clock : Time) (d : Config)
    (h : svc.machine.Reach .any (start clock) d)
    (hinj : (d.history.filterMap (Event.resetHash svc)).Nodup) :
    (∀ ev ∈ d.history, ∀ ctx current new body n, ev.request = .changePassword ctx current new →
      ev.act = Act.committed body n → ∃ actor r, ctx = some actor ∧
        Overwritten svc actor.id new r ev.before.store ev.after.store ∧
        svc.verified current r.secretHash = true) ∧
    (∀ later ev earlier token new body n, d.history = later ++ ev :: earlier →
      ev.request = .confirmPasswordReset token new → ev.act = Act.committed body n →
      (∃ challenge ∈ ev.before.store.passwordResetChallenges.rows, ∃ now r,
        challenge.tokenHash = svc.hashPasswordResetToken (Go.trimSpace token) ∧
        challenge.consumedAt = none ∧ callTime earlier ev.thread = some now ∧
        now < challenge.expiresAt ∧
        (∀ e ∈ earlier, ∀ ctx userID reason body n,
          e.request = .issuePasswordReset ctx userID reason → e.act = Act.committed body n →
          Go.trimSpace userID = challenge.userID →
          ∀ x ∈ e.before.store.passwordResetChallenges.rows, x.tokenHash ≠ challenge.tokenHash) ∧
        Overwritten svc challenge.userID new r ev.before.store ev.after.store) ∧
      ∀ e ∈ earlier, ∀ token' new' body n, e.request = .confirmPasswordReset token' new' →
        e.act = Act.committed body n → svc.hashPasswordResetToken (Go.trimSpace token) ≠
          svc.hashPasswordResetToken (Go.trimSpace token')) ∧
    ∀ (i : Nat) th err token new, d.threads[i]? = some th →
      th.request = .confirmPasswordReset token new → th.rest.outcome = some (.error err) →
      ∀ e ∈ d.history, e.thread = i → ∀ r ∈ e.before.store.passwordResetChallenges.rows,
        r ∈ d.state.store.passwordResetChallenges.rows ∨ ∃ ev ∈ d.history, ev.thread ≠ i ∧
          ev.request.spends svc r ∧ r ∈ ev.before.store.passwordResetChallenges.rows ∧
          r ∉ ev.after.store.passwordResetChallenges.rows := by
  refine ⟨?_, ?_, ?_⟩
  · intro ev hev ctx current new body n hop hact
    obtain ⟨c0, c1, k, a, h0, hf, -, -⟩ := h.event_of_mem hev
    obtain ⟨next, hcom⟩ := committed_of_act h0 hf hact
    obtain ⟨actor, credential, salt, now, hctx, hread, hcurrent, hnew, hrows⟩ :=
      (hop ▸ hcom.commit).changePassword_inv hcom.run
    rw [hf.before, ← hf.state]
    exact ⟨actor, credential, hctx, overwritten_of_hits h0 hread hnew hrows, hcurrent⟩
  · intro later ev earlier token new body n hsplit hop hact
    refine ⟨?_, fun e he token' new' body' n' hop' hact' =>
      confirmed_once h hinj hsplit he hact hact' hop hop'⟩
    obtain ⟨c, c', k, a, hc, rfl, hf, -, -⟩ := h.event_split hsplit
    have hsub : c.history <:+ d.history :=
      hsplit ▸ (List.suffix_cons _ _).trans (List.suffix_append _ _)
    have hinjc := hinj.sublist (hsub.sublist.filterMap _)
    obtain ⟨challenge, hmem, now, r, hhash, hopen, htime, hexpires, hover, -⟩ :=
      confirmation hc hf hact hop hinjc
    rw [hf.before, ← hf.state]
    refine ⟨challenge, hmem, now, r, hhash, hopen, htime, hexpires, ?_, hover⟩
    intro e he ctx userID reason body' n' hop' hact' huser x hx hsame
    -- The issue would have consumed the challenge.
    obtain ⟨c0, c1, k', a', h0, hf', hp', h1⟩ := hc.event_of_mem he
    rw [hf'.before] at hx
    have hrun := (Machine.Run.refl.fired hf' hp').trans h1
    have howner := (evolves_of_run h0 hrun hinjc hx hmem hsame.symm).userID
    obtain ⟨x', hx', hxhash, hconsumed⟩ :=
      consumed_of_issue h0 hf' hact' hop' hx (howner.symm.trans huser.symm)
    exact consumed_persists (h0.trans (Machine.Run.refl.fired hf' hp')) h1 hinjc hx' hconsumed hmem
      (hsame.symm.trans hxhash.symm) hopen
  · intro i th err token new hth hop hout e he hi r hr
    have hlast : th.request.commitsLast = true := by
      rw [hop]
      rfl
    exact spent_by_others h (fun e he hi => store_eq_of_failed h hth hlast hout he hi) he hr

namespace sample

def replaced : List (Choice Op Answer) :=
  signIn ++
    [.start (.changePassword bob "correct horse" "battery staple"), .step 2 (.row 0),
      .step 2 (.value "salt2"), .step 2 (.time 50), .step 2 (.value "e2"), .step 2 .done,
      .start (.issuePasswordReset admin "u1" "lost"), .step 3 (.row 0), .step 3 (.value "rt1"),
      .step 3 (.time 60), .step 3 .done,
      .start (.confirmPasswordReset "rt1" "third password"), .step 4 (.value "salt3"),
      .step 4 (.row 0), .step 4 (.time 70), .step 4 (.row 0), .step 4 (.row 0),
      .step 4 (.value "e3"), .step 4 .done]

end sample

def Event.confirms (ev : Event) : Option (String × String) :=
  match ev.request, ev.act with
  | .confirmPasswordReset token new, ⟨.within _, .ok _⟩ => some (token, new)
  | _, _ => none

theorem confirms_eq_some {ev : Event} {token new : String}
    (h : Event.confirms ev = some (token, new)) :
    ev.request = .confirmPasswordReset token new ∧ ∃ body n, ev.act = Act.committed body n := by
  unfold Event.confirms at h
  split at h
  · rename_i hop hact
    cases h
    exact ⟨hop, _, _, hact⟩
  · cases h

theorem password_replacements_are_serialised_reset : ∃ d : Config,
    (sample [] none).machine.Reach .any (start 0) d ∧
    (d.history.filterMap (Event.resetHash (sample [] none))).Nodup ∧
    ∃ ev ∈ d.history, Event.confirms ev = some ("rt1", "third password") ∧
      ∃ challenge ∈ ev.before.store.passwordResetChallenges.rows, ∃ r,
        challenge.tokenHash = "rt1" ∧ challenge.consumedAt = none ∧
        Overwritten (sample [] none) challenge.userID "third password" r ev.before.store
          ev.after.store := by
  obtain ⟨d, hd, hinj, ev, hev, hconfirms⟩ : ∃ d : Config,
      (sample [] none).machine.Reach .any (start 0) d ∧
      (d.history.filterMap (Event.resetHash (sample [] none))).Nodup ∧
      ∃ ev ∈ d.history, Event.confirms ev = some ("rt1", "third password") :=
    Machine.replay_exists sample.replaced (by decide +kernel)
  obtain ⟨hop, body, n, hact⟩ := confirms_eq_some hconfirms
  obtain ⟨later, earlier, hsplit⟩ := List.append_of_mem hev
  obtain ⟨-, hconfirm, -⟩ := password_replacements_are_serialised _ 0 d hd hinj
  obtain ⟨challenge, hmem, now, r, hhash, hopen, -, -, -, hover⟩ :=
    (hconfirm later ev earlier _ _ body n hsplit hop hact).1
  refine ⟨d, hd, hinj, ev, hev, hconfirms, challenge, hmem, r, ?_, hopen, hover⟩
  rw [hhash]
  decide +kernel

end IdentityService
