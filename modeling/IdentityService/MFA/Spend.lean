import IdentityService.MFA.Challenge

/-! A login by a second factor, counted: every session has its own challenge and its own factor. -/

namespace IdentityService

open Lib Service

inductive FactorSpent (user : String) (now : Time) (s s' : Store) : Prop
  | step (e : MFAEnrollment) (step : Int)
      (henrollments : Replaced e { e with lastUsedStep := step, version := e.version + 1,
                                          updatedAt := now, updatedBy := "identity:mfa" }
        s.userMFA.rows s'.userMFA.rows)
      (huser : e.userID = user) (henabled : e.status = .enabled) (hstep : e.lastUsedStep < step)
      (hcodes : s'.mfaRecoveryCodes = s.mfaRecoveryCodes)
  | code (r : MFARecoveryCode)
      (hcodes : Replaced r { r with consumedAt := some now, version := r.version + 1,
                                    updatedAt := now, updatedBy := "identity:mfa" }
        s.mfaRecoveryCodes.rows s'.mfaRecoveryCodes.rows)
      (huser : r.userID = user) (hunused : r.consumedAt = none)
      (henrollments : s'.userMFA = s.userMFA)

structure MFALogin (svc : Service) (token : String) (now : Time) (r : MFALoginChallenge)
    (session : Session) (s s' : Store) : Prop where
  consumed : Replaced r { r with consumedAt := some now, version := r.version + 1,
                                 updatedAt := now, updatedBy := "identity:mfa" }
    s.mfaLoginChallenges.rows s'.mfaLoginChallenges.rows
  hash : r.tokenHash = svc.hashMFAChallengeToken (Go.trimSpace token)
  unconsumed : r.consumedAt = none
  unexpired : now < r.expiresAt
  opened : s'.sessions.rows = s.sessions.rows ++ [session]
  factor : FactorSpent session.userID now s s'

theorem Commit.mfaLogin {svc : Service} {token code recoveryCode : String} {acts : List Act}
    {body : Tx Nat} {n : Nat} {next : Prog Reply} {s s' : Store}
    (h : Commit svc (.verifyMFAChallenge token code recoveryCode) acts body n next)
    (hrun : body.run svc.lower s = .ok (n, s')) :
    ∃ (now : Time) (challenge r : MFALoginChallenge) (session : Session),
      acts.reverse.findSome? Act.time = some now ∧
      Act.read (.getMFAChallenge (svc.hashMFAChallengeToken (Go.trimSpace token))) challenge ∈
        acts ∧
      session.userID = challenge.userID ∧ MFALogin svc token now r session s s' := by
  cases h with
  | @verifyMFAChallenge _ _ _ now step hash _ m challenge _ enrollment d =>
    simp [spendFactor] at hrun
    obtain ⟨t, ⟨ht, hmatch⟩, s1, hs1, ⟨t', ht', rfl⟩, -⟩ := hrun
    have hs : s1.mfaLoginChallenges = t ∧ s1.sessions = s.sessions := by grind
    obtain ⟨r, hr, hg, hreplaced⟩ := Table.replaced_of_hits
      (u := Repository.consumeChallengeUpdate _ _ _ _) ⟨ht, by simpa using hmatch⟩
      (by simp +contextual [Constrained.clash])
    obtain ⟨hhash, hunconsumed, hunexpired, -⟩ := Repository.consumeChallengeUpdate_guard.1 hg
    refine ⟨now, challenge, r, _, rfl, by simp, rfl, ?_, hhash, hunconsumed, hunexpired,
      hs.2 ▸ ht', ?_⟩
    · exact hs.1 ▸ hreplaced
    · obtain ⟨-, ⟨t1, ht1, rfl⟩, hmatch⟩ | ⟨-, ⟨t1, ht1, rfl⟩, hmatch⟩ := hs1
      · obtain ⟨e, he, hg, hreplaced⟩ := Table.replaced_of_hits
          (u := Repository.advanceUpdate _ _ _ _) ⟨ht1, by simpa using hmatch⟩
          (by simp +contextual [Constrained.clash])
        obtain ⟨huser, henabled, hstep⟩ := Repository.advanceUpdate_guard.1 hg
        exact .step e step hreplaced huser henabled hstep rfl
      · obtain ⟨k, hk, hg, hreplaced⟩ := Table.replaced_of_hits
          (u := Repository.consumeCodeUpdate _ _ _ _) ⟨ht1, by simpa using hmatch⟩
          (by simp +contextual [Constrained.clash])
        obtain ⟨huser, -, hunused⟩ := Repository.consumeCodeUpdate_guard.1 hg
        exact .code k hreplaced huser hunused rfl

def Event.passed (ev : Event) : Bool :=
  match ev.request, ev.outcome with
  | .verifyMFAChallenge _ _ _, some (.ok _) => true
  | _, _ => false

def Event.answered (svc : Service) (ev : Event) : Option String :=
  match ev.request with
  | .verifyMFAChallenge token _ _ => some (svc.hashMFAChallengeToken (Go.trimSpace token))
  | _ => none

def Event.mfaSessions (ev : Event) : List Session :=
  match ev.request with
  | .verifyMFAChallenge _ _ _ =>
    ev.after.store.sessions.rows.filter (fun r => r ∉ ev.before.store.sessions.rows)
  | _ => []

def Event.challengesConsumed (ev : Event) : List MFALoginChallenge :=
  moved MFALoginChallenge.tokenHash (fun r => r.consumedAt.isSome)
    ev.before.store.mfaLoginChallenges.rows ev.after.store.mfaLoginChallenges.rows

def Event.codesSpent (ev : Event) : List MFARecoveryCode :=
  moved MFARecoveryCode.id (fun r => r.consumedAt.isSome)
    ev.before.store.mfaRecoveryCodes.rows ev.after.store.mfaRecoveryCodes.rows

def Event.stepsSpent (ev : Event) : List MFAEnrollment :=
  match ev.request with
  | .verifyMFAChallenge _ _ _ => Event.written ev
  | _ => []

def Event.factorsSpent (ev : Event) : List (MFAEnrollment ⊕ MFARecoveryCode) :=
  (Event.stepsSpent ev).map .inl ++ (Event.codesSpent ev).map .inr

section Keys

theorem challenge_keys (t : Table MFALoginChallenge) :
    t.rows.Pairwise fun r r' => r.tokenHash ≠ r'.tokenHash :=
  t.distinct.imp fun h heq => by simp [Constrained.clash, heq] at h

theorem code_keys (t : Table MFARecoveryCode) : t.rows.Pairwise fun r r' => r.id ≠ r'.id :=
  t.distinct.imp fun h heq => by simp [Constrained.clash, heq] at h

end Keys

section Effect

variable {svc : Service} {token : String} {now : Time} {r : MFALoginChallenge} {session : Session}
  {s s' : Store}

theorem MFALogin.sessions (h : MFALogin svc token now r session s s') :
    s'.sessions.rows.filter (fun x => x ∉ s.sessions.rows) = [session] := by
  rw [h.opened]
  refine filter_not_mem_append fun hmem => ?_
  exact id_ne_of_append h.opened session hmem rfl

theorem MFALogin.challenges (h : MFALogin svc token now r session s s') :
    moved MFALoginChallenge.tokenHash (fun r => r.consumedAt.isSome)
      s.mfaLoginChallenges.rows s'.mfaLoginChallenges.rows = [r] :=
  moved_of_replaced (challenge_keys _) h.consumed (by simp [h.unconsumed]) rfl rfl

theorem replaced_enrolment_new {t : Table MFAEnrollment} {e e' : MFAEnrollment}
    {rows : List MFAEnrollment} (h : Replaced e e' t.rows rows) (huser : e'.userID = e.userID)
    (hversion : e'.version = e.version + 1) : rows.filter (fun x => x ∉ t.rows) = [e'] := by
  refine h.filter_not_mem fun hmem => ?_
  obtain rfl := Table.eq_of_clash hmem h.mem_left (by simp [Constrained.clash, huser])
  omega

theorem FactorSpent.one {user : String} (h : FactorSpent user now s s') :
    (s'.userMFA.rows.filter (fun e => e ∉ s.userMFA.rows)).length +
      (moved MFARecoveryCode.id (fun r => r.consumedAt.isSome) s.mfaRecoveryCodes.rows
        s'.mfaRecoveryCodes.rows).length = 1 := by
  cases h with
  | step e step henr huser henabled hstep hcodes =>
    have hnil : moved MFARecoveryCode.id (fun r => r.consumedAt.isSome) s.mfaRecoveryCodes.rows
        s'.mfaRecoveryCodes.rows = [] := by
      rw [hcodes]
      refine moved_eq_nil (fun x hx y hy hxy => ?_) fun y hy hused => ⟨y, hy, rfl, hused⟩
      exact Table.eq_of_clash hx hy (by simp [Constrained.clash, hxy])
    rw [hnil, replaced_enrolment_new henr rfl rfl]
    rfl
  | code k hcodes huser hunused henr =>
    have hnil : s'.userMFA.rows.filter (fun e => e ∉ s.userMFA.rows) = [] := by
      rw [henr]
      exact List.filter_eq_nil_iff.2 (by simp)
    rw [hnil, moved_of_replaced (code_keys _) hcodes (by simp [hunused]) rfl rfl]
    rfl

end Effect

section Steps

variable {svc : Service} {π : Policy} {w : World} {clock : Time} {c d : Config} {ev : Event}
  {k : ev.call.Res → Prog Reply} {a : Answer} {kinds : List Draw} {token code recoveryCode : String}

theorem passed_iff : Event.passed ev = true ↔
    (∃ token code recoveryCode, ev.request = .verifyMFAChallenge token code recoveryCode) ∧
      ∃ reply, ev.outcome = some (.ok reply) := by
  unfold Event.passed
  split
  · rename_i hop hout
    simp [hop, hout]
  · rename_i hne
    simp only [Bool.false_eq_true, false_iff]
    rintro ⟨⟨token, code, recoveryCode, hop⟩, reply, hout⟩
    exact hne _ _ _ _ hop hout

theorem mfaLogin_of_passed (h : svc.machine.Reach π w c) (hf : svc.machine.Fired c ev d k a)
    (hop : ev.request = .verifyMFAChallenge token code recoveryCode)
    (hpassed : Event.passed ev = true) :
    ∃ (now : Time) (challenge r : MFALoginChallenge) (session : Session),
      callTime c.history ev.thread = some now ∧
      Act.read (.getMFAChallenge (svc.hashMFAChallengeToken (Go.trimSpace token))) challenge ∈
        c.actsOf ev.thread ∧
      session.userID = challenge.userID ∧
      MFALogin svc token now r session c.state.store d.state.store := by
  obtain ⟨-, reply, hout⟩ := passed_iff.1 hpassed
  obtain ⟨body, n, next, hcom⟩ := committed_of_ok h hf (by rw [hop]; rfl) hout
  have hcommit := hcom.commit
  rw [hop] at hcommit
  exact hcommit.mfaLogin hcom.run

theorem store_eq_of_not_passed (h : svc.machine.Reach π w c) (hf : svc.machine.Fired c ev d k a)
    (hop : ev.request = .verifyMFAChallenge token code recoveryCode)
    (hpassed : Event.passed ev = false) : d.state.store = c.state.store := by
  obtain ⟨body, n, next, hcom⟩ | hstore := committed_or_store_eq h hf
  · have hok := hcom.ok (by rw [hop]; rfl)
    rw [passed_iff.2 ⟨⟨_, _, _, hop⟩, hok⟩] at hpassed
    cases hpassed
  · exact hstore

theorem mfaLogin_user (hkind : .challengeToken ∈ kinds)
    (h : svc.machine.Reach (Policy.fresh kinds) (start clock) c)
    (hinj : Set.InjOn svc.hashMFAChallengeToken {t | t ∈ Config.drawn c .challengeToken})
    {challenge r : MFALoginChallenge} {i : Nat} {hash : String}
    (hread : Act.read (.getMFAChallenge hash) challenge ∈ c.actsOf i)
    (hr : r ∈ c.state.store.mfaLoginChallenges.rows) (hhash : r.tokenHash = hash) :
    r.userID = challenge.userID := by
  obtain ⟨e, he, -, hact⟩ := Machine.Reach.mem_actsOf.1 hread
  have hselect := read_select h he hact
  obtain ⟨c0, c1, k, a, h0, hf, hp, h1⟩ := h.event_of_mem he
  rw [hf.before] at hselect
  obtain ⟨hmem, hsame⟩ := List.mem_filter.1 hselect
  simp only [decide_eq_true_eq] at hsame
  have hrun := (Machine.Run.refl.fired hf hp).trans h1
  exact (challenge_kept hkind h0 hrun hinj hmem hr (hhash.trans hsame.symm)).1

theorem nothing_spent (h : svc.machine.Reach π w c) (hf : svc.machine.Fired c ev d k a)
    (hpassed : Event.passed ev = false) :
    Event.challengesConsumed ev = [] ∧ Event.codesSpent ev = [] := by
  unfold Event.challengesConsumed Event.codesSpent
  rw [hf.before, ← hf.state]
  have hchallenges : ∀ r' ∈ d.state.store.mfaLoginChallenges.rows, r'.consumedAt.isSome = true →
      r' ∈ c.state.store.mfaLoginChallenges.rows := by
    intro r' hr' hused
    cases challengeChange_of_step h hf with
    | keep hrows => exact hrows ▸ hr'
    | insert token row hdraw hrows hhash hunused =>
      rw [hrows, List.mem_append, List.mem_singleton] at hr'
      obtain hr | rfl := hr'
      · exact hr
      · simp [hunused] at hused
    | consume token code recoveryCode version now hop =>
      exact store_eq_of_not_passed h hf hop hpassed ▸ hr'
    | clean spared hrows => exact List.mem_of_mem_filter (hrows ▸ hr')
  have hcodes : ∀ r' ∈ d.state.store.mfaRecoveryCodes.rows, r'.consumedAt.isSome = true →
      r' ∈ c.state.store.mfaRecoveryCodes.rows := by
    intro r' hr' hused
    have hothers : ∀ {user}, r' ∈ c.state.store.codesOfOthers user →
        r' ∈ c.state.store.mfaRecoveryCodes.rows := fun h => List.mem_of_mem_filter h
    have hmixed : ∀ {user codes}, NewCodes (c.actsOf ev.thread) user codes →
        r' ∈ c.state.store.codesOfOthers user ++ codes →
        r' ∈ c.state.store.mfaRecoveryCodes.rows := by
      intro user codes hnew hr'
      obtain hr | hr := List.mem_append.1 hr'
      · exact hothers hr
      · simp [hnew.unused _ hr] at hused
    cases mfaChange_of_step h hf with
    | keep _ hcodes | enrol _ _ _ _ _ _ hcodes | advance _ _ _ _ _ _ _ _ _ hcodes =>
      exact hcodes ▸ hr'
    | reset _ _ _ _ _ _ _ hcodes | disable _ _ _ _ _ _ _ _ _ hcodes
    | adminReset _ _ _ _ _ _ _ hcodes => exact hothers (hcodes ▸ hr')
    | enable _ _ _ _ _ _ _ _ _ _ hcodes hnew => exact hmixed hnew (hcodes ▸ hr')
    | regenerate _ _ _ _ _ _ _ _ _ _ hcodes hnew => exact hmixed hnew (hcodes ▸ hr')
    | spend token code recoveryCode user hash now hop =>
      exact store_eq_of_not_passed h hf hop hpassed ▸ hr'
  constructor
  · exact moved_eq_nil (fun x hx y hy hxy => Table.eq_of_clash hx hy
      (by simp [Constrained.clash, hxy])) fun y hy hused => ⟨y, hchallenges y hy hused, rfl, hused⟩
  · exact moved_eq_nil (fun x hx y hy hxy => Table.eq_of_clash hx hy
      (by simp [Constrained.clash, hxy])) fun y hy hused => ⟨y, hcodes y hy hused, rfl, hused⟩

theorem spent_counts (h : svc.machine.Reach π w c) (hf : svc.machine.Fired c ev d k a) :
    (Event.mfaSessions ev).length = (Event.passed ev).toNat ∧
    (Event.challengesConsumed ev).length = (Event.passed ev).toNat ∧
    (Event.factorsSpent ev).length = (Event.passed ev).toNat := by
  rw [Event.factorsSpent, List.length_append, List.length_map, List.length_map]
  cases hpassed : Event.passed ev with
  | true =>
    obtain ⟨⟨token, code, recoveryCode, hop⟩, -⟩ := passed_iff.1 hpassed
    obtain ⟨now, challenge, r, session, -, -, -, hlogin⟩ := mfaLogin_of_passed h hf hop hpassed
    rw [← hf.before, hf.state] at hlogin
    simp only [Event.mfaSessions, Event.stepsSpent, hop]
    refine ⟨by rw [hlogin.sessions]; rfl, ?_, hlogin.factor.one⟩
    rw [Event.challengesConsumed, hlogin.challenges]
    rfl
  | false =>
    obtain ⟨hchallenges, hcodes⟩ := nothing_spent h hf hpassed
    rw [hchallenges, hcodes]
    unfold Event.mfaSessions Event.stepsSpent Event.written
    split
    · rename_i token code recoveryCode hop
      have hstore := store_eq_of_not_passed h hf hop hpassed
      rw [hf.state, ← hf.before] at hstore
      simp only [hstore]
      rw [List.filter_eq_nil_iff.2 (by simp), List.filter_eq_nil_iff.2 (by simp)]
      exact ⟨rfl, rfl, rfl⟩
    · exact ⟨rfl, rfl, rfl⟩

theorem answered_once (hkind : .challengeToken ∈ kinds)
    (h : svc.machine.Reach (Policy.fresh kinds) (start clock) c)
    (hinj : Set.InjOn svc.hashMFAChallengeToken {t | t ∈ Config.drawn c .challengeToken})
    (hf : svc.machine.Fired c ev d k a) {x : Event} (hx : x ∈ c.history) {hash : String}
    (hpassed : Event.passed ev = true) (hhash : Event.answered svc ev = some hash)
    (hpassed' : Event.passed x = true) : Event.answered svc x ≠ some hash := by
  intro hhash'
  obtain ⟨⟨token, code, recoveryCode, hop⟩, -⟩ := passed_iff.1 hpassed
  obtain ⟨⟨token', code', recoveryCode', hop'⟩, -⟩ := passed_iff.1 hpassed'
  simp only [Event.answered, hop, hop', Option.some.injEq] at hhash hhash'
  obtain ⟨_, _, r, _, -, -, -, hlogin⟩ := mfaLogin_of_passed h hf hop hpassed
  obtain ⟨c0, c1, k', a', h0, hf', hp, h1⟩ := h.event_of_mem hx
  obtain ⟨_, _, r', _, -, -, -, hlogin'⟩ := mfaLogin_of_passed h0 hf' hop' hpassed'
  have hused := (challenge_kept hkind (h0.fired hf' hp) h1 hinj hlogin'.consumed.mem_right
    hlogin.consumed.mem_left
    (hlogin.hash.trans (hhash.trans (hhash'.symm.trans hlogin'.hash.symm)))).2
  exact hused nofun hlogin.unconsumed

theorem mem_codesSpent (hf : svc.machine.Fired c ev d k a) {id : String}
    (hid : id ∈ (Event.codesSpent ev).map MFARecoveryCode.id) :
    (∃ r ∈ c.state.store.mfaRecoveryCodes.rows, r.id = id ∧ r.consumedAt = none) ∧
    ∃ r ∈ d.state.store.mfaRecoveryCodes.rows, r.id = id ∧ r.consumedAt ≠ none := by
  obtain ⟨r, hr, rfl⟩ := List.mem_map.1 hid
  obtain ⟨hmem, hunused, r', hr', hsame, hused⟩ := mem_moved.1 hr
  rw [hf.before] at hmem
  rw [← hf.state] at hr'
  exact ⟨⟨r, hmem, rfl, by simpa using hunused⟩, r', hr', hsame, by
    simpa [Option.isSome_iff_ne_none] using hused⟩

theorem code_not_spent (hkind : .uuid ∈ kinds)
    (h : svc.machine.Reach (Policy.fresh kinds) w c)
    (hrun : svc.machine.Run (Policy.fresh kinds) c d) {id : String} (hused : UsedUp .uuid c id)
    (hnone : ∀ r ∈ c.state.store.mfaRecoveryCodes.rows, r.id = id → r.consumedAt ≠ none)
    {x : Event} {d' : Config} {k : x.call.Res → Prog Reply} (hf : svc.machine.Fired d x d' k a) :
    id ∉ (Event.codesSpent x).map MFARecoveryCode.id := by
  intro hid
  obtain ⟨⟨r, hr, hrid, hunused⟩, -⟩ := mem_codesSpent hf hid
  obtain ⟨old, hold, holdid, hkept⟩ := code_since hkind h hrun hused hr hrid
  exact hkept (hnone old hold holdid) hunused

end Steps

theorem length_flatMap_eq_countP {α β : Type} {f : α → List β} {P : α → Bool} {l : List α}
    (h : ∀ x ∈ l, (f x).length = (P x).toNat) : (l.flatMap f).length = l.countP P := by
  induction l with
  | nil => rfl
  | cons x l ih =>
    rw [List.flatMap_cons, List.length_append, h x List.mem_cons_self, List.countP_cons,
      ih fun y hy => h y (List.mem_cons_of_mem _ hy)]
    cases P x <;> simp [Nat.add_comm]

/-- A successful `VerifyMFAChallenge` consumes one challenge, spends one factor and opens one
session, all for one user, and any other outcome of it changes nothing.  So over a run no challenge
and no code opens two sessions, a code that was removed opens none, and there are as many sessions
as challenges and factors used. -/
theorem mfa_login_spends_one_challenge_and_factor (svc : Service) (clock : Time) (c : Config)
    (h : svc.machine.Reach (Policy.fresh [.uuid, .challengeToken]) (start clock) c)
    (hinj : Set.InjOn svc.hashMFAChallengeToken {t | t ∈ Config.drawn c .challengeToken}) :
    (∀ later ev earlier, c.history = later ++ ev :: earlier → ∀ token code recoveryCode,
      ev.request = .verifyMFAChallenge token code recoveryCode →
      (Event.passed ev = true → ∃ now r session, callTime earlier ev.thread = some now ∧
        session.userID = r.userID ∧
        MFALogin svc token now r session ev.before.store ev.after.store) ∧
      (Event.passed ev = false → ev.after.store = ev.before.store)) ∧
    (∀ hash, ((c.history.filter (fun ev => Event.answered svc ev = some hash)).flatMap
      Event.mfaSessions).length ≤ 1) ∧
    (∀ id, ((c.history.filter (fun ev => id ∈ (Event.codesSpent ev).map MFARecoveryCode.id)).flatMap
      Event.mfaSessions).length ≤ 1) ∧
    (∀ later ev earlier, c.history = later ++ ev :: earlier →
      ∀ r ∈ ev.before.store.mfaRecoveryCodes.rows,
        (∀ r' ∈ ev.after.store.mfaRecoveryCodes.rows, r'.id ≠ r.id) →
        ∀ x ∈ later, r.id ∉ (Event.codesSpent x).map MFARecoveryCode.id) ∧
    (c.history.flatMap Event.mfaSessions).length =
      (c.history.flatMap Event.challengesConsumed).length ∧
    (c.history.flatMap Event.mfaSessions).length =
      (c.history.flatMap Event.factorsSpent).length := by
  have hcounts : ∀ ev ∈ c.history, (Event.mfaSessions ev).length = (Event.passed ev).toNat ∧
      (Event.challengesConsumed ev).length = (Event.passed ev).toNat ∧
      (Event.factorsSpent ev).length = (Event.passed ev).toNat := by
    intro ev hev
    obtain ⟨c0, c1, k, a, h0, hf, -, -⟩ := h.event_of_mem hev
    exact spent_counts h0 hf
  -- Sessions are counted by the calls that opened them.
  have hsessions : ∀ P : Event → Bool, ((c.history.filter P).flatMap Event.mfaSessions).length =
      c.history.countP fun ev => Event.passed ev && P ev := by
    intro P
    rw [length_flatMap_eq_countP fun ev hev => (hcounts ev (List.mem_of_mem_filter hev)).1,
      List.countP_filter]
  refine ⟨?_, fun hash => ?_, fun id => ?_, ?_, ?_, ?_⟩
  · intro later ev earlier hsplit token code recoveryCode hop
    obtain ⟨c0, c1, k, a, h0, rfl, hf, hp, h1⟩ := h.event_split hsplit
    refine ⟨fun hpassed => ?_, fun hpassed => ?_⟩
    · obtain ⟨now, challenge, r, session, hnow, hread, huser, hlogin⟩ :=
        mfaLogin_of_passed h0 hf hop hpassed
      have hsub : c0.history <:+ c.history := hsplit ▸ (List.suffix_cons _ _).trans
        (List.suffix_append _ _)
      have hsame := mfaLogin_user (by simp) h0 (hinj.mono fun t ht => drawn_mono hsub ht) hread
        hlogin.consumed.mem_left hlogin.hash
      refine ⟨now, r, session, hnow, huser.trans hsame.symm, ?_⟩
      rw [hf.before, ← hf.state]
      exact hlogin
    · rw [hf.before, ← hf.state]
      exact store_eq_of_not_passed h0 hf hop hpassed
  · rw [hsessions]
    refine Machine.countP_le_one fun later ev earlier hsplit hev x hx => ?_
    simp only [Bool.and_eq_true, decide_eq_true_eq] at hev
    obtain ⟨c0, c1, k, a, h0, rfl, hf, -, -⟩ := h.event_split hsplit
    have hsub : c0.history <:+ c.history := hsplit ▸ (List.suffix_cons _ _).trans
      (List.suffix_append _ _)
    have hinj0 := hinj.mono fun t ht => drawn_mono hsub ht
    simp only [Bool.and_eq_false_imp, decide_eq_false_iff_not]
    exact fun hpassed => answered_once (by simp) h0 hinj0 hf hx hev.1 hev.2 hpassed
  · rw [hsessions]
    refine Machine.countP_le_one fun later ev earlier hsplit hev x hx => ?_
    simp only [Bool.and_eq_true, decide_eq_true_eq] at hev
    obtain ⟨c0, c1, k, a, h0, rfl, hf, -, -⟩ := h.event_split hsplit
    obtain ⟨d0, d1, k', a', hd0, hf', hp', hrun⟩ := h0.event_of_mem hx
    simp only [Bool.and_eq_false_imp, decide_eq_false_iff_not]
    intro _ hid
    obtain ⟨-, r, hr, rfl, hused⟩ := mem_codesSpent hf' hid
    have hd1 := Machine.Run.fired hd0 hf' hp'
    refine code_not_spent (by simp) hd1 hrun (usedUp_of_code hd1 hr) ?_ hf hev.2
    intro r' hr' hid'
    obtain rfl := Table.eq_of_clash hr' hr (by simp [Constrained.clash, hid'])
    exact hused
  · intro later ev earlier hsplit r hr hgone x hx
    obtain ⟨c0, c1, k, a, h0, rfl, hf, hp, hrun⟩ := h.event_split hsplit
    rw [hf.before] at hr
    rw [← hf.state] at hgone
    have hc1 := Machine.Run.fired h0 hf hp
    have hlater : c.history = later ++ c1.history := by rw [hsplit, hf.history]
    obtain ⟨d0, d1, k', a', hd0, hf', -, -⟩ := hrun.event_of_mem hlater hx
    have hused := (usedUp_of_code h0 hr).mono (hf.history ▸ List.suffix_cons _ _)
    exact code_not_spent (by simp) hc1 hd0 hused (fun r' hr' hid => absurd hid (hgone r' hr')) hf'
  · rw [length_flatMap_eq_countP fun ev hev => (hcounts ev hev).1,
      length_flatMap_eq_countP fun ev hev => (hcounts ev hev).2.1]
  · rw [length_flatMap_eq_countP fun ev hev => (hcounts ev hev).1,
      length_flatMap_eq_countP fun ev hev => (hcounts ev hev).2.2]

theorem mfa_login_spends_one_challenge_and_factor_answered : ∃ c : Config,
    (sample [] (some sample.crypto)).machine.Reach (Policy.fresh [.uuid, .challengeToken]) (start 0)
      c ∧
    (c.history.flatMap Event.mfaSessions).length = 1 ∧
    (c.history.flatMap Event.challengesConsumed).length = 1 ∧
    (c.history.flatMap Event.factorsSpent).length = 1 := by
  obtain ⟨c, hc, hsessions⟩ : ∃ c, (sample [] (some sample.crypto)).machine.Reach
      (Policy.fresh [.uuid, .challengeToken]) (start 0) c ∧
      (c.history.flatMap Event.mfaSessions).length = 1 :=
    Machine.replay_exists (sample.signIn ++ sample.enrol ++ sample.challenge ++ sample.answer 5)
      (by decide +kernel)
  obtain ⟨-, -, -, -, hchallenges, hfactors⟩ :=
    mfa_login_spends_one_challenge_and_factor _ _ c hc (Set.injOn_id _)
  exact ⟨c, hc, hsessions, hchallenges.symm.trans hsessions, hfactors.symm.trans hsessions⟩

end IdentityService
