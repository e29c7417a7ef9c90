import IdentityService.Defs.ReadCommittedLaws
import IdentityService.Defs.System

/-! How many password-reset tokens of a user are outstanding, statement by statement. -/

namespace IdentityService

open Lib
open Lib.Program (Path)

def Store.outstanding (s : Store) (userID : String) : List PasswordResetChallenge :=
  s.passwordResetChallenges.rows.filter (fun r => r.userID = userID && r.consumedAt = none)

def Op.issuesFor : Op → Option String
  | .issuePasswordReset _ userID _ => some (Go.trimSpace userID)
  | _ => none

def Stmt.Consumes : Stmt → Prop
  | .passwordResetChallenges (.insert _) => False
  | .passwordResetChallenges (.update u) => ∀ r, (u.assign r).consumedAt ≠ none
  | _ => True

theorem Stmt.consumes_of_table {q : Stmt} (h : q.table ≠ .passwordResetChallenges) :
    q.Consumes := by
  cases q with
  | passwordResetChallenges q => exact absurd rfl h
  | _ => trivial

theorem Stmt.Consumes.pin {q : Stmt} (h : q.Consumes) (locks : List Lock) :
    (q.pin locks).Consumes := by
  cases q with
  | passwordResetChallenges q =>
    cases q with
    | insert r => exact h
    | update u => exact h
    | delete P => trivial
  | _ => trivial

open Tx.Every in
theorem Commit.consumes {svc : Service} {op : Op} {acts : List Act} {body : Tx Nat} {n : Nat}
    {next : Prog Reply} (h : Commit svc op acts body n next) (hop : op.issuesFor = none) :
    body.Every Stmt.Consumes := by
  have hevery := h.every
  cases h with
  | issuePasswordReset => cases hop
  | confirmPasswordReset =>
    refine (guarded ?_).bind fun _ => (guarded trivial).bind fun _ => (exec trivial).bind fun _ =>
      (plain trivial).bind fun _ => .ret _
    exact fun r => nofun
  | cleanSessions | cleanMFAChallenges | cleanPasswordResetChallenges => exact exec trivial
  | _ =>
    refine hevery.mono fun q hq => Stmt.consumes_of_table fun htable => ?_
    have hwrites := htable ▸ hq.1
    simp [Op.writes] at hwrites

section Effects

variable {lower : String → String} {s s' : Store} {q : Stmt} {n : Nat}

theorem Stmt.Consumes.unconsumed (hq : q.Consumes) (h : s.exec lower q = some (n, s'))
    {r : PasswordResetChallenge} (hr : r ∈ s'.passwordResetChallenges.rows)
    (hopen : r.consumedAt = none) : r ∈ s.passwordResetChallenges.rows := by
  cases q with
  | passwordResetChallenges q =>
    obtain ⟨t, ht, rfl⟩ := Store.exec_passwordResetChallenges.1 h
    cases q with
    | insert r => exact hq.elim
    | update u =>
      have hr : r ∈ t.rows := hr
      rw [(Table.run_update.1 ht).2, Update.mem_map_apply] at hr
      obtain ⟨hr, -⟩ | ⟨old, -, -, rfl⟩ := hr
      · exact hr
      · exact absurd hopen (hq old)
    | delete P =>
      have hr : r ∈ t.rows := hr
      rw [(Table.run_delete.1 ht).2] at hr
      exact (List.mem_filter.1 hr).1
  | _ =>
    rw [(Frame.of_exec (List.mem_singleton_self _) h).passwordResetChallenges
      (by simp [Stmt.table])] at hr
    exact hr

theorem unconsumed_of_replay {writes : List Stmt} (hwrites : ∀ q ∈ writes, q.Consumes)
    (h : (Store.engine lower).replay writes s = some s') {r : PasswordResetChallenge}
    (hr : r ∈ s'.passwordResetChallenges.rows) (hopen : r.consumedAt = none) :
    r ∈ s.passwordResetChallenges.rows := by
  induction writes generalizing s with
  | nil =>
    cases h
    exact hr
  | cons q writes ih =>
    obtain ⟨⟨n, s1⟩, h1, h2⟩ := Option.bind_eq_some_iff.1 h
    exact (hwrites q List.mem_cons_self).unconsumed h1
      (ih (fun q hq => hwrites q (List.mem_cons_of_mem _ hq)) h2) hopen

theorem unconsumed_of_issue {u : Update PasswordResetChallenge} {challenge : PasswordResetChallenge}
    (hu : ∀ r, (u.assign r).consumedAt ≠ none)
    (h : (Store.engine lower).replay [.passwordResetChallenges (.update u),
      .passwordResetChallenges (.insert challenge)] s = some s')
    {r : PasswordResetChallenge} (hr : r ∈ s'.passwordResetChallenges.rows)
    (hopen : r.consumedAt = none) :
    r = challenge ∨ r ∈ s.passwordResetChallenges.rows ∧ u.guard r = false := by
  obtain ⟨⟨n, s1⟩, h1, h⟩ := Option.bind_eq_some_iff.1 h
  obtain ⟨⟨m, s2⟩, h2, h⟩ := Option.bind_eq_some_iff.1 h
  cases h
  change s.exec lower (.passwordResetChallenges (.update u)) = some (n, s1) at h1
  change s1.exec lower (.passwordResetChallenges (.insert challenge)) = some (m, s2) at h2
  obtain ⟨t, ht, rfl⟩ := Store.exec_passwordResetChallenges.1 h1
  obtain ⟨t', ht', rfl⟩ := Store.exec_passwordResetChallenges.1 h2
  have hr : r ∈ t'.rows := hr
  rw [(Table.run_insert.1 ht').2, List.mem_append, List.mem_singleton] at hr
  obtain hr | rfl := hr
  · have hr : r ∈ t.rows := hr
    rw [(Table.run_update.1 ht).2, Update.mem_map_apply] at hr
    obtain ⟨hr, hg⟩ | ⟨old, -, -, rfl⟩ := hr
    · exact .inr ⟨hr, hg⟩
    · exact absurd hopen (hu old)
  · exact .inl rfl

end Effects

section Issue

variable {userID actor : String} {now : Time} {challenge : PasswordResetChallenge}

theorem issue_progress {writes : List Stmt} {b : Tx Nat}
    (h : Tx.Progress (do
      Repository.invalidatePasswordResetChallenges userID actor now
      Repository.insertPasswordResetChallenge challenge
      return 0) writes b) :
    (writes = [] ∧ b = (do
        Repository.invalidatePasswordResetChallenges userID actor now
        Repository.insertPasswordResetChallenge challenge
        return 0)) ∨
      (∃ locks, writes = [Stmt.pin locks (.passwordResetChallenges
          (.update (Repository.invalidateUpdate userID actor now)))] ∧ b = (do
        Repository.insertPasswordResetChallenge challenge
        return 0)) ∨
      (∃ locks, writes = [Stmt.pin locks (.passwordResetChallenges
          (.update (Repository.invalidateUpdate userID actor now))),
        .passwordResetChallenges (.insert { challenge with consumedAt := none })] ∧ b = .ret 0) ∨
      ∃ e, b = .fail e := by
  induction h with
  | start => exact .inl ⟨rfl, rfl⟩
  | executed locks n _ ih =>
    obtain ⟨rfl, hb⟩ | ⟨locks', rfl, hb⟩ | ⟨locks', rfl, hb⟩ | ⟨e, hb⟩ := ih
    · cases hb
      exact .inr (.inl ⟨locks, rfl, rfl⟩)
    · cases hb
      exact .inr (.inr (.inl ⟨locks', rfl, rfl⟩))
    · cases hb
    · cases hb
  | refused _ ih =>
    obtain ⟨rfl, hb⟩ | ⟨locks', rfl, hb⟩ | ⟨locks', rfl, hb⟩ | ⟨e, hb⟩ := ih
    · cases hb
      exact .inr (.inr (.inr ⟨_, rfl⟩))
    · cases hb
      exact .inr (.inr (.inr ⟨_, rfl⟩))
    · cases hb
    · cases hb
  | failed => exact .inr (.inr (.inr ⟨_, rfl⟩))

end Issue

theorem mem_outstanding {s : Store} {userID : String} {r : PasswordResetChallenge} :
    r ∈ s.outstanding userID ↔
      r ∈ s.passwordResetChallenges.rows ∧ r.userID = userID ∧ r.consumedAt = none := by
  simp [Store.outstanding]

theorem mem_found {s : Store} {u : Update PasswordResetChallenge} {r : PasswordResetChallenge}
    (hr : r ∈ s.passwordResetChallenges.rows) (hg : u.guard r = true) :
    (.passwordResetChallenges, r.tokenHash) ∈
      Stmt.found s (.passwordResetChallenges (.update u)) :=
  List.mem_map_of_mem (List.mem_map_of_mem (List.mem_filter.2 ⟨hr, hg⟩))

inductive Covers (userID : String) (s : Store) (t : Transaction Store Stmt Lock) : Prop
  | fresh : t.writes = [] →
      (∀ r ∈ s.outstanding userID, r ∈ t.snapshot.passwordResetChallenges.rows) →
      Covers userID s t
  | invalidates (u : Update PasswordResetChallenge) (rest : List Stmt) :
      t.writes = .passwordResetChallenges (.update u) :: rest →
      (∀ r ∈ s.outstanding userID, u.guard r = true) → Covers userID s t

theorem Covers.mono {userID : String} {s s' : Store} {t : Transaction Store Stmt Lock}
    (h : Covers userID s t) (hsub : ∀ r ∈ s'.outstanding userID, r ∈ s.outstanding userID) :
    Covers userID s' t := by
  cases h with
  | fresh hwrites hsnap => exact .fresh hwrites fun r hr => hsnap r (hsub r hr)
  | invalidates u rest hwrites hguard =>
    exact .invalidates u rest hwrites fun r hr => hguard r (hsub r hr)

section Moves

variable {svc : Service} {op : Op} {db db' : Db} {act : Program.Act Call Call.Res}
  {rest rest' : CallProg} {userID : String}

theorem Move.unconsumed (h : Move svc op db act rest rest' db') :
    (∀ r ∈ db'.committed.passwordResetChallenges.rows, r.consumedAt = none →
      r ∈ db.committed.passwordResetChallenges.rows) ∨
    ∃ (tx : Nat) (t : Transaction Store Stmt Lock) (u : Update PasswordResetChallenge)
        (challenge : PasswordResetChallenge), op.issuesFor = some challenge.userID ∧
      rest.transaction = some tx ∧ db.transactions[tx]? = some (some t) ∧
      t.writes = [.passwordResetChallenges (.update u),
        .passwordResetChallenges (.insert challenge)] ∧
      ∀ r ∈ db'.committed.passwordResetChallenges.rows, r.consumedAt = none →
        r = challenge ∨ r ∈ db.committed.passwordResetChallenges.rows ∧ u.guard r = false := by
  cases h with
  | @committed acts body k tx t n act s hpath ht hprog hs =>
    obtain ⟨next, hcommit⟩ : ∃ next, Commit svc op acts body n next := ⟨_, .of_path hpath n⟩
    cases hop : op.issuesFor with
    | none =>
      obtain ⟨hwrites, -⟩ := (hcommit.consumes hop).progress (fun q locks hq => hq.pin locks) hprog
      exact .inl fun r hr hopen => unconsumed_of_replay hwrites hs hr hopen
    | some user =>
      cases hcommit with
      | issuePasswordReset hchallenge =>
        cases hop
        obtain ⟨-, hb⟩ | ⟨locks, -, hb⟩ | ⟨locks, hwrites, -⟩ | ⟨e, hb⟩ := issue_progress hprog
        · cases hb
        · cases hb
        · refine .inr ⟨tx, t, _, _, ?_, transaction_txSteps _ _ _, ht, hwrites, ?_⟩
          · exact congrArg some hchallenge.2.symm
          · rw [hwrites] at hs
            refine fun r hr hopen => unconsumed_of_issue ?_ hs hr hopen
            exact fun _ => nofun
        · cases hb
      | _ => cases hop
  | _ => exact .inl fun r hr _ => hr

theorem Move.covers (h : Move svc op db act rest rest' db') (hop : op.issuesFor = some userID)
    (hcovers : ∀ tx t, rest.transaction = some tx → db.transactions[tx]? = some (some t) →
      Covers userID db.committed t) {tx : Nat} {t : Transaction Store Stmt Lock}
    (htx : rest'.transaction = some tx) (ht : db'.transactions[tx]? = some (some t)) :
    Covers userID db'.committed t := by
  cases h with
  | plain | committed | rolledBack => simp at htx
  | begun =>
    simp only [transaction_txSteps, Option.some.injEq] at htx
    subst htx
    simp only [Database.begin, List.getElem?_concat_length, Option.some.injEq] at ht
    subst ht
    exact .fresh rfl fun r hr => (mem_outstanding.1 hr).1
  | refused | failed =>
    exact hcovers tx t (by simpa using htx) ht
  | snapped _ ht0 =>
    obtain rfl := Option.some.inj htx
    cases (put_self ht0).symm.trans ht
    cases hcovers _ _ rfl ht0 with
    | fresh hwrites => exact .fresh hwrites fun r hr => (mem_outstanding.1 hr).1
    | invalidates u rest hwrites hguard => exact .invalidates u rest hwrites hguard
  | @executed acts body k tx0 t0 q b act seen now locks n hpath ht0 hprog hseen hnow hlocks =>
    simp only [transaction_txSteps, Option.some.injEq] at htx
    subst htx
    cases (put_self ht0).symm.trans ht
    obtain ⟨next, hcommit⟩ : ∃ next, Commit svc op acts body n next := ⟨_, .of_path hpath n⟩
    cases hcommit with
    | issuePasswordReset hchallenge =>
      cases hop
      obtain ⟨hwrites, hb⟩ | ⟨locks0, hwrites, hb⟩ | ⟨locks0, -, hb⟩ | ⟨e, hb⟩ :=
        issue_progress hprog
      · cases hb
        rw [hwrites] at hseen hnow
        cases hseen
        cases hnow
        cases hcovers _ _ rfl ht0 with
        | fresh _ hsnap =>
          refine .invalidates _ [] (by rw [hwrites]; rfl) fun r hr => ?_
          obtain ⟨hmem, hrow⟩ := mem_outstanding.1 hr
          have hlock : (TableName.passwordResetChallenges, r.tokenHash) ∈ locks := by
            rw [hlocks, List.mem_filter, List.contains_iff_mem]
            exact ⟨mem_found (hsnap r hr) (Repository.invalidateUpdate_guard.2 hrow),
              mem_found hmem (Repository.invalidateUpdate_guard.2 hrow)⟩
          exact decide_eq_true (List.mem_map_of_mem hlock)
        | invalidates u rest hwrites' => cases hwrites.symm.trans hwrites'
      · cases hcovers _ _ rfl ht0 with
        | fresh hwrites' => cases hwrites.symm.trans hwrites'
        | invalidates u rest hwrites' hguard =>
          exact .invalidates u (rest ++ [_]) (by rw [hwrites']; rfl) hguard
      · cases hb
      · cases hb
    | _ => cases hop

end Moves

def Event.begins (ev : CallEvent) : Bool :=
  match ev.act with
  | ⟨.begin, some _⟩ => true
  | _ => false

/-- The transactions of `IssuePasswordReset` for one user do not overlap: none begins while
another is open. -/
def Policy.issuesApart : CallPolicy :=
  .onEvents fun c ev => Event.begins ev = true → (Op.issuesFor ev.request).isSome →
    ∀ th ∈ c.threads, Op.issuesFor th.request = Op.issuesFor ev.request →
      CallProg.transaction th.rest = none

instance (c : CallConfig) (op : Op) : Decidable (Policy.issuesApart.start c op) := .isTrue trivial

instance (c : CallConfig) (ev : CallEvent) : Decidable (Policy.issuesApart.event c ev) :=
  inferInstanceAs (Decidable (_ → _ → ∀ th ∈ c.threads, _))

structure Orderly (c : CallConfig) : Prop where
  single : ∀ r ∈ c.state.database.committed.passwordResetChallenges.rows,
    ∀ r' ∈ c.state.database.committed.passwordResetChallenges.rows,
      r.consumedAt = none → r'.consumedAt = none → r.userID = r'.userID → r = r'
  alone : ∀ (i j : Nat) (th th' : CallThread) (userID : String) (tx tx' : Nat),
    c.threads[i]? = some th → c.threads[j]? = some th' →
    Op.issuesFor th.request = some userID → Op.issuesFor th'.request = some userID →
    CallProg.transaction th.rest = some tx → CallProg.transaction th'.rest = some tx' → i = j
  covers : ∀ (i : Nat) (th : CallThread) (userID : String) (tx : Nat)
    (t : Transaction Store Stmt Lock), c.threads[i]? = some th →
    Op.issuesFor th.request = some userID → CallProg.transaction th.rest = some tx →
    c.state.database.transactions[tx]? = some (some t) →
    Covers userID c.state.database.committed t

section Steps

variable {svc : Service} {w : Node} {c d : CallConfig} {ev : CallEvent}
  {k : ev.call.Res → CallProg} {a : Answer}

theorem Orderly.single_of_step (h : Orderly c) (hp : Placed svc c)
    (hf : svc.readCommitted.Fired c ev d k a) :
    ∀ r ∈ d.state.database.committed.passwordResetChallenges.rows,
    ∀ r' ∈ d.state.database.committed.passwordResetChallenges.rows,
      r.consumedAt = none → r'.consumedAt = none → r.userID = r'.userID → r = r' := by
  intro r hr r' hr' hopen hopen' huser
  obtain hold | ⟨tx, t, u, challenge, hop, htx, ht, hwrites, hnew⟩ := (hp.move hf).unconsumed
  · exact h.single r (hold r hr hopen) r' (hold r' hr' hopen') hopen hopen' huser
  · -- Whatever the user had outstanding has been consumed by the same commit.
    have hgone : ∀ x ∈ c.state.database.committed.passwordResetChallenges.rows,
        x.consumedAt = none → x.userID = challenge.userID → u.guard x = true := by
      intro x hx hx' hxuser
      cases h.covers _ _ _ _ _ hf.thread hop htx ht with
      | fresh hnil => cases hnil.symm.trans hwrites
      | invalidates u' rest hwrites' hguard =>
        cases hwrites.symm.trans hwrites'
        exact hguard x (mem_outstanding.2 ⟨hx, hxuser, hx'⟩)
    obtain rfl | ⟨hrold, hg⟩ := hnew r hr hopen <;>
      obtain rfl | ⟨hrold', hg'⟩ := hnew r' hr' hopen'
    · rfl
    · rw [hgone r' hrold' hopen' huser.symm] at hg'
      cases hg'
    · rw [hgone r hrold hopen huser] at hg
      cases hg
    · exact h.single r hrold r' hrold' hopen hopen' huser

theorem Orderly.alone_of_step (h : Orderly c) (hp : Placed svc c)
    (hf : svc.readCommitted.Fired c ev d k a) (hpolicy : Policy.issuesApart.event c ev)
    {i j : Nat} {th th' : CallThread} {userID : String} {tx tx' : Nat}
    (hi : d.threads[i]? = some th) (hj : d.threads[j]? = some th')
    (hop : Op.issuesFor th.request = some userID) (hop' : Op.issuesFor th'.request = some userID)
    (htx : CallProg.transaction th.rest = some tx)
    (htx' : CallProg.transaction th'.rest = some tx') : i = j := by
  -- The call that makes the step was in its transaction before, or enters it alone.
  have hother : ∀ {l : Nat} {x : CallThread} {y y' : Nat}, l ≠ ev.thread →
      c.threads[l]? = some x → Op.issuesFor x.request = some userID →
      Op.issuesFor ev.request = some userID → CallProg.transaction x.rest = some y →
      CallProg.transaction (k ev.answer) = some y' → False := by
    intro l x y y' hl hx hxop hevop hy hy'
    obtain hold | ⟨-, hact, -⟩ := (hp.move hf).entered hy'
    · exact hl (h.alone _ _ _ _ _ _ _ hx hf.thread hxop hevop hy hold)
    · have hbegins : Event.begins ev = true := by simp [Event.begins, hact]
      have hnone := hpolicy hbegins (by rw [hevop]; rfl) x (List.mem_of_getElem? hx)
        (hxop.trans hevop.symm)
      cases hnone.symm.trans hy
  obtain ⟨rfl, rfl⟩ | ⟨hi', hi⟩ := hf.thread_cases hi <;>
    obtain ⟨rfl, rfl⟩ | ⟨hj', hj⟩ := hf.thread_cases hj
  · rfl
  · exact (hother hj' hj hop' hop htx' htx).elim
  · exact (hother hi' hi hop hop' htx htx').elim
  · exact h.alone i j th th' userID tx tx' hi hj hop hop' htx htx'

theorem Orderly.covers_of_step (h : Orderly c) (hp : Placed svc c)
    (hf : svc.readCommitted.Fired c ev d k a) {i : Nat} {th : CallThread} {userID : String}
    {tx : Nat} {t : Transaction Store Stmt Lock} (hth : d.threads[i]? = some th)
    (hop : Op.issuesFor th.request = some userID) (htx : CallProg.transaction th.rest = some tx)
    (ht : d.state.database.transactions[tx]? = some (some t)) :
    Covers userID d.state.database.committed t := by
  have hmove := hp.move hf
  obtain ⟨rfl, rfl⟩ | ⟨hi, hth⟩ := hf.thread_cases hth
  · exact hmove.covers hop (fun tx t htx ht => h.covers _ _ _ _ _ hf.thread hop htx ht) htx ht
  · -- Another call's step leaves the transaction alone and adds no token of this user.
    obtain ⟨t0, ht0⟩ := (hp.position i th hth).open htx
    have hne : CallProg.transaction (.call ev.call k) ≠ some tx :=
      fun htx' => hi (hp.distinct _ _ _ _ _ hth hf.thread htx htx')
    cases (hmove.transactions hne ht0).symm.trans ht
    refine (h.covers i th userID tx t hth hop htx ht0).mono fun r hr => ?_
    obtain ⟨hr, hruser, hopen⟩ := mem_outstanding.1 hr
    obtain hold | ⟨tx', t', u, challenge, hop', htx', -, -, hnew⟩ := hmove.unconsumed
    · exact mem_outstanding.2 ⟨hold r hr hopen, hruser, hopen⟩
    · obtain rfl | ⟨hrold, -⟩ := hnew r hr hopen
      · rw [hruser] at hop'
        exact absurd (h.alone _ _ _ _ _ _ _ hth hf.thread hop hop' htx htx') hi
      · exact mem_outstanding.2 ⟨hrold, hruser, hopen⟩

theorem orderly {clock : Time}
    (h : svc.readCommitted.Reach Policy.issuesApart ⟨.initial .empty, clock⟩ c) : Orderly c := by
  refine Machine.Run.invariant (I := Orderly) h ⟨?_, ?_, ?_⟩ ?_ ?_
  · intro r hr
    cases hr
  · intro i j th th' userID tx tx' hth
    cases hth
  · intro i th userID tx t hth
    cases hth
  · intro d q _ ih
    refine ⟨ih.single, ?_, ?_⟩
    · intro i j th th' userID tx tx' hi hj hop hop' htx htx'
      obtain hi | ⟨-, rfl⟩ := Machine.begin_thread hi
      · obtain hj | ⟨-, rfl⟩ := Machine.begin_thread hj
        · exact ih.alone i j th th' userID tx tx' hi hj hop hop' htx htx'
        · cases (transaction_steps _).symm.trans htx'
      · cases (transaction_steps _).symm.trans htx
    · intro i th userID tx t hth hop htx ht
      obtain hth | ⟨-, rfl⟩ := Machine.begin_thread hth
      · exact ih.covers i th userID tx t hth hop htx ht
      · cases (transaction_steps _).symm.trans htx
  · intro d ev d' k a hd ih hf hpolicy
    have hp := placed hd
    exact ⟨ih.single_of_step hp hf,
      fun _ _ _ _ _ _ _ hi hj hop hop' htx htx' =>
        ih.alone_of_step hp hf hpolicy hi hj hop hop' htx htx',
      fun _ _ _ _ _ hth hop htx ht => ih.covers_of_step hp hf hth hop htx ht⟩

end Steps

/-- As long as the transactions that issue tokens for a user do not overlap, at most one
committed token of the user is outstanding. -/
theorem one_token_outstanding (svc : Service) (clock : Time) (c : CallConfig)
    (h : svc.readCommitted.Reach Policy.issuesApart ⟨.initial .empty, clock⟩ c) (userID : String) :
    (c.state.database.committed.outstanding userID).length ≤ 1 := by
  refine Table.length_filter_le_one fun r hr r' hr' hopen hopen' => ?_
  simp only [Bool.and_eq_true, decide_eq_true_eq] at hopen hopen'
  exact (orderly h).single r hr r' hr' hopen.2 hopen'.2 (hopen.1.trans hopen'.1.symm)

namespace sample

def resetAsked : List (Choice Op Answer) :=
  [.start (.register admin "bob" "Bob" "bob@example" "" "correct horse"),
    .step 0 (.value "salt"), .step 0 (.time 10), .step 0 (.value "u1"), .step 0 (.value "c1"),
    .step 0 (.value "e1"), .step 0 .done, .step 0 .done, .step 0 .done, .step 0 .done,
    .step 0 .done, .step 0 .done, .step 0 .done, .step 0 .done,
    .start (.issuePasswordReset admin "u1" "lost"), .start (.issuePasswordReset admin "u1" "lost"),
    .step 1 (.row 0), .step 1 (.value "t1"), .step 1 (.time 20),
    .step 2 (.row 0), .step 2 (.value "t2"), .step 2 (.time 21)]

def issuedTogether : List (Choice Op Answer) :=
  resetAsked ++
    [.step 1 .done, .step 2 .done, .step 1 .done, .step 1 .done, .step 2 .done, .step 2 .done,
      .step 1 .done, .step 1 .done, .step 1 .done, .step 2 .done, .step 2 .done, .step 2 .done]

def issuedInTurn : List (Choice Op Answer) :=
  resetAsked ++
    [.step 1 .done, .step 1 .done, .step 1 .done, .step 1 .done, .step 1 .done, .step 1 .done,
      .step 2 .done, .step 2 .done, .step 2 .done, .step 2 .done, .step 2 .done, .step 2 .done]

end sample

theorem two_tokens_outstanding : ∃ c : CallConfig,
    (sample [] none).readCommitted.Reach .any ⟨.initial .empty, 0⟩ c ∧
    (c.state.database.committed.outstanding "u1").map PasswordResetChallenge.tokenHash =
      ["t1", "t2"] :=
  Machine.replay_exists sample.issuedTogether (by decide +kernel)

theorem one_token_outstanding_in_turn : ∃ c : CallConfig,
    (sample [] none).readCommitted.Reach Policy.issuesApart ⟨.initial .empty, 0⟩ c ∧
    c.state.database.committed.passwordResetChallenges.rows.map
      PasswordResetChallenge.tokenHash = ["t1", "t2"] ∧
    (c.state.database.committed.outstanding "u1").length ≤ 1 := by
  obtain ⟨c, hc, hrows⟩ : ∃ c : CallConfig,
      (sample [] none).readCommitted.Reach Policy.issuesApart ⟨.initial .empty, 0⟩ c ∧
      c.state.database.committed.passwordResetChallenges.rows.map
        PasswordResetChallenge.tokenHash = ["t1", "t2"] :=
    Machine.replay_exists sample.issuedInTurn (by decide +kernel)
  exact ⟨c, hc, hrows, one_token_outstanding _ 0 c hc "u1"⟩

end IdentityService
