import IdentityService.Defs.Outcome
import IdentityService.Defs.Statements

/-! A call that reports an error and what it has done by then. -/

namespace IdentityService

open Lib Service
open Lib.Program (Path)

def Op.mutates : Op → Bool
  | .login .. | .clean .. => false
  | op => op.writes ≠ []

def Op.readsBack : Op → Bool
  | .updateUserStatus .. | .updateUserProfile .. | .revokeOwnSessionByID ..
  | .revokeSessionByID .. => true
  | _ => false

def ReadBackFailed (acts : List Act) : Prop :=
  ∃ body n q err rest, acts = ⟨.query q, .error err⟩ :: Act.committed body n :: rest

theorem Op.commitsLast_or_readsBack {op : Op} (h : op.mutates = true) :
    op.commitsLast = true ∨ op.readsBack = true := by
  cases op <;> first | cases h; done | exact .inl rfl | exact .inr rfl

section Commits

variable {svc : Service} {op : Op} {acts : List Act} {body : Tx Nat} {n : Nat} {next : Prog Reply}
  {s s' : Store}

theorem Commit.readsBack (h : Commit svc op acts body n next) (hop : op.readsBack = true) :
    ¬HasCommit acts ∧ ∃ q k, next = .call (.query q) k ∧
      (∀ r, (k r).outcome.isSome) ∧ ∀ row, ∃ reply, k (.ok row) = .ret reply := by
  have hnone : ∀ {q : Query} {row : q.Row} {id : String} {now : Time},
      ¬HasCommit [Act.drew .uuid id, Act.clock now, Act.read q row] := by
    rintro q row id now ⟨body, n, hmem⟩
    simp at hmem
  cases h with
  | updateUserStatus | updateUserProfile | revokeOwnSessionByID | revokeSessionByID =>
    refine ⟨hnone, _, _, rfl, fun r => ?_, fun row => ⟨_, rfl⟩⟩
    cases r <;> rfl
  | _ => cases hop

theorem Commit.store_ne (h : Commit svc op acts body n next) (hop : op.readsBack = true)
    (hrun : body.run svc.lower s = .ok (n, s')) : s' ≠ s := by
  have hversion : ∀ v : Int, v + 1 ≠ v := fun v => by omega
  cases h with
  | updateUserStatus =>
    simp at hrun
    obtain ⟨t, ⟨⟨ht, -⟩, hmatch⟩, hrest⟩ := hrun
    have hne : t ≠ s.users := Table.ne_of_hits ⟨ht, by simpa using hmatch⟩
      (by simp [Constrained.clash]) fun r heq => hversion _ (congrArg (·.version) heq)
    obtain ⟨-, ⟨_, -, rfl⟩, -⟩ | ⟨-, _, -, ⟨_, -, rfl⟩, -⟩ := hrest
    · exact fun heq => hne (congrArg Store.users heq)
    · exact fun heq => hne (congrArg Store.users heq)
  | updateUserProfile =>
    simp at hrun
    obtain ⟨t, ⟨⟨ht, -⟩, hmatch⟩, ⟨_, -, rfl⟩, -⟩ := hrun
    have hne : t ≠ s.users := Table.ne_of_hits ⟨ht, by simpa using hmatch⟩
      (by simp [Constrained.clash]) fun r heq => hversion _ (congrArg (·.version) heq)
    exact fun heq => hne (congrArg Store.users heq)
  | revokeOwnSessionByID | revokeSessionByID =>
    simp at hrun
    obtain ⟨t, ⟨ht, hmatch⟩, ⟨_, -, rfl⟩, -⟩ := hrun
    have hne : t ≠ s.sessions := Table.ne_of_hits ⟨ht, by simpa [and_assoc] using hmatch⟩
      (by simp [Constrained.clash]) fun r heq => hversion _ (congrArg (·.version) heq)
    exact fun heq => hne (congrArg Store.sessions heq)
  | _ => cases hop

end Commits

section Alone

variable {svc : Service} {op : Op} {w : World} {c : Config} {later rest : List Act} {body : Tx Nat}
  {n : Nat} {p : Prog Reply}

theorem commit_of_path (h : Path (svc.program op) (later ++ Act.committed body n :: rest) p) :
    ∃ next, Commit svc op rest body n next ∧ Path next later p := by
  obtain ⟨next, hnext, hlater⟩ := h.append_inv
  refine ⟨next, ?_, hlater⟩
  cases hnext with
  | cons hcall => exact .of_path hcall n

theorem not_hasCommit_of_fail {acts : List Act} {err : AppError}
    (h : Path (svc.program op) acts (.fail err)) (hlast : op.commitsLast = true) :
    ¬HasCommit acts := by
  rintro ⟨body, n, hmem⟩
  obtain ⟨later, rest, rfl⟩ := List.append_of_mem hmem
  obtain ⟨next, hcommit, hpath⟩ := commit_of_path h
  obtain ⟨reply, rfl⟩ := hcommit.ends hlast
  cases (hpath.of_outcome rfl).2

theorem readBackFailed_of_fail {acts : List Act} {err : AppError}
    (h : Path (svc.program op) acts (.fail err)) (hback : op.readsBack = true)
    (hcommit : HasCommit acts) : ReadBackFailed acts := by
  obtain ⟨body, n, hmem⟩ := hcommit
  obtain ⟨later, rest, rfl⟩ := List.append_of_mem hmem
  obtain ⟨next, hcommit, hpath⟩ := commit_of_path h
  obtain ⟨-, q, k, rfl, hend, hok⟩ := hcommit.readsBack hback
  obtain rfl | ⟨later, x, rfl⟩ := List.eq_nil_or_concat' later
  · cases hpath
  · obtain ⟨p, hx, hlater⟩ := hpath.append_inv
    obtain ⟨r, rfl, rfl⟩ := hx.of_call
    obtain ⟨rfl, hfail⟩ := hlater.of_outcome (hend r)
    cases r with
    | ok row =>
      obtain ⟨reply, hreply⟩ := hok row
      cases hfail.trans hreply
    | error e => exact ⟨body, n, q, e, rest, rfl⟩

theorem store_of_acts (h : svc.machine.Executes op w c) :
    (¬HasCommit (c.actsOf 0) → c.state.store = w.store) ∧
    ∀ later body n rest, c.actsOf 0 = later ++ Act.committed body n :: rest → ¬HasCommit later →
      ¬HasCommit rest → body.run svc.lower w.store = .ok (n, c.state.store) := by
  refine Machine.Run.invariant (I := fun c => (¬HasCommit (c.actsOf 0) → c.state.store = w.store) ∧
    ∀ later body n rest, c.actsOf 0 = later ++ Act.committed body n :: rest → ¬HasCommit later →
      ¬HasCommit rest → body.run svc.lower w.store = .ok (n, c.state.store)) h ?_ ?_ ?_
  · refine ⟨fun _ => rfl, fun later body n rest hacts => ?_⟩
    have := congrArg List.length hacts
    simp [Config.actsOf, Config.initial] at this
  · intro d q _ ih
    exact ih
  · intro d ev d' k a hd ih hf _
    obtain ⟨hthread, -⟩ := Machine.Executes.fired hd hf
    have hacts := hf.actsOf_self
    rw [hthread] at hacts
    rw [hacts]
    by_cases hcom : ∃ body n, ev.act = Act.committed body n
    · obtain ⟨body, n, hact⟩ := hcom
      obtain ⟨next, hcommitted⟩ := committed_of_act (Machine.Executes.reach hd) hf hact
      refine ⟨fun hnone => absurd ⟨body, n, hact ▸ List.mem_cons_self⟩ hnone, ?_⟩
      intro later body' n' rest hsplit hlater hrest
      cases later with
      | nil =>
        obtain ⟨hhead, rfl⟩ := List.cons.inj hsplit
        cases hact.symm.trans hhead
        rw [← ih.1 hrest]
        exact hcommitted.run
      | cons x later =>
        obtain ⟨rfl, -⟩ := List.cons.inj hsplit
        exact absurd ⟨body, n, hact ▸ List.mem_cons_self⟩ hlater
    · have hstore := store_eq_of_not_committed hf hcom
      rw [hstore]
      refine ⟨fun hnone => ih.1 ?_, ?_⟩
      · rintro ⟨body, n, hmem⟩
        exact hnone ⟨body, n, List.mem_cons_of_mem _ hmem⟩
      intro later body n rest hsplit hlater hrest
      cases later with
      | nil => exact absurd ⟨body, n, (List.cons.inj hsplit).1⟩ hcom
      | cons x later =>
        refine ih.2 later body n rest (List.cons.inj hsplit).2 ?_ hrest
        rintro ⟨body, n, hmem⟩
        exact hlater ⟨body, n, List.mem_cons_of_mem _ hmem⟩

end Alone

/-- A call that reports an error, whichever statement failed, has left the store as it was, unless
it failed to read back the row after its commit.  Only four operations do that. -/
theorem failed_call_changes_nothing (svc : Service) (op : Op) (hop : op.mutates = true) (w : World)
    (c : Config) (h : svc.statements.Executes op w c) (err : AppError)
    (herr : c.threads[0]? = some ⟨op, .fail err⟩) :
    (c.state.store = w.store ↔ ¬ReadBackFailed (c.actsOf 0)) ∧
    (op.readsBack = false → c.state.store = w.store) := by
  have hexec := svc.executes_of_statements h
  obtain ⟨hbefore, hafter⟩ := store_of_acts hexec
  have hpath := hexec.reach.path herr
  obtain hlast | hback := Op.commitsLast_or_readsBack hop
  · have hnone := not_hasCommit_of_fail hpath hlast
    have hstore := hbefore hnone
    refine ⟨iff_of_true hstore ?_, fun _ => hstore⟩
    rintro ⟨body, n, q, e, rest, hacts⟩
    exact hnone ⟨body, n, by simp [hacts]⟩
  · refine ⟨⟨?_, fun hnot => ?_⟩, fun hno => absurd hback (by simp [hno])⟩
    · rintro hstore ⟨body, n, q, e, rest, hacts⟩
      have hacts' : c.actsOf 0 = [⟨.query q, .error e⟩] ++ Act.committed body n :: rest := hacts
      obtain ⟨next, hcommit, -⟩ := commit_of_path (hacts' ▸ hpath)
      have hrun := hafter _ body n rest hacts' (fun ⟨_, _, hmem⟩ => by simp at hmem)
        (hcommit.readsBack hback).1
      exact hcommit.store_ne hback hrun hstore
    · exact hbefore fun hcommit => hnot (readBackFailed_of_fail hpath hback hcommit)

namespace sample

def signedIn : World :=
  (((sample [] none).machine.replay .any signIn (.initial (start 0))).map (·.state)).getD (start 0)

def suspend : Op := .updateUserStatus admin "u1" "disabled" "left" 1

def unreadUpdate : List (Choice Op StatementAnswer) :=
  [.step 0 (.other (.row 0)), .step 0 (.other (.time 50)), .step 0 (.other (.value "e2")),
    .step 0 (.transaction ⟨false, fun _ => false, false⟩), .step 0 (.other .fault)]

def signOff : Op := .logout bob "s1" ""

def unpublished : List (Choice Op StatementAnswer) :=
  [.step 0 (.other (.time 50)), .step 0 (.other (.row 0)), .step 0 (.other (.value "e2")),
    .step 0 (.transaction ⟨false, fun i => i = 1, false⟩)]

end sample

def Config.failed (c : Config) : Bool :=
  c.threads.all (fun th => match th.rest with | .fail _ => true | _ => false)

theorem failed_thread {svc : Service} {op : Op} {w : World} {c : Config}
    (h : svc.statements.Executes op w c) (hfailed : Config.failed c = true) :
    ∃ err, c.threads[0]? = some ⟨op, .fail err⟩ := by
  obtain ⟨p, hp⟩ := h.threads
  simp only [Config.failed, hp, List.all_cons, List.all_nil, Bool.and_true] at hfailed
  cases p with
  | fail err => exact ⟨err, by rw [hp]; rfl⟩
  | ret reply => cases hfailed
  | call e k => cases hfailed

theorem failed_status_update_committed : ∃ (c : Config) (err : AppError),
    (sample [] none).statements.Executes sample.suspend sample.signedIn c ∧
    c.threads[0]? = some ⟨sample.suspend, .fail err⟩ ∧
    sample.signedIn.store.users.rows.map User.status = [.active] ∧
    c.state.store.users.rows.map User.status = [.disabled] ∧
    c.state.store ≠ sample.signedIn.store := by
  obtain ⟨c, hc, hfailed, hstatus⟩ : ∃ c : Config,
      (sample [] none).statements.Executes sample.suspend sample.signedIn c ∧
      Config.failed c = true ∧ c.state.store.users.rows.map User.status = [.disabled] :=
    Machine.replay_exists sample.unreadUpdate (by decide +kernel)
  obtain ⟨err, herr⟩ := failed_thread hc hfailed
  have hactive : sample.signedIn.store.users.rows.map User.status = [.active] := by decide +kernel
  refine ⟨c, err, hc, herr, hactive, hstatus, fun hstore => ?_⟩
  rw [hstore, hactive] at hstatus
  cases hstatus

theorem failed_call_changes_nothing_unpublished : ∃ (c : Config) (err : AppError),
    (sample [] none).statements.Executes sample.signOff sample.signedIn c ∧
    c.threads[0]? = some ⟨sample.signOff, .fail err⟩ ∧ c.history.length = 4 ∧
    c.state.store = sample.signedIn.store := by
  obtain ⟨c, hc, hfailed, hlength⟩ : ∃ c : Config,
      (sample [] none).statements.Executes sample.signOff sample.signedIn c ∧
      Config.failed c = true ∧ c.history.length = 4 :=
    Machine.replay_exists sample.unpublished (by decide +kernel)
  obtain ⟨err, herr⟩ := failed_thread hc hfailed
  exact ⟨c, err, hc, herr, hlength,
    (failed_call_changes_nothing _ sample.signOff rfl _ c hc err herr).2 rfl⟩

end IdentityService
