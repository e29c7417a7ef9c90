import IdentityService.Users.Change

/-! The failure counter of a user and the lock. -/

namespace IdentityService

open Lib Service

inductive CounterStep : Type
  | failed
  | cleared
deriving DecidableEq, Repr

structure Attempt where
  user : User
  credential : Credential
  now : Time

def attempt : List Act → Option Attempt
  | [⟨.now, now⟩, ⟨.query (.passwordCredential _), .ok credential⟩,
      ⟨.query (.userByLogin _), .ok user⟩] => some ⟨user, credential, now⟩
  | _ => none

/-- The step that a login takes with its first transaction. A `ResetFailedLogin` counts only if it
matches the row of the user. -/
def Attempt.counterStep (svc : Service) (userID password : String) (rows : List User)
    (x : Attempt) : Option CounterStep :=
  if x.user.id ≠ userID then none
  else if svc.verified password x.credential.secretHash then
    if rows.any (Repository.resetLoginUpdate userID x.now).guard then some .cleared else none
  else some .failed

def Op.counterStep (svc : Service) (userID : String) (op : Op) (acts : List Act)
    (outcome : Option (Except AppError Reply)) (rows : List User) : Option CounterStep :=
  match op, outcome with
  | .register .., some (.ok (.user user)) => if user.id = userID then some .cleared else none
  | .login _ password _, _ => (attempt acts).bind (Attempt.counterStep svc userID password rows)
  | .updateUserStatus _ id .., _ => if id = userID then some .cleared else none
  | _, _ => none

def Event.counterStep (svc : Service) (userID : String) (earlier : List Event) (ev : Event) :
    Option CounterStep :=
  match ev.act with
  | ⟨.within _, .ok _⟩ => ev.request.counterStep svc userID (threadActs earlier ev.thread)
      ev.outcome ev.before.store.users.rows
  | _ => none

def failuresSinceReset (svc : Service) (userID : String) : List Event → Nat
  | [] => 0
  | ev :: earlier =>
    match Event.counterStep svc userID earlier ev with
    | some .failed => failuresSinceReset svc userID earlier + 1
    | some .cleared => 0
    | none => failuresSinceReset svc userID earlier

inductive Counted (step : Option CounterStep) (acts : List Act) (rows : List User) (u' : User) :
    Prop
  | keep (u : User) (hstep : step = none) (hu : u ∈ rows) (hid : u'.id = u.id)
      (hcount : u'.failedLoginCount = u.failedLoginCount) (hlock : u'.lockedUntil = u.lockedUntil)
  | failed (u : User) (x : Attempt) (hstep : step = some .failed) (hattempt : attempt acts = some x)
      (hu : u ∈ rows) (hid : u'.id = u.id) (hcount : u'.failedLoginCount = u.failedLoginCount + 1)
      (hlock : u'.lockedUntil = if u.failedLoginCount + 1 ≥ loginFailureThreshold then
        some (x.now + loginLockDuration) else u.lockedUntil)
  | cleared (hstep : step = some .cleared) (hcount : u'.failedLoginCount = 0)
      (hlock : u'.lockedUntil = none)

section Commits

variable {svc : Service} {op : Op} {acts : List Act} {body : Tx Nat} {n : Nat}
  {next : Prog Reply} {s s' : Store} {rows : List User} {u' : User}

theorem Counted.of_status {id actor : String} {status : Status} {version : Int} {now : Time}
    (h : (Repository.statusUpdate id status actor version now).Hits s.users.rows rows)
    (hu' : u' ∈ rows) :
    Counted (if id = u'.id then some .cleared else none) acts s.users.rows u' := by
  rw [h.map, Update.mem_map_apply] at hu'
  obtain ⟨hu, hg⟩ | ⟨u, hu, hg, rfl⟩ := hu'
  · -- The row that the update did find is another one.
    obtain ⟨r, hr, hgr⟩ := h.found
    refine .keep u' (if_neg ?_) hu rfl rfl rfl
    rintro rfl
    rw [user_eq_of_id hr hu (Repository.statusUpdate_guard.1 hgr).1, hg] at hgr
    cases hgr
  · exact .cleared (if_pos (Repository.statusUpdate_guard.1 hg).1.symm) rfl rfl

theorem Counted.of_failed {id password : String} {x : Attempt} (hattempt : attempt acts = some x)
    (hid : x.user.id = id)
    (hpassword : svc.verified password x.credential.secretHash = false)
    (hu' : u' ∈ rows.map (Repository.failedLoginUpdate id loginFailureThreshold
      (x.now + loginLockDuration) x.now).apply) :
    Counted (x.counterStep svc u'.id password rows) acts rows u' := by
  rw [Update.mem_map_apply] at hu'
  obtain ⟨hu, hg⟩ | ⟨u, hu, hg, rfl⟩ := hu'
  · have hne : x.user.id ≠ u'.id := by
      rintro heq
      rw [Repository.failedLoginUpdate_guard.2 (heq.symm.trans hid)] at hg
      cases hg
    exact .keep u' (if_pos hne) hu rfl rfl rfl
  · have heq : x.user.id = u.id := hid.trans (Repository.failedLoginUpdate_guard.1 hg).symm
    exact .failed u x (by simp [Attempt.counterStep, heq, hpassword]) hattempt hu rfl rfl rfl

theorem Counted.of_reset {id password : String} {x : Attempt} (hid : x.user.id = id)
    (hpassword : svc.verified password x.credential.secretHash = true)
    (hu' : u' ∈ s.users.rows.map (Repository.resetLoginUpdate id x.now).apply) :
    Counted (x.counterStep svc u'.id password s.users.rows) acts s.users.rows u' := by
  rw [Update.mem_map_apply] at hu'
  obtain ⟨hu, hg⟩ | ⟨u, hu, hg, rfl⟩ := hu'
  · refine .keep u' ?_ hu rfl rfl rfl
    by_cases heq : x.user.id = u'.id
    · obtain rfl := hid
      have hnone : s.users.rows.any (Repository.resetLoginUpdate u'.id x.now).guard = false := by
        rw [List.any_eq_false]
        intro r hr hgr
        rw [user_eq_of_id hr hu (Repository.resetLoginUpdate_guard.1 hgr).1, ← heq, hg] at hgr
        cases hgr
      simp [Attempt.counterStep, heq, hpassword, hnone]
    · exact if_pos heq
  · have heq : x.user.id = u.id := hid.trans (Repository.resetLoginUpdate_guard.1 hg).1.symm
    have hsome : s.users.rows.any (Repository.resetLoginUpdate u.id x.now).guard = true :=
      List.any_eq_true.2 ⟨u, hu, by rwa [← heq, hid]⟩
    exact .cleared (by simp [Attempt.counterStep, heq, hpassword, hsome]) rfl rfl

theorem Counted.of_profile {x : Update User}
    (hx : ∀ u, (x.assign u).id = u.id ∧ (x.assign u).failedLoginCount = u.failedLoginCount ∧
      (x.assign u).lockedUntil = u.lockedUntil)
    (hu' : u' ∈ rows.map x.apply) : Counted none acts rows u' := by
  rw [Update.mem_map_apply] at hu'
  obtain ⟨hu, -⟩ | ⟨u, hu, -, rfl⟩ := hu'
  · exact .keep u' rfl hu rfl rfl rfl
  · exact .keep u rfl hu (hx u).1 (hx u).2.1 (hx u).2.2

theorem Commit.counted (h : Commit svc op acts body n next)
    (hrun : body.run svc.lower s = .ok (n, s')) (hu' : u' ∈ s'.users.rows) :
    Counted (op.counterStep svc u'.id acts next.outcome s.users.rows) acts s.users.rows u' := by
  have hframe := h.frame hrun
  cases h with
  | @register _ _ _ _ _ _ _ _ _ _ _ user _ _ huser =>
    simp at hrun
    obtain ⟨t, ⟨ht, -⟩, _, -, ⟨_, -, rfl⟩, -⟩ := hrun
    have hu' : u' ∈ t.rows := hu'
    by_cases hid : user.id = u'.id
    · obtain rfl := user_eq_of_id (by rw [ht]; simp) hu' hid
      exact .cleared (if_pos rfl) huser.2.2.1 huser.2.2.2.1
    · rw [ht, List.mem_append, List.mem_singleton] at hu'
      obtain hu | rfl := hu'
      · exact .keep u' (if_neg hid) hu rfl rfl rfl
      · exact absurd rfl hid
  | @loginFailed _ _ _ now _ user credential _ hpassword =>
    simp at hrun
    obtain ⟨⟨t, ht, -, rfl⟩, -⟩ := hrun
    exact .of_failed (x := ⟨user, credential, now⟩) rfl rfl hpassword (ht ▸ hu')
  | @loginVerified _ _ _ now _ user credential _ hpassword =>
    simp at hrun
    obtain ⟨⟨t, ht, -, rfl⟩, -⟩ := hrun
    exact .of_reset (x := ⟨user, credential, now⟩) rfl hpassword (ht ▸ hu')
  | loginChallenge | loginSession =>
    simp at hrun
    obtain ⟨⟨_, -, rfl⟩, -⟩ := hrun
    exact .keep u' rfl hu' rfl rfl rfl
  | updateUserStatus =>
    simp at hrun
    obtain ⟨t, ⟨⟨ht, -⟩, hmatch⟩, ⟨-, ⟨_, -, rfl⟩, -⟩ | ⟨-, _, -, ⟨_, -, rfl⟩, -⟩⟩ := hrun
    · exact .of_status ⟨ht, by simpa using hmatch⟩ hu'
    · exact .of_status ⟨ht, by simpa using hmatch⟩ hu'
  | updateUserProfile =>
    simp at hrun
    obtain ⟨t, ⟨⟨ht, -⟩, -⟩, ⟨_, -, rfl⟩, -⟩ := hrun
    exact .of_profile (fun _ => ⟨rfl, rfl, rfl⟩) (ht ▸ hu')
  | _ => exact .keep u' rfl (by rwa [hframe.users (by simp [Op.writes])] at hu') rfl rfl rfl

end Commits

section Steps

variable {svc : Service} {π : Policy} {w : World} {c d : Config} {ev : Event}
  {k : ev.call.Res → Prog Reply} {a : Answer}

theorem Event.counterStep_of_committed {body : Tx Nat} {n : Nat} {next : Prog Reply}
    (h : Committed svc c ev d body n next) (hf : svc.machine.Fired c ev d k a) (userID : String) :
    Event.counterStep svc userID c.history ev = ev.request.counterStep svc userID
      (c.actsOf ev.thread) next.outcome c.state.store.users.rows := by
  rw [Event.counterStep, h.act, ← h.outcome, hf.before]
  rfl

theorem Event.counterStep_of_not_committed (h : ¬∃ body n, ev.act = Act.committed body n)
    (userID : String) (earlier : List Event) : Event.counterStep svc userID earlier ev = none := by
  rw [Event.counterStep]
  split
  · rename_i body n hact
    exact absurd ⟨body, n, hact⟩ h
  · rfl

theorem counted_of_step (h : svc.machine.Reach π w c) (hf : svc.machine.Fired c ev d k a)
    {u' : User} (hu' : u' ∈ d.state.store.users.rows) :
    Counted (Event.counterStep svc u'.id c.history ev) (c.actsOf ev.thread)
      c.state.store.users.rows u' := by
  by_cases hact : ∃ body n, ev.act = Act.committed body n
  · obtain ⟨body, n, hact⟩ := hact
    obtain ⟨next, hcom⟩ := committed_of_act h hf hact
    rw [Event.counterStep_of_committed hcom hf]
    exact hcom.commit.counted hcom.run hu'
  · rw [store_eq_of_not_committed hf hact] at hu'
    exact .keep u' (Event.counterStep_of_not_committed hact _ _) hu' rfl rfl rfl

end Steps

structure User.Counts (u : User) (failures : Nat) : Prop where
  count : u.failedLoginCount = failures
  locked : u.lockedUntil ≠ none ↔ loginFailureThreshold ≤ u.failedLoginCount

theorem Counted.counts {svc : Service} {ev : Event} {earlier : List Event} {acts : List Act}
    {rows : List User} {u' : User}
    (h : Counted (Event.counterStep svc u'.id earlier ev) acts rows u')
    (hrows : ∀ u ∈ rows, u.Counts (failuresSinceReset svc u.id earlier)) :
    u'.Counts (failuresSinceReset svc u'.id (ev :: earlier)) := by
  cases h with
  | keep u hstep hu hid hcount hlock =>
    obtain ⟨hcount', hlocked⟩ := hrows u hu
    rw [failuresSinceReset, hstep, hid]
    exact ⟨hcount.trans hcount', by rw [hlock, hcount, hlocked]⟩
  | failed u x hstep _ hu hid hcount hlock =>
    obtain ⟨hcount', hlocked⟩ := hrows u hu
    rw [failuresSinceReset, hstep, hid]
    refine ⟨by simp [hcount, hcount'], ?_⟩
    rw [hlock, hcount]
    split
    · rename_i hge
      exact ⟨fun _ => hge, fun _ => nofun⟩
    · rename_i hlt
      exact ⟨fun hne => absurd (hlocked.1 hne) (by omega), fun hge => absurd hge hlt⟩
  | cleared hstep hcount hlock =>
    rw [failuresSinceReset, hstep]
    exact ⟨hcount, by simp [hlock, hcount, loginFailureThreshold]⟩

theorem counts_of_reach {svc : Service} {π : Policy} {clock : Time} {c : Config}
    (h : svc.machine.Reach π (start clock) c) :
    ∀ u ∈ c.state.store.users.rows, u.Counts (failuresSinceReset svc u.id c.history) := by
  refine Machine.Run.invariant (I := fun c => ∀ u ∈ c.state.store.users.rows,
    u.Counts (failuresSinceReset svc u.id c.history)) h ?_ ?_ ?_
  · intro u hu
    cases hu
  · intro d q _ ih
    exact ih
  · intro d ev d' k a hd ih hf _ u' hu'
    rw [hf.history]
    exact (counted_of_step hd hf hu').counts ih

/-- In every reachable state the failure counter of a user is the number of failed logins recorded
since the last reset, and the user is locked exactly from the threshold on. -/
theorem failure_counter_and_lock_agree (svc : Service) (clock : Time) (c : Config)
    (h : svc.machine.Reach .any (start clock) c) (u : User) (hu : u ∈ c.state.store.users.rows) :
    u.failedLoginCount = failuresSinceReset svc u.id c.history ∧
      (u.lockedUntil ≠ none ↔ 5 ≤ u.failedLoginCount) :=
  ⟨(counts_of_reach h u hu).count, (counts_of_reach h u hu).locked⟩

namespace sample

def verify (thread : Nat) (password : String) (now : Time) : List (Choice Op Answer) :=
  [.start (.login "bob" password client), .step thread (.row 0), .step thread (.row 0),
    .step thread (.time now)]

def stale : List (Choice Op Answer) :=
  verify 2 "wrong password" 50 ++ verify 3 "wrong password" 60 ++ [.step 2 .done] ++
    verify 4 "correct horse" 70 ++ [.step 4 .done, .step 3 .done]

end sample

theorem failure_counter_and_lock_agree_stale : ∃ c : Config,
    (sample [] none).machine.Reach .any (start 0) c ∧
    ∃ u ∈ c.state.store.users.rows, u.failedLoginCount = 1 ∧
      u.failedLoginCount = failuresSinceReset (sample [] none) u.id c.history ∧
      (u.lockedUntil ≠ none ↔ 5 ≤ u.failedLoginCount) := by
  obtain ⟨c, hc, u, hu, hcount⟩ : ∃ c : Config,
      (sample [] none).machine.Reach .any (start 0) c ∧
      ∃ u ∈ c.state.store.users.rows, u.failedLoginCount = 1 :=
    Machine.replay_exists (sample.signIn ++ sample.stale) (by decide +kernel)
  exact ⟨c, hc, u, hu, hcount, failure_counter_and_lock_agree _ 0 c hc u hu⟩

end IdentityService
