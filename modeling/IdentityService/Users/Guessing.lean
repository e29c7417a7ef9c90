import IdentityService.Lib.Lockout
import IdentityService.Users.Lockout

/-! How many passwords can be guessed before and after the lock. -/

namespace IdentityService

open Lib Service Program

def lockout : Lockout Time := ⟨loginFailureThreshold.toNat, loginLockDuration⟩

def Op.wrongGuess (svc : Service) (userID : String) (op : Op) (acts : List Act) : Option Time :=
  match op with
  | .login _ password _ =>
    ((attempt acts).filter fun x => x.user.id = userID && available x.user x.credential x.now &&
      !svc.verified password x.credential.secretHash).map Attempt.now
  | _ => none

def Event.wrongGuess (svc : Service) (userID : String) (earlier : List Event) (ev : Event) :
    Option (Failure Time) :=
  (ev.request.wrongGuess svc userID (ev.act :: threadActs earlier ev.thread)).map fun t =>
    ⟨t, ev.before.store.users.rows.any (fun u => u.id = userID && u.lockedUntil.isNone)⟩

def wrongGuesses (svc : Service) (userID : String) (earlier : List Event) :
    List Event → List (Failure Time)
  | [] => []
  | ev :: later => (Event.wrongGuess svc userID (later ++ earlier) ev).toList ++
      wrongGuesses svc userID earlier later

def Act.findsUser (userID : String) : Act → Bool
  | ⟨.query (.userByLogin _), .ok user⟩ => let user : User := user; user.id = userID
  | _ => false

def Act.fails : Act → Bool
  | ⟨.within _, .error _⟩ => true
  | _ => false

def Config.unfinished (c : Config) (i : Nat) : Bool :=
  c.threads[i]?.any (fun th => th.rest.outcome.isNone)

def Config.loginsUnderWay (c : Config) (userID : String) : List Nat :=
  (List.range c.threads.length).filter fun i =>
    Config.unfinished c i && (c.actsOf i).any (Act.findsUser userID)

def Config.pendingGuess (svc : Service) (userID : String) (c : Config) (i : Nat) : Option Time :=
  (c.threads[i]?.filter (fun th => th.rest.outcome.isNone)).bind fun th =>
    th.request.wrongGuess svc userID (c.actsOf i)

namespace Policy

def uncleared (svc : Service) (userID : String) : Policy :=
  .onEvents fun c ev => Event.counterStep svc userID c.history ev ≠ some .cleared

def loginsApart (userID : String) : Policy :=
  .onEvents fun c ev => Act.findsUser userID ev.act = true → Config.loginsUnderWay c userID = []

def guessesRecorded (svc : Service) (userID : String) : Policy :=
  .onEvents fun c ev =>
    (ev.request.wrongGuess svc userID (c.actsOf ev.thread)).isSome → Act.fails ev.act = false

variable (svc : Service) (userID : String) (c : Config) (q : Op) (ev : Event)

instance : Decidable ((uncleared svc userID).start c q) := .isTrue trivial

instance : Decidable ((uncleared svc userID).event c ev) := inferInstanceAs (Decidable (_ ≠ _))

instance : Decidable ((loginsApart userID).start c q) := .isTrue trivial

instance : Decidable ((loginsApart userID).event c ev) := inferInstanceAs (Decidable (_ → _))

instance : Decidable ((guessesRecorded svc userID).start c q) := .isTrue trivial

instance : Decidable ((guessesRecorded svc userID).event c ev) :=
  inferInstanceAs (Decidable (_ → _))

end Policy

theorem attempt_eq_some {acts : List Act} {x : Attempt} (h : attempt acts = some x) :
    ∃ id name, acts = [.clock x.now, .read (.passwordCredential id) x.credential,
      .read (.userByLogin name) x.user] := by
  unfold attempt at h
  split at h
  · cases h
    exact ⟨_, _, rfl⟩
  · cases h

section Guess

variable {svc : Service} {userID : String} {op : Op} {acts : List Act} {t : Time}

theorem wrongGuess_eq_some (h : op.wrongGuess svc userID acts = some t) :
    ∃ (name password : String) (client : SessionClient) (x : Attempt),
      op = .login name password client ∧ attempt acts = some x ∧ x.now = t ∧ x.user.id = userID ∧
      available x.user x.credential t = true ∧
      svc.verified password x.credential.secretHash = false := by
  unfold Op.wrongGuess at h
  split at h
  · simp only [Option.map_eq_some_iff, Option.filter_eq_some_iff, Bool.and_eq_true,
      decide_eq_true_eq, Bool.not_eq_true'] at h
    obtain ⟨x, ⟨hx, ⟨hid, havailable⟩, hpassword⟩, rfl⟩ := h
    exact ⟨_, _, _, x, rfl, hx, rfl, hid, havailable, hpassword⟩
  · cases h

theorem wrongGuess_length (h : op.wrongGuess svc userID acts = some t) : acts.length = 3 := by
  obtain ⟨_, _, _, x, -, hx, -⟩ := wrongGuess_eq_some h
  obtain ⟨id, name, rfl⟩ := attempt_eq_some hx
  rfl

def Records (p : Prog Reply) : Prop :=
  ∃ body k, p = .call (.within body) k ∧ ∀ r, (k r).outcome.isSome

theorem records_of_wrongGuess (svc : Service) (userID : String) (op : Op) :
    Along (fun acts e r p => ∀ t, op.wrongGuess svc userID (⟨e, r⟩ :: acts) = some t → Records p) []
      (svc.program op) := by
  have hlong : ∀ (acts : List Act) (e : Effect) (r : e.Res) (p : Prog Reply), 3 ≤ acts.length →
      ∀ t, op.wrongGuess svc userID (⟨e, r⟩ :: acts) = some t → Records p := by
    intro acts e r p hlength t h
    have := wrongGuess_length h
    simp at this
    omega
  cases op with
  | login name password client =>
    simp only [program, login, bind_assoc, along_reject, query, now, along_perform, along_expect]
    refine fun _ r => ⟨fun t h => absurd (wrongGuess_length h) (by simp), fun user hr r' =>
      ⟨fun t h => absurd (wrongGuess_length h) (by simp), fun credential hr' now => ⟨?_, ?_⟩⟩⟩
    · intro t h
      subst hr hr'
      obtain ⟨_, _, _, x, hop, hx, rfl, -, havailable, hpassword⟩ := wrongGuess_eq_some h
      cases hop
      obtain rfl : ⟨user, credential, now⟩ = x := Option.some.inj hx
      simp only at havailable hpassword
      simp only [havailable, hpassword, reject, Bool.true_eq_false, if_false, Bool.false_eq_true]
      exact ⟨_, _, rfl, fun _ => rfl⟩
    · intro _
      exact Along.of_length hlong _ (by simp)
  | _ => exact Along.of_length (n := 0) (fun _ _ _ _ _ _ h => by cases h) _ (Nat.zero_le _)

theorem counterStep_of_wrongGuess {outcome : Option (Except AppError Reply)}
    {rows : List User} (h : op.wrongGuess svc userID acts = some t) :
    op.counterStep svc userID acts outcome rows = some .failed := by
  obtain ⟨_, _, _, x, rfl, hx, -, hid, -, hpassword⟩ := wrongGuess_eq_some h
  simp [Op.counterStep, hx, Attempt.counterStep, hid, hpassword]

theorem Commit.wrongGuess {body : Tx Nat} {n : Nat} {next : Prog Reply} {rows : List User}
    (h : Commit svc op acts body n next)
    (hstep : op.counterStep svc userID acts next.outcome rows = some .failed) :
    (op.wrongGuess svc userID acts).isSome ∧ next.outcome.isSome := by
  cases h with
  | @register _ _ _ _ _ _ _ _ _ _ _ user =>
    have hstep : (if user.id = userID then some CounterStep.cleared else none) = some .failed :=
      hstep
    simp at hstep
  | @loginFailed _ _ _ now _ user credential havailable hpassword =>
    have hid : user.id = userID := by
      by_contra hne
      simp [Op.counterStep, attempt, Attempt.counterStep, hne] at hstep
    simp [Op.wrongGuess, attempt, hid, havailable, hpassword]
  | loginVerified havailable hpassword =>
    simp only [Op.counterStep, attempt, Option.bind_some, Attempt.counterStep, hpassword,
      if_true] at hstep
    split at hstep
    · cases hstep
    · split at hstep <;> cases hstep
  | @updateUserStatus id =>
    have hstep : (if id = userID then some CounterStep.cleared else none) = some .failed := hstep
    simp at hstep
  | _ => cases hstep

end Guess

theorem findsUser_eq_true {userID : String} {act : Act} : Act.findsUser userID act = true ↔
    ∃ name user, act = .read (.userByLogin name) user ∧ user.id = userID := by
  constructor
  · intro h
    unfold Act.findsUser at h
    split at h
    · exact ⟨_, _, rfl, of_decide_eq_true h⟩
    · cases h
  · rintro ⟨name, user, rfl, hid⟩
    exact decide_eq_true hid

section Threads

variable {svc : Service} {π : Policy} {w : World} {userID : String} {c d : Config} {ev : Event}
  {k : ev.call.Res → Prog Reply} {a : Answer} {i : Nat}

theorem unfinished_eq_true : Config.unfinished c i = true ↔
    ∃ th, c.threads[i]? = some th ∧ th.rest.outcome = none := by
  simp [Config.unfinished, Option.any_eq_true, Option.isNone_iff_eq_none]

theorem mem_loginsUnderWay : i ∈ Config.loginsUnderWay c userID ↔
    Config.unfinished c i = true ∧ ∃ name user,
      Act.read (.userByLogin name) user ∈ c.actsOf i ∧ user.id = userID := by
  simp only [Config.loginsUnderWay, List.mem_filter, List.mem_range, Bool.and_eq_true,
    List.any_eq_true, findsUser_eq_true]
  constructor
  · rintro ⟨-, hi, _, hact, name, user, rfl, hid⟩
    exact ⟨hi, name, user, hact, hid⟩
  · rintro ⟨hi, name, user, hact, hid⟩
    obtain ⟨th, hth, -⟩ := unfinished_eq_true.1 hi
    exact ⟨(List.getElem?_eq_some_iff.1 hth).1, hi, _, hact, name, user, rfl, hid⟩

theorem pendingGuess_eq_some {t : Time} : Config.pendingGuess svc userID c i = some t ↔
    ∃ th, c.threads[i]? = some th ∧ th.rest.outcome = none ∧
      th.request.wrongGuess svc userID (c.actsOf i) = some t := by
  simp [Config.pendingGuess, Option.bind_eq_some_iff, Option.filter_eq_some_iff, and_assoc,
    Option.isNone_iff_eq_none]

theorem underWay_of_pending {t : Time} (h : Config.pendingGuess svc userID c i = some t) :
    i ∈ Config.loginsUnderWay c userID := by
  obtain ⟨th, hth, hrest, hguess⟩ := pendingGuess_eq_some.1 h
  obtain ⟨_, _, _, x, -, hx, -, hid, -⟩ := wrongGuess_eq_some hguess
  obtain ⟨_, name, hacts⟩ := attempt_eq_some hx
  exact mem_loginsUnderWay.2
    ⟨unfinished_eq_true.2 ⟨th, hth, hrest⟩, name, x.user, by rw [hacts]; simp, hid⟩

theorem unfinished_self (hf : svc.machine.Fired c ev d k a) :
    Config.unfinished c ev.thread = true :=
  unfinished_eq_true.2 ⟨_, hf.thread, rfl⟩

theorem unfinished_ne (hf : svc.machine.Fired c ev d k a) (hi : i ≠ ev.thread) :
    Config.unfinished d i = Config.unfinished c i := by
  rw [Config.unfinished, hf.threads, List.getElem?_set_ne hi.symm, Config.unfinished]

theorem underWay_of_step (hf : svc.machine.Fired c ev d k a)
    (hi : i ∈ Config.loginsUnderWay d userID) :
    i ∈ Config.loginsUnderWay c userID ∨ i = ev.thread ∧ Act.findsUser userID ev.act = true := by
  obtain ⟨hrest, name, user, hact, hid⟩ := mem_loginsUnderWay.1 hi
  by_cases heq : i = ev.thread
  · subst heq
    rw [hf.actsOf_self, List.mem_cons] at hact
    obtain hact | hact := hact
    · exact .inr ⟨rfl, findsUser_eq_true.2 ⟨name, user, hact.symm, hid⟩⟩
    · exact .inl (mem_loginsUnderWay.2 ⟨unfinished_self hf, name, user, hact, hid⟩)
  · rw [unfinished_ne hf heq] at hrest
    rw [hf.actsOf_ne (Ne.symm heq)] at hact
    exact .inl (mem_loginsUnderWay.2 ⟨hrest, name, user, hact, hid⟩)

theorem pendingGuess_ne (hf : svc.machine.Fired c ev d k a) (hi : i ≠ ev.thread) :
    Config.pendingGuess svc userID d i = Config.pendingGuess svc userID c i := by
  rw [Config.pendingGuess, hf.threads, List.getElem?_set_ne hi.symm, hf.actsOf_ne hi.symm,
    Config.pendingGuess]

theorem pendingGuess_self (hf : svc.machine.Fired c ev d k a) :
    Config.pendingGuess svc userID c ev.thread =
      ev.request.wrongGuess svc userID (c.actsOf ev.thread) := by
  rw [Config.pendingGuess, hf.thread]
  rfl

theorem records_of_pending (h : svc.machine.Reach π w c)
    {th : Lib.Thread Op Effect Effect.Res AppError Reply} (hth : c.threads[i]? = some th)
    {t : Time} (hguess : th.request.wrongGuess svc userID (c.actsOf i) = some t) :
    Records th.rest := by
  have hpath := h.path hth
  cases hacts : c.actsOf i with
  | nil =>
    rw [hacts] at hguess
    cases wrongGuess_length hguess
  | cons act acts =>
    rw [hacts] at hpath hguess
    exact (records_of_wrongGuess svc userID th.request).newest hpath t hguess

theorem pendingGuess_after (h : svc.machine.Reach π w d) (hf : svc.machine.Fired c ev d k a) :
    Config.pendingGuess svc userID d ev.thread =
      ev.request.wrongGuess svc userID (ev.act :: c.actsOf ev.thread) := by
  have hth : d.threads[ev.thread]? = some ⟨ev.request, k ev.answer⟩ := by
    rw [hf.threads, List.getElem?_set_self hf.thread_lt]
  have hacts : d.actsOf ev.thread = ev.act :: c.actsOf ev.thread := hf.actsOf_self
  cases hguess : ev.request.wrongGuess svc userID (ev.act :: c.actsOf ev.thread) with
  | none =>
    rw [Option.eq_none_iff_forall_ne_some]
    intro t ht
    obtain ⟨th, hth', -, hguess'⟩ := pendingGuess_eq_some.1 ht
    cases hth.symm.trans hth'
    rw [hacts, hguess] at hguess'
    cases hguess'
  | some t =>
    rw [← hacts] at hguess
    obtain ⟨body, k', heq, -⟩ := records_of_pending h hth hguess
    exact pendingGuess_eq_some.2 ⟨_, hth, by rw [heq]; rfl, hguess⟩

theorem underWay_of_begin (h : svc.machine.Reach π w c) {q : Op}
    (hi : i ∈ Config.loginsUnderWay (svc.machine.begin c q) userID) :
    i ∈ Config.loginsUnderWay c userID := by
  obtain ⟨hrest, name, user, hact, hid⟩ := mem_loginsUnderWay.1 hi
  obtain ⟨th, hth, hnone⟩ := unfinished_eq_true.1 hrest
  rw [Machine.begin_actsOf] at hact
  obtain hth | ⟨rfl, -⟩ := Machine.begin_thread hth
  · exact mem_loginsUnderWay.2 ⟨unfinished_eq_true.2 ⟨th, hth, hnone⟩, name, user, hact, hid⟩
  · rw [h.actsOf_length] at hact
    cases hact

theorem pendingGuess_begin (h : svc.machine.Reach π w c) (q : Op) :
    Config.pendingGuess svc userID (svc.machine.begin c q) i =
      Config.pendingGuess svc userID c i := by
  refine Option.ext fun t => ?_
  rw [pendingGuess_eq_some, pendingGuess_eq_some]
  constructor
  · rintro ⟨th, hth, hrest, hguess⟩
    rw [Machine.begin_actsOf] at hguess
    obtain hth | ⟨rfl, -⟩ := Machine.begin_thread hth
    · exact ⟨th, hth, hrest, hguess⟩
    · rw [h.actsOf_length] at hguess
      cases wrongGuess_length hguess
  · rintro ⟨th, hth, hrest, hguess⟩
    have hlt := (List.getElem?_eq_some_iff.1 hth).1
    exact ⟨th, by rwa [Machine.begin, List.getElem?_append_left hlt], hrest, hguess⟩

end Threads

structure Guarded (svc : Service) (userID : String) (c : Config) (u : User)
    (recorded guesses : List (Failure Time)) : Prop where
  mem : u ∈ c.state.store.users.rows
  id : u.id = userID
  count : u.failedLoginCount = recorded.length
  lock : u.lockedUntil = lockout.lock recorded
  admitted : lockout.Admits guesses
  alone : ∀ i ∈ Config.loginsUnderWay c userID, ∀ j ∈ Config.loginsUnderWay c userID, i = j
  read : ∀ i ∈ Config.loginsUnderWay c userID, ∀ (name : String) (user : User),
    Act.read (.userByLogin name) user ∈ c.actsOf i → user.id = userID →
      user.lockedUntil = u.lockedUntil
  pending : guesses = recorded ∧ (∀ i, Config.pendingGuess svc userID c i = none) ∨
    ∃ i g, Config.pendingGuess svc userID c i = some g.time ∧ guesses = g :: recorded

section Steps

variable {svc : Service} {π : Policy} {w : World} {userID : String} {c d : Config} {ev : Event}
  {k : ev.call.Res → Prog Reply} {a : Answer} {u : User} {recorded guesses : List (Failure Time)}
  {t : Time}

theorem counted_user (h : svc.machine.Reach π w c) (hf : svc.machine.Fired c ev d k a)
    (hu : u ∈ c.state.store.users.rows) :
    ∃ u' ∈ d.state.store.users.rows, u'.id = u.id ∧
      Counted (Event.counterStep svc u.id c.history ev) (c.actsOf ev.thread) [u] u' := by
  obtain ⟨u', hu', hid, -⟩ := (usersChange_of_step h hf).fate hu
  refine ⟨u', hu', hid, ?_⟩
  have hcounted := counted_of_step h hf hu'
  rw [hid] at hcounted
  cases hcounted with
  | keep v hstep hv hid' hcount hlock =>
    obtain rfl := user_eq_of_id hv hu (hid'.symm.trans hid)
    exact .keep v hstep (by simp) hid' hcount hlock
  | failed v x hstep hattempt hv hid' hcount hlock =>
    obtain rfl := user_eq_of_id hv hu (hid'.symm.trans hid)
    exact .failed v x hstep hattempt (by simp) hid' hcount hlock
  | cleared hstep hcount hlock => exact .cleared hstep hcount hlock

theorem failed_of_pending (h : svc.machine.Reach π w c) (hf : svc.machine.Fired c ev d k a)
    (hguess : ev.request.wrongGuess svc userID (c.actsOf ev.thread) = some t)
    (hfails : Act.fails ev.act = false) :
    Event.counterStep svc userID c.history ev = some .failed ∧ (k ev.answer).outcome.isSome := by
  obtain ⟨body, k', hcall, hends⟩ := records_of_pending h hf.thread hguess
  obtain ⟨i, q, e, r, s, s', o⟩ := ev
  cases hcall
  cases r with
  | error e => cases hfails
  | ok n => exact ⟨counterStep_of_wrongGuess hguess, hends _⟩

theorem wrongGuess_of_failed (h : svc.machine.Reach π w c) (hf : svc.machine.Fired c ev d k a)
    (hstep : Event.counterStep svc userID c.history ev = some .failed) :
    (ev.request.wrongGuess svc userID (c.actsOf ev.thread)).isSome := by
  by_cases hact : ∃ body n, ev.act = Act.committed body n
  · obtain ⟨body, n, hact⟩ := hact
    obtain ⟨next, hcom⟩ := committed_of_act h hf hact
    rw [Event.counterStep_of_committed hcom hf] at hstep
    exact (hcom.commit.wrongGuess hstep).1
  · rw [Event.counterStep_of_not_committed hact] at hstep
    cases hstep

theorem Guarded.begin (h : Guarded svc userID c u recorded guesses)
    (hc : svc.machine.Reach π w c) (q : Op) :
    Guarded svc userID (svc.machine.begin c q) u recorded guesses where
  mem := h.mem
  id := h.id
  count := h.count
  lock := h.lock
  admitted := h.admitted
  alone i hi j hj := h.alone i (underWay_of_begin hc hi) j (underWay_of_begin hc hj)
  read i hi := h.read i (underWay_of_begin hc hi)
  pending := by simpa only [pendingGuess_begin hc] using h.pending

theorem Guarded.recordGuess (h : Guarded svc userID c u recorded guesses)
    (hc : svc.machine.Reach π w c) (hf : svc.machine.Fired c ev d k a)
    (hguess : ev.request.wrongGuess svc userID (c.actsOf ev.thread) = some t)
    (hfails : Act.fails ev.act = false) :
    ∃ u', Guarded svc userID d u' guesses guesses := by
  obtain ⟨hstep, hends⟩ := failed_of_pending hc hf hguess hfails
  have hself := (pendingGuess_self hf).trans hguess
  obtain ⟨-, hnone⟩ | ⟨i, g, hpending, rfl⟩ := h.pending
  · rw [hnone] at hself
    cases hself
  obtain rfl := h.alone i (underWay_of_pending hpending) _ (underWay_of_pending hself)
  obtain rfl : g.time = t := Option.some.inj (hpending.symm.trans hself)
  have hquiet : ∀ i, i ∉ Config.loginsUnderWay d userID := by
    intro i hi
    obtain rfl : i = ev.thread := by
      obtain hi | ⟨hi, -⟩ := underWay_of_step hf hi
      · exact h.alone i hi _ (underWay_of_pending hself)
      · exact hi
    obtain ⟨th, hth, hrest⟩ := unfinished_eq_true.1 (mem_loginsUnderWay.1 hi).1
    rw [hf.threads, List.getElem?_set_self hf.thread_lt] at hth
    cases hth
    rw [hrest] at hends
    cases hends
  obtain ⟨u', hu', hid, hcounted⟩ := counted_user hc hf h.mem
  rw [h.id, hstep] at hcounted
  cases hcounted with
  | failed v x _ hattempt hv _ hcount hlock =>
    obtain rfl := List.mem_singleton.1 hv
    obtain ⟨_, _, _, x', -, hx', hnow, -⟩ := wrongGuess_eq_some hguess
    obtain rfl : x' = x := Option.some.inj (hx'.symm.trans hattempt)
    refine ⟨u', hu', hid.trans h.id, ?_, ?_, h.admitted, ?_, ?_, .inl ⟨rfl, ?_⟩⟩
    · rw [hcount, h.count]
      simp
    · rw [hlock, h.count, hnow, h.lock, Lockout.lock]
      congr 1
      simp only [loginFailureThreshold, lockout, ge_iff_le, eq_iff_iff]
      omega
    · exact fun i hi => absurd hi (hquiet i)
    · exact fun i hi => absurd hi (hquiet i)
    · intro i
      rw [Option.eq_none_iff_forall_ne_some]
      exact fun t ht => hquiet i (underWay_of_pending ht)
  | keep _ hstep' => cases hstep'
  | cleared hstep' => cases hstep'

theorem Guarded.keep (h : Guarded svc userID c u recorded guesses)
    (hc : svc.machine.Reach π w c) (hf : svc.machine.Fired c ev d k a)
    (hguess : ev.request.wrongGuess svc userID (c.actsOf ev.thread) = none)
    (hcleared : Event.counterStep svc userID c.history ev ≠ some .cleared)
    (hapart : Act.findsUser userID ev.act = true → Config.loginsUnderWay c userID = [])
    {guesses' : List (Failure Time)} (hadmitted : lockout.Admits guesses')
    (hpending : guesses' = recorded ∧ (∀ i, Config.pendingGuess svc userID d i = none) ∨
      ∃ i g, Config.pendingGuess svc userID d i = some g.time ∧ guesses' = g :: recorded) :
    ∃ u', Guarded svc userID d u' recorded guesses' := by
  have hstep : Event.counterStep svc userID c.history ev = none := by
    cases hstep : Event.counterStep svc userID c.history ev with
    | none => rfl
    | some step =>
      cases step with
      | failed =>
        have := wrongGuess_of_failed hc hf hstep
        rw [hguess] at this
        cases this
      | cleared => exact absurd hstep hcleared
  obtain ⟨u', hu', hid, hcounted⟩ := counted_user hc hf h.mem
  rw [h.id, hstep] at hcounted
  cases hcounted with
  | keep v _ hv _ hcount hlock =>
    obtain rfl := List.mem_singleton.1 hv
    refine ⟨u', hu', hid.trans h.id, hcount.trans h.count, hlock.trans h.lock, hadmitted, ?_, ?_,
      hpending⟩
    · intro i hi j hj
      by_cases hfinds : Act.findsUser userID ev.act = true
      · have hnone := hapart hfinds
        obtain hi | ⟨rfl, -⟩ := underWay_of_step hf hi
        · rw [hnone] at hi
          cases hi
        obtain hj | ⟨rfl, -⟩ := underWay_of_step hf hj
        · rw [hnone] at hj
          cases hj
        rfl
      · obtain hi | ⟨-, hi⟩ := underWay_of_step hf hi
        · obtain hj | ⟨-, hj⟩ := underWay_of_step hf hj
          · exact h.alone i hi j hj
          · exact absurd hj hfinds
        · exact absurd hi hfinds
    · intro i hi name user hact huser
      rw [hlock]
      by_cases heq : ev.act = Act.read (.userByLogin name) user
      · -- The login finds the row as it is now.
        have hmem := (List.mem_filter.1 (read_of_fired hf heq)).1
        rw [user_eq_of_id hmem h.mem (huser.trans h.id.symm)]
      · have hact : Act.read (.userByLogin name) user ∈ c.actsOf i := by
          by_cases hthread : i = ev.thread
          · rw [hthread, hf.actsOf_self, List.mem_cons] at hact
            obtain hact | hact := hact
            · exact absurd hact.symm heq
            · rwa [hthread]
          · rwa [hf.actsOf_ne (Ne.symm hthread)] at hact
        obtain hi | ⟨rfl, -⟩ := underWay_of_step hf hi
        · exact h.read i hi name user hact huser
        · exact h.read _ (mem_loginsUnderWay.2 ⟨unfinished_self hf, name, user, hact, huser⟩) name
            user hact huser
  | failed _ _ hstep' => cases hstep'
  | cleared hstep' => cases hstep'

theorem read_of_guess {g : Failure Time}
    (hguess : Event.wrongGuess svc userID c.history ev = some g) :
    ∃ (name : String) (user : User), Act.read (.userByLogin name) user ∈ c.actsOf ev.thread ∧
      user.id = userID ∧ ∀ until' ∈ user.lockedUntil, until' ≤ g.time := by
  obtain ⟨t, ht, rfl⟩ := Option.map_eq_some_iff.1 hguess
  obtain ⟨_, _, _, x, -, hx, -, hid, havailable, -⟩ := wrongGuess_eq_some ht
  obtain ⟨_, name, hacts⟩ := attempt_eq_some hx
  have hacts : c.actsOf ev.thread = _ := (List.cons.inj hacts).2
  refine ⟨name, x.user, by rw [hacts]; simp, hid, ?_⟩
  intro until' huntil
  have huntil : x.user.lockedUntil = some until' := huntil
  simp only [available, huntil, Option.any_some, Bool.and_eq_true, Bool.not_eq_true',
    decide_eq_false_iff_not, decide_eq_true_eq] at havailable
  exact not_lt.1 havailable.1.2

theorem Guarded.admits (h : Guarded svc userID c u recorded recorded)
    (hf : svc.machine.Fired c ev d k a) {g : Failure Time}
    (hguess : Event.wrongGuess svc userID c.history ev = some g) :
    lockout.Admits (g :: recorded) := by
  refine .cons h.admitted ?_ ?_
  · obtain ⟨t, -, rfl⟩ := Option.map_eq_some_iff.1 hguess
    rw [← h.lock, hf.before, Bool.eq_iff_iff]
    simp only [List.any_eq_true, Bool.and_eq_true, decide_eq_true_eq]
    constructor
    · rintro ⟨v, hv, hid, hnone⟩
      rwa [user_eq_of_id hv h.mem (hid.trans h.id.symm)] at hnone
    · exact fun hnone => ⟨u, h.mem, h.id, hnone⟩
  · obtain ⟨name, user, hread, hid, hlock⟩ := read_of_guess hguess
    have hunderWay := mem_loginsUnderWay.2 ⟨unfinished_self hf, name, user, hread, hid⟩
    rw [← h.lock, ← h.read _ hunderWay name user hread hid]
    exact hlock

theorem Guarded.step (h : Guarded svc userID c u recorded guesses)
    (hc : svc.machine.Reach π w c) (hd : svc.machine.Reach π w d)
    (hf : svc.machine.Fired c ev d k a)
    (hcleared : (Policy.uncleared svc userID).event c ev)
    (hapart : (Policy.loginsApart userID).event c ev)
    (hrecorded : (Policy.guessesRecorded svc userID).event c ev) :
    ∃ u' recorded', Guarded svc userID d u' recorded'
      ((Event.wrongGuess svc userID c.history ev).toList ++ guesses) := by
  have hafter : Config.pendingGuess svc userID d ev.thread =
      (Event.wrongGuess svc userID c.history ev).map Failure.time := by
    rw [pendingGuess_after hd hf, Event.wrongGuess, Option.map_map]
    exact Option.map_id'.symm
  cases hguess : ev.request.wrongGuess svc userID (c.actsOf ev.thread) with
  | some t =>
    have hnone : Event.wrongGuess svc userID c.history ev = none := by
      refine Option.map_eq_none_iff.2 (Option.eq_none_iff_forall_ne_some.2 fun t' ht' => ?_)
      have hlength : (c.actsOf ev.thread).length + 1 = 3 := wrongGuess_length ht'
      rw [wrongGuess_length hguess] at hlength
      cases hlength
    rw [hnone]
    obtain ⟨u', h'⟩ := h.recordGuess hc hf hguess (hrecorded (by rw [hguess]; rfl))
    exact ⟨u', _, h'⟩
  | none =>
    have hself := (pendingGuess_self hf).trans hguess
    cases hnew : Event.wrongGuess svc userID c.history ev with
    | none =>
      have hsame : ∀ i,
          Config.pendingGuess svc userID d i = Config.pendingGuess svc userID c i := by
        intro i
        by_cases hi : i = ev.thread
        · rw [hi, hself, hafter, hnew]
          rfl
        · exact pendingGuess_ne hf hi
      obtain ⟨u', h'⟩ := h.keep hc hf hguess hcleared hapart h.admitted
        (by simpa only [hsame] using h.pending)
      exact ⟨u', recorded, h'⟩
    | some g =>
      rw [hnew] at hafter
      obtain ⟨rfl, -⟩ | ⟨i, g', hpending, -⟩ := h.pending
      · obtain ⟨u', h'⟩ := h.keep hc hf hguess hcleared hapart (h.admits hf hnew)
          (.inr ⟨ev.thread, g, hafter, rfl⟩)
        exact ⟨u', guesses, h'⟩
      · -- The login that makes the guess is the only one under way.
        obtain ⟨name, user, hread, hid, -⟩ := read_of_guess hnew
        obtain rfl := h.alone i (underWay_of_pending hpending) ev.thread
          (mem_loginsUnderWay.2 ⟨unfinished_self hf, name, user, hread, hid⟩)
        cases hpending.symm.trans hself

end Steps

/-- Five wrong passwords at most are verified before the user is locked, and from the fifth on each
comes after the lock that the one before it has set. -/
theorem lockout_bounds_guessing (svc : Service) (clock : Time) (userID : String) (c d : Config)
    (hc : svc.machine.Reach .any (start clock) c) (u : User)
    (hu : u ∈ c.state.store.users.rows) (hid : u.id = userID) (hzero : u.failedLoginCount = 0)
    (hidle : Config.loginsUnderWay c userID = [])
    (hd : svc.machine.Run ((Policy.uncleared svc userID).both
      ((Policy.loginsApart userID).both (Policy.guessesRecorded svc userID))) c d)
    (later : List Event) (hlater : d.history = later ++ c.history) :
    (wrongGuesses svc userID c.history later).countP Failure.unlocked ≤ 5 ∧
      ∀ newer g' g older, wrongGuesses svc userID c.history later = newer ++ g' :: g :: older →
        4 ≤ older.length → g.time + loginLockDuration ≤ g'.time := by
  obtain ⟨later', u', recorded, hlater', h⟩ : ∃ later' u' recorded,
      d.history = later' ++ c.history ∧ Guarded svc userID d u' recorded
        (wrongGuesses svc userID c.history later') := by
    refine hd.invariant (I := fun d => ∃ later' u' recorded, d.history = later' ++ c.history ∧
      Guarded svc userID d u' recorded (wrongGuesses svc userID c.history later')) ?_ ?_ ?_
    · have hcounts := counts_of_reach hc u hu
      have hunlocked : u.lockedUntil = none := by
        by_contra hne
        exact absurd (hzero ▸ hcounts.locked.1 hne) (by decide)
      have hnone : ∀ i, Config.pendingGuess svc userID c i = none := by
        intro i
        rw [Option.eq_none_iff_forall_ne_some]
        intro t ht
        have := underWay_of_pending ht
        rw [hidle] at this
        cases this
      exact ⟨[], u, [], rfl, hu, hid, hzero, hunlocked, .nil, by simp [hidle], by simp [hidle],
        .inl ⟨rfl, hnone⟩⟩
    · rintro d q hrun ⟨later', u', recorded, hlater', h⟩
      exact ⟨later', u', recorded, hlater', h.begin (hc.trans hrun.any) q⟩
    · rintro d ev d' k a hrun ⟨later', u', recorded, hlater', h⟩ hf hp
      have hreach := hc.trans hrun.any
      obtain ⟨u'', recorded', h'⟩ := h.step hreach
        (hreach.trans (Machine.Run.refl.fired hf trivial)) hf hp.1 hp.2.1 hp.2.2
      refine ⟨ev :: later', u'', recorded', by rw [hf.history, hlater']; rfl, ?_⟩
      rw [hlater'] at h'
      exact h'
  obtain rfl : later = later' := List.append_cancel_right (hlater.symm.trans hlater')
  refine ⟨h.admitted.countP_unlocked_le (by decide), ?_⟩
  intro newer g' g older hsplit hlength
  exact (hsplit ▸ h.admitted).apart (Nat.succ_le_succ hlength)

namespace sample

def registered : Config :=
  ((sample [] none).machine.replay .any (signIn.take 7) (.initial (start 0))).getD
    (.initial (start 0))

theorem registered_reach : (sample [] none).machine.Reach .any (start 0) registered :=
  Machine.replay_getD (by decide +kernel)

def guessedTogether : List (Choice Op Answer) :=
  (List.range 6).flatMap fun n => verify (n + 1) "wrong password" (100 * Go.second)

def guessedInTurn : List (Choice Op Answer) :=
  (List.range 6).flatMap fun n =>
    verify (n + 1) "wrong password" (if n < 5 then 100 * Go.second else 1000 * Go.second) ++
      [.step (n + 1) .done]

end sample

theorem guesses_of_replay {π : Policy} [∀ c q, Decidable (π.start c q)]
    [∀ c ev, Decidable (π.event c ev)] (choices : List (Choice Op Answer))
    {P : List (Failure Time) → Prop} [DecidablePred P]
    (h : ((sample [] none).machine.replay π choices sample.registered).any (fun d => decide (P
      (wrongGuesses (sample [] none) "u1" sample.registered.history
        (d.history.take (d.history.length - sample.registered.history.length))))) = true) :
    ∃ d later, (sample [] none).machine.Run π sample.registered d ∧
      d.history = later ++ sample.registered.history ∧
      P (wrongGuesses (sample [] none) "u1" sample.registered.history later) := by
  obtain ⟨d, hd, hP⟩ := Machine.replay_exists choices h
  obtain ⟨later, hlater⟩ := hd.history_suffix
  refine ⟨d, later, hd, hlater.symm, ?_⟩
  rw [← hlater] at hP
  simpa using hP

theorem six_guesses_before_the_lock : ∃ c d : Config,
    (sample [] none).machine.Reach .any (start 0) c ∧
    (∃ u ∈ c.state.store.users.rows, u.id = "u1" ∧ u.status = .active ∧ u.failedLoginCount = 0) ∧
    Config.loginsUnderWay c "u1" = [] ∧
    (sample [] none).machine.Run (Policy.uncleared (sample [] none) "u1") c d ∧
    ∃ later, d.history = later ++ c.history ∧
      (wrongGuesses (sample [] none) "u1" c.history later).countP Failure.unlocked = 6 := by
  obtain ⟨d, later, hd, hlater, hcount⟩ := guesses_of_replay
    (π := Policy.uncleared (sample [] none) "u1") (P := fun gs => gs.countP Failure.unlocked = 6)
    sample.guessedTogether (by decide +kernel)
  exact ⟨sample.registered, d, sample.registered_reach, by decide +kernel, by decide +kernel, hd,
    later, hlater, hcount⟩

theorem lockout_bounds_guessing_in_turn : ∃ later : List Event,
    (wrongGuesses (sample [] none) "u1" sample.registered.history later).length = 6 ∧
    (wrongGuesses (sample [] none) "u1" sample.registered.history later).countP
      Failure.unlocked ≤ 5 ∧
    ∀ newer g' g older,
      wrongGuesses (sample [] none) "u1" sample.registered.history later =
        newer ++ g' :: g :: older →
      4 ≤ older.length → g.time + loginLockDuration ≤ g'.time := by
  obtain ⟨d, later, hd, hlater, hcount⟩ := guesses_of_replay
    (π := (Policy.uncleared (sample [] none) "u1").both ((Policy.loginsApart "u1").both
      (Policy.guessesRecorded (sample [] none) "u1"))) (P := fun gs => gs.length = 6)
    sample.guessedInTurn (by decide +kernel)
  obtain ⟨u, hu, hid, hzero⟩ : ∃ u ∈ sample.registered.state.store.users.rows,
      u.id = "u1" ∧ u.failedLoginCount = 0 := by decide +kernel
  exact ⟨later, hcount, lockout_bounds_guessing _ 0 "u1" sample.registered d
    sample.registered_reach u hu hid hzero (by decide +kernel) hd later hlater⟩

end IdentityService
