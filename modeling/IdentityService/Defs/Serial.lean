import IdentityService.Defs.ReadCommittedLaws
import IdentityService.Defs.System

/-! Whatever the service does over atomic transactions it can do at READ COMMITTED, by running
each transaction without interruption. -/

namespace IdentityService

open Lib

def Tx.effect (lower : String → String) (body : Tx Nat) (s committed : Store) :
    Except RepositoryError Nat × Store :=
  match body.run lower s with
  | .ok (n, s') => (.ok n, s')
  | .error e => (.error e, committed)

theorem Tx.effect_of_perform {svc : Service} {w w' : World} {body : Tx Nat}
    {r : Except RepositoryError Nat} (h : svc.perform w (.within body) .done = some (r, w')) :
    body.effect svc.lower w.store w.store = (r, w'.store) ∧ w'.clock = w.clock := by
  unfold Tx.effect
  unfold Service.perform at h
  cases hrun : body.run svc.lower w.store with
  | ok p =>
    simp only [hrun] at h
    cases h
    exact ⟨rfl, rfl⟩
  | error e =>
    simp only [hrun] at h
    cases h
    exact ⟨rfl, rfl⟩

section Transactions

variable {svc : Service} {c d : CallConfig} {op : Op} {i tx : Nat}
  {k : Except RepositoryError Nat → CallProg} {t : Transaction Store Stmt Lock} {s : Store}

theorem run_statement {q : Stmt} {b : Option Nat → Tx Nat}
    (h : svc.readCommitted.Run .any c d)
    (hth : d.threads[i]? = some ⟨op, Tx.steps tx (.call q b) k⟩)
    (halone : d.state.database.Alone tx) (ht : d.state.database.transactions[tx]? = some (some t))
    (hs : (Store.engine svc.lower).replay t.writes d.state.database.committed = some s) :
    ∃ d' t', svc.readCommitted.Run .any c d' ∧
      d'.threads = d.threads.set i ⟨op, Tx.steps tx (b (Tx.handle svc.lower q s).1) k⟩ ∧
      d'.state.database.committed = d.state.database.committed ∧ d'.state.clock = d.state.clock ∧
      d'.state.database.Alone tx ∧ d'.state.database.transactions[tx]? = some (some t') ∧
      (Store.engine svc.lower).replay t'.writes d.state.database.committed =
        some (Tx.handle svc.lower q s).2 := by
  have hp : svc.readCommitted.perform d.state (.snapshot tx) .done = some ((), { d.state with
      database := d.state.database.put tx
        (some { t with snapshot := d.state.database.committed }) }) := by
    simp [Service.readCommitted, Service.performCall, Database.snapshot, ht]
  obtain ⟨d1, hd1, hstate1, hthreads1⟩ := h.perform (fun _ => trivial) hth hp
  have hlt := (List.getElem?_eq_some_iff.1 hth).1
  have hth1 : d1.threads[i]? = some ⟨op, Tx.execution tx q b k⟩ := by
    rw [hthreads1]
    exact List.getElem?_set_self hlt
  have ht1 : d1.state.database.transactions[tx]? =
      some (some { t with snapshot := d.state.database.committed }) := by
    rw [hstate1]
    exact put_self ht
  have halone1 : d1.state.database.Alone tx := by
    rw [hstate1]
    exact halone.put _
  have hexec := Database.execute_alone (E := Store.engine svc.lower) halone1 ht1
    (by rw [hstate1]; rfl) (by rw [hstate1]; exact hs) q
  unfold Tx.handle
  cases hq : s.exec svc.lower q with
  | none =>
    have hq : (Store.engine svc.lower).exec s q = none := hq
    rw [hq] at hexec
    have hp : svc.readCommitted.perform d1.state (.exec tx q) .done =
        some (some none, d1.state) := by
      simp [Service.readCommitted, Service.performCall, hexec]
    obtain ⟨d2, hd2, hstate2, hthreads2⟩ := hd1.perform (fun _ => trivial) hth1 hp
    refine ⟨d2, { t with snapshot := d.state.database.committed }, hd2, ?_, ?_⟩
    · rw [hthreads2, hthreads1, List.set_set]
      rfl
    · rw [hstate2, hstate1]
      exact ⟨rfl, rfl, halone.put _, put_self ht, hs⟩
  | some r =>
    obtain ⟨n, s'⟩ := r
    have hq : (Store.engine svc.lower).exec s q = some (n, s') := hq
    rw [hq] at hexec
    have hp : svc.readCommitted.perform d1.state (.exec tx q) .done =
        some (some (some n), { d1.state with database := d1.state.database.put tx (some
          { t with
            snapshot := d.state.database.committed
            writes := t.writes ++ [q.pin (q.found s)]
            locks := t.locks ++ q.found s }) }) := by
      simp only [Service.readCommitted, Service.performCall, hexec]
      rfl
    obtain ⟨d2, hd2, hstate2, hthreads2⟩ := hd1.perform (fun _ => trivial) hth1 hp
    refine ⟨d2, { t with
      snapshot := d.state.database.committed
      writes := t.writes ++ [q.pin (q.found s)]
      locks := t.locks ++ q.found s }, hd2, ?_, ?_⟩
    · rw [hthreads2, hthreads1, List.set_set]
      rfl
    · rw [hstate2, hstate1]
      refine ⟨rfl, rfl, (halone.put _).put _, put_self (put_self ht), ?_⟩
      exact Engine.replay_append.2 ⟨s, n, hs, (Store.exec_pin_found svc.lower s q).trans hq⟩

theorem run_transaction (b : Tx Nat) (h : svc.readCommitted.Run .any c d)
    (hth : d.threads[i]? = some ⟨op, b.steps tx k⟩) (halone : d.state.database.Alone tx)
    (ht : d.state.database.transactions[tx]? = some (some t))
    (hs : (Store.engine svc.lower).replay t.writes d.state.database.committed = some s) :
    ∃ d', svc.readCommitted.Run .any c d' ∧
      d'.threads = d.threads.set i ⟨op, k (b.effect svc.lower s d.state.database.committed).1⟩ ∧
      d'.state.database.committed = (b.effect svc.lower s d.state.database.committed).2 ∧
      d'.state.clock = d.state.clock ∧ ∀ t ∈ d'.state.database.transactions, t = none := by
  induction b generalizing d t s with
  | ret n =>
    have hp : svc.readCommitted.perform d.state (.commit tx) .done = some (true, { d.state with
        database := { d.state.database.put tx none with committed := s } }) := by
      simp [Service.readCommitted, Service.performCall, Database.commit, ht, hs]
    obtain ⟨d', hd', hstate, hthreads⟩ := h.perform (fun _ => trivial) hth hp
    refine ⟨d', hd', hthreads, ?_⟩
    rw [hstate]
    exact ⟨rfl, rfl, halone.ended⟩
  | fail e =>
    have hp : svc.readCommitted.perform d.state (.rollback tx) .done = some ((), { d.state with
        database := d.state.database.put tx none }) := rfl
    obtain ⟨d', hd', hstate, hthreads⟩ := h.perform (fun _ => trivial) hth hp
    refine ⟨d', hd', hthreads, ?_⟩
    rw [hstate]
    exact ⟨rfl, rfl, halone.ended⟩
  | call q b ih =>
    obtain ⟨d1, t1, hd1, hthreads1, hcommitted1, hclock1, halone1, ht1, hs1⟩ :=
      run_statement h hth halone ht hs
    have hth1 : d1.threads[i]? = some ⟨op, Tx.steps tx (b (Tx.handle svc.lower q s).1) k⟩ := by
      rw [hthreads1]
      exact List.getElem?_set_self (List.getElem?_eq_some_iff.1 hth).1
    rw [← hcommitted1] at hs1
    obtain ⟨d2, hd2, hthreads2, hcommitted2, hclock2, hended⟩ := ih _ hd1 hth1 halone1 ht1 hs1
    rw [hcommitted1] at hthreads2 hcommitted2
    refine ⟨d2, hd2, ?_, hcommitted2, hclock2.trans hclock1, hended⟩
    rw [hthreads2, hthreads1, List.set_set]
    rfl

end Transactions

structure Mirrors (c : Config) (d : CallConfig) : Prop where
  threads : d.threads = c.threads.map (fun th => ⟨th.request, steps th.rest⟩)
  committed : d.state.database.committed = c.state.store
  clock : d.state.clock = c.state.clock
  ended : ∀ t ∈ d.state.database.transactions, t = none

section Steps

variable {svc : Service} {c c' : Config} {d0 d : CallConfig} {op : Op} {i : Nat}

theorem Mirrors.of_within {body : Tx Nat} {k : Except RepositoryError Nat → Prog Reply}
    {a : Answer} {r : Except RepositoryError Nat} {w : World} (h : Mirrors c d)
    (hd : svc.readCommitted.Run .any d0 d)
    (hth : d.threads[i]? = some ⟨op, steps (.call (.within body) k)⟩)
    (hp : svc.perform c.state (.within body) a = some (r, w)) :
    ∃ d', svc.readCommitted.Run .any d0 d' ∧ d'.threads = d.threads.set i ⟨op, steps (k r)⟩ ∧
      d'.state.database.committed = w.store ∧ d'.state.clock = w.clock ∧
      ∀ t ∈ d'.state.database.transactions, t = none := by
  have hlt := (List.getElem?_eq_some_iff.1 hth).1
  cases a with
  | fault =>
    cases hp
    obtain ⟨d1, hd1, hstate1, hthreads1⟩ := hd.perform (a := .fault) (fun _ => trivial) hth rfl
    refine ⟨d1, hd1, hthreads1, ?_⟩
    rw [hstate1]
    exact ⟨h.committed, h.clock, h.ended⟩
  | done =>
    obtain ⟨d1, hd1, hstate1, hthreads1⟩ := hd.perform (a := .done) (fun _ => trivial) hth rfl
    have hth1 : d1.threads[i]? = some ⟨op, body.steps d.state.database.transactions.length
        (fun r => steps (k r))⟩ := by
      rw [hthreads1]
      exact List.getElem?_set_self hlt
    have halone : d1.state.database.Alone d.state.database.transactions.length := by
      rw [hstate1]
      exact Database.alone_begin h.ended
    have ht1 : d1.state.database.transactions[d.state.database.transactions.length]? =
        some (some ⟨d.state.database.committed, [], []⟩) := by
      rw [hstate1]
      simp [Database.begin]
    obtain ⟨d2, hd2, hthreads2, hcommitted2, hclock2, hended⟩ :=
      run_transaction body hd1 hth1 halone ht1 rfl
    have hcommitted1 : d1.state.database.committed = c.state.store := by
      rw [hstate1]
      exact h.committed
    obtain ⟨heffect, hclock⟩ := Tx.effect_of_perform hp
    rw [hcommitted1, heffect] at hthreads2 hcommitted2
    refine ⟨d2, hd2, ?_, hcommitted2, ?_, hended⟩
    · rw [hthreads2, hthreads1, List.set_set]
    · rw [hclock2, hstate1, hclock]
      exact h.clock
  | _ => cases hp

theorem Mirrors.of_step {ev : Event} {k : ev.call.Res → Prog Reply} {a : Answer}
    (h : Mirrors c d) (hd : svc.readCommitted.Run .any d0 d)
    (hf : svc.machine.Fired c ev c' k a) :
    ∃ d', svc.readCommitted.Run .any d0 d' ∧ Mirrors c' d' := by
  have hth : d.threads[ev.thread]? = some ⟨ev.request, steps (.call ev.call k)⟩ := by
    rw [h.threads, List.getElem?_map, hf.thread]
    rfl
  have hp : svc.perform c.state ev.call a = some (ev.answer, ev.after) := hf.before ▸ hf.performed
  -- Whatever the call, it is enough to reach the same state and the same place.
  suffices hreach : ∃ d', svc.readCommitted.Run .any d0 d' ∧
      d'.threads = d.threads.set ev.thread ⟨ev.request, steps (k ev.answer)⟩ ∧
      d'.state.database.committed = ev.after.store ∧ d'.state.clock = ev.after.clock ∧
      ∀ t ∈ d'.state.database.transactions, t = none by
    obtain ⟨d', hd', hthreads, hcommitted, hclock, hended⟩ := hreach
    refine ⟨d', hd', ?_, ?_, ?_, hended⟩
    · rw [hthreads, hf.threads, h.threads, List.map_set]
    · rw [hcommitted, hf.state]
    · rw [hclock, hf.state]
  have hworld : (⟨d.state.database.committed, d.state.clock⟩ : World) = c.state := by
    rw [h.committed, h.clock]
  obtain ⟨i, op, e, r, w, w', o⟩ := ev
  by_cases hwithin : ∃ body, e = .within body
  · obtain ⟨body, rfl⟩ := hwithin
    exact h.of_within hd hth hp
  · have hne : ∀ body, e ≠ .within body := fun body heq => hwithin ⟨body, heq⟩
    have hp' : svc.readCommitted.perform d.state (.plain e) a =
        some (r, { d.state with clock := w'.clock }) := by
      refine (performCall_plain hne d.state a).trans ?_
      rw [hworld, hp]
      rfl
    rw [steps_plain hne] at hth
    obtain ⟨d1, hd1, hstate1, hthreads1⟩ := hd.perform (fun _ => trivial) hth hp'
    refine ⟨d1, hd1, hthreads1, ?_⟩
    rw [hstate1]
    exact ⟨h.committed.trans (perform_store hne hp).symm, rfl, h.ended⟩

end Steps

theorem mirrored (svc : Service) (w : World) (c : Config) (h : svc.machine.Reach .any w c) :
    ∃ d, svc.readCommitted.Reach .any ⟨.initial w.store, w.clock⟩ d ∧ Mirrors c d := by
  induction h with
  | refl => exact ⟨_, .refl, rfl, rfl, rfl, by simp [Config.initial, Database.initial]⟩
  | start q _ _ ih =>
    obtain ⟨d, hd, hmirrors⟩ := ih
    refine ⟨_, hd.start q trivial, ?_, hmirrors.committed, hmirrors.clock, hmirrors.ended⟩
    simp [Machine.begin, hmirrors.threads, Service.readCommitted, Service.machine]
  | step i a _ hf _ ih =>
    obtain ⟨d, hd, hmirrors⟩ := ih
    obtain ⟨-, k, hk⟩ := Machine.fired_of_fire hf
    exact hmirrors.of_step hd hk

end IdentityService
