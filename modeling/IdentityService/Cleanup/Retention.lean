import IdentityService.Defs.Alone
import IdentityService.Lib.Batch

/-! The retention of sessions and challenges: what the cleaner deletes, alone and among others. -/

namespace IdentityService

open Lib Service
open Lib.Program (Along along_call total_bind total_perform)

theorem firstIDs_batch {ρ : Type} {order : ρ → Time} {key : ρ → String} {P : ρ → Bool} {limit : Nat}
    {rows : List ρ} (hkey : rows.Pairwise fun x y => key x ≠ key y) :
    Batch key P limit rows (firstIDs order key limit (rows.filter P)) := by
  have hperm := List.perm_insertionSort (fun a b => byKeyThenID order key a b) (rows.filter P)
  refine ⟨?_, ?_, ?_⟩
  · have hnodup : ((rows.filter P).map key).Nodup := List.pairwise_map.2 (hkey.filter P)
    exact ((hperm.map key).nodup_iff.2 hnodup).sublist ((List.take_sublist _ _).map key)
  · rw [firstIDs, List.length_map, List.length_take, hperm.length_eq, List.countP_eq_length_filter]
  · intro k hk
    obtain ⟨r, hr, rfl⟩ := List.mem_map.1 hk
    have hmem := List.mem_filter.1 (hperm.mem_iff.1 (List.mem_of_mem_take hr))
    exact ⟨r, hmem.1, hmem.2, rfl⟩

structure Retained (ρ : Type) [Constrained ρ] where
  get : Store → Table ρ
  set : Store → Table ρ → Store
  key : ρ → String
  get_set : ∀ s t, get (set s t) = t
  set_set : ∀ s t t', set (set s t) t' = set s t'
  set_get : ∀ s, set s (get s) = s
  clash_of_key : ∀ a b, key a = key b → Constrained.clash a b = true

namespace Retained

theorem clash_of_id {a b : Session} (h : a.id = b.id) : Constrained.clash a b = true := by
  simp [Constrained.clash, h]

def sessions : Retained Session where
  get s := s.sessions
  set s t := { s with sessions := t }
  key r := r.id
  get_set _ _ := rfl
  set_set _ _ _ := rfl
  set_get _ := rfl
  clash_of_key _ _ := clash_of_id

def mfaLoginChallenges : Retained MFALoginChallenge where
  get s := s.mfaLoginChallenges
  set s t := { s with mfaLoginChallenges := t }
  key r := r.tokenHash
  get_set _ _ := rfl
  set_set _ _ _ := rfl
  set_get _ := rfl
  clash_of_key a b h := by simp [Constrained.clash, h]

def passwordResetChallenges : Retained PasswordResetChallenge where
  get s := s.passwordResetChallenges
  set s t := { s with passwordResetChallenges := t }
  key r := r.tokenHash
  get_set _ _ := rfl
  set_set _ _ _ := rfl
  set_get _ := rfl
  clash_of_key a b h := by simp [Constrained.clash, h]

variable {ρ : Type} [Constrained ρ] (T : Retained ρ) (P : ρ → Bool)

def eligible (s : Store) : Nat := (T.get s).rows.countP P

structure Swept (s0 s : Store) : Prop where
  frame : s = T.set s0 (T.get s)
  kept : (T.get s).rows.filter (fun r => !P r) = (T.get s0).rows.filter (fun r => !P r)

structure BatchDeleted (s0 : Store) (limit : Nat) (s : Store) (n : Nat) (s' : Store) : Prop where
  swept : T.Swept P s0 s'
  count : n = min limit (T.eligible P s)
  remaining : T.eligible P s' + n = T.eligible P s

variable {T P} {svc : Service} {t : Time} {s0 s : Store}

theorem swept_refl : T.Swept P s s := ⟨(T.set_get s).symm, rfl⟩

theorem key_ne : (T.get s).rows.Pairwise fun x y => T.key x ≠ T.key y :=
  Table.pairwise_key_ne _ _ T.clash_of_key

theorem Swept.rows_eq (h : T.Swept P s0 s) (hnone : T.eligible P s = 0) :
    (T.get s).rows = (T.get s0).rows.filter (fun r => !P r) := by
  rw [← h.kept, eq_comm, List.filter_eq_self]
  intro r hr
  simpa using List.countP_eq_zero.1 hnone r hr

theorem Swept.delete (h : T.Swept P s0 s) (keys : List String) :
    T.Swept P s0 (T.set s ((T.get s).delete (deletion T.key P keys))) := by
  refine ⟨?_, ?_⟩
  · rw [h.frame, T.set_set, T.get_set, T.get_set]
  · rw [T.get_set, ← h.kept]
    exact filter_deletion

def Deletes (T : Retained ρ) (P : ρ → Bool) (svc : Service) (delete : List String → Tx Nat) :
    Prop :=
  ∀ keys s, (delete keys).run svc.lower s =
    .ok ((T.get s).rows.countP (deletion T.key P keys),
      T.set s ((T.get s).delete (deletion T.key P keys)))

theorem total_deleteBatch {delete : List String → Tx Nat} (hdelete : T.Deletes P svc delete)
    {limit : Nat} {keys : List String} {w : World} (h : T.Swept P s0 w.store)
    (hbatch : Batch T.key P limit (T.get w.store).rows keys) :
    (deleteBatch (.ok keys) delete).Total (svc.machine.Steps (Effect.Calm t))
      (fun n w' => T.BatchDeleted P s0 limit w.store n w'.store) 1 w := by
  have hlen := hbatch.length
  unfold deleteBatch
  by_cases hnil : keys = []
  · subst hnil
    exact ⟨h, hlen, rfl⟩
  · have hrun := hdelete keys w.store
    simp only [Program.expect, Program.ret_bind, hnil, if_false]
    refine total_perform ⟨_, _, (steps_within hrun).2 ⟨rfl, rfl⟩⟩ fun r w' hr => ?_
    obtain ⟨rfl, rfl⟩ := (steps_within hrun).1 hr
    rw [hbatch.countP_deletion T.key_ne]
    refine ⟨h.delete keys, hlen, ?_⟩
    rw [eligible, T.get_set]
    exact hbatch.countP_remaining T.key_ne

theorem total_cleanLoop {delete : Time → Nat → Prog Nat} {age : Time} {batchSize : Nat}
    (hbatch : 0 < batchSize)
    (hdelete : ∀ w : World, T.Swept P s0 w.store →
      (delete (t - age) batchSize).Total (svc.machine.Steps (Effect.Calm t))
        (fun n w' => T.BatchDeleted P s0 batchSize w.store n w'.store) 2 w)
    {fuel : Nat} {w : World} (h : T.Swept P s0 w.store) (hfuel : T.eligible P w.store < fuel) :
    (cleanLoop delete age batchSize fuel).Total (svc.machine.Steps (Effect.Calm t))
      (fun _ w' => T.Swept P s0 w'.store ∧ T.eligible P w'.store = 0)
      (3 * (T.eligible P w.store + 1)) w := by
  induction fuel generalizing w with
  | zero => omega
  | succ fuel ih =>
    have hbound : 3 * (T.eligible P w.store + 1) = 2 + 3 * T.eligible P w.store + 1 := by omega
    rw [hbound, cleanLoop]
    refine total_perform ⟨t, _, steps_now.2 ⟨rfl, rfl⟩⟩ fun r w' hr => ?_
    obtain ⟨rfl, rfl⟩ := steps_now.1 hr
    refine total_bind ((hdelete { w with clock := r } h).mono le_rfl ?_)
    rintro n w' ⟨hswept, hn, hless⟩
    have hn : n = min batchSize (T.eligible P w.store) := hn
    have hless : T.eligible P w'.store + n = T.eligible P w.store := hless
    split
    · exact ⟨hswept, by omega⟩
    · refine (ih hswept (by omega)).mono (by omega) fun _ _ h => h

theorem total_cleanLoop_bind {β : Type} {Ψ : β → World → Prop} {f : Unit → Prog β} {m : Nat}
    {delete : Time → Nat → Prog Nat} {age : Time} {batchSize fuel : Nat} {w : World}
    (hbatch : 0 < batchSize)
    (hdelete : ∀ w' : World, T.Swept P w.store w'.store →
      (delete (t - age) batchSize).Total (svc.machine.Steps (Effect.Calm t))
        (fun n w'' => T.BatchDeleted P w.store batchSize w'.store n w''.store) 2 w')
    (hfuel : T.eligible P w.store < fuel)
    (h : ∀ w' : World, w'.store = T.set w.store (T.get w'.store) →
      (T.get w'.store).rows = (T.get w.store).rows.filter (fun r => !P r) →
      (f ()).Total (svc.machine.Steps (Effect.Calm t)) Ψ m w') :
    (cleanLoop delete age batchSize fuel >>= f).Total (svc.machine.Steps (Effect.Calm t)) Ψ
      (3 * (T.eligible P w.store + 1) + m) w := by
  refine total_bind ((total_cleanLoop hbatch hdelete swept_refl hfuel).mono le_rfl ?_)
  rintro - w' ⟨hswept, hnone⟩
  exact h w' hswept.frame (hswept.rows_eq hnone)

end Retained

section Clean

variable {svc : Service} {t : Time} {s0 : Store} {before : Time} {limit : Nat} {w : World}

theorem total_deleteSessions (h : Retained.sessions.Swept (Session.outdated before) s0 w.store) :
    (deleteExpiredOrRevokedSessionsBefore before limit).Total (svc.machine.Steps (Effect.Calm t))
      (fun n w' => Retained.sessions.BatchDeleted (Session.outdated before) s0 limit w.store n
        w'.store) 2 w := by
  refine total_perform ⟨_, _, (steps_query rfl).2 ⟨rfl, rfl⟩⟩ fun r w' hr => ?_
  obtain ⟨rfl, rfl⟩ := (steps_query rfl).1 hr
  exact Retained.total_deleteBatch (fun _ _ => rfl) h (firstIDs_batch Retained.sessions.key_ne)

theorem total_deleteMFAChallenges
    (h : Retained.mfaLoginChallenges.Swept (fun c => c.expiresAt < before) s0 w.store) :
    (deleteExpiredMFAChallengesBefore before limit).Total (svc.machine.Steps (Effect.Calm t))
      (fun n w' => Retained.mfaLoginChallenges.BatchDeleted (fun c => c.expiresAt < before) s0
        limit w.store n w'.store) 2 w := by
  refine total_perform ⟨_, _, (steps_query rfl).2 ⟨rfl, rfl⟩⟩ fun r w' hr => ?_
  obtain ⟨rfl, rfl⟩ := (steps_query rfl).1 hr
  exact Retained.total_deleteBatch (fun _ _ => rfl) h
    (firstIDs_batch Retained.mfaLoginChallenges.key_ne)

theorem total_deletePasswordResetChallenges
    (h : Retained.passwordResetChallenges.Swept (fun c => c.expiresAt < before) s0 w.store) :
    (deleteExpiredPasswordResetChallengesBefore before limit).Total
      (svc.machine.Steps (Effect.Calm t))
      (fun n w' => Retained.passwordResetChallenges.BatchDeleted (fun c => c.expiresAt < before) s0
        limit w.store n w'.store) 2 w := by
  refine total_perform ⟨_, _, (steps_query rfl).2 ⟨rfl, rfl⟩⟩ fun r w' hr => ?_
  obtain ⟨rfl, rfl⟩ := (steps_query rfl).1 hr
  exact Retained.total_deleteBatch (fun _ _ => rfl) h
    (firstIDs_batch Retained.passwordResetChallenges.key_ne)

end Clean

namespace SessionCleaner

variable (cleaner : SessionCleaner) (t : Time)

def pending (s : Store) : Nat :=
  Retained.sessions.eligible (Session.outdated (t - cleaner.retention)) s +
    Retained.mfaLoginChallenges.eligible (fun c => c.expiresAt < t - 24 * Go.hour) s +
    Retained.passwordResetChallenges.eligible (fun c => c.expiresAt < t - 24 * Go.hour) s

structure Cleaned (s s' : Store) : Prop where
  sessions : s'.sessions.rows =
    s.sessions.rows.filter (fun r => !r.outdated (t - cleaner.retention))
  mfaLoginChallenges : s'.mfaLoginChallenges.rows =
    s.mfaLoginChallenges.rows.filter (fun c => !decide (c.expiresAt < t - 24 * Go.hour))
  passwordResetChallenges : s'.passwordResetChallenges.rows =
    s.passwordResetChallenges.rows.filter (fun c => !decide (c.expiresAt < t - 24 * Go.hour))
  rest : s' = { s with
    sessions := s'.sessions, mfaLoginChallenges := s'.mfaLoginChallenges,
    passwordResetChallenges := s'.passwordResetChallenges }

variable {cleaner t}

theorem total_clean {svc : Service} (hbatch : 0 < cleaner.batchSize) {w : World} {fuel : Nat}
    (hfuel : cleaner.pending t w.store < fuel) :
    (svc.program (.clean cleaner fuel)).Total (svc.machine.Steps (Effect.Calm t))
      (fun reply w' => reply = .done ∧ cleaner.Cleaned t w.store w'.store)
      (3 * (cleaner.pending t w.store + 3)) w := by
  have hbound : 3 * (cleaner.pending t w.store + 3) =
      3 * (Retained.sessions.eligible (Session.outdated (t - cleaner.retention)) w.store + 1) +
      (3 * (Retained.mfaLoginChallenges.eligible (fun c => c.expiresAt < t - 24 * Go.hour)
        w.store + 1) +
      (3 * (Retained.passwordResetChallenges.eligible (fun c => c.expiresAt < t - 24 * Go.hour)
        w.store + 1) + 0)) := by
    unfold pending
    omega
  unfold pending at hfuel
  rw [hbound]
  simp only [program, clean, bind_assoc]
  refine Retained.total_cleanLoop_bind hbatch (fun _ => total_deleteSessions) (by omega) ?_
  intro w1 hframe1 hrows1
  have hmfa : Retained.mfaLoginChallenges.eligible (fun c => c.expiresAt < t - 24 * Go.hour)
      w1.store = Retained.mfaLoginChallenges.eligible (fun c => c.expiresAt < t - 24 * Go.hour)
        w.store := by rw [hframe1]; rfl
  rw [← hmfa]
  refine Retained.total_cleanLoop_bind hbatch (fun _ => total_deleteMFAChallenges) (by omega) ?_
  intro w2 hframe2 hrows2
  have hreset : Retained.passwordResetChallenges.eligible (fun c => c.expiresAt < t - 24 * Go.hour)
      w2.store = Retained.passwordResetChallenges.eligible (fun c => c.expiresAt < t - 24 * Go.hour)
        w.store := by rw [hframe2, hframe1]; rfl
  rw [← hreset]
  refine Retained.total_cleanLoop_bind hbatch (fun _ => total_deletePasswordResetChallenges)
    (by omega) ?_
  intro w3 hframe3 hrows3
  have hsessions : w3.store.sessions = w1.store.sessions := by
    rw [hframe3, hframe2]
    rfl
  have hmfa : w3.store.mfaLoginChallenges = w2.store.mfaLoginChallenges := by
    rw [hframe3]
    rfl
  refine ⟨rfl, by rw [hsessions]; exact hrows1, ?_, ?_, ?_⟩
  · rw [hmfa]
    refine hrows2.trans ?_
    rw [hframe1]
    rfl
  · refine hrows3.trans ?_
    rw [hframe2, hframe1]
    rfl
  · rw [hsessions, hmfa, hframe3, hframe2, hframe1]
    rfl

variable (cleaner t)

structure DeletesOutdated (s s' : Store) : Prop where
  sessions : DeletedOnly (Session.outdated (t - cleaner.retention)) s.sessions.rows s'.sessions.rows
  mfaLoginChallenges : DeletedOnly (fun c => c.expiresAt < t - 24 * Go.hour)
    s.mfaLoginChallenges.rows s'.mfaLoginChallenges.rows
  passwordResetChallenges : DeletedOnly (fun c => c.expiresAt < t - 24 * Go.hour)
    s.passwordResetChallenges.rows s'.passwordResetChallenges.rows
  rest : s' = { s with
    sessions := s'.sessions, mfaLoginChallenges := s'.mfaLoginChallenges,
    passwordResetChallenges := s'.passwordResetChallenges }

def Deletion (body : Tx Nat) : Prop :=
  ∃ keys, body = Repository.deleteSessions keys (t - cleaner.retention) ∨
    body = Repository.deleteMFAChallenges keys (t - 24 * Go.hour) ∨
    body = Repository.deletePasswordResetChallenges keys (t - 24 * Go.hour)

def CutoffSpec (acts : List Act) : (e : Effect) → e.Res → Prog Reply → Prop
  | .within body, _, _ => ∃ now, acts.findSome? Act.time = some now ∧ cleaner.Deletion now body
  | _, _, _ => True

variable {cleaner t}

theorem Deletion.deletesOutdated {svc : Service} {body : Tx Nat} (h : cleaner.Deletion t body)
    {s s' : Store} {n : Nat} (hrun : body.run svc.lower s = .ok (n, s')) :
    cleaner.DeletesOutdated t s s' := by
  obtain ⟨keys, rfl | rfl | rfl⟩ := h
  · have hdelete : Retained.sessions.Deletes (Session.outdated (t - cleaner.retention)) svc
      (Repository.deleteSessions · (t - cleaner.retention)) := fun _ _ => rfl
    cases (hdelete keys s).symm.trans hrun
    exact ⟨deletedOnly_filter, deletedOnly_refl, deletedOnly_refl, rfl⟩
  · have hdelete : Retained.mfaLoginChallenges.Deletes (fun c => c.expiresAt < t - 24 * Go.hour) svc
      (Repository.deleteMFAChallenges · (t - 24 * Go.hour)) := fun _ _ => rfl
    cases (hdelete keys s).symm.trans hrun
    exact ⟨deletedOnly_refl, deletedOnly_filter, deletedOnly_refl, rfl⟩
  · have hdelete : Retained.passwordResetChallenges.Deletes
      (fun c => c.expiresAt < t - 24 * Go.hour) svc
      (Repository.deletePasswordResetChallenges · (t - 24 * Go.hour)) := fun _ _ => rfl
    cases (hdelete keys s).symm.trans hrun
    exact ⟨deletedOnly_refl, deletedOnly_refl, deletedOnly_filter, rfl⟩

theorem DeletesOutdated.live {s s' : Store} (h : cleaner.DeletesOutdated t s s')
    (hretention : 0 < cleaner.retention) {r : Session} (hr : r ∈ s.sessions.rows)
    (hrevoked : r.revokedAt = none) (hexpires : t ≤ r.expiresAt) : r ∈ s'.sessions.rows := by
  by_contra hnot
  have hout := h.sessions.deleted r hr hnot
  simp only [Session.outdated, hrevoked, decide_eq_true_eq] at hout
  exact absurd (hout.trans (Int.sub_lt_self t hretention)) (not_lt.2 hexpires)

theorem clean_cutoff (svc : Service) (cleaner : SessionCleaner) (fuel : Nat) :
    Along cleaner.CutoffSpec [] (svc.program (.clean cleaner fuel)) :=
  along_clean svc (fun _ _ _ => trivial) (fun _ _ _ _ => trivial)
    fun _ now _ _ _ _ _ hbody => ⟨now, rfl, hbody⟩

section Runs

variable {svc : Service} {π : Policy} {w : World} {c d : Config} {ev : Event}
  {k : ev.call.Res → Prog Reply} {a : Answer} {fuel : Nat}

theorem deletesOutdated_of_step (h : svc.machine.Reach π w c) (hf : svc.machine.Fired c ev d k a)
    (hop : ev.request = .clean cleaner fuel) :
    d.state.store = c.state.store ∨ ∃ now, (c.actsOf ev.thread).findSome? Act.time = some now ∧
      cleaner.DeletesOutdated now c.state.store d.state.store := by
  obtain ⟨body, n, next, hcom⟩ | hstore := committed_or_store_eq h hf
  case inr => exact .inl hstore
  have halong := (hop ▸ clean_cutoff svc cleaner fuel).of_path (h.path hf.thread)
  have hspec := ((along_call _ _).1 halong ev.answer).1
  have hact := hcom.act
  obtain ⟨i, q, e, r, s, s', o⟩ := ev
  cases hact
  obtain ⟨now, htime, hdeletion⟩ := hspec
  exact .inr ⟨now, htime, hdeletion.deletesOutdated hcom.run⟩

theorem clock_of_findSome {acts : List Act} {now : Time}
    (h : acts.findSome? Act.time = some now) : Act.clock now ∈ acts := by
  obtain ⟨x, hx, htime⟩ := List.exists_of_findSome?_eq_some h
  obtain ⟨e, r⟩ := x
  cases e <;> cases htime
  exact hx

end Runs

end SessionCleaner

/-- Alone the cleaner ends after a number of steps that its fuel does not matter for, and has
deleted just the outdated rows.  Among other calls it deletes only rows that are outdated at that
moment, and no session that is live. -/
theorem cleanup_exact_and_safe (svc : Service) (cleaner : SessionCleaner)
    (hbatch : 1 ≤ cleaner.batchSize) (hretention : 0 < cleaner.retention) :
    (∀ (t : Time) (w : World) (fuel : Nat), cleaner.pending t w.store < fuel →
      svc.machine.Terminates (Effect.Calm t) (.clean cleaner fuel) w
        (3 * (cleaner.pending t w.store + 3))
        (fun reply w' => reply = .done ∧ cleaner.Cleaned t w.store w'.store)) ∧
    (∀ (w : World) (c : Config) (later earlier : List Event) (ev : Event) (fuel : Nat),
      svc.machine.Reach .any w c → c.history = later ++ ev :: earlier →
      ev.request = .clean cleaner fuel →
      ev.after.store = ev.before.store ∨
        ∃ now, (threadActs earlier ev.thread).findSome? Act.time = some now ∧
          cleaner.DeletesOutdated now ev.before.store ev.after.store ∧
          ∀ r ∈ ev.before.store.sessions.rows, r.revokedAt = none → now ≤ r.expiresAt →
            r ∈ ev.after.store.sessions.rows) ∧
    (∀ (w : World) (c : Config) (ev : Event) (fuel : Nat),
      svc.machine.Reach Policy.monotone w c → ev ∈ c.history →
      ev.request = .clean cleaner fuel →
      ∀ r ∈ ev.before.store.sessions.rows, r.revokedAt = none → ev.before.clock < r.expiresAt →
        r ∈ ev.after.store.sessions.rows) := by
  refine ⟨?_, ?_, ?_⟩
  · intro t w fuel hfuel
    exact Machine.terminates_of_total (SessionCleaner.total_clean hbatch hfuel)
  · intro w c later earlier ev fuel hc hsplit hop
    obtain ⟨c0, c1, k, a, h0, rfl, hf, -, -⟩ := hc.event_split hsplit
    have hstep := SessionCleaner.deletesOutdated_of_step h0 hf hop
    rw [hf.state, ← hf.before] at hstep
    refine hstep.imp_right fun ⟨now, htime, hdeletes⟩ => ⟨now, htime, hdeletes, ?_⟩
    intro r hr hrevoked hexpires
    exact hdeletes.live hretention hr hrevoked hexpires
  · intro w c ev fuel hc hev hop r hr hrevoked hexpires
    obtain ⟨c0, c1, k, a, h0, hf, -, -⟩ := hc.event_of_mem hev
    have hstep := SessionCleaner.deletesOutdated_of_step h0 hf hop
    rw [hf.before] at hr hexpires
    rw [← hf.state]
    obtain hstore | ⟨now, htime, hdeletes⟩ := hstep
    · rw [hstore]
      exact hr
    · have hle := time_le h0 (SessionCleaner.clock_of_findSome htime)
      exact hdeletes.live hretention hr hrevoked (hle.trans hexpires.le)

theorem cleanup_exact_and_safe_signed_in : ∃ (cleaner : SessionCleaner) (t : Time) (w : World)
    (d : Config), w.store.sessions.rows.length = 1 ∧
    (sample [] none).machine.Run (.answering (Effect.Calm t))
      ((sample [] none).machine.begin (.initial w) (.clean cleaner 2)) d ∧
    d.threads = [⟨.clean cleaner 2, .ret .done⟩] ∧ d.history.length ≤ 12 ∧
    d.state.store.sessions.rows = [] := by
  let cleaner : SessionCleaner := ⟨30 * 24 * Go.hour, 1⟩
  let t : Time := 100 * 24 * Go.hour
  obtain ⟨c, -, hone, hpending, hout⟩ : ∃ c : Config,
      (sample [] none).machine.Reach .any (start 0) c ∧
      c.state.store.sessions.rows.length = 1 ∧ cleaner.pending t c.state.store = 1 ∧
      ∀ r ∈ c.state.store.sessions.rows, r.outdated (t - cleaner.retention) = true :=
    Machine.replay_exists sample.signIn (by decide +kernel)
  obtain ⟨hterminates, -⟩ :=
    cleanup_exact_and_safe (sample [] none) cleaner (by decide) (by decide)
  have hterminates := hterminates t c.state 2 (by rw [hpending]; decide)
  obtain ⟨d, reply, hd, hthreads⟩ := hterminates.completes _ .refl
  obtain ⟨_, hreply, rfl, hcleaned⟩ := hterminates.result d _ _ hd hthreads rfl
  cases hreply
  refine ⟨cleaner, t, c.state, d, hone, hd, hthreads, ?_, ?_⟩
  · have hbound := hterminates.bounded d hd
    rwa [hpending] at hbound
  · rw [hcleaned.sessions, List.filter_eq_nil_iff]
    intro r hr
    simp [hout r hr]

end IdentityService
