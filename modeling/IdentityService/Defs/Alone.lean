import IdentityService.Defs.System
import IdentityService.Lib.Total

/-! An operation that has the service to itself. -/

namespace IdentityService

open Lib Service
open Lib.Program (resolves_perform)

/-- Nothing fails, and the clock stands still. -/
def Effect.Calm (t : Time) : (e : Effect) → e.Res → Prop
  | .query _, r => ∃ row, r = .ok row
  | .within _, r => ∃ n, r = .ok n
  | .now, r => r = t
  | .draw _, r => r ≠ none
  | .sign _, r => r ≠ none

def Effect.Faultless (t : Time) : (e : Effect) → e.Res → Prop
  | .query _, r => ∀ err, r = .error err → err = .notFound
  | e, r => e.Calm t r

section Steps

variable {svc : Service} {t : Time} {w w' : World}

theorem steps_now {r : Time} : svc.machine.Steps (Effect.Calm t) w .now r w' ↔
    r = t ∧ w' = { w with clock := t } := by
  constructor
  · rintro ⟨rfl, a, hperf⟩
    exact ⟨rfl, perform_now hperf⟩
  · rintro ⟨rfl, rfl⟩
    exact ⟨rfl, .time r, rfl⟩

theorem steps_select {q : Query} {r : Except RepositoryError q.Row} :
    svc.machine.Steps (Effect.Calm t) w (.query q) r w' ↔
      ∃ row ∈ w.store.select svc.lower q, r = .ok row ∧ w' = w := by
  constructor
  · rintro ⟨⟨row, rfl⟩, a, hperf⟩
    obtain ⟨rfl, hrow, -⟩ := perform_query hperf
    exact ⟨row, hrow row rfl, rfl, rfl⟩
  · rintro ⟨row, hrow, rfl, rfl⟩
    obtain ⟨n, hn⟩ := List.mem_iff_getElem?.1 hrow
    refine ⟨⟨row, rfl⟩, .row n, ?_⟩
    simp only [Service.machine, Service.perform]
    split
    · rename_i hnil
      rw [hnil] at hrow
      cases hrow
    · rw [hn]
      rfl

theorem steps_found {q : Query} {r : Except RepositoryError q.Row} :
    svc.machine.Steps (Effect.Faultless t) w (.query q) r w' ↔
      (∃ row ∈ w.store.select svc.lower q, r = .ok row ∧ w' = w) ∨
        w.store.select svc.lower q = [] ∧ r = .error .notFound ∧ w' = w := by
  constructor
  · rintro ⟨hok, a, hperf⟩
    obtain ⟨rfl, hrow, hnone⟩ := perform_query hperf
    cases r with
    | ok row => exact .inl ⟨row, hrow row rfl, rfl, rfl⟩
    | error err =>
      obtain rfl := hok err rfl
      exact .inr ⟨hnone rfl, rfl, rfl⟩
  · rintro (hrow | ⟨hnil, rfl, rfl⟩)
    · obtain ⟨⟨row, rfl⟩, hperf⟩ := steps_select (t := t).2 hrow
      exact ⟨fun _ h => (nomatch h), hperf⟩
    · refine ⟨fun _ h => (Except.error.inj h).symm, .row 0, ?_⟩
      simp [Service.machine, Service.perform, hnil]

theorem steps_query {q : Query} {row : q.Row} (hselect : w.store.select svc.lower q = [row])
    {r : Except RepositoryError q.Row} :
    svc.machine.Steps (Effect.Calm t) w (.query q) r w' ↔ r = .ok row ∧ w' = w := by
  simp [steps_select, hselect]

theorem steps_within {body : Tx Nat} {n : Nat} {s : Store}
    (hrun : body.run svc.lower w.store = .ok (n, s)) {r : Except RepositoryError Nat} :
    svc.machine.Steps (Effect.Calm t) w (.within body) r w' ↔
      r = .ok n ∧ w' = { w with store := s } := by
  constructor
  · rintro ⟨⟨n', rfl⟩, a, hperf⟩
    obtain ⟨m, hm, hrun', hclock⟩ | ⟨⟨e, he⟩, -⟩ := perform_within hperf
    · cases hm
      cases hrun.symm.trans hrun'
      exact ⟨rfl, by rw [← hclock]⟩
    · cases he
  · rintro ⟨rfl, rfl⟩
    exact ⟨⟨n, rfl⟩, .done, by simp [Service.machine, Service.perform, hrun]⟩

end Steps

section Resolves

variable {α : Type} {svc : Service} {t : Time} {w : World} {n : Nat}
  {Ψ : Except AppError α → World → Prop}

theorem resolves_now {f : Time → Prog α}
    (h : (f t).Resolves (svc.machine.Steps (Effect.Calm t)) Ψ n { w with clock := t }) :
    (now >>= f).Resolves (svc.machine.Steps (Effect.Calm t)) Ψ (n + 1) w := by
  refine resolves_perform ⟨t, _, steps_now.2 ⟨rfl, rfl⟩⟩ fun r w' hr => ?_
  obtain ⟨rfl, rfl⟩ := steps_now.1 hr
  exact h

theorem resolves_select {q : Query} {g : RepositoryError → AppError} {f : q.Row → Prog α}
    (hsome : w.store.select svc.lower q ≠ [])
    (h : ∀ row ∈ w.store.select svc.lower q,
      (f row).Resolves (svc.machine.Steps (Effect.Calm t)) Ψ n w) :
    (query q >>= fun r => Program.expect g r >>= f).Resolves (svc.machine.Steps (Effect.Calm t))
      Ψ (n + 1) w := by
  obtain ⟨row, hrow⟩ := List.exists_mem_of_ne_nil _ hsome
  refine resolves_perform ⟨_, _, steps_select.2 ⟨row, hrow, rfl, rfl⟩⟩ fun r w' hr => ?_
  obtain ⟨row, hrow, rfl, rfl⟩ := steps_select.1 hr
  exact h row hrow

theorem resolves_read {q : Query} {row : q.Row} {g : RepositoryError → AppError}
    {f : q.Row → Prog α} (hselect : w.store.select svc.lower q = [row])
    (h : (f row).Resolves (svc.machine.Steps (Effect.Calm t)) Ψ n w) :
    (query q >>= fun r => Program.expect g r >>= f).Resolves (svc.machine.Steps (Effect.Calm t))
      Ψ (n + 1) w := by
  refine resolves_select (by simp [hselect]) fun row' hrow' => ?_
  rw [hselect, List.mem_singleton] at hrow'
  exact hrow' ▸ h

end Resolves

end IdentityService
