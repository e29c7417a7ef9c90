import IdentityService.Lib.Table

/-! Conditions on single rows, and the statements that keep every row of a table within one. -/

namespace IdentityService.Lib

variable {ρ : Type} {P Q : ρ → Prop}

namespace Statement

def Preserves (P : ρ → Prop) : Statement ρ → Prop
  | .insert r => P r
  | .update u => ∀ r, P r → u.guard r = true → P (u.assign r)
  | .delete _ => True

end Statement

theorem Update.forall_mem_map {u : Update ρ} {rows : List ρ}
    (hu : ∀ r, P r → u.guard r = true → P (u.assign r)) (h : ∀ r ∈ rows, P r) :
    ∀ r ∈ rows.map u.apply, P r := by
  intro r hr
  obtain ⟨hr, -⟩ | ⟨old, hold, hguard, rfl⟩ := Update.mem_map_apply.1 hr
  · exact h r hr
  · exact hu old (h old hold) hguard

theorem Table.forall_of_run [Constrained ρ] {t t' : Table ρ} {q : Statement ρ} {n : Nat}
    (hrun : t.run q = some (n, t')) (hq : q.Preserves P) (h : ∀ r ∈ t.rows, P r) :
    ∀ r ∈ t'.rows, P r := by
  cases q with
  | insert r =>
    rw [(Table.run_insert.1 hrun).2]
    simp only [List.mem_append, List.mem_singleton]
    rintro x (hx | rfl)
    · exact h x hx
    · exact hq
  | update u =>
    rw [(Table.run_update.1 hrun).2]
    exact Update.forall_mem_map hq h
  | delete guard =>
    rw [(Table.run_delete.1 hrun).2]
    exact fun r hr => h r ((List.mem_filter.1 hr).1)

end IdentityService.Lib
