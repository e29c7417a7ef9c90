import IdentityService.Lib.Table

/-! Deleting the rows of a table that qualify, a batch of keys at a time. -/

namespace IdentityService.Lib

variable {ρ κ : Type} [DecidableEq κ]

structure Batch (key : ρ → κ) (P : ρ → Bool) (limit : Nat) (rows : List ρ) (keys : List κ) :
    Prop where
  nodup : keys.Nodup
  length : keys.length = min limit (rows.countP P)
  sound : ∀ k ∈ keys, ∃ r ∈ rows, P r = true ∧ key r = k

structure DeletedOnly (P : ρ → Bool) (rows rows' : List ρ) : Prop where
  sublist : rows'.Sublist rows
  deleted : ∀ r ∈ rows, r ∉ rows' → P r = true

def deletion (key : ρ → κ) (P : ρ → Bool) (keys : List κ) (r : ρ) : Bool :=
  decide (key r ∈ keys) && P r

section Deletion

variable {key : ρ → κ} {P : ρ → Bool} {limit : Nat} {rows : List ρ} {keys : List κ}

theorem deletedOnly_refl : DeletedOnly P rows rows :=
  ⟨.refl rows, fun _ hr hnot => absurd hr hnot⟩

theorem deletedOnly_filter :
    DeletedOnly P rows (rows.filter (fun r => !deletion key P keys r)) where
  sublist := List.filter_sublist
  deleted r hr hnot := by
    simp only [deletion, List.mem_filter, Bool.not_eq_true', not_and, Bool.not_eq_false,
      Bool.and_eq_true] at hnot
    exact (hnot hr).2

theorem filter_deletion : (rows.filter (fun r => !deletion key P keys r)).filter (fun r => !P r) =
    rows.filter (fun r => !P r) := by
  rw [List.filter_filter]
  refine List.filter_congr fun r _ => ?_
  cases hP : P r <;> simp [deletion, hP]

theorem Batch.countP_deletion (h : Batch key P limit rows keys)
    (hkey : rows.Pairwise fun x y => key x ≠ key y) :
    rows.countP (deletion key P keys) = keys.length := by
  rw [List.countP_eq_length_filter, ← List.length_map key]
  refine List.Perm.length_eq ((List.perm_ext_iff_of_nodup ?_ h.nodup).2 fun k => ?_)
  · exact List.pairwise_map.2 (hkey.filter _)
  · simp only [List.mem_map, List.mem_filter, deletion, Bool.and_eq_true, decide_eq_true_eq]
    constructor
    · rintro ⟨r, ⟨-, hk, -⟩, rfl⟩
      exact hk
    · intro hk
      obtain ⟨r, hr, hP, rfl⟩ := h.sound k hk
      exact ⟨r, ⟨hr, hk, hP⟩, rfl⟩

theorem Batch.countP_remaining (h : Batch key P limit rows keys)
    (hkey : rows.Pairwise fun x y => key x ≠ key y) :
    (rows.filter (fun r => !deletion key P keys r)).countP P + keys.length = rows.countP P := by
  rw [← h.countP_deletion hkey, List.countP_eq_countP_filter_add rows P (deletion key P keys),
    Nat.add_comm]
  congr 1
  rw [List.countP_filter]
  exact List.countP_congr fun r _ => by simp [deletion]

end Deletion

end IdentityService.Lib
