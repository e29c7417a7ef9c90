import Mathlib.Data.List.Basic

/-! The pages of a list. -/

namespace IdentityService.Lib

variable {ρ : Type}

def pageOf (rows : List ρ) (size n : Nat) : List ρ := (rows.drop ((n - 1) * size)).take size

def pageCount (total size : Nat) : Nat := (total + size - 1) / size

variable {rows : List ρ} {size : Nat}

theorem flatMap_pageOf (rows : List ρ) (size n : Nat) :
    (List.range n).flatMap (fun i => pageOf rows size (i + 1)) = rows.take (n * size) := by
  induction n with
  | zero => simp
  | succ n ih =>
    rw [List.range_succ, List.flatMap_append, ih, Nat.succ_mul, List.take_add]
    simp [pageOf]

theorem le_pageCount_mul (hsize : 0 < size) (total : Nat) :
    total ≤ pageCount total size * size := by
  have := Nat.div_add_mod (total + size - 1) size
  have := Nat.mod_lt (total + size - 1) hsize
  rw [pageCount, Nat.mul_comm]
  omega

theorem flatMap_pages (hsize : 0 < size) (rows : List ρ) :
    (List.range (pageCount rows.length size)).flatMap
      (fun i => pageOf rows size (i + 1)) = rows := by
  rw [flatMap_pageOf, List.take_of_length_le (le_pageCount_mul hsize _)]

theorem offset_lt_of_le_pageCount (hsize : 0 < size) {n total : Nat} (h0 : 1 ≤ n)
    (h : n ≤ pageCount total size) : (n - 1) * size < total := by
  have := Nat.div_mul_le_self (total + size - 1) size
  have hle : n * size ≤ pageCount total size * size := Nat.mul_le_mul_right size h
  rw [pageCount] at hle
  have : (n - 1) * size + size = n * size := by
    obtain ⟨n, rfl⟩ := Nat.exists_eq_add_of_le' h0
    rw [Nat.add_sub_cancel, Nat.succ_mul]
  omega

end IdentityService.Lib
