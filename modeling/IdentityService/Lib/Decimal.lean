import IdentityService.Lib.Encoding
import Mathlib.Data.List.Induction
import Mathlib.Data.List.TakeWhile

/-! Natural numbers as decimal digits in a byte string. -/

namespace IdentityService.Lib.Decimal

def isDigit (b : UInt8) : Bool := 48 ≤ b.toNat && b.toNat ≤ 57

def value (ds : List UInt8) : Nat := ds.foldl (fun n b => 10 * n + (b.toNat - 48)) 0

def digits (n : Nat) : List UInt8 := (Nat.toDigits 10 n).map (fun c => UInt8.ofNat c.toNat)

def scan (text : List UInt8) : Option (Nat × List UInt8) :=
  if text.takeWhile isDigit = [] then none
  else some (value (text.takeWhile isDigit), text.dropWhile isDigit)

structure IsNumeral (ds : List UInt8) : Prop where
  ne_nil : ds ≠ []
  isDigit : ∀ b ∈ ds, isDigit b = true

structure Canonical (ds : List UInt8) : Prop extends IsNumeral ds where
  head_ne : ds.head? ≠ some 48

theorem isDigit_iff {b : UInt8} : isDigit b = true ↔ 48 ≤ b.toNat ∧ b.toNat ≤ 57 := by
  simp [isDigit]

theorem value_append (ds : List UInt8) (b : UInt8) :
    value (ds ++ [b]) = 10 * value ds + (b.toNat - 48) := by
  simp [value]

theorem toNat_digit {d : Nat} (h : d < 10) :
    (UInt8.ofNat (Nat.digitChar d).toNat).toNat = 48 + d := by
  rw [Nat.toNat_digitChar_of_lt_ten h, UInt8.toNat_ofNat']
  omega

theorem digits_of_lt {n : Nat} {b : UInt8} (h : n < 10) (hb : b.toNat = 48 + n) :
    digits n = [b] := by
  rw [digits, Nat.toDigits_of_lt_base h, List.map_singleton, List.singleton_inj,
    ← UInt8.toNat_inj, toNat_digit h, hb]

theorem digits_of_ge {n : Nat} {b : UInt8} (h : 10 ≤ n) (hb : b.toNat = 48 + n % 10) :
    digits n = digits (n / 10) ++ [b] := by
  have hlt : n % 10 < 10 := Nat.mod_lt n (by decide)
  rw [digits, Nat.toDigits_eq_if (by decide), if_neg (Nat.not_lt.2 h), List.map_append, ← digits,
    List.map_singleton, List.append_cancel_left_eq, List.singleton_inj, ← UInt8.toNat_inj,
    toNat_digit hlt, hb]

theorem exists_digit {d : Nat} (h : d < 10) : ∃ b : UInt8, b.toNat = 48 + d :=
  ⟨_, toNat_digit h⟩

theorem value_digits (n : Nat) : value (digits n) = n := by
  induction n using Nat.strongRecOn with
  | ind n ih =>
    by_cases h : n < 10
    · obtain ⟨b, hb⟩ := exists_digit h
      rw [digits_of_lt h hb]
      simp [value, hb]
    · obtain ⟨b, hb⟩ := exists_digit (Nat.mod_lt n (by decide))
      rw [digits_of_ge (Nat.not_lt.1 h) hb, value_append, ih (n / 10) (by omega), hb]
      omega

theorem isNumeral_digits (n : Nat) : IsNumeral (digits n) := by
  induction n using Nat.strongRecOn with
  | ind n ih =>
    by_cases h : n < 10
    · obtain ⟨b, hb⟩ := exists_digit h
      rw [digits_of_lt h hb]
      refine ⟨List.cons_ne_nil _ _, List.forall_mem_singleton.2 (isDigit_iff.2 ?_)⟩
      omega
    · obtain ⟨b, hb⟩ := exists_digit (Nat.mod_lt n (by decide))
      have hlt : n % 10 < 10 := Nat.mod_lt n (by decide)
      rw [digits_of_ge (Nat.not_lt.1 h) hb]
      refine ⟨by simp, List.forall_mem_append.2 ⟨(ih (n / 10) (by omega)).isDigit,
        List.forall_mem_singleton.2 (isDigit_iff.2 ?_)⟩⟩
      omega

theorem canonical_digits {n : Nat} (hn : 0 < n) : Canonical (digits n) := by
  refine ⟨isNumeral_digits n, ?_⟩
  induction n using Nat.strongRecOn with
  | ind n ih =>
    by_cases h : n < 10
    · obtain ⟨b, hb⟩ := exists_digit h
      rw [digits_of_lt h hb, List.head?_cons, Ne, Option.some_inj, ← UInt8.toNat_inj, hb]
      have : (48 : UInt8).toNat = 48 := rfl
      omega
    · obtain ⟨b, hb⟩ := exists_digit (Nat.mod_lt n (by decide))
      rw [digits_of_ge (Nat.not_lt.1 h) hb,
        List.head?_append_of_ne_nil _ (isNumeral_digits (n / 10)).ne_nil]
      exact ih (n / 10) (by omega) (by omega)

theorem Canonical.digits_value {ds : List UInt8} (h : Canonical ds) : digits (value ds) = ds := by
  obtain ⟨⟨hne, hall⟩, hhead⟩ := h
  induction ds using List.reverseRecOn with
  | nil => cases hne rfl
  | append_singleton ds b ih =>
    obtain ⟨hds, hb⟩ := List.forall_mem_append.1 hall
    obtain ⟨hlo, hhi⟩ := isDigit_iff.1 (hb b (.head _))
    rw [value_append]
    by_cases hnil : ds = []
    · rw [hnil]
      exact digits_of_lt (by simp [value]; omega) (by simp [value]; omega)
    · rw [List.head?_append_of_ne_nil _ hnil] at hhead
      have hvalue := ih hhead hnil hds
      -- Without a leading zero the digits before the last are those of a positive number.
      have hpos : 0 < value ds := by
        refine Nat.pos_of_ne_zero fun hzero => hhead ?_
        rw [hzero, digits_of_lt (b := 48) (by decide) rfl] at hvalue
        rw [← hvalue]
        rfl
      rw [digits_of_ge (b := b) (by omega) (by omega),
        show (10 * value ds + (b.toNat - 48)) / 10 = value ds by omega, hvalue]

theorem scan_append {ds rest : List UInt8} (h : IsNumeral ds)
    (hrest : ∀ b ∈ rest.head?, isDigit b = false) : scan (ds ++ rest) = some (value ds, rest) := by
  have htake : (ds ++ rest).takeWhile isDigit = ds := by
    rw [List.takeWhile_append_of_pos h.isDigit]
    cases rest with
    | nil => simp
    | cons b rest => simp [hrest b rfl]
  have hdrop : (ds ++ rest).dropWhile isDigit = rest := by
    rw [List.dropWhile_append_of_pos h.isDigit]
    cases rest with
    | nil => rfl
    | cons b rest => simp [hrest b rfl]
  rw [scan, htake, hdrop, if_neg h.ne_nil]

end IdentityService.Lib.Decimal
