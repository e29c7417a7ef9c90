import IdentityService.Defs.Crypto
import IdentityService.Lib.Encoding

/-! The text encodings of the standard library that the service reads back. -/

namespace IdentityService

open Lib

section Upper

theorem toNat_toUpper (c : Char) :
    c.toUpper.toNat = if 97 ≤ c.toNat ∧ c.toNat ≤ 122 then c.toNat - 32 else c.toNat := by
  unfold Char.toUpper
  by_cases h : 'a'.val ≤ c.val ∧ c.val ≤ 'z'.val
  · have hlo : 97 ≤ c.toNat := h.1
    have hhi : c.toNat ≤ 122 := h.2
    have hval : (c.val + ('A'.val - 'a'.val)).toNat = (c.toNat + 4294967264) % 2 ^ 32 :=
      UInt32.toNat_add _ _
    rw [dif_pos h, if_pos ⟨hlo, hhi⟩]
    refine hval.trans ?_
    omega
  · have hrange : ¬(97 ≤ c.toNat ∧ c.toNat ≤ 122) := h
    rw [dif_neg h, if_neg hrange]

def Plain (c : Char) : Prop := 33 ≤ c.toNat ∧ c.toNat < 127

theorem plain_of_toUpper {c : Char} : Plain c.toUpper → Plain c := by
  rw [Plain, Plain, toNat_toUpper]
  split
  · omega
  · exact id

theorem Plain.toUpper {c : Char} : Plain c → Plain c.toUpper := by
  rw [Plain, Plain, toNat_toUpper]
  split
  · omega
  · exact id

theorem Plain.isSpace {c : Char} (h : Plain c) : Go.isSpace c = false := by
  have hlo : 33 ≤ c.toNat := h.1
  have hhi : c.toNat < 127 := h.2
  simp only [Go.isSpace, List.mem_cons, List.not_mem_nil, or_false, Bool.or_eq_false_iff,
    decide_eq_false_iff_not, Bool.and_eq_false_imp, decide_eq_true_eq]
  omega

theorem toUpper_eq_hyphen {c : Char} : c.toUpper = '-' ↔ c = '-' := by
  rw [← Char.toNat_inj, ← Char.toNat_inj, toNat_toUpper]
  have : '-'.toNat = 45 := rfl
  split <;> omega

end Upper

structure UpperCase (toUpper : String → String) : Prop where
  ascii : ∀ s, (∀ c ∈ s.toList, c.toNat < 128) →
    toUpper s = String.ofList (s.toList.map Char.toUpper)

def isLineBreak (c : Char) : Bool := c = '\r' || c = '\n'

namespace Base64

def letters (last : List Char) : List Char :=
  run 'A' 26 ++ run 'a' 26 ++ run '0' 10 ++ last
where
  run (first : Char) (n : Nat) : List Char :=
    (List.range n).map (fun i => Char.ofNat (first.toNat + i))

def std : List Char := letters ['+', '/']

def url : List Char := letters ['-', '_']

theorem isLineBreak_url : ∀ c ∈ url, isLineBreak c = false := by
  have hnone : url.any isLineBreak = false := rfl
  simpa using hnone

def rawURL : Alphabet Char 64 :=
  .ofLetters url rfl (by decide +kernel) isLineBreak isLineBreak_url

def rawStd : Alphabet UInt8 64 :=
  .ofLetters (std.map (fun c => UInt8.ofNat c.toNat)) rfl (by decide +kernel)
    (fun b => b = 0x0D || b = 0x0A) (by decide +kernel)

end Base64

namespace Base32

def quintets : Bytes → List Nat
  | a :: b :: c :: d :: e :: rest =>
    full a b c d ++ [d.toNat % 4 * 8 + e.toNat / 32, e.toNat % 32] ++ quintets rest
  | [a, b, c, d] => full a b c d ++ [d.toNat % 4 * 8]
  | [a, b, c] => (full a b c 0).take 5
  | [a, b] => (full a b 0 0).take 4
  | [a] => (full a 0 0 0).take 2
  | [] => []
where
  full (a b c d : UInt8) : List Nat :=
    [a.toNat / 8, a.toNat % 8 * 4 + b.toNat / 64, b.toNat / 2 % 32,
      b.toNat % 2 * 16 + c.toNat / 16, c.toNat % 16 * 2 + d.toNat / 128, d.toNat / 4 % 32]

def symbol (v : Nat) : Char := if v < 26 then Char.ofNat (65 + v) else Char.ofNat (24 + v)

def encode (b : Bytes) : String := String.ofList ((quintets b).map symbol)

theorem symbol_of_value {c : Char} {v : Nat} (h : value c = some v) : v < 32 ∧ symbol v = c := by
  unfold value at h
  split at h
  · rename_i hc
    have hlo : 65 ≤ c.toNat := hc.1
    have hhi : c.toNat ≤ 90 := hc.2
    cases h
    have hv : c.toNat - 'A'.toNat = c.toNat - 65 := rfl
    rw [hv, symbol, if_pos (by omega), Nat.add_sub_cancel' hlo, Char.ofNat_toNat]
    exact ⟨by omega, rfl⟩
  · obtain ⟨hc, hv⟩ := Option.ite_none_right_eq_some.1 h
    have hlo : 50 ≤ c.toNat := hc.1
    have hhi : c.toNat ≤ 55 := hc.2
    cases hv
    have hv : c.toNat - '2'.toNat + 26 = c.toNat - 24 := by
      have : '2'.toNat = 50 := rfl
      omega
    rw [hv, symbol, if_neg (by omega), Nat.add_sub_cancel' (by omega), Char.ofNat_toNat]
    exact ⟨by omega, rfl⟩

def alphabet : Alphabet Char 32 where
  symbol := symbol
  value := value
  skipped := isLineBreak
  value_symbol := by decide +kernel
  symbol_value _ _ := symbol_of_value
  not_skipped := by decide +kernel

theorem encode_eq (b : Bytes) : encode b = String.ofList (alphabet.text (quintets b)) := rfl

theorem decode_eq (s : String) : decode s = (alphabet.values s.toList).map groups := by
  have hkept : (fun c : Char => c ≠ '\r' && c ≠ '\n') = fun c => !alphabet.skipped c := by
    funext c
    simp [alphabet, isLineBreak]
  rw [decode, Alphabet.values, ← hkept]
  rfl

theorem full_lt (a b c d : UInt8) : ∀ v ∈ quintets.full a b c d, v < 32 := by
  have := a.toNat_lt
  have := b.toNat_lt
  have := c.toNat_lt
  have := d.toNat_lt
  simp only [quintets.full, List.forall_mem_cons]
  exact ⟨by omega, by omega, by omega, by omega, by omega, by omega, List.forall_mem_nil _⟩

theorem quintets_lt (b : Bytes) : ∀ v ∈ quintets b, v < 32 := by
  fun_induction quintets b with
  | case1 a b c d e rest ih =>
    have := d.toNat_lt
    have := e.toNat_lt
    simp only [List.forall_mem_append, List.forall_mem_cons]
    exact ⟨⟨full_lt a b c d, by omega, by omega, List.forall_mem_nil _⟩, ih⟩
  | case2 a b c d =>
    have := d.toNat_lt
    simp only [List.forall_mem_append, List.forall_mem_cons]
    exact ⟨full_lt a b c d, by omega, List.forall_mem_nil _⟩
  | case3 a b c => exact fun v hv => full_lt a b c 0 v (List.mem_of_mem_take hv)
  | case4 a b => exact fun v hv => full_lt a b 0 0 v (List.mem_of_mem_take hv)
  | case5 a => exact fun v hv => full_lt a 0 0 0 v (List.mem_of_mem_take hv)
  | case6 => exact List.forall_mem_nil _

theorem group5_full (a b c d : UInt8) {v : Nat} (hv : v / 8 = d.toNat % 4) :
    group.group5 (quintets.full a b c d ++ [v]) = [a, b, c, d] := by
  have := a.toNat_lt
  have := b.toNat_lt
  have := c.toNat_lt
  have := d.toNat_lt
  simp only [quintets.full, List.cons_append, List.nil_append, group.group5]
  rw [ofNat_eq_of_mod (a := a), ofNat_eq_of_mod (a := b), ofNat_eq_of_mod (a := c),
    ofNat_eq_of_mod (a := d)]
  all_goals omega

theorem groups_quintets (b : Bytes) : groups (quintets b) = b := by
  fun_induction quintets b with
  | case1 a b c d e rest ih =>
    have := d.toNat_lt
    have := e.toNat_lt
    have hlast : UInt8.ofNat ((d.toNat % 4 * 8 + e.toNat / 32) * 32 + e.toNat % 32) = e :=
      ofNat_eq_of_mod (by omega)
    have hfirst := group5_full a b c d (v := d.toNat % 4 * 8 + e.toNat / 32) (by omega)
    simp only [quintets.full, List.cons_append, List.nil_append] at hfirst ⊢
    rw [groups, group, hfirst, hlast, ih]
    rfl
  | case2 a b c d => exact group5_full a b c d (by omega)
  | case3 a b c =>
    have := a.toNat_lt
    have := b.toNat_lt
    have := c.toNat_lt
    simp only [quintets.full, List.take_succ_cons, List.take_zero, groups, group, group.group5,
      UInt8.toNat_zero]
    rw [ofNat_eq_of_mod (a := a), ofNat_eq_of_mod (a := b), ofNat_eq_of_mod (a := c)]
    all_goals omega
  | case4 a b =>
    have := a.toNat_lt
    have := b.toNat_lt
    simp only [quintets.full, List.take_succ_cons, List.take_zero, groups, group, group.group5,
      UInt8.toNat_zero]
    rw [ofNat_eq_of_mod (a := a), ofNat_eq_of_mod (a := b)]
    all_goals omega
  | case5 a =>
    have := a.toNat_lt
    simp only [quintets.full, List.take_succ_cons, List.take_zero, groups, group, group.group5,
      UInt8.toNat_zero]
    rw [ofNat_eq_of_mod (a := a)]
    omega
  | case6 => rfl

theorem decode_encode (b : Bytes) : decode (encode b) = some b := by
  rw [decode_eq, encode_eq, String.toList_ofList, alphabet.values_text (quintets_lt b),
    Option.map_some, groups_quintets]

theorem encode_injective : Function.Injective encode := fun b b' h =>
  Option.some.inj ((decode_encode b).symm.trans (h ▸ decode_encode b'))

theorem symbol_plain : ∀ v < 32, symbol v ≠ '-' ∧
    (symbol v).toUpper = symbol v ∧
    33 ≤ (symbol v).toNat ∧ (symbol v).toNat < 127 := by
  decide +kernel

theorem mem_encode {raw : Bytes} {c : Char} (h : c ∈ (encode raw).toList) :
    c ≠ '-' ∧ c.toUpper = c ∧ Plain c := by
  rw [encode, String.toList_ofList] at h
  obtain ⟨v, hv, rfl⟩ := List.mem_map.1 h
  exact symbol_plain v (quintets_lt raw v hv)

end Base32

end IdentityService
