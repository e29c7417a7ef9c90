import Mathlib.Data.List.GetD
import Mathlib.Data.List.Nodup

/-! Bytes as text without padding: the symbols of an alphabet, and base64 over it. -/

namespace IdentityService.Lib

/-- `size` symbols with their values.  A decoder ignores the `skipped` ones. -/
structure Alphabet (α : Type) (size : Nat) where
  symbol : Nat → α
  value : α → Option Nat
  skipped : α → Bool
  value_symbol : ∀ v < size, value (symbol v) = some v
  symbol_value : ∀ a v, value a = some v → v < size ∧ symbol v = a
  not_skipped : ∀ v < size, skipped (symbol v) = false

namespace Alphabet

variable {α : Type} {size : Nat} (A : Alphabet α size)

def ofLetters [DecidableEq α] [Inhabited α] (letters : List α) (hsize : letters.length = size)
    (hnodup : letters.Nodup) (skipped : α → Bool) (hskipped : ∀ a ∈ letters, skipped a = false) :
    Alphabet α size where
  symbol v := letters.getD v default
  value a := if a ∈ letters then some (letters.idxOf a) else none
  skipped := skipped
  value_symbol v hv := by
    have hlt : v < letters.length := hsize ▸ hv
    rw [List.getD_eq_getElem _ _ hlt, if_pos (List.getElem_mem hlt), hnodup.idxOf_getElem]
  symbol_value a v h := by
    obtain ⟨ha, hv⟩ := Option.ite_none_right_eq_some.1 h
    cases hv
    have hlt := List.idxOf_lt_length_iff.2 ha
    exact ⟨hsize ▸ hlt, by rw [List.getD_eq_getElem _ _ hlt, List.getElem_idxOf]⟩
  not_skipped v hv := by
    have hlt : v < letters.length := hsize ▸ hv
    rw [List.getD_eq_getElem _ _ hlt]
    exact hskipped _ (List.getElem_mem hlt)

def text (vs : List Nat) : List α := vs.map A.symbol

def values (text : List α) : Option (List Nat) :=
  (text.filter (fun a => !A.skipped a)).mapM A.value

theorem mapM_value_text {vs : List Nat} (h : ∀ v ∈ vs, v < size) :
    (A.text vs).mapM A.value = some vs := by
  induction vs with
  | nil => rfl
  | cons v vs ih =>
    rw [text, List.map_cons, List.mapM_cons, A.value_symbol v (h v (.head _))]
    simp only [text] at ih
    simp [ih fun v hv => h v (.tail _ hv)]

theorem text_of_mapM_value {cs : List α} {vs : List Nat} (h : cs.mapM A.value = some vs) :
    (∀ v ∈ vs, v < size) ∧ A.text vs = cs := by
  induction cs generalizing vs with
  | nil =>
    cases h
    exact ⟨by simp, rfl⟩
  | cons a cs ih =>
    simp only [List.mapM_cons, Option.pure_def, Option.bind_eq_bind, Option.bind_eq_some_iff,
      Option.some.injEq] at h
    obtain ⟨v, hv, vs, hvs, rfl⟩ := h
    obtain ⟨hlt, hsymbol⟩ := A.symbol_value a v hv
    obtain ⟨hall, htext⟩ := ih hvs
    refine ⟨?_, ?_⟩
    · simpa [hlt] using hall
    · rw [text, List.map_cons, hsymbol, ← text, htext]

theorem filter_text {vs : List Nat} (h : ∀ v ∈ vs, v < size) :
    (A.text vs).filter (fun a => !A.skipped a) = A.text vs := by
  rw [List.filter_eq_self]
  intro a ha
  obtain ⟨v, hv, rfl⟩ := List.mem_map.1 ha
  simp [A.not_skipped v (h v hv)]

theorem values_text {vs : List Nat} (h : ∀ v ∈ vs, v < size) : A.values (A.text vs) = some vs := by
  rw [values, filter_text A h, mapM_value_text A h]

theorem text_of_values {cs : List α} {vs : List Nat} (h : A.values cs = some vs) :
    (∀ v ∈ vs, v < size) ∧ A.text vs = cs.filter (fun a => !A.skipped a) :=
  A.text_of_mapM_value h

end Alphabet

theorem ofNat_eq_of_mod {n : Nat} {a : UInt8} (h : n % 256 = a.toNat) : UInt8.ofNat n = a :=
  UInt8.toNat_inj.1 (UInt8.toNat_ofNat'.trans h)

namespace Base64

def sextets : List UInt8 → List Nat
  | a :: b :: c :: rest =>
    a.toNat / 4 :: (a.toNat % 4 * 16 + b.toNat / 16) :: (b.toNat % 16 * 4 + c.toNat / 64) ::
      c.toNat % 64 :: sextets rest
  | [a, b] => [a.toNat / 4, a.toNat % 4 * 16 + b.toNat / 16, b.toNat % 16 * 4]
  | [a] => [a.toNat / 4, a.toNat % 4 * 16]
  | [] => []

/-- The way back.  A `strict` decoder refuses a short group whose unused bits are not zero. -/
def octets (strict : Bool) : List Nat → Option (List UInt8)
  | a :: b :: c :: d :: rest =>
    (octets strict rest).map (fun bytes => UInt8.ofNat (a * 4 + b / 16) ::
      UInt8.ofNat (b % 16 * 16 + c / 4) :: UInt8.ofNat (c % 4 * 64 + d) :: bytes)
  | [a, b, c] =>
    if strict ∧ c % 4 ≠ 0 then none
    else some [UInt8.ofNat (a * 4 + b / 16), UInt8.ofNat (b % 16 * 16 + c / 4)]
  | [a, b] => if strict ∧ b % 16 ≠ 0 then none else some [UInt8.ofNat (a * 4 + b / 16)]
  | [_] => none
  | [] => some []

theorem sextets_lt (bytes : List UInt8) : ∀ v ∈ sextets bytes, v < 64 := by
  fun_induction sextets bytes with
  | case1 a b c rest ih =>
    have := a.toNat_lt
    have := b.toNat_lt
    have := c.toNat_lt
    simp only [List.forall_mem_cons]
    exact ⟨by omega, by omega, by omega, by omega, ih⟩
  | case2 a b =>
    have := a.toNat_lt
    have := b.toNat_lt
    simp only [List.forall_mem_cons]
    exact ⟨by omega, by omega, by omega, List.forall_mem_nil _⟩
  | case3 a =>
    have := a.toNat_lt
    simp only [List.forall_mem_cons]
    exact ⟨by omega, by omega, List.forall_mem_nil _⟩
  | case4 => simp

theorem octets_sextets (strict : Bool) (bytes : List UInt8) :
    octets strict (sextets bytes) = some bytes := by
  fun_induction sextets bytes with
  | case1 a b c rest ih =>
    have := a.toNat_lt
    have := b.toNat_lt
    have := c.toNat_lt
    rw [octets, ih, Option.map_some, ofNat_eq_of_mod (a := a), ofNat_eq_of_mod (a := b),
      ofNat_eq_of_mod (a := c)]
    all_goals omega
  | case2 a b =>
    have := a.toNat_lt
    have := b.toNat_lt
    rw [octets, if_neg (by omega), ofNat_eq_of_mod (a := a), ofNat_eq_of_mod (a := b)]
    all_goals omega
  | case3 a =>
    have := a.toNat_lt
    rw [octets, if_neg (by omega), ofNat_eq_of_mod (a := a)]
    omega
  | case4 => rfl

theorem sextets_octets {vs : List Nat} {bytes : List UInt8} (hvs : ∀ v ∈ vs, v < 64)
    (h : octets true vs = some bytes) : sextets bytes = vs := by
  fun_induction octets true vs generalizing bytes with
  | case1 a b c d rest ih =>
    obtain ⟨bytes, hbytes, rfl⟩ := Option.map_eq_some_iff.1 h
    simp only [List.forall_mem_cons] at hvs
    rw [sextets, ih hvs.2.2.2.2 hbytes]
    simp only [UInt8.toNat_ofNat', List.cons.injEq, and_true]
    omega
  | case2 => cases h
  | case3 a b c hstrict =>
    cases h
    have hzero : c % 4 = 0 := by simpa using hstrict
    simp only [List.forall_mem_cons] at hvs
    simp only [sextets, UInt8.toNat_ofNat', List.cons.injEq, and_true]
    omega
  | case4 => cases h
  | case5 a b hstrict =>
    cases h
    have hzero : b % 16 = 0 := by simpa using hstrict
    simp only [List.forall_mem_cons] at hvs
    simp only [sextets, UInt8.toNat_ofNat', List.cons.injEq, and_true]
    omega
  | case6 => cases h
  | case7 =>
    cases h
    rfl

variable {α : Type} (A : Alphabet α 64)

def encode (bytes : List UInt8) : List α := A.text (sextets bytes)

def decode (strict : Bool) (text : List α) : Option (List UInt8) :=
  (A.values text).bind (octets strict)

theorem decode_encode (strict : Bool) (bytes : List UInt8) :
    decode A strict (encode A bytes) = some bytes := by
  rw [decode, encode, A.values_text (sextets_lt bytes), Option.bind_some, octets_sextets]

theorem encode_of_decode {text : List α} {bytes : List UInt8}
    (h : decode A true text = some bytes) :
    encode A bytes = text.filter (fun a => !A.skipped a) := by
  obtain ⟨vs, hvs, hbytes⟩ := Option.bind_eq_some_iff.1 h
  obtain ⟨hlt, htext⟩ := A.text_of_values hvs
  rw [encode, sextets_octets hlt hbytes, htext]

end Base64

end IdentityService.Lib
