import IdentityService.Lib.Encoding

/-! Base64 with or without padding, and what one encoding makes of the text of another. -/

namespace IdentityService.Lib

theorem Alphabet.value_unique {α : Type} {size : Nat} {A B : Alphabet α size}
    (h : ∀ v < size, A.symbol v = B.symbol v ∨ B.value (A.symbol v) = none) {a : α} {v w : Nat}
    (hv : A.value a = some v) (hw : B.value a = some w) : v = w := by
  obtain ⟨hlt, rfl⟩ := A.symbol_value a v hv
  obtain hsame | hnone := h v hlt
  · rw [hsame, B.value_symbol v hlt] at hw
    exact Option.some.inj hw
  · rw [hnone] at hw
    cases hw

namespace Base64

variable {α : Type}

def unpad [DecidableEq α] (pad : α) : List α → Option (List α)
  | a :: b :: c :: d :: rest =>
    if rest = [] ∧ d = pad then some (if c = pad then [a, b] else [a, b, c])
    else (unpad pad rest).map (fun rest => a :: b :: c :: d :: rest)
  | [] => some []
  | _ => none

structure Encoding (α : Type) where
  alphabet : Alphabet α 64
  pad : α
  padded : Bool
  value_pad : alphabet.value pad = none
  not_skipped_pad : alphabet.skipped pad = false

namespace Encoding

variable (E : Encoding α)

def encode (bytes : List UInt8) : List α :=
  Base64.encode E.alphabet bytes ++
    if E.padded then List.replicate ((3 - bytes.length % 3) % 3) E.pad else []

theorem symbol_ne_pad {v : Nat} (hv : v < 64) : E.alphabet.symbol v ≠ E.pad := by
  intro h
  have hvalue := E.alphabet.value_symbol v hv
  rw [h, E.value_pad] at hvalue
  cases hvalue

theorem pad_not_mem_text {vs : List Nat} (hvs : ∀ v ∈ vs, v < 64) : E.pad ∉ E.alphabet.text vs := by
  intro h
  obtain ⟨v, hv, heq⟩ := List.mem_map.1 h
  exact E.symbol_ne_pad (hvs v hv) heq

theorem filter_encode (bytes : List UInt8) :
    (E.encode bytes).filter (fun a => !E.alphabet.skipped a) = E.encode bytes := by
  rw [encode, List.filter_append, Base64.encode, E.alphabet.filter_text (sextets_lt bytes)]
  congr 1
  split
  · simp [E.not_skipped_pad]
  · rfl

variable [DecidableEq α]

def symbols (text : List α) : Option (List α) :=
  let text := text.filter (fun a => !E.alphabet.skipped a)
  if E.padded then unpad E.pad text else some text

def decode (strict : Bool) (text : List α) : Option (List UInt8) :=
  (E.symbols text).bind (fun symbols => (symbols.mapM E.alphabet.value).bind (octets strict))

end Encoding

section Unpad

variable [DecidableEq α] {pad : α}

theorem unpad_of_not_mem {cs : List α} (h : pad ∉ cs) :
    unpad pad cs = none ∨ unpad pad cs = some cs := by
  fun_induction unpad pad cs with
  | case1 a b c d rest hpad => exact (h (by simp [hpad.2])).elim
  | case2 a b c d rest hpad ih =>
    obtain hnone | hsome := ih fun hrest => h (by simp [hrest])
    · exact .inl (by rw [hnone]; rfl)
    · exact .inr (by rw [hsome]; rfl)
  | case3 => exact .inr rfl
  | case4 => exact .inl rfl

theorem unpad_encode (E : Encoding α) (bytes : List UInt8) :
    unpad E.pad (encode E.alphabet bytes ++
      List.replicate ((3 - bytes.length % 3) % 3) E.pad) = some (encode E.alphabet bytes) := by
  have hsymbol : ∀ {v}, v ∈ sextets bytes → E.alphabet.symbol v ≠ E.pad :=
    fun hv => E.symbol_ne_pad (sextets_lt bytes _ hv)
  simp only [encode, Alphabet.text]
  fun_induction sextets bytes with
  | case1 a b c rest ih =>
    simp only [List.length_cons, List.map_cons, List.cons_append]
    have hlength : (rest.length + 1 + 1 + 1) % 3 = rest.length % 3 := by omega
    rw [unpad, if_neg fun h => hsymbol (by simp) h.2, hlength, ih fun hv => hsymbol (by simp [hv])]
    rfl
  | case2 a b =>
    have hc := hsymbol (v := b.toNat % 16 * 4) (by simp)
    simp [unpad, hc]
  | case3 a => simp [unpad]
  | case4 => rfl

end Unpad

namespace Encoding

variable [DecidableEq α] (E : Encoding α)

theorem symbols_encode (bytes : List UInt8) :
    E.symbols (E.encode bytes) = some (Base64.encode E.alphabet bytes) := by
  simp only [symbols, filter_encode]
  cases hpadded : E.padded with
  | true => simpa [encode, hpadded] using unpad_encode E bytes
  | false => simp [encode, hpadded]

theorem decode_encode (strict : Bool) (bytes : List UInt8) :
    E.decode strict (E.encode bytes) = some bytes := by
  rw [decode, symbols_encode, Option.bind_some, Base64.encode,
    E.alphabet.mapM_value_text (sextets_lt bytes), Option.bind_some, octets_sextets]

end Encoding

structure Encoding.Agrees (E F : Encoding α) : Prop where
  pad : F.pad = E.pad
  skipped : F.alphabet.skipped = E.alphabet.skipped
  value : ∀ a v w, E.alphabet.value a = some v → F.alphabet.value a = some w → v = w

namespace Encoding.Agrees

variable {E F : Encoding α} (h : E.Agrees F)

include h

theorem mapM_value {vs ws : List Nat} (hvs : ∀ v ∈ vs, v < 64)
    (hws : (E.alphabet.text vs).mapM F.alphabet.value = some ws) : ws = vs := by
  induction vs generalizing ws with
  | nil =>
    cases hws
    rfl
  | cons v vs ih =>
    simp only [Alphabet.text, List.map_cons, List.mapM_cons, Option.pure_def, Option.bind_eq_bind,
      Option.bind_eq_some_iff, Option.some.injEq] at hws
    obtain ⟨w, hw, ws, hws, rfl⟩ := hws
    rw [h.value _ v w (E.alphabet.value_symbol v (hvs v (.head _))) hw,
      ih (fun v hv => hvs v (.tail _ hv)) hws]

variable [DecidableEq α]

theorem symbols_encode {bytes : List UInt8} {cs : List α}
    (hcs : F.symbols (E.encode bytes) = some cs) :
    cs = Base64.encode E.alphabet bytes ∨ F.pad ∈ cs := by
  simp only [symbols, h.skipped, filter_encode] at hcs
  cases hF : F.padded <;> cases hE : E.padded <;>
    simp only [encode, hE, hF, if_true, if_false, Bool.false_eq_true, List.append_nil,
      Option.some.injEq] at hcs
  · exact .inl hcs.symm
  · -- Read without padding, the text contains the padding itself, unless it needs none.
    by_cases hn : (3 - bytes.length % 3) % 3 = 0
    · exact .inl (by simpa [hn] using hcs.symm)
    · exact .inr (by simp [← hcs, h.pad, hn])
  · have hnot : F.pad ∉ Base64.encode E.alphabet bytes := by
      rw [h.pad]
      exact E.pad_not_mem_text (sextets_lt bytes)
    obtain hnone | hsome := unpad_of_not_mem hnot
    · cases hnone.symm.trans hcs
    · exact .inl (Option.some.inj (hcs.symm.trans hsome))
  · rw [h.pad, unpad_encode] at hcs
    exact .inl (Option.some.inj hcs).symm

theorem decode_encode {strict : Bool} {bytes decoded : List UInt8}
    (hdecoded : F.decode strict (E.encode bytes) = some decoded) : decoded = bytes := by
  obtain ⟨cs, hcs, hvalues⟩ := Option.bind_eq_some_iff.1 hdecoded
  obtain ⟨ws, hws, hoctets⟩ := Option.bind_eq_some_iff.1 hvalues
  obtain rfl | hpad := h.symbols_encode hcs
  · obtain rfl := h.mapM_value (sextets_lt bytes) hws
    rw [octets_sextets] at hoctets
    exact (Option.some.inj hoctets).symm
  · obtain ⟨hlt, htext⟩ := F.alphabet.text_of_mapM_value hws
    exact (F.pad_not_mem_text hlt (htext ▸ hpad)).elim

end Encoding.Agrees

end Base64

end IdentityService.Lib
