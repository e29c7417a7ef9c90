import IdentityService.Defs.Key
import IdentityService.Keys.Strength

/-! Encoded keys: what the configuration accepts, the cipher can decode. -/

namespace IdentityService

open Lib

namespace Base64Encoding

theorem alphabet_encoding (e : Base64Encoding) :
    e.encoding.alphabet = Base64.rawStd ∨ e.encoding.alphabet = Base64.rawURLBytes := by
  cases e
  · exact .inl rfl
  · exact .inl rfl
  · exact .inr rfl
  · exact .inr rfl

theorem skipped_encoding (e : Base64Encoding) :
    e.encoding.alphabet.skipped = fun b => b = 0x0D || b = 0x0A := by
  cases e <;> rfl

theorem pad_encoding (e : Base64Encoding) : e.encoding.pad = 0x3D := by
  cases e <;> rfl

theorem agrees (e f : Base64Encoding) : e.encoding.Agrees f.encoding where
  pad := f.pad_encoding.trans e.pad_encoding.symm
  skipped := f.skipped_encoding.trans e.skipped_encoding.symm
  value a v w hv hw := by
    have hstd : ∀ v < 64, Base64.rawStd.symbol v = Base64.rawURLBytes.symbol v ∨
        Base64.rawURLBytes.value (Base64.rawStd.symbol v) = none := by decide +kernel
    have hurl : ∀ v < 64, Base64.rawURLBytes.symbol v = Base64.rawStd.symbol v ∨
        Base64.rawStd.value (Base64.rawURLBytes.symbol v) = none := by decide +kernel
    obtain he | he := e.alphabet_encoding <;> obtain hf | hf := f.alphabet_encoding <;>
      rw [he] at hv <;> rw [hf] at hw
    · exact Option.some.inj (hv.symm.trans hw)
    · exact Alphabet.value_unique hstd hv hw
    · exact Alphabet.value_unique hurl hv hw
    · exact Option.some.inj (hv.symm.trans hw)

theorem visible_encodeToString (e : Base64Encoding) (b : Bytes) :
    ∀ x ∈ e.encodeToString b, 0x20 < x ∧ x < 0x7F := by
  have hsymbol : ∀ v < 64, 0x20 < e.encoding.alphabet.symbol v ∧
      e.encoding.alphabet.symbol v < 0x7F := by
    cases e <;> decide +kernel
  have hpad : 0x20 < e.encoding.pad ∧ e.encoding.pad < 0x7F := by
    cases e <;> decide
  intro x hx
  obtain hx | hx := List.mem_append.1 hx
  · obtain ⟨v, hv, rfl⟩ := List.mem_map.1 hx
    exact hsymbol v (Lib.Base64.sextets_lt b v hv)
  · split at hx
    · rw [List.eq_of_mem_replicate hx]
      exact hpad
    · cases hx

end Base64Encoding

theorem cutSpace_of_visible {b : Bytes} (hb : ∀ x ∈ b, 0x20 < x ∧ x < 0x7F) :
    Go.cutSpace b = none ∧ Go.cutSpaceReversed b = none := by
  cases b with
  | nil => exact ⟨rfl, rfl⟩
  | cons x b => exact Go.cutSpace_visible (hb x (.head b)) b

theorem trimSpaceBytes_encodeToString {left right : Bytes} (hleft : Go.WhiteSpace left)
    (hright : Go.WhiteSpace right) (e : Base64Encoding) (b : Bytes) :
    Go.trimSpaceBytes (left ++ e.encodeToString b ++ right) = e.encodeToString b := by
  refine Go.trimSpaceBytes_around hleft hright
    (cutSpace_of_visible (e.visible_encodeToString b)).1 (cutSpace_of_visible fun x hx => ?_).2
  exact e.visible_encodeToString b x (List.mem_reverse.1 hx)

section Loop

variable {value key : Bytes} {encodings : List Base64Encoding}

theorem decodeMFAKey_loop_cons (e : Base64Encoding) :
    decodeMFAKey.loop value (e :: encodings) = match e.decodeString value with
      | some d => if d.length = 32 then .ok d else decodeMFAKey.loop value encodings
      | none => decodeMFAKey.loop value encodings :=
  rfl

theorem decodeMFAKey_loop (hkey : key.length = 32)
    (hall : ∀ e ∈ encodings, ∀ d, e.decodeString value = some d → d = key)
    (hsome : ∃ e ∈ encodings, e.decodeString value = some key) :
    decodeMFAKey.loop value encodings = .ok key := by
  induction encodings with
  | nil => simp at hsome
  | cons e encodings ih =>
    obtain ⟨he, hall⟩ := List.forall_mem_cons.1 hall
    rw [decodeMFAKey_loop_cons]
    cases hd : e.decodeString value with
    | none =>
      refine ih hall ?_
      simpa [hd] using hsome
    | some d =>
      obtain rfl := he d hd
      exact if_pos hkey

theorem toOption_decodeMFAKey_loop : (decodeMFAKey.loop value encodings).toOption =
    encodings.findSome? (fun e => (e.decodeString value).filter (fun d => d.length = 32)) := by
  induction encodings with
  | nil => rfl
  | cons e encodings ih =>
    rw [decodeMFAKey_loop_cons, List.findSome?_cons]
    cases hd : e.decodeString value with
    | none => simpa using ih
    | some d =>
      by_cases hlength : d.length = 32
      · simp [Option.filter, hlength, Except.toOption]
      · simpa [Option.filter, hlength] using ih

theorem any_eq_isOk_loop : encodings.any (fun e =>
      match e.decodeString value with
      | some decoded => decide (decoded.length = 32)
      | none => false) = true ↔ ∃ key, decodeMFAKey.loop value encodings = .ok key := by
  induction encodings with
  | nil => exact ⟨nofun, nofun⟩
  | cons e encodings ih =>
    rw [decodeMFAKey_loop_cons, List.any_cons, Bool.or_eq_true, ih]
    cases hd : e.decodeString value with
    | none => simp
    | some d => by_cases hlength : d.length = 32 <;> simp [hlength]

end Loop

theorem isBase64Key_iff (value : Bytes) :
    ServiceConfig.isBase64Key value 32 = true ↔ ∃ key, decodeMFAKey value = .ok key :=
  any_eq_isOk_loop

theorem decodeMFAKey_encodeToString {key left right : Bytes} (hkey : key.length = 32)
    (e : Base64Encoding) (hleft : Go.WhiteSpace left) (hright : Go.WhiteSpace right) :
    decodeMFAKey (left ++ e.encodeToString key ++ right) = .ok key := by
  rw [decodeMFAKey, trimSpaceBytes_encodeToString hleft hright]
  refine decodeMFAKey_loop hkey (fun f _ d hd => (e.agrees f).decode_encode hd) ⟨e, ?_, ?_⟩
  · cases e <;> decide
  · exact e.encoding.decode_encode false key

section Config

variable {std : StandardLibrary} (hstd : std.DecodesBase64) (s : String)

include hstd

theorem decodeString_trimSpace (e : Base64Encoding) :
    std.decodeString e (Go.trimSpace s) = e.decodeString (Go.trimSpaceBytes (Go.utf8 s)) := by
  rw [hstd, Go.trimSpaceBytes_utf8]

theorem decodeKey_eq : decodeKey std s 32 = (decodeMFAKey (Go.utf8 s)).toOption := by
  simp only [decodeMFAKey, toOption_decodeMFAKey_loop, decodeKey, decodeString_trimSpace hstd]
  rfl

theorem isBase64Key_eq :
    isBase64Key std s 32 = ServiceConfig.isBase64Key (Go.utf8 s) 32 := by
  rw [Bool.eq_iff_iff, isBase64Key, decodeKey_eq hstd, isBase64Key_iff]
  cases decodeMFAKey (Go.utf8 s) <;> simp [Except.toOption]

end Config

theorem newMFACrypto_of_validate {S P T : Type} (prim : Primitives S P T) {cfg : ServiceConfig}
    (henabled : cfg.mfa.enabled = true) (hvalid : cfg.validate prim.std = .ok ()) :
    ∃ crypto, prim.newMFACrypto cfg.mfa.issuer cfg.mfa.encryptionKey cfg.mfa.recoveryPepper =
      .ok crypto := by
  have hchecks := (List.forall_mem_append.1 (ServiceConfig.validate_eq_ok_iff.1 hvalid)).2
  simp only [ServiceConfig.featureChecks, List.append_assoc, List.cons_append,
    List.forall_mem_cons] at hchecks
  obtain ⟨hissuer, hkeys, -⟩ := hchecks
  simp only [henabled, Bool.true_and, Bool.or_eq_false_iff, decide_eq_false_iff_not,
    Bool.not_eq_false'] at hissuer hkeys
  obtain ⟨key, hkey⟩ := Option.isSome_iff_exists.1 hkeys.1
  obtain ⟨pepper, hpepper⟩ := Option.isSome_iff_exists.1 hkeys.2
  refine ⟨prim.mfaCrypto (Go.trimSpace cfg.mfa.issuer) key pepper, ?_⟩
  simp only [Primitives.newMFACrypto, hkey, hpepper]
  exact if_neg hissuer.1.1

/-- The keys that are accepted are the keys that are decoded, and decoding is the inverse of each
of the four encodings. -/
theorem key_validation_agrees :
    (∀ key : Bytes, key.length = 32 → ∀ (e : Base64Encoding) (left right : Bytes),
      Go.WhiteSpace left → Go.WhiteSpace right →
        decodeMFAKey (left ++ e.encodeToString key ++ right) = .ok key) ∧
    (∀ s : Bytes, ServiceConfig.isBase64Key s 32 = true ↔ ∃ key, decodeMFAKey s = .ok key) ∧
    ∀ {S P T : Type} (prim : Primitives S P T), prim.std.DecodesBase64 →
      (∀ s : String, isBase64Key prim.std s 32 = ServiceConfig.isBase64Key (Go.utf8 s) 32 ∧
        decodeKey prim.std s 32 = (decodeMFAKey (Go.utf8 s)).toOption) ∧
      ∀ cfg : ServiceConfig, cfg.mfa.enabled = true → cfg.validate prim.std = .ok () →
        ∃ crypto, prim.newMFACrypto cfg.mfa.issuer cfg.mfa.encryptionKey cfg.mfa.recoveryPepper =
          .ok crypto := by
  refine ⟨fun key hkey e left right hleft hright => decodeMFAKey_encodeToString hkey e hleft hright,
    isBase64Key_iff, fun prim hstd => ⟨fun s => ⟨isBase64Key_eq hstd s, decodeKey_eq hstd s⟩,
      fun cfg henabled hvalid => newMFACrypto_of_validate prim henabled hvalid⟩⟩

namespace sample

def decoding : Primitives String String (String × String) :=
  { primitives with
    std := { primitives.std with decodeString := fun e s => e.decodeString (Go.utf8 s) } }

def keyed : ServiceConfig :=
  { production with
    mfa := ⟨true, "Microservice Platform", "AAAAAAAAAAAAAAAAAAAAAAAAAAAAAAAAAAAAAAAAAAA",
      " __________________________________________8=", 5 * Go.minute⟩ }

end sample

theorem key_validation_keyed :
    decodeMFAKey (Go.ascii "\t" ++ Base64Encoding.url.encodeToString (List.replicate 32 0xFF) ++
      [0xC2, 0xA0]) = .ok (List.replicate 32 0xFF) ∧
    sample.keyed.validate sample.decoding.std = .ok () ∧
    ∃ crypto, sample.decoding.newMFACrypto sample.keyed.mfa.issuer sample.keyed.mfa.encryptionKey
      sample.keyed.mfa.recoveryPepper = .ok crypto := by
  obtain ⟨hdecode, -, hvalidated⟩ := key_validation_agrees
  have hvalid : sample.keyed.validate sample.decoding.std = .ok () := by decide +kernel
  refine ⟨hdecode _ rfl .url _ _ ⟨[[0x09]], by decide, by decide⟩
    ⟨[[0xC2, 0xA0]], by decide, by decide⟩, hvalid,
    (hvalidated sample.decoding fun _ _ => rfl).2 sample.keyed rfl hvalid⟩

end IdentityService
