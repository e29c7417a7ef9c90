import IdentityService.Defs.Crypto
import Mathlib.Data.Nat.Digits.Defs
import Mathlib.Data.String.Basic

/-! One time codes: six digits, and a window searched from its oldest step. -/

namespace IdentityService.MFACrypto

theorem length_toDigits_le {digits n : Nat} (hd : 0 < digits) (h : n < 10 ^ digits) :
    (Nat.toDigits 10 n).length ≤ digits :=
  (Nat.length_toDigits_le_iff (by decide) hd).2 h

theorem isDigit_of_mem_zeroPadded {digits n : Nat} {c : Char}
    (hc : c ∈ (zeroPadded digits n).toList) : c.isDigit = true := by
  simp only [zeroPadded, String.toList_ofList, List.mem_append, List.mem_replicate] at hc
  obtain ⟨-, rfl⟩ | hc := hc
  · rfl
  · exact Nat.isDigit_of_mem_toDigits (by decide) (by decide) hc

theorem length_zeroPadded {digits n : Nat} (hd : 0 < digits) (h : n < 10 ^ digits) :
    (zeroPadded digits n).toList.length = digits := by
  have hle := length_toDigits_le hd h
  simp only [zeroPadded, String.toList_ofList, List.length_append, List.length_replicate]
  omega

theorem utf8ByteSize_of_isDigit {s : String} (h : ∀ c ∈ s.toList, c.isDigit = true) :
    s.utf8ByteSize = s.toList.length := by
  rw [← String.ofList_toList (s := s), String.utf8ByteSize_ofList, String.toList_ofList]
  generalize s.toList = cs at h
  induction cs with
  | nil => rfl
  | cons c cs ih =>
    have hc : c.utf8Size = 1 := by
      have := (Char.isDigit_iff_toNat.1 (h c List.mem_cons_self)).2
      exact Char.utf8Size_eq_one_iff.2 (show c.toNat ≤ 127 from Nat.le_trans this (by decide))
    rw [String.utf8Len_cons, ih fun d hd => h d (List.mem_cons_of_mem c hd), hc, List.length_cons]

theorem length_hotp (hmac : Bytes → Bytes → Bytes) (secret : Bytes) (counter : Nat) :
    (hotp hmac secret counter totpDigits).utf8ByteSize = totpDigits := by
  rw [hotp, utf8ByteSize_of_isDigit fun c hc => isDigit_of_mem_zeroPadded hc]
  exact length_zeroPadded (by decide) (Nat.mod_lt _ (by decide))

theorem window_sorted (now : Time) : (window now).Pairwise (· < ·) := by
  refine List.Pairwise.filter _ ?_
  simp only [totpWindow, List.pairwise_cons, List.mem_cons, List.not_mem_nil, or_false,
    forall_eq_or_imp, forall_eq, List.Pairwise.nil, and_true, false_imp_iff, implies_true]
  omega

section Validate

variable {m : MFACrypto} {secret code : String} {bytes : Bytes} {now : Time} {step : Int}

def Matches (m : MFACrypto) (bytes : Bytes) (code : String) (now : Time) (step : Int) : Prop :=
  step ∈ window now ∧ hotp m.hmacSHA1 bytes step.toNat totpDigits = code

theorem Matches.utf8ByteSize (h : m.Matches bytes code now step) :
    code.utf8ByteSize = totpDigits := by
  rw [← h.2, length_hotp]

theorem validateTOTP_of_size (hbytes : m.decodeSecret secret = some bytes) (hne : bytes ≠ [])
    (hsize : code.utf8ByteSize = totpDigits) : m.validateTOTP secret code now =
      (window now).find? (fun step => hotp m.hmacSHA1 bytes step.toNat totpDigits = code) := by
  simp [validateTOTP, hbytes, hne, hsize]

theorem validateTOTP_nil (hbytes : m.decodeSecret secret = some []) :
    m.validateTOTP secret code now = none := by
  simp [validateTOTP, hbytes]

theorem validateTOTP_eq_some (hbytes : m.decodeSecret secret = some bytes)
    (h : m.validateTOTP secret code now = some step) :
    m.Matches bytes code now step ∧ ∀ older, m.Matches bytes code now older → step ≤ older := by
  simp only [validateTOTP, hbytes] at h
  split at h
  · cases h
  · obtain ⟨hcode, before, after, hwindow, hbefore⟩ := List.find?_eq_some_iff_append.1 h
    have hsorted := window_sorted now
    rw [hwindow, List.pairwise_append, List.pairwise_cons] at hsorted
    refine ⟨⟨hwindow ▸ by simp, of_decide_eq_true hcode⟩, ?_⟩
    rintro older ⟨hmem, holder⟩
    rw [hwindow, List.mem_append, List.mem_cons] at hmem
    obtain hmem | rfl | hmem := hmem
    · simpa [holder] using hbefore older hmem
    · exact Int.le_refl _
    · exact Int.le_of_lt (hsorted.2.1.1 older hmem)

theorem exists_validateTOTP (hbytes : m.decodeSecret secret = some bytes) (hne : bytes ≠ [])
    (h : m.Matches bytes code now step) : ∃ found, m.validateTOTP secret code now = some found := by
  rw [validateTOTP_of_size hbytes hne h.utf8ByteSize, ← Option.isSome_iff_exists, List.find?_isSome]
  exact ⟨step, h.1, decide_eq_true h.2⟩

end Validate

end IdentityService.MFACrypto
