import IdentityService.MFA.RecoveryCode
import IdentityService.Defs.CryptoLaws
import IdentityService.Defs.Sealing

/-! From `StartMFASetup` to `ConfirmMFASetup`: the authenticator that was set up can confirm. -/

namespace IdentityService

open Lib Service
open Lib.Program (Along along_require along_perform along_expect along_reject along_ret)

section Stored

variable {svc : Service} {π : Policy} {w : World} {clock : Time} {c : Config} {ev : Event}

end Stored

section Spec

variable {svc : Service}

end Spec

namespace MFACrypto

end MFACrypto

namespace sample

def spell (cs : List Char) : Bytes :=
  cs.flatMap (fun c => [UInt8.ofNat (c.toNat / 65536), UInt8.ofNat (c.toNat / 256),
    UInt8.ofNat c.toNat]) ++ [255]

def unspell : Bytes → Option (List Char × Bytes)
  | a :: b :: c :: rest =>
    if a = 255 then some ([], b :: c :: rest)
    else (unspell rest).map (fun x =>
      (Char.ofNat (a.toNat * 65536 + b.toNat * 256 + c.toNat) :: x.1, x.2))
  | 255 :: rest => some ([], rest)
  | _ => none

theorem unspell_spell (cs : List Char) (rest : Bytes) :
    unspell (spell cs ++ rest) = some (cs, rest) := by
  induction cs with
  | nil =>
    match rest with
    | [] => rfl
    | [_] => rfl
    | _ :: _ :: _ => rfl
  | cons c cs ih =>
    have hc : c.toNat < 1114112 := by
      have hvalid : c.toNat < 55296 ∨ 57343 < c.toNat ∧ c.toNat < 1114112 := c.valid
      omega
    have hfirst : (UInt8.ofNat (c.toNat / 65536)).toNat = c.toNat / 65536 := by
      rw [UInt8.toNat_ofNat']
      omega
    have hchar : (UInt8.ofNat (c.toNat / 65536)).toNat * 65536 +
        (UInt8.ofNat (c.toNat / 256)).toNat * 256 + (UInt8.ofNat c.toNat).toNat = c.toNat := by
      rw [hfirst, UInt8.toNat_ofNat', UInt8.toNat_ofNat']
      omega
    have hne : UInt8.ofNat (c.toNat / 65536) ≠ 255 := by
      intro h
      rw [h] at hfirst
      have : (255 : UInt8).toNat = 255 := rfl
      omega
    have hcons : spell (c :: cs) ++ rest = UInt8.ofNat (c.toNat / 65536) ::
        UInt8.ofNat (c.toNat / 256) :: UInt8.ofNat c.toNat :: (spell cs ++ rest) := rfl
    rw [hcons, unspell, if_neg hne, ih, Option.map_some, hchar, Char.ofNat_toNat]

def aead : AEAD where
  nonceSize := 12
  sealText _ plaintext additional := spell additional.toList ++ spell plaintext.toList
  openText _ sealed additional :=
    (unspell sealed).bind fun x => (unspell x.2).bind fun y =>
      if spell additional.toList ++ spell y.1 = sealed then some (String.ofList y.1) else none
  open_seal nonce plaintext additional := by
    have hlast := unspell_spell plaintext.toList []
    rw [List.append_nil] at hlast
    simp only [unspell_spell, hlast, Option.bind_some, if_true, String.ofList_toList]
  seal_of_open := by
    intro nonce sealed plaintext additional h
    simp only [Option.bind_eq_some_iff, Option.ite_none_right_eq_some, Option.some.injEq] at h
    obtain ⟨x, -, y, -, hsealed, rfl⟩ := h
    rw [String.toList_ofList, hsealed]
  additional_eq := by
    intro nonce plaintext plaintext' additional additional' h
    have hspelled := congrArg unspell h
    rw [unspell_spell, unspell_spell] at hspelled
    exact String.toList_inj.1 (congrArg Prod.fst (Option.some.inj hspelled))

end sample

end IdentityService
