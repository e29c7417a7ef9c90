import Mathlib.Logic.Equiv.List
import IdentityService.Defs.Token

/-! Tokens through a rotation of keys. -/

namespace IdentityService

open Lib

structure TokenClaims.Carries (claims : TokenClaims)
    (subject subjectType sessionID tenantID membershipID : String) : Prop where
  subject : claims.subject = subject
  subjectType : claims.subjectType = subjectType
  sessionID : claims.sessionID = sessionID
  tenantID : claims.tenantID = tenantID
  membershipID : claims.membershipID = membershipID

section Issuers

variable {S P T : Type} {e : Ed25519 S P T} {jwt : JWT T} {issuer keyID : String}
  {audiences : List String} {privateKey : S} {ttl : Time} {keys : List (String × P)}
  {i j : KeyedIssuer S P T}

structure KeyedIssuer.Built (i : KeyedIssuer S P T) (e : Ed25519 S P T) (jwt : JWT T)
    (issuer : String) (audiences : List String) (keyID : String) (privateKey : S) (ttl : Time) :
    Prop where
  ed25519 : i.ed25519 = e
  jwt : i.jwt = jwt
  issuer : i.issuer = issuer
  audiences : i.audiences = audiences
  keyID : i.keyID = keyID
  privateKey : i.privateKey = privateKey
  ttl : i.ttl = ttl
  named : i.issuer ≠ ""
  addressed : i.audiences ≠ []

section Built

variable (h : newTokenIssuer e jwt issuer audiences keyID privateKey ttl = .ok i)
  (hadd : i.addVerificationKeys keys = .ok j)

include h hadd

theorem built_of_added : j.Built e jwt issuer audiences keyID privateKey ttl := by
  obtain ⟨⟨hissuer, haudiences⟩, rfl⟩ := newTokenIssuer_eq h
  obtain rfl := addVerificationKeys_eq hadd
  exact ⟨rfl, rfl, rfl, rfl, rfl, rfl, rfl, hissuer, haudiences⟩

theorem key_of_added : j.verificationKeys.key keyID =
    some ((KeyRing.newest keyID keys).getD (e.publicKey privateKey)) := by
  obtain ⟨-, rfl⟩ := newTokenIssuer_eq h
  rw [addVerificationKeys_eq hadd, KeyRing.key_addAll, KeyRing.key_singleton]
  cases KeyRing.newest keyID keys <;> rfl

end Built

theorem parse_signed_iff {oldKeyID : String} {oldKey : S} {oldTTL : Time}
    (hi : i.Built e jwt issuer audiences oldKeyID oldKey oldTTL)
    (hj : j.Built e jwt issuer audiences keyID privateKey ttl) (hempty : ∀ a ∈ audiences, a ≠ "")
    {subject subjectType sessionID tenantID membershipID tokenID : String} {now now' : Time} :
    (∃ claims, j.parse (i.signedString (i.tokenIssuer.claims subject subjectType sessionID tenantID
        membershipID now tokenID)) now' = some claims ∧
      claims.Carries subject subjectType sessionID tenantID membershipID) ↔
    j.verificationKeys.key oldKeyID = some (e.publicKey oldKey) ∧
      Go.unix now * Go.second ≤ now' ∧ now' < Go.unix (now + oldTTL) * Go.second := by
  obtain ⟨audience, others, hcons⟩ := List.exists_cons_of_ne_nil (hj.audiences ▸ hj.addressed)
  have haudience : audience ∈ i.tokenIssuer.audiences := by
    rw [KeyedIssuer.tokenIssuer, hi.audiences, hcons]
    exact List.mem_cons_self
  have hvalid := fun claims => jwt.validate_iff claims issuer audience now'
    (hj.issuer ▸ hj.named) (hempty audience (hcons ▸ List.mem_cons_self))
  simp only [KeyedIssuer.parse_eq, Option.filter_eq_some_iff, hj.issuer, hj.audiences, hcons,
    hj.jwt, List.headD_cons, hi.keyID, hi.ed25519, hi.privateKey,
    verify_signedString (hj.ed25519.trans hi.ed25519.symm) (hj.jwt.trans hi.jwt.symm)]
  constructor
  · rintro ⟨claims, ⟨⟨rfl, hkey⟩, hvalid'⟩, -⟩
    obtain ⟨hexp, hnbf, -⟩ := (hvalid _).1 hvalid'
    exact ⟨hkey, hnbf, hi.ttl ▸ hexp⟩
  · rintro ⟨hkey, hnbf, hexp⟩
    rw [← hi.ttl] at hexp
    exact ⟨_, ⟨⟨rfl, hkey⟩, (hvalid _).2 ⟨hexp, hnbf, hnbf, hi.issuer, haudience⟩⟩,
      ⟨rfl, rfl, rfl, rfl, rfl⟩⟩

theorem issue_eq {subject subjectType sessionID tenantID membershipID tokenID : String} {now : Time}
    (hsubject : subject ≠ "") (htype : subjectType ≠ "") :
    i.issue subject subjectType sessionID tenantID membershipID now tokenID =
      .ok (i.signedString (i.tokenIssuer.claims subject subjectType sessionID tenantID membershipID
        now tokenID), now + i.ttl) := by
  rw [KeyedIssuer.issue, if_neg]
  simp [hsubject, htype]

end Issuers

theorem whole_seconds_iff {t t' : Int} {ttl : Time} (hle : t ≤ t') :
    Go.unix (t * Go.second) * Go.second ≤ t' * Go.second ∧
        t' * Go.second < Go.unix (t * Go.second + ttl) * Go.second ↔
      t' < t + ttl / Go.second := by
  simp only [Go.unix, Go.second]
  omega

/-- An issuer accepts its own tokens, for as many whole seconds as they live, if and only if the
last key added under its own identifier, if any, is its own; and it accepts the tokens of an older
issuer if and only if it holds that issuer's key under that issuer's identifier. -/
theorem token_parses_iff {S P T : Type} (e : Ed25519 S P T) (jwt : JWT T) (issuer keyID : String)
    (audiences : List String) (privateKey : S) (ttl : Time) (keys : List (String × P))
    (i i' : KeyedIssuer S P T)
    (hnew : newTokenIssuer e jwt issuer audiences keyID privateKey ttl = .ok i)
    (hempty : ∀ a ∈ audiences, a ≠ "") (hadd : i.addVerificationKeys keys = .ok i')
    (subject subjectType sessionID tenantID membershipID tokenID : String) (hsubject : subject ≠ "")
    (htype : subjectType ≠ "") :
    (∀ t : Int, ∃ raw,
      i'.issue subject subjectType sessionID tenantID membershipID (t * Go.second) tokenID =
        .ok (raw, t * Go.second + ttl) ∧
      ∀ t' : Int, t ≤ t' → t' * Go.second < t * Go.second + ttl →
        ((∃ claims, i'.parse raw (t' * Go.second) = some claims ∧
            claims.Carries subject subjectType sessionID tenantID membershipID) ↔
          (KeyRing.newest keyID keys).getD (e.publicKey privateKey) = e.publicKey privateKey ∧
            t' < t + ttl / Go.second)) ∧
    ∀ (oldKeyID : String) (oldKey : S) (oldTTL : Time) (oldKeys : List (String × P))
      (old old' : KeyedIssuer S P T),
      newTokenIssuer e jwt issuer audiences oldKeyID oldKey oldTTL = .ok old →
      old.addVerificationKeys oldKeys = .ok old' →
      ∀ (now now' : Time) (raw : String) (expiresAt : Time),
        old'.issue subject subjectType sessionID tenantID membershipID now tokenID =
          .ok (raw, expiresAt) →
        Go.unix now * Go.second ≤ now' → now' < Go.unix (now + oldTTL) * Go.second →
        ((∃ claims, i'.parse raw now' = some claims ∧
            claims.Carries subject subjectType sessionID tenantID membershipID) ↔
          i'.verificationKeys.key oldKeyID = some (e.publicKey oldKey)) := by
  have hbuilt := built_of_added hnew hadd
  refine ⟨fun t => ?_, ?_⟩
  · refine ⟨_, hbuilt.ttl ▸ issue_eq hsubject htype, fun t' hle hlt => ?_⟩
    rw [parse_signed_iff hbuilt hbuilt hempty, key_of_added hnew hadd, Option.some.injEq,
      whole_seconds_iff hle]
  · intro oldKeyID oldKey oldTTL oldKeys old old' hold holdAdd now now' raw expiresAt hissue
      hnbf hexp
    rw [issue_eq hsubject htype] at hissue
    cases hissue
    rw [parse_signed_iff (built_of_added hold holdAdd) hbuilt hempty]
    exact and_iff_left ⟨hnbf, hexp⟩

namespace sample

def ed25519 : Ed25519 String String (String × String) where
  publicKey := id
  sign secret text := (secret, text)
  verify key text tag := tag = (key, text)
  verify_sign secret key text := by simp [eq_comm]
  privateKeySize _ := true
  publicKeySize _ := true
  publicKey_size _ _ := rfl
  keyOfSecret := id
  keyOfSecret_size _ := rfl
  secret_inj _ _ h := h

instance encodableChar : Encodable Char := .ofLeftInverse Char.toNat Char.ofNat Char.ofNat_toNat

instance encodableString : Encodable String :=
  .ofLeftInverse String.toList String.ofList fun _ => String.ofList_toList

instance : Encodable TokenHeader :=
  .ofLeftInverse (fun h => (h.alg, h.kid)) (fun x => ⟨x.1, x.2⟩) fun _ => rfl

instance : Encodable TokenClaims :=
  .ofLeftInverse (fun c => (c.subjectType, c.sessionID, c.tenantID, c.membershipID, c.issuer,
      c.subject, c.audience, c.issuedAt, c.notBefore, c.expiresAt, c.id))
    (fun ⟨a, b, c, d, e, f, g, h, i, j, k⟩ => ⟨a, b, c, d, e, f, g, h, i, j, k⟩) fun _ => rfl

variable {α : Type} [Encodable α]

def text (a : α) : String := String.ofList (List.replicate (Encodable.encode a) '.')

def read (s : String) : Option α := Encodable.decode s.toList.length

theorem read_text (a : α) : read (text a) = some a := by
  simp [read, text]

def validate (claims : TokenClaims) (issuer audience : String) (now : Time) : Bool :=
  decide (now < claims.expiresAt * Go.second ∧ claims.notBefore * Go.second ≤ now ∧
    claims.issuedAt * Go.second ≤ now ∧ claims.issuer = issuer ∧ audience ∈ claims.audience)

theorem validate_iff (claims : TokenClaims) (issuer audience : String) (now : Time)
    (_ : issuer ≠ "") (_ : audience ≠ "") : validate claims issuer audience now = true ↔
      now < claims.expiresAt * Go.second ∧ claims.notBefore * Go.second ≤ now ∧
        claims.issuedAt * Go.second ≤ now ∧ claims.issuer = issuer ∧ audience ∈ claims.audience :=
  decide_eq_true_iff

def jwt : JWT (String × String) where
  signingString header claims := text (header, claims)
  compact signed tag := text (signed, tag)
  parts raw := do
    let (signed, tag) ← (read raw : Option (String × String × String))
    let (header, claims) ← (read signed : Option (TokenHeader × TokenClaims))
    some (header, claims, signed, tag)
  validate := validate
  parts_compact header claims tag := by
    simp [read_text]
  validate_iff := validate_iff

end sample

/-- A previous secret that is configured under the identifier of the current key. -/
theorem own_key_replaced : ∃ (i i' : KeyedIssuer String String (String × String)) (raw : String),
    newTokenIssuer sample.ed25519 sample.jwt "identity" ["api"] "k1" "current" (15 * Go.minute) =
      .ok i ∧
    i.addVerificationKeys [("k1", "previous")] = .ok i' ∧
    i'.issue "u1" "user" "s1" "" "" 0 "t1" = .ok (raw, 15 * Go.minute) ∧
    i'.parse raw 0 = none := by
  refine ⟨_, _, _, rfl, rfl, rfl, ?_⟩
  rw [KeyedIssuer.parse_eq, Option.filter_eq_none_iff]
  intro claims hverify
  -- The key under the issuer's own identifier is now the previous one.
  have hkey := ((verify_signedString rfl rfl).1 hverify).2
  exact absurd hkey (by decide)

theorem token_parses_iff_rotated : ∃ (i i' : KeyedIssuer String String (String × String))
    (raw : String) (claims : TokenClaims),
    newTokenIssuer sample.ed25519 sample.jwt "identity" ["api"] "k2" "current" (15 * Go.minute) =
      .ok i ∧
    i.addVerificationKeys [("k1", "previous")] = .ok i' ∧
    i'.issue "u1" "user" "s1" "" "" 0 "t1" = .ok (raw, 15 * Go.minute) ∧
    i'.parse raw (899 * Go.second) = some claims ∧ claims.Carries "u1" "user" "s1" "" "" := by
  obtain ⟨hown, -⟩ := token_parses_iff sample.ed25519 sample.jwt "identity" "k2" ["api"] "current"
    (15 * Go.minute) [("k1", "previous")] _ _ rfl (by decide) rfl "u1" "user" "s1" "" "" "t1"
    (by decide) (by decide)
  obtain ⟨raw, hissue, hparse⟩ := hown 0
  obtain ⟨claims, hclaims⟩ := (hparse 899 (by decide) (by decide)).2 (by decide)
  exact ⟨_, _, raw, claims, rfl, rfl, hissue, hclaims⟩

end IdentityService
