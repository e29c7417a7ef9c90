import IdentityService.Defs.NewService
import IdentityService.Defs.System
import IdentityService.Keys.Rotation

/-! The secrets behind the keys of an accepted configuration. -/

namespace IdentityService

open Lib

structure KeyedIssuer.Strong {S P T : Type} (i : KeyedIssuer S P T) : Prop where
  signing : ∃ secret : String, 32 ≤ secret.utf8ByteSize ∧
    i.privateKey = i.ed25519.keyOfSecret secret
  verifying : ∀ kid key, i.verificationKeys.key kid = some key →
    ∃ secret : String, 32 ≤ secret.utf8ByteSize ∧
      key = i.ed25519.publicKey (i.ed25519.keyOfSecret secret)

section Issuer

variable {S P T : Type} {prim : Primitives S P T} {cfg : ServiceConfig} {i : KeyedIssuer S P T}

theorem mem_previousKeys {kid : String} {key : P} (h : (kid, key) ∈ prim.previousKeys cfg) :
    ∃ entry ∈ cfg.jwt.previousSecrets.entries,
      key = prim.ed25519.publicKey (prim.ed25519.keyOfSecret entry.2) := by
  obtain ⟨entry, hentry, heq⟩ := List.mem_map.1 h
  cases heq
  exact ⟨entry, hentry, rfl⟩

theorem previousKeys_nodup (prim : Primitives S P T) (cfg : ServiceConfig) :
    ((prim.previousKeys cfg).map Prod.fst).Nodup := by
  rw [Primitives.previousKeys, List.map_map]
  exact cfg.jwt.previousSecrets.nodupKeys

theorem newIssuer_keys (h : prim.newIssuer cfg = .ok i) :
    i.ed25519 = prim.ed25519 ∧ i.privateKey = prim.ed25519.keyOfSecret cfg.jwt.secret ∧
    ∀ kid, i.verificationKeys.key kid = (KeyRing.newest kid (prim.previousKeys cfg)).or
      (if i.keyID = kid then some (prim.ed25519.publicKey i.privateKey) else none) := by
  obtain ⟨issuer, hnew, hadd⟩ := ok_of_bind_eq_ok h
  obtain ⟨-, rfl⟩ := newTokenIssuer_eq hnew
  obtain rfl := addVerificationKeys_eq hadd
  refine ⟨rfl, rfl, fun kid => ?_⟩
  rw [KeyRing.key_addAll, ← AList.insert_empty, KeyRing.key_insert]
  rfl

theorem newIssuer_jwt (h : prim.newIssuer cfg = .ok i) : i.jwt = prim.jwt := by
  obtain ⟨issuer, hnew, hadd⟩ := ok_of_bind_eq_ok h
  exact (built_of_added hnew hadd).jwt

theorem exists_newIssuer {svc : Service} (h : prim.newService cfg = .ok svc) :
    ∃ i, prim.newIssuer cfg = .ok i ∧ svc.issuer = i.tokenIssuer := by
  obtain ⟨i, hissuer, hrest⟩ := ok_of_bind_eq_ok h
  obtain ⟨mfa, -, hsvc⟩ := ok_of_bind_eq_ok hrest
  cases hsvc
  exact ⟨i, hissuer, rfl⟩

theorem strong_iff (h : prim.newIssuer cfg = .ok i) :
    i.Strong ↔ 32 ≤ cfg.jwt.secret.utf8ByteSize ∧
      ∀ entry ∈ cfg.jwt.previousSecrets.entries, 32 ≤ entry.2.utf8ByteSize := by
  obtain ⟨hscheme, hprivate, hkeys⟩ := newIssuer_keys h
  constructor
  · rintro ⟨⟨secret, hsize, hsecret⟩, hverifying⟩
    constructor
    · rw [hprivate, hscheme] at hsecret
      rw [prim.ed25519.secret_inj _ _ (congrArg _ hsecret)]
      exact hsize
    · intro entry hentry
      have hnewest := KeyRing.newest_of_nodup (previousKeys_nodup prim cfg)
        (List.mem_map_of_mem hentry)
      obtain ⟨secret, hsize, hsecret⟩ := hverifying entry.1 _ (by rw [hkeys, hnewest]; rfl)
      rw [hscheme] at hsecret
      rw [prim.ed25519.secret_inj _ _ hsecret]
      exact hsize
  · rintro ⟨hsize, hprevious⟩
    have hown : ∃ secret : String, 32 ≤ secret.utf8ByteSize ∧
        i.privateKey = i.ed25519.keyOfSecret secret := ⟨_, hsize, hscheme ▸ hprivate⟩
    refine ⟨hown, fun kid key hkey => ?_⟩
    rw [hkeys, Option.or_eq_some_iff] at hkey
    obtain hkey | ⟨-, hkey⟩ := hkey
    · obtain ⟨entry, hentry, rfl⟩ := mem_previousKeys (KeyRing.mem_of_newest hkey)
      exact ⟨entry.2, hprevious entry hentry, by rw [hscheme]⟩
    · split at hkey
      · cases hkey
        exact ⟨_, hsize, by rw [hscheme, hprivate]⟩
      · cases hkey

end Issuer

theorem secret_of_validate {cfg : ServiceConfig} {std : StandardLibrary}
    (h : cfg.validate std = .ok ())
    (hclient : cfg.auth.clientID ≠ "" ∨ cfg.auth.clientSecret ≠ "") :
    32 ≤ cfg.jwt.secret.utf8ByteSize := by
  have hcheck := ServiceConfig.validate_eq_ok_iff.1 h cfg.jwtSecretCheck
    (List.mem_append_left _ (by simp [ServiceConfig.serverChecks]))
  simp only [ServiceConfig.jwtSecretCheck, Bool.and_eq_false_iff, Bool.or_eq_false_iff,
    decide_eq_false_iff_not, not_not, not_lt] at hcheck
  obtain ⟨hid, hsecret⟩ | hsize := hcheck
  · exact absurd hclient (by simp [hid, hsecret])
  · exact hsize

/-- The keys of an accepted configuration come from secrets of at least 32 bytes if and only if
the service has credentials of its own, or a long secret all the same, and the previous secrets
are as long. -/
theorem accepted_keys_strong_iff {S P T : Type} (prim : Primitives S P T) (cfg : ServiceConfig)
    (svc : Service) (hvalid : cfg.validate prim.std = .ok ())
    (hnew : prim.newService cfg = .ok svc) :
    ∃ i, prim.newIssuer cfg = .ok i ∧ svc.issuer = i.tokenIssuer ∧
      (i.Strong ↔
        (cfg.auth.clientID ≠ "" ∨ cfg.auth.clientSecret ≠ "" ∨
          32 ≤ cfg.jwt.secret.utf8ByteSize) ∧
        ∀ entry ∈ cfg.jwt.previousSecrets.entries, 32 ≤ entry.2.utf8ByteSize) := by
  obtain ⟨i, hissuer, hsvc⟩ := exists_newIssuer hnew
  refine ⟨i, hissuer, hsvc, ?_⟩
  rw [strong_iff hissuer, ← or_assoc]
  refine and_congr_left fun _ => ⟨.inr, ?_⟩
  rintro (hclient | hsize)
  · exact secret_of_validate hvalid hclient
  · exact hsize

namespace sample

def primitives : Primitives String String (String × String) where
  std := ⟨fun _ => false, id, fun _ s => if s = "key" then some (List.replicate 32 0) else none⟩
  platform := (sample [] none).platform
  ed25519 := ed25519
  jwt := jwt
  hasher := (sample [] none).hasher
  mfaCrypto _ _ _ := crypto
  digest := id
  toLower := id
  lower := id
  marshalAudiences _ := ""
  unmarshalAudiences _ := none

def production : ServiceConfig :=
  { ServiceConfig.defaults with
    app := ⟨"identity-service", "production"⟩
    http := ⟨"0.0.0.0:8080", 10 * Go.second, ⟨false, []⟩⟩
    grpc := ⟨true, "0.0.0.0:9090", false, 16 * 2 ^ 20, ⟨true, "tls.crt", "tls.key"⟩⟩
    database := ⟨true, "platform", "identity", "postgres", "dsn"⟩
    redis := ⟨true, "127.0.0.1:6379"⟩
    migration := ⟨true, "migrations/postgres", "url", "identity_schema_migrations"⟩
    rateLimit := { ServiceConfig.defaults.rateLimit with enabled := true }
    swagger := ⟨true, true⟩
    mfa := ⟨true, "Microservice Platform", "key", "key", 5 * Go.minute⟩
    authorization := ⟨true⟩
    idempotency := ⟨true, ["/api/v1/auth/logout"],
      ["/platform.identity.v1.IdentityService/RevokeTenantSessions"], 30 * Go.second, 24 * Go.hour,
      5 * Go.minute⟩
    outbound := ⟨∅, AList.singleton "authorization" ⟨"authorization-service:9090", 2 * Go.second,
      ⟨"", ""⟩, ⟨2, Go.second / 10, Go.second / 2,
        ["/platform.authorization.v1.AuthorizationService/Check"]⟩, ⟨true, 5, 30 * Go.second⟩,
      ⟨true, "tls.crt", "tls.key"⟩⟩⟩ }

def sealed : ServiceConfig :=
  { production with
    auth := { ServiceConfig.defaults.auth with clientID := "client" }
    jwt := { ServiceConfig.defaults.jwt with
      secret := "01234567890123456789012345678901"
      previousSecrets := AList.singleton "identity-before" "abcdefghijklmnopqrstuvwxyz012345" } }

end sample

/-- The key of the empty secret signs in production. -/
theorem production_signs_with_empty_secret :
    sample.production.validate sample.primitives.std = .ok () ∧
    ∃ svc i, sample.primitives.newService sample.production = .ok svc ∧
      sample.primitives.newIssuer sample.production = .ok i ∧ svc.issuer = i.tokenIssuer ∧
      i.privateKey = sample.primitives.ed25519.keyOfSecret "" ∧ ¬i.Strong := by
  refine ⟨by decide +kernel, _, _, rfl, rfl, rfl, rfl, fun hstrong => ?_⟩
  have hissuer : sample.primitives.newIssuer sample.production = .ok _ := rfl
  exact absurd ((strong_iff hissuer).1 hstrong).1 (by decide)

theorem accepted_keys_strong_iff_sealed :
    sample.sealed.validate sample.primitives.std = .ok () ∧
    ∃ svc i, sample.primitives.newService sample.sealed = .ok svc ∧
      sample.primitives.newIssuer sample.sealed = .ok i ∧ i.Strong := by
  have hvalid : sample.sealed.validate sample.primitives.std = .ok () := by decide +kernel
  have hnew : sample.primitives.newService sample.sealed = .ok _ := rfl
  obtain ⟨i, hissuer, -, hstrong⟩ :=
    accepted_keys_strong_iff sample.primitives sample.sealed _ hvalid hnew
  exact ⟨hvalid, _, i, hnew, hissuer, hstrong.2 (by decide)⟩

end IdentityService
