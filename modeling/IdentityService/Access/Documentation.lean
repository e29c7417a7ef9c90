import IdentityService.Defs.AuthToken
import IdentityService.Keys.Strength
import IdentityService.Sessions.Lifetime

/-! Who may read the documentation of the API: the two guards that ask for a token. -/

namespace IdentityService

open Lib

section Guard

variable {T : Type} (s : AuthService T)

theorem cut_append {scheme raw : String} (h : ' ' ∉ scheme.toList) :
    Go.cut (scheme ++ " " ++ raw) ' ' = some (scheme, raw) := by
  have hfront : (scheme.toList ++ ' ' :: raw.toList).takeWhile (· ≠ ' ') = scheme.toList := by
    have hscheme : ∀ c ∈ scheme.toList, decide (c ≠ ' ') = true := fun c hc =>
      decide_eq_true fun hblank => h (hblank ▸ hc)
    rw [List.takeWhile_append_of_pos hscheme]
    simp
  have htext : (scheme ++ " " ++ raw).toList = scheme.toList ++ ' ' :: raw.toList := by simp
  rw [Go.cut, htext, hfront]
  simp [String.ofList_toList]

theorem jwt_issue (henabled : s.enabled = true) {subject raw jti : String} {now now' : Time}
    (hissue : s.issue subject now jti = .ok raw) (hraw : raw ≠ "")
    (hfrom : Go.unix now * Go.second ≤ now') (huntil : now' < Go.unix (now + s.ttl) * Go.second) :
    Middleware.jwt s ("Bearer" ++ " " ++ raw) now' = .ok subject := by
  have hparse : ∃ claims, s.parse raw now' = .ok claims ∧ claims.subject = subject := by
    rw [AuthService.issue, if_neg (by simp [henabled])] at hissue
    cases hissue
    rw [AuthService.parse, if_neg (by simp [henabled]), s.jwt.registered_signingRegistered]
    refine ⟨_, if_pos ⟨rfl, s.jwt.verify_sign _ _, ?_⟩, rfl⟩
    exact (s.jwt.validateRegistered_iff _ _ _ _ _ _ rfl rfl rfl rfl).2 ⟨huntil, hfrom, hfrom⟩
  obtain ⟨claims, hparse, rfl⟩ := hparse
  rw [Middleware.jwt, cut_append (by decide)]
  dsimp only
  rw [if_neg (by simp [hraw]; decide), hparse]

variable {S P : Type} {i : KeyedIssuer S P T}

theorem jwt_refuses {header scheme raw : String} (hcut : Go.cut header ' ' = some (scheme, raw))
    (halg : ∀ q, s.jwt.registered raw = some q → q.1.alg ≠ hs256) (now : Time) :
    Middleware.jwt s header now = .error (.unauthorized
      (if Go.equalFold scheme "Bearer" ∧ raw ≠ "" then "invalid or expired token"
        else "missing bearer token")) := by
  obtain ⟨err, hparse⟩ : ∃ err, s.parse raw now = .error err := by
    rw [AuthService.parse]
    split
    · exact ⟨_, rfl⟩
    · cases hread : s.jwt.registered raw with
      | none => exact ⟨_, rfl⟩
      | some q => exact ⟨_, if_neg fun h => halg q hread h.1⟩
  rw [Middleware.jwt, hcut]
  dsimp only
  rw [hparse]
  by_cases hbearer : Go.equalFold scheme "Bearer" = true ∧ raw ≠ ""
  · rw [if_neg (by simpa using hbearer), if_pos hbearer]
  · rw [if_pos (by simpa [or_iff_not_imp_left] using hbearer), if_neg hbearer]

theorem alg_signedString (hjwt : i.jwt = s.jwt.toJWT) (claims : TokenClaims)
    (q : TokenHeader × RegisteredClaims × String × T)
    (hread : s.jwt.registered (i.signedString claims) = some q) : q.1.alg ≠ hs256 := by
  rw [KeyedIssuer.signedString, hjwt] at hread
  cases (s.jwt.registered_signingString _ _ _).symm.trans hread
  exact (by decide : edDSA ≠ hs256)

theorem alg_of_verify (hjwt : i.jwt = s.jwt.toJWT) {raw : String} {claims : TokenClaims}
    (hverify : i.verify raw = some claims) (q : TokenHeader × RegisteredClaims × String × T)
    (hread : s.jwt.registered raw = some q) : q.1.alg ≠ hs256 := by
  rw [KeyedIssuer.verify, hjwt] at hverify
  cases hparts : s.jwt.parts raw with
  | none =>
    rw [hparts] at hverify
    cases hverify
  | some p =>
    obtain ⟨header, claims', text, tag⟩ := p
    rw [hparts] at hverify
    dsimp only at hverify
    split at hverify
    · cases hverify
    · split at hverify
      · rename_i halg
        rw [s.jwt.registered_header raw _ _ hparts hread, halg.1]
        decide
      · cases hverify

end Guard

/-- Whatever token `VerifyBearer` accepts and whatever token the service returns, the guard of the
documentation refuses it, at every moment. -/
theorem documentation_guard_refuses {S P T : Type} (prim : Primitives S P T) (lib : HMACJWT T)
    (hlib : prim.jwt = lib.toJWT) (cfg : ServiceConfig) (svc : Service)
    (hnew : prim.newService cfg = .ok svc) (w : World) (c : Config)
    (hc : svc.machine.Reach .any w c) (ev : Event) (hev : ev ∈ c.history) (raw : String)
    (hraw : Event.returnedToken ev = some raw ∨ ∃ p, ev.request = .verifyBearer raw ∧
      ev.outcome = some (.ok (.principal p)))
    (scheme header : String) (hheader : Go.cut header ' ' = some (scheme, raw)) (now : Time) :
    Middleware.jwt (.new lib cfg) header now = .error (.unauthorized
      (if Go.equalFold scheme "Bearer" ∧ raw ≠ "" then "invalid or expired token"
        else "missing bearer token")) := by
  obtain ⟨i, hi, hissuer⟩ := exists_newIssuer hnew
  have hjwt : i.jwt = lib.toJWT := (newIssuer_jwt hi).trans hlib
  refine jwt_refuses (.new lib cfg) hheader ?_ now
  obtain hreturned | ⟨p, hop, hout⟩ := hraw
  · obtain ⟨claims, rfl⟩ := returned_signedString hc hev hreturned
    rw [hissuer]
    exact alg_signedString (.new lib cfg) hjwt claims
  · obtain ⟨c0, c1, k, a, h0, hf, -, -⟩ := hc.event_of_mem hev
    obtain ⟨claims, t, hparse, -⟩ := principal_accepts h0 hf hop hout
    rw [hissuer, TokenIssuer.parse, Option.filter_eq_some_iff] at hparse
    exact alg_of_verify (.new lib cfg) hjwt hparse.1

namespace sample

def signedContent : TokenHeader × (TokenClaims ⊕ RegisteredClaims) :=
  (⟨edDSA, "identity-current"⟩, .inl ⟨"user", "s1", "", "", "identity-service", "u1",
    ServiceConfig.defaults.jwt.audiences, 0, 0, 7200, "t1"⟩)

def signature : String × String := ("01234567890123456789012345678901", "signed")

instance : Encodable RegisteredClaims :=
  .ofLeftInverse (fun c => (c.issuer, c.subject, c.audience, c.expiresAt, c.notBefore, c.issuedAt,
      c.id))
    (fun ⟨a, b, c, d, e, f, g⟩ => ⟨a, b, c, d, e, f, g⟩) fun _ => rfl

section Named

variable {α : Type} [Encodable α] [DecidableEq α] (known : α) (name : String)

def named (a : α) : String := if a = known then name else text a

def find (s : String) : Option α := if s = name then some known else read s

variable {known name} in
theorem find_named (h : ∃ c ∈ name.toList, c ≠ '.') (a : α) :
    find known name (named known name a) = some a := by
  by_cases ha : a = known
  · rw [named, if_pos ha, find, if_pos rfl, ha]
  · have hne : text a ≠ name := by
      rintro rfl
      obtain ⟨c, hc, hdot⟩ := h
      simp only [text, String.toList_ofList] at hc
      exact hdot (List.eq_of_mem_replicate hc)
    rw [named, if_neg ha, find, if_neg hne, read_text]

end Named

def content (signed : String) : Option (TokenHeader × (TokenClaims ⊕ RegisteredClaims)) :=
  find signedContent "signed" signed

def tagged (raw : String) : Option (String × String × String) :=
  find ("signed", signature) "token" raw

theorem content_named (a : TokenHeader × (TokenClaims ⊕ RegisteredClaims)) :
    content (named signedContent "signed" a) = some a :=
  find_named ⟨'s', by decide, by decide⟩ a

theorem tagged_named (a : String × String × String) :
    tagged (named ("signed", signature) "token" a) = some a :=
  find_named ⟨'t', by decide, by decide⟩ a

def library : HMACJWT (String × String) where
  signingString header claims := named signedContent "signed" (header, .inl claims)
  compact signed tag := named ("signed", signature) "token" (signed, tag)
  parts raw := do
    let (signed, tag) ← tagged raw
    match ← content signed with
    | (header, .inl claims) => some (header, claims, signed, tag)
    | (_, .inr _) => none
  validate := validate
  parts_compact header claims tag := by
    simp [tagged_named, content_named]
  validate_iff := validate_iff
  sign secret signed := (secret, signed)
  verify secret signed tag := tag = (secret, signed)
  verify_sign secret signed := by simp
  signingRegistered header claims := named signedContent "signed" (header, .inr claims)
  registered raw := do
    let (signed, tag) ← tagged raw
    let (header, claims) ← content signed
    some (header, claims.elim TokenClaims.registered id, signed, tag)
  validateRegistered claims issuer now :=
    claims.expiresAt.any (fun t => now < t * Go.second) &&
      claims.notBefore.all (fun t => t * Go.second ≤ now) &&
      claims.issuedAt.all (fun t => t * Go.second ≤ now) &&
        (issuer == "" || claims.issuer == issuer)
  registered_header raw p q hp hq := by
    obtain ⟨⟨signed, tag⟩, htagged, hp⟩ := Option.bind_eq_some_iff.1 hp
    obtain ⟨⟨header, claims⟩, hcontent, hp⟩ := Option.bind_eq_some_iff.1 hp
    obtain ⟨⟨signed', tag'⟩, htagged', hq⟩ := Option.bind_eq_some_iff.1 hq
    cases htagged.symm.trans htagged'
    obtain ⟨⟨header', claims'⟩, hcontent', hq⟩ := Option.bind_eq_some_iff.1 hq
    cases hcontent.symm.trans hcontent'
    cases hq
    cases claims with
    | inl claims =>
      cases hp
      rfl
    | inr claims => cases hp
  registered_signingString header claims tag := by
    simp [tagged_named, content_named]
  registered_signingRegistered header claims tag := by
    simp [tagged_named, content_named]
  validateRegistered_iff claims issuer now expiresAt notBefore issuedAt hexp hnbf hiat hissuer := by
    simp [hexp, hnbf, hiat, hissuer, and_assoc]

def documented : ServiceConfig :=
  { production with
    auth := { ServiceConfig.defaults.auth with clientID := "client", clientSecret := "secret" }
    jwt := { ServiceConfig.defaults.jwt with secret := "01234567890123456789012345678901" }
    mfa := ServiceConfig.defaults.mfa }

def documentedPrimitives : Primitives String String (String × String) :=
  { primitives with jwt := library.toJWT }

def documentedService : Service :=
  (documentedPrimitives.newService documented).toOption.getD (sample [] none)

theorem newService_documented :
    documentedPrimitives.newService documented = .ok documentedService :=
  rfl

def present : List (Choice Op Answer) :=
  [.start (.verifyBearer "token"), .step 2 (.time 50), .step 2 (.row 0), .step 2 (.time 60)]

end sample

open sample in
theorem exists_presented : ∃ (c : Config) (returned verified : Event) (p : Principal),
    documentedService.machine.Reach .any (start 0) c ∧ returned ∈ c.history ∧
    verified ∈ c.history ∧ Event.returnedToken returned = some "token" ∧
    Event.borne verified = some ("token", p) := by
  obtain ⟨c, hc, ⟨returned, hreturned, htoken⟩, verified, hverified, ⟨raw, p⟩, hborne, rfl⟩ :
      ∃ c : Config, documentedService.machine.Reach .any (start 0) c ∧
        (∃ returned ∈ c.history, Event.returnedToken returned = some "token") ∧
        ∃ verified ∈ c.history.head?, ∃ x ∈ Event.borne verified, x.1 = "token" :=
    Machine.replay_exists (signIn ++ present) (by decide +kernel)
  exact ⟨c, returned, verified, p, hc, hreturned, List.mem_of_mem_head? hverified, htoken, hborne⟩

open sample in
/-- The token of a login that the API accepts does not open the documentation, in a configuration
that asks for a token there and has all that `Enabled` looks for. -/
theorem documentation_closed : ∃ (c : Config) (returned verified : Event) (p : Principal),
    documented.validate documentedPrimitives.std = .ok () ∧
    documented.swagger = ⟨true, true⟩ ∧ (AuthService.new library documented).enabled = true ∧
    documentedPrimitives.newService documented = .ok documentedService ∧
    documentedService.machine.Reach .any (start 0) c ∧ returned ∈ c.history ∧
    verified ∈ c.history ∧ Event.returnedToken returned = some "token" ∧
    verified.request = .verifyBearer "token" ∧ verified.outcome = some (.ok (.principal p)) ∧
    ∀ now, Middleware.jwt (.new library documented) "Bearer token" now =
      .error (.unauthorized "invalid or expired token") := by
  obtain ⟨c, returned, verified, p, hc, hreturned, hverified, htoken, hborne⟩ := exists_presented
  obtain ⟨hop, hout⟩ := borne_eq_some hborne
  exact ⟨c, returned, verified, p, by decide +kernel, rfl, by decide +kernel, newService_documented,
    hc, hreturned, hverified, htoken, hop, hout, fun now => rfl⟩

open sample in
theorem documentation_guard_refuses_presented : ∃ (c : Config) (verified : Event) (p : Principal),
    documentedService.machine.Reach .any (start 0) c ∧ verified ∈ c.history ∧
    verified.request = .verifyBearer "token" ∧ verified.outcome = some (.ok (.principal p)) ∧
    ∀ now, Middleware.jwt (.new library documented) "Bearer token" now =
      .error (.unauthorized "invalid or expired token") := by
  obtain ⟨c, returned, verified, p, hc, hreturned, hverified, htoken, hborne⟩ := exists_presented
  obtain ⟨hop, hout⟩ := borne_eq_some hborne
  refine ⟨c, verified, p, hc, hverified, hop, hout, fun now => ?_⟩
  exact documentation_guard_refuses documentedPrimitives library rfl documented documentedService
    newService_documented (start 0) c hc verified hverified "token" (.inr ⟨p, hop, hout⟩) "Bearer"
    "Bearer token" (by decide +kernel) now

end IdentityService
