import IdentityService.Defs.Outcome

/-! What a call that accepts a session or a token has read before it answers. -/

namespace IdentityService

open Lib Service
open Lib.Program (Ends ends_perform ends_expect ends_require ends_reject ends_ret ends_bind)

def issued : Option (Except AppError Reply) → Option Tokens
  | some (.ok (.login result)) => result.tokens
  | some (.ok (.tokens tokens)) => some tokens
  | _ => none

def Event.validated (ev : Event) : Option Session :=
  match ev.request, ev.outcome with
  | .validateSession _ _, some (.ok (.validation session true)) => session
  | _, _ => none

theorem issued_isSome {out : Option (Except AppError Reply)} {tokens : Tokens}
    (h : issued out = some tokens) : out.isSome := by
  cases out with
  | none => cases h
  | some _ => rfl

section Ends

variable {Ψ : List Act → Reply → Prop} {acts : List Act}

theorem ends_validateSession {id userID : String} {f : Option Session × Bool → Prog Reply}
    (hvalid : ∀ (row : Session) t, row.revokedAt = none → t < row.expiresAt →
      Ends Ψ (Act.clock t :: Act.read (.getSession id userID) row :: acts) (f (some row, true)))
    (hinvalid : ∀ acts session, Ends Ψ acts (f (session, false))) :
    Ends Ψ acts (validateSession id userID >>= f) := by
  simp only [validateSession, query, bind_assoc, ends_perform, ends_expect]
  intro r existing hr
  cases existing with
  | none => exact hinvalid _ _
  | some row =>
    obtain ⟨row', rfl, hrow⟩ | ⟨-, hrow⟩ := found_eq_ok.1 hr
    · cases hrow
      by_cases hrev : row.revokedAt = none
      · simp only [hrev, if_true, now, bind_assoc, ends_perform]
        intro t
        by_cases ht : t < row.expiresAt
        · simp only [ht, decide_true]
          exact hvalid row t hrev ht
        · simp only [ht, decide_false]
          exact hinvalid _ _
      · simp only [hrev, if_false]
        exact hinvalid _ _
    · cases hrow

theorem ends_validation (svc : Service) (id userID : String) :
    Ends (fun acts reply => ∀ session, reply = .validation session true →
        ∃ (row : Session) (t : Time),
          acts = [Act.clock t, Act.read (.getSession id userID) row] ∧ session = some row ∧
            row.revokedAt = none ∧ t < row.expiresAt)
      [] (svc.program (.validateSession id userID)) := by
  refine ends_validateSession ?_ ?_
  · intro row t hrev ht
    refine (ends_ret _).2 fun session hs => ?_
    cases hs
    exact ⟨row, t, rfl, rfl, hrev, ht⟩
  · intro acts session
    exact (ends_ret _).2 fun _ hs => nomatch hs

theorem ends_principal (svc : Service) (raw : String) :
    Ends (fun acts reply => ∀ p, reply = .principal p → ∃ (claims : TokenClaims) (now : Time),
      svc.issuer.parse raw now = some claims ∧
        (acts = [Act.clock now] ∧ ¬(claims.subjectType = "user" ∧ claims.sessionID ≠ "") ∨
          ∃ (row : Session) (t : Time),
            acts = [Act.clock t, Act.read (.getSession claims.sessionID claims.subject) row,
              Act.clock now] ∧ row.revokedAt = none ∧ t < row.expiresAt)) []
      (svc.program (.verifyBearer raw)) := by
  simp only [program, verifyBearer, now, bind_assoc, ends_perform, ends_require]
  intro now claims hparse
  by_cases h : claims.subjectType = "user" ∧ claims.sessionID ≠ ""
  · rw [if_pos h, bind_assoc]
    refine ends_validateSession ?_ ?_
    · intro row t hrev ht
      simp only [bind_assoc, ends_reject]
      intro _
      refine (ends_ret _).2 fun p hp => ?_
      exact ⟨claims, now, hparse, .inr ⟨row, t, rfl, hrev, ht⟩⟩
    · intro acts session
      simp [bind_assoc]
  · rw [if_neg h]
    refine (ends_ret _).2 fun p hp => ?_
    exact ⟨claims, now, hparse, .inl ⟨rfl, h⟩⟩

def Granting (acts : List Act) (reply : Reply) : Prop :=
  issued (some (.ok reply)) ≠ none → ∃ body n rest, acts = Act.committed body n :: rest

theorem ends_completeLogin (svc : Service) (user : User) (client : SessionClient)
    (acts : List Act) :
    Ends Granting acts (svc.completeLogin user client >>= fun result => pure (.login result)) := by
  simp only [completeLogin, bind_assoc]
  refine ends_bind fun _ _ => ends_bind fun _ _ => ?_
  split
  · -- A challenge carries no tokens.
    simp only [issueMFAChallenge, bind_assoc]
    iterate 6 refine ends_bind fun _ _ => ?_
    exact (ends_ret _).2 fun h => absurd rfl h
  · simp only [createSession, bind_assoc]
    refine ends_bind fun _ _ => ends_within fun n => ?_
    exact (ends_ret _).2 fun _ => ⟨_, _, _, rfl⟩

theorem ends_login (svc : Service) (name password : String) (client : SessionClient) :
    Ends Granting [] (svc.program (.login name password client)) := by
  simp only [program, login, bind_assoc]
  iterate 7 refine ends_bind fun _ _ => ?_
  split
  · simp only [bind_assoc]
    refine ends_bind fun _ _ => ends_bind fun acts _ => ?_
    exact ends_completeLogin svc _ client acts
  · simp only [bind_assoc]
    exact ends_bind fun _ _ => .fail

theorem ends_refresh (svc : Service) (token : String) :
    Ends Granting [] (svc.program (.refresh token)) := by
  simp only [program, refresh, bind_assoc]
  iterate 12 refine ends_bind fun _ _ => ?_
  refine ends_within fun n => ?_
  exact (ends_ret _).2 fun _ => ⟨_, _, _, rfl⟩

theorem ends_verifyMFAChallenge (svc : Service) (token code recoveryCode : String) :
    Ends Granting [] (svc.program (.verifyMFAChallenge token code recoveryCode)) := by
  simp only [program, verifyMFAChallenge, bind_assoc]
  iterate 14 refine ends_bind fun _ _ => ?_
  refine ends_within fun n => ?_
  exact (ends_ret _).2 fun _ => ⟨_, _, _, rfl⟩

theorem ends_issued (svc : Service) (op : Op) : Ends Granting [] (svc.program op) := by
  cases op with
  | login name password client => exact ends_login svc name password client
  | refresh token => exact ends_refresh svc token
  | verifyMFAChallenge token code recoveryCode =>
    exact ends_verifyMFAChallenge svc token code recoveryCode
  | _ => exact ends_bind fun _ _ => (ends_ret _).2 fun h => absurd rfl h

end Ends

section Answers

variable {svc : Service} {π : Policy} {w : World} {c d : Config} {ev : Event}
  {k : ev.call.Res → Prog Reply} {a : Answer}

theorem validation_accepts (h : svc.machine.Reach π w c) (hf : svc.machine.Fired c ev d k a)
    {id userID : String} (hop : ev.request = .validateSession id userID) {session : Option Session}
    (hout : ev.outcome = some (.ok (.validation session true))) : ∃ (row : Session) (t : Time),
      d.actsOf ev.thread = [Act.clock t, Act.read (.getSession id userID) row] ∧
        session = some row ∧ row.revokedAt = none ∧ t < row.expiresAt := by
  have hends := ends_validation svc id userID
  rw [← hop] at hends
  exact h.ends hf hends hout session rfl

theorem principal_accepts (h : svc.machine.Reach π w c) (hf : svc.machine.Fired c ev d k a)
    {raw : String} (hop : ev.request = .verifyBearer raw) {principal : Principal}
    (hout : ev.outcome = some (.ok (.principal principal))) :
    ∃ (claims : TokenClaims) (now : Time), svc.issuer.parse raw now = some claims ∧
      (d.actsOf ev.thread = [Act.clock now] ∧
          ¬(claims.subjectType = "user" ∧ claims.sessionID ≠ "") ∨
        ∃ (row : Session) (t : Time), d.actsOf ev.thread = [Act.clock t,
          Act.read (.getSession claims.sessionID claims.subject) row, Act.clock now] ∧
          row.revokedAt = none ∧ t < row.expiresAt) := by
  have hends := ends_principal svc raw
  rw [← hop] at hends
  exact h.ends hf hends hout principal rfl

theorem claims_of_parse {issuer : TokenIssuer} {raw : String} {now : Time}
    {claims claims' : TokenClaims} (hparse : issuer.parse raw now = some claims')
    (hraw : issuer.verify raw = some claims) : claims' = claims := by
  rw [TokenIssuer.parse, hraw, Option.filter_eq_some_iff] at hparse
  exact (Option.some.inj hparse.1).symm

theorem bearer_accepts (h : svc.machine.Reach π w c) (hf : svc.machine.Fired c ev d k a)
    {raw : String} (hop : ev.request = .verifyBearer raw) {principal : Principal}
    (hout : ev.outcome = some (.ok (.principal principal))) {claims : TokenClaims}
    (hraw : svc.issuer.verify raw = some claims) (huser : claims.subjectType = "user")
    (hsession : claims.sessionID ≠ "") : ∃ (row : Session) (now t : Time),
      d.actsOf ev.thread = [Act.clock t,
        Act.read (.getSession claims.sessionID claims.subject) row, Act.clock now] ∧
      row.revokedAt = none ∧ t < row.expiresAt ∧ svc.issuer.parse raw now = some claims := by
  obtain ⟨claims', now, hparse, hacts⟩ := principal_accepts h hf hop hout
  have hclaims := claims_of_parse hparse hraw
  subst hclaims
  obtain ⟨-, hnot⟩ | ⟨row, t, hacts, hvalid, hlive⟩ := hacts
  · exact absurd ⟨huser, hsession⟩ hnot
  · exact ⟨row, now, t, hacts, hvalid, hlive, hparse⟩

theorem issued_eq_none (h : svc.machine.Reach π w c)
    (hf : svc.machine.Fired c ev d k a) (hcom : ¬∃ body n, ev.act = Act.committed body n) :
    issued ev.outcome = none := by
  cases hout : ev.outcome with
  | none => rfl
  | some result =>
    cases result with
    | error e => rfl
    | ok reply =>
      by_contra hne
      obtain ⟨body, n, rest, hacts⟩ := h.ends hf (ends_issued svc ev.request) hout hne
      rw [hf.actsOf_self] at hacts
      exact hcom ⟨body, n, (List.cons.inj hacts).1⟩

theorem clean_issued (h : svc.machine.Reach π w c) (hf : svc.machine.Fired c ev d k a)
    {cleaner : SessionCleaner} {fuel : Nat} (hop : ev.request = .clean cleaner fuel) :
    issued ev.outcome = none := by
  have hends : Ends (fun _ reply => reply = .done) [] (svc.program (.clean cleaner fuel)) :=
    ends_bind fun _ _ => (ends_ret _).2 rfl
  rw [← hop] at hends
  cases hout : ev.outcome with
  | none => rfl
  | some result =>
    cases result with
    | error e => rfl
    | ok reply =>
      rw [h.ends hf hends hout]
      rfl

theorem issued_committed (h : svc.machine.Reach π w c) (hf : svc.machine.Fired c ev d k a)
    {tokens : Tokens} (hout : issued ev.outcome = some tokens) :
    ∃ body n next, Committed svc c ev d body n next := by
  by_cases hcom : ∃ body n, ev.act = Act.committed body n
  · obtain ⟨body, n, hact⟩ := hcom
    exact ⟨body, n, committed_of_act h hf hact⟩
  · rw [issued_eq_none h hf hcom] at hout
    cases hout

end Answers

end IdentityService
