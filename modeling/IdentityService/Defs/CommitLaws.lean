import IdentityService.Defs.Commit

namespace IdentityService

open Lib Service
open Lib.Program (Along along_perform along_require along_expect along_reject along_of_outcome
  along_ret expect)

theorem found_eq_ok {α : Type} {r : Except RepositoryError α} {x : Option α} :
    found r = .ok x ↔ (∃ a, r = .ok a ∧ x = some a) ∨ (r = .error .notFound ∧ x = none) := by
  cases r with
  | ok a => simp [found, eq_comm]
  | error e => cases e <;> simp [found, eq_comm]

structure CodeDraws (m : MFACrypto) (userID : String) (draws : List Act) (compacts : List String)
    (rows : List MFARecoveryCode) : Prop where
  only : ∀ a ∈ draws, ∃ kind s, a = Act.drew kind s
  length : compacts.length = MFACrypto.recoveryCodeCount
  drawn : ∀ compact ∈ compacts, Act.drew .recoveryCode compact ∈ draws
  hashes : rows.map (·.codeHash) = (compacts.map MFACrypto.displayCode).map m.recoveryCodeHash
  owner : ∀ row ∈ rows, row.userID = userID ∧ row.consumedAt = none
  ids : ∀ row ∈ rows, Act.drew .uuid row.id ∈ draws

theorem CodeDraws.length_rows {m : MFACrypto} {userID : String} {draws : List Act}
    {compacts : List String} {rows : List MFARecoveryCode}
    (h : CodeDraws m userID draws compacts rows) : rows.length = MFACrypto.recoveryCodeCount := by
  have hlength := congrArg List.length h.hashes
  rwa [List.length_map, List.length_map, List.length_map, h.length] at hlength

section Draws

variable {Φ : List Act → (e : Effect) → e.Res → Prog Reply → Prop}
  (hΦ : ∀ acts kind r p, Φ acts (.draw kind) r p) {acts : List Act}

include hΦ

theorem along_draw_iff {kind : Draw} {err : AppError} {f : String → Prog Reply} :
    Along Φ acts (draw kind err >>= f) ↔ ∀ s, Along Φ (Act.drew kind s :: acts) (f s) := by
  simp only [draw, bind_assoc, along_perform, along_require, hΦ, true_and]
  exact ⟨fun h s => h _ s rfl, fun h r s hr => hr ▸ h s⟩

theorem along_newOutboxEvent_of {actor : Principal} {subject eventType aggregateID : String}
    {now : Time} {payload : Payload} {f : OutboxEvent → Prog Reply}
    (h : ∀ event : OutboxEvent, event.Describes aggregateID payload →
      Along Φ (Act.drew .uuid event.id :: acts) (f event)) :
    Along Φ acts
      (newOutboxEvent (some actor) subject eventType aggregateID now payload >>= f) := by
  simp only [newOutboxEvent, newUUID, bind_assoc, along_require, along_draw_iff hΦ,
    Option.some.injEq, forall_eq', pure_bind]
  intro id
  exact h ⟨_, id, _, _, _, _, _, _, _⟩ ⟨rfl, rfl⟩

theorem along_generateRecoveryCodes {n : Nat} {f : List String → Prog Reply}
    (h : ∀ (draws : List Act) (compacts : List String),
      (∀ a ∈ draws, ∃ kind s, a = Act.drew kind s) → compacts.length = n →
      (∀ compact ∈ compacts, Act.drew .recoveryCode compact ∈ draws) →
      Along Φ (draws ++ acts) (f (compacts.map MFACrypto.displayCode))) :
    Along Φ acts (generateRecoveryCodes n >>= f) := by
  induction n generalizing acts f with
  | zero => exact h [] [] (by simp) rfl (by simp)
  | succ n ih =>
    simp only [generateRecoveryCodes, bind_assoc, along_draw_iff hΦ]
    intro compact
    refine ih fun draws compacts honly hlength hdrawn => ?_
    have hnext := h (draws ++ [Act.drew .recoveryCode compact]) (compact :: compacts)
      (List.forall_mem_append.2 ⟨honly, by simp⟩) (by simp [hlength])
      (List.forall_mem_cons.2 ⟨by simp, fun c hc => List.mem_append_left _ (hdrawn c hc)⟩)
    simpa using hnext

theorem along_recoveryCodeRows {userID : String} {fields : Fields} {hashes : List String}
    {f : List MFARecoveryCode → Prog Reply}
    (h : ∀ (draws : List Act) (rows : List MFARecoveryCode),
      (∀ a ∈ draws, ∃ kind s, a = Act.drew kind s) → rows.map (·.codeHash) = hashes →
      (∀ row ∈ rows, row.userID = userID ∧ row.consumedAt = none) →
      (∀ row ∈ rows, Act.drew .uuid row.id ∈ draws) → Along Φ (draws ++ acts) (f rows)) :
    Along Φ acts (recoveryCodeRows userID fields hashes >>= f) := by
  induction hashes generalizing acts f with
  | nil => exact h [] [] (by simp) rfl (by simp) (by simp)
  | cons hash hashes ih =>
    simp only [recoveryCodeRows, newUUID, bind_assoc, along_draw_iff hΦ]
    intro id
    refine ih fun draws rows honly hhashes howner hids => ?_
    have hnext := h (draws ++ [Act.drew .uuid id])
      ({ toFields := fields, id := id, userID := userID, codeHash := hash,
         consumedAt := none } :: rows)
      (List.forall_mem_append.2 ⟨honly, by simp⟩) (by rw [List.map_cons, hhashes])
      (List.forall_mem_cons.2 ⟨⟨rfl, rfl⟩, howner⟩)
      (List.forall_mem_cons.2 ⟨by simp, fun row hrow => List.mem_append_left _ (hids row hrow)⟩)
    simpa using hnext

theorem along_newRecoveryCodes {platform : Platform} {m : MFACrypto} {actor : Principal}
    {now : Time} {payload : List MFARecoveryCode → Payload}
    {f : List String → List MFARecoveryCode → OutboxEvent → Prog Reply}
    (h : ∀ draws compacts rows event, CodeDraws m actor.id draws compacts rows →
      Act.drew .uuid event.id ∈ draws → event.Describes actor.id (payload rows) →
      Along Φ (draws ++ acts) (f (compacts.map MFACrypto.displayCode) rows event)) :
    Along Φ acts (do
      let codes ← generateRecoveryCodes MFACrypto.recoveryCodeCount
      let fields ← .require (.unauthorized "authenticated actor is required")
        (platform.auditNew (some actor) now)
      let rows ← recoveryCodeRows actor.id fields (codes.map m.recoveryCodeHash)
      let event ← mfaStatusChangedEvent (some actor) actor.id now (payload rows)
      f codes rows event) := by
  refine along_generateRecoveryCodes hΦ fun draws compacts honly hlength hdrawn => ?_
  simp only [Platform.auditNew_some, along_require, Option.some.injEq, forall_eq']
  refine along_recoveryCodeRows hΦ fun draws' rows honly' hhashes howner hids => ?_
  refine along_newOutboxEvent_of hΦ fun event hevent => ?_
  have hnext := h (Act.drew .uuid event.id :: (draws' ++ draws)) compacts rows event
    { only := List.forall_mem_cons.2 ⟨⟨_, _, rfl⟩, List.forall_mem_append.2 ⟨honly', honly⟩⟩
      length := hlength
      drawn := fun c hc => List.mem_cons_of_mem _ (List.mem_append_right _ (hdrawn c hc))
      hashes := hhashes
      owner := howner
      ids := fun row hrow => List.mem_cons_of_mem _ (List.mem_append_left _ (hids row hrow)) }
    List.mem_cons_self hevent
  simpa using hnext

end Draws

section Along

variable {svc : Service} {op : Op} {acts : List Act} {α β : Type}

@[simp] theorem along_query {q : Query} {f : Except RepositoryError q.Row → Prog Reply} :
    Along (CallSpec svc op) acts (query q >>= f) ↔
      ∀ r, Along (CallSpec svc op) (⟨.query q, r⟩ :: acts) (f r) := by
  simp [query, CallSpec]

@[simp] theorem along_query_expect {q : Query} {g : RepositoryError → AppError}
    {f : q.Row → Prog Reply} :
    Along (CallSpec svc op) acts (query q >>= fun r => expect g r >>= f) ↔
      ∀ row, Along (CallSpec svc op) (Act.read q row :: acts) (f row) := by
  simp only [along_query, along_expect]
  exact ⟨fun h row => h _ row rfl, fun h r row hr => hr ▸ h row⟩

theorem along_query_last {q : Query} {f : Except RepositoryError q.Row → Prog Reply}
    (h : ∀ r, (f r).outcome.isSome) : Along (CallSpec svc op) acts (query q >>= f) :=
  along_query.2 fun r => along_of_outcome (h r)

@[simp] theorem along_now {f : Time → Prog Reply} :
    Along (CallSpec svc op) acts (now >>= f) ↔
      ∀ t, Along (CallSpec svc op) (Act.clock t :: acts) (f t) := by
  simp [now, CallSpec]

@[simp] theorem along_draw {kind : Draw} {err : AppError} {f : String → Prog Reply} :
    Along (CallSpec svc op) acts (draw kind err >>= f) ↔
      ∀ s, Along (CallSpec svc op) (Act.drew kind s :: acts) (f s) :=
  along_draw_iff fun _ _ _ _ => trivial

@[simp] theorem along_newUUID {f : String → Prog Reply} :
    Along (CallSpec svc op) acts (newUUID >>= f) ↔
      ∀ s, Along (CallSpec svc op) (Act.drew .uuid s :: acts) (f s) :=
  along_draw

@[simp] theorem along_within_expect {body : Tx Nat} {g : RepositoryError → AppError}
    {f : Nat → Prog Reply} :
    Along (CallSpec svc op) acts (within body >>= fun r => expect g r >>= f) ↔
      ∀ n, Commit svc op acts body n (f n) ∧
        Along (CallSpec svc op) (Act.committed body n :: acts) (f n) := by
  simp only [within, along_perform, along_expect]
  constructor
  · intro h n
    exact ⟨(h (.ok n)).1, (h (.ok n)).2 n rfl⟩
  · intro h r
    cases r with
    | error e => exact ⟨trivial, fun _ hn => by cases hn⟩
    | ok n => exact ⟨(h n).1, fun m hm => by cases hm; exact (h n).2⟩

theorem along_issue {subject subjectType sessionID tenantID membershipID : String}
    {f : String × Time → Prog Reply} (htype : subjectType = "user" ∨ sessionID = "")
    (h : ∀ g : Grant, subject ≠ "" → Along (CallSpec svc op)
      (g.acts svc subject subjectType sessionID tenantID membershipID ++ acts)
      (f (g.access, g.expiresAt svc))) :
    Along (CallSpec svc op) acts
      (svc.issue subject subjectType sessionID tenantID membershipID >>= f) := by
  simp only [issue, bind_assoc, along_reject, along_now, along_draw, along_perform, along_require,
    not_or]
  intro hsubject t id r
  refine ⟨htype, fun access hr => ?_⟩
  subst hr
  exact h ⟨t, id, access⟩ hsubject.1

theorem along_prepareSession {actor userID : String} {client : SessionClient}
    {f : Session × Tokens → Prog Reply}
    (h : ∀ d : Draft, userID ≠ "" → Along (CallSpec svc op) (d.acts svc userID ++ acts)
      (f (d.session svc actor userID client, d.tokens svc))) :
    Along (CallSpec svc op) acts
      (svc.prepareSession (svc.platform.systemContext actor) userID "" "" client >>= f) := by
  simp only [prepareSession, Platform.systemContext_eq, Platform.auditNew_some, bind_assoc,
    along_now, along_draw, along_require, along_newUUID, Option.some.injEq, forall_eq']
  intro now raw id
  refine along_issue (.inl rfl) fun g huser => ?_
  exact h ⟨now, raw, id, g⟩ huser

theorem along_newOutboxEvent {actor : Principal} {subject eventType aggregateID : String}
    {now : Time} {payload : Payload} {f : OutboxEvent → Prog Reply}
    (h : ∀ event : OutboxEvent, event.Describes aggregateID payload →
      Along (CallSpec svc op) (Act.drew .uuid event.id :: acts) (f event)) :
    Along (CallSpec svc op) acts
      (newOutboxEvent (some actor) subject eventType aggregateID now payload >>= f) :=
  along_newOutboxEvent_of (fun _ _ _ _ => trivial) h

end Along

section Spec

variable (svc : Service)

theorem register_spec (ctx : Context) (username displayName email phone password : String) :
    Along (CallSpec svc (.register ctx username displayName email phone password)) []
      (svc.program (.register ctx username displayName email phone password)) := by
  cases ctx with
  | none => simp [register, Service.hash]
  | some actor =>
    simp only [program, register, Service.hash, Platform.auditNew_some, bind_assoc, pure_bind,
      along_reject, along_expect, along_draw, along_now, along_require, along_newUUID,
      Option.some.injEq, forall_eq']
    intro _ _ _ salt now userID credentialID
    refine along_newOutboxEvent fun event hevent => ?_
    simp only [along_within_expect]
    intro n
    exact ⟨.register ⟨rfl, rfl, rfl, rfl, rfl⟩ ⟨rfl, rfl, rfl, rfl, rfl⟩ hevent, along_ret _⟩

theorem login_spec (name password : String) (client : SessionClient) :
    Along (CallSpec svc (.login name password client)) []
      (svc.program (.login name password client)) := by
  simp only [program, login, bind_assoc, along_reject, along_query_expect, along_now,
    Bool.not_eq_false]
  intro _ user credential now havailable
  by_cases hpassword : svc.verified password credential.secretHash = true
  · simp only [hpassword, if_true, bind_assoc, along_within_expect]
    intro m
    refine ⟨.loginVerified havailable hpassword, ?_⟩
    simp only [completeLogin, bind_assoc, along_query, along_expect]
    intro result enrollment hfound
    by_cases henabled : enrollment.any (fun e => e.status = .enabled) = true
    · simp only [henabled, if_true, bind_assoc, along_reject, issueMFAChallenge, along_draw,
        along_now, Platform.systemContext_eq, Platform.auditNew_some, along_require,
        Option.some.injEq, forall_eq', along_within_expect]
      intro _ token issuedAt n
      obtain ⟨e, rfl, rfl⟩ | ⟨-, rfl⟩ := found_eq_ok.1 hfound
      · exact ⟨.loginChallenge havailable hpassword (by simpa using henabled), along_ret _⟩
      · cases henabled
    · simp only [Bool.not_eq_true] at henabled
      simp only [henabled, Bool.false_eq_true, if_false, bind_assoc, createSession]
      refine along_prepareSession fun d huser => ?_
      simp only [along_within_expect]
      intro n
      exact ⟨.loginSession havailable hpassword hfound henabled huser, along_ret _⟩
  · simp only [Bool.not_eq_true] at hpassword
    simp only [hpassword, Bool.false_eq_true, if_false, bind_assoc, within, along_perform]
    intro r
    refine ⟨?_, .fail⟩
    cases r with
    | error e => trivial
    | ok n => exact .loginFailed havailable hpassword

theorem refresh_spec (refreshToken : String) :
    Along (CallSpec svc (.refresh refreshToken)) [] (svc.program (.refresh refreshToken)) := by
  simp only [program, refresh, bind_assoc, along_reject, along_query_expect, along_now, along_draw]
  intro htoken session hrevoked checkedAt hexpires user hactive raw now
  refine along_issue (.inl rfl) fun g _ => ?_
  simp only [along_within_expect]
  intro n
  exact ⟨.refresh htoken (by simpa using hrevoked) (by simpa using hexpires)
    (by simpa using hactive), along_ret _⟩

theorem logout_spec (ctx : Context) (sessionID reason : String) :
    Along (CallSpec svc (.logout ctx sessionID reason)) []
      (svc.program (.logout ctx sessionID reason)) := by
  simp only [program, logout, sessionRevokedEvent, bind_assoc, along_require, along_now,
    along_query_expect]
  rintro actor rfl now session
  refine along_newOutboxEvent fun event hevent => ?_
  simp only [along_within_expect]
  intro n
  exact ⟨.logout hevent, along_ret _⟩

theorem requireSessionUser_eq {ctx : Context} {actor : Principal}
    (h : requireSessionUser ctx = some actor) :
    ctx = some actor ∧ actor.type = .user ∧ actor.sessionID ≠ "" := by
  simpa [requireSessionUser, Option.filter_eq_some_iff] using h

theorem not_verified {password encoded : String} {r : Bool × Bool}
    (h : svc.hasher.verify password encoded = some r) (hsame : ¬r.1 = true) :
    svc.verified password encoded = false := by
  simpa [verified, h] using hsame

theorem changePassword_spec (ctx : Context) (current new : String) :
    Along (CallSpec svc (.changePassword ctx current new)) []
      (svc.program (.changePassword ctx current new)) := by
  simp only [program, changePassword, Service.hash, bind_assoc, pure_bind, along_require,
    along_query_expect, along_reject, along_expect, along_draw, along_now, along_newUUID,
    Bool.not_eq_false]
  intro actor hactor credential hactive hcurrent same hverify hsame _ _ salt now eventID
  obtain ⟨rfl, htype⟩ := requireSessionUser_eq hactor
  simp only [along_within_expect]
  intro n
  exact ⟨.changePassword htype (by simpa using hactive) hcurrent (not_verified svc hverify hsame)
    fun count => ⟨rfl, rfl, rfl⟩, along_ret _⟩

theorem updateUserStatus_spec (ctx : Context) (id status reason : String) (version : Int) :
    Along (CallSpec svc (.updateUserStatus ctx id status reason version)) []
      (svc.program (.updateUserStatus ctx id status reason version)) := by
  simp only [program, updateUserStatus, bind_assoc, along_require, along_query_expect, along_now]
  rintro st hst actor rfl current now
  refine along_newOutboxEvent fun event hevent => ?_
  simp only [along_within_expect]
  intro n
  exact ⟨.updateUserStatus hst hevent, along_query_last fun r => by cases r <;> rfl⟩

theorem updateUserProfile_spec (ctx : Context) (id displayName email phone reason : String)
    (version : Int) :
    Along (CallSpec svc (.updateUserProfile ctx id displayName email phone reason version)) []
      (svc.program (.updateUserProfile ctx id displayName email phone reason version)) := by
  simp only [program, updateUserProfile, bind_assoc, along_reject, along_require,
    along_query_expect, along_now]
  rintro _ actor rfl current now
  refine along_newOutboxEvent fun event hevent => ?_
  simp only [along_within_expect]
  intro n
  exact ⟨.updateUserProfile hevent, along_query_last fun r => by cases r <;> rfl⟩

theorem requireUser_eq {ctx : Context} {actor : Principal} (h : requireUser ctx = some actor) :
    ctx = some actor ∧ actor.type = .user := by
  simpa [requireUser, Option.filter_eq_some_iff] using h

theorem revokeOwnSessionByID_spec (ctx : Context) (id reason : String) (version : Int) :
    Along (CallSpec svc (.revokeOwnSessionByID ctx id reason version)) []
      (svc.program (.revokeOwnSessionByID ctx id reason version)) := by
  simp only [program, revokeOwnSessionByID, sessionRevokedEvent, bind_assoc, along_require,
    along_query_expect, along_now]
  intro actor hactor current now
  obtain ⟨rfl, htype⟩ := requireUser_eq hactor
  refine along_newOutboxEvent fun event hevent => ?_
  simp only [along_within_expect]
  intro n
  exact ⟨.revokeOwnSessionByID htype hevent, along_query_last fun r => by cases r <;> rfl⟩

theorem revokeSessionByID_spec (ctx : Context) (id reason : String) (version : Int) :
    Along (CallSpec svc (.revokeSessionByID ctx id reason version)) []
      (svc.program (.revokeSessionByID ctx id reason version)) := by
  simp only [program, revokeSessionByID, sessionRevokedEvent, bind_assoc, along_require,
    along_query_expect, along_now]
  rintro actor rfl current now
  refine along_newOutboxEvent fun event hevent => ?_
  simp only [along_within_expect]
  intro n
  exact ⟨.revokeSessionByID hevent, along_query_last fun r => by cases r <;> rfl⟩

theorem revokeTenantSessions_spec (ctx : Context) (userID tenantID reason : String) :
    Along (CallSpec svc (.revokeTenantSessions ctx userID tenantID reason)) []
      (svc.program (.revokeTenantSessions ctx userID tenantID reason)) := by
  simp only [program, revokeTenantSessions, bind_assoc, along_require, along_now,
    along_within_expect]
  rintro actor rfl now n
  exact ⟨.revokeTenantSessions, along_ret _⟩

theorem issueTenantToken_spec (ctx : Context) (userID tenantID membershipID sessionID : String) :
    Along (CallSpec svc (.issueTenantToken ctx userID tenantID membershipID sessionID)) []
      (svc.program (.issueTenantToken ctx userID tenantID membershipID sessionID)) := by
  simp only [program, issueTenantToken, bind_assoc, along_require, along_reject]
  rintro actor rfl htype _
  refine along_issue (.inl rfl) fun g _ => ?_
  simp only [along_now, along_within_expect]
  intro now n
  refine ⟨.issueTenantToken ?_, along_ret _⟩
  by_contra h
  exact htype (not_or.1 h)

theorem along_checkFactor {op : Op} {acts : List Act} {m : MFACrypto} {enrollment : MFAEnrollment}
    {userID code recoveryCode : String} {now : Time} {f : Int × String → Prog Reply}
    (h : ∀ step recoveryHash,
      (∃ secret, m.decryptSecret userID enrollment.secretCiphertext = some secret ∧
          m.validateTOTP secret code now = some step ∧ enrollment.lastUsedStep < step ∧
          recoveryHash = "") ∨ recoveryHash = m.recoveryCodeHash recoveryCode →
      Along (CallSpec svc op) acts (f (step, recoveryHash))) :
    Along (CallSpec svc op) acts
      (checkFactor m enrollment userID code recoveryCode now >>= f) := by
  unfold checkFactor
  split
  · simp only [bind_assoc, along_require, along_reject, pure_bind]
    intro secret hsecret step hstep hfresh
    exact h _ _ (.inl ⟨secret, hsecret, hstep, by omega, rfl⟩)
  · exact h _ _ (.inr rfl)

theorem verifyMFAChallenge_spec (token code recoveryCode : String) :
    Along (CallSpec svc (.verifyMFAChallenge token code recoveryCode)) []
      (svc.program (.verifyMFAChallenge token code recoveryCode)) := by
  simp only [program, verifyMFAChallenge, bind_assoc, along_require, along_reject,
    along_query_expect, along_now, not_or, not_not]
  intro m hmfa hargs challenge now hchallenge user hactive enrollment henabled
  refine along_checkFactor svc fun step recoveryHash hfactor => ?_
  refine along_prepareSession fun d huser => ?_
  simp only [along_within_expect]
  intro n
  exact ⟨.verifyMFAChallenge hmfa hchallenge.1 hchallenge.2 hactive henabled huser hfactor,
    along_ret _⟩

theorem along_verifyCurrentPassword {op : Op} {acts : List Act} {userID password : String}
    {f : Unit → Prog Reply}
    (h : ∀ credential, Along (CallSpec svc op)
      (Act.read (.passwordCredential userID) credential :: acts) (f ())) :
    Along (CallSpec svc op) acts (svc.verifyCurrentPassword userID password >>= f) := by
  simp only [verifyCurrentPassword, bind_assoc, along_query_expect, along_reject]
  intro credential _ _
  exact h credential

theorem startMFASetup_spec (ctx : Context) (password : String) :
    Along (CallSpec svc (.startMFASetup ctx password)) []
      (svc.program (.startMFASetup ctx password)) := by
  simp only [program, startMFASetup, bind_assoc, along_require]
  intro actor hactor m hmfa
  obtain ⟨rfl, htype⟩ := requireSessionUser_eq hactor
  refine along_verifyCurrentPassword svc fun credential => ?_
  simp only [along_query_expect, along_draw, along_now, Platform.auditNew_some, along_require,
    Option.some.injEq, forall_eq']
  intro user secret nonce now
  simp only [along_query, along_expect, along_reject, Bool.not_eq_true, along_within_expect]
  intro result current hfound henabled n
  exact ⟨.startMFASetup htype hmfa hfound henabled, along_ret _⟩

theorem confirmMFASetup_spec (ctx : Context) (code : String) (version : Int) :
    Along (CallSpec svc (.confirmMFASetup ctx code version)) []
      (svc.program (.confirmMFASetup ctx code version)) := by
  simp only [program, confirmMFASetup, bind_assoc, along_require, along_query_expect, along_now,
    along_reject, not_or, not_not]
  intro actor hactor m hmfa enrollment now hpending secret hsecret step hstep
  obtain ⟨rfl, htype⟩ := requireSessionUser_eq hactor
  refine along_newRecoveryCodes (fun _ _ _ _ => trivial)
    fun draws codes rows event hdraws _ hevent => ?_
  simp only [along_within_expect]
  intro n
  exact ⟨.confirmMFASetup htype hmfa hpending.1 hsecret hstep hdraws.only hdraws.length_rows
    hdraws.owner hdraws.ids hevent, along_ret _⟩

theorem along_requireFactor {op : Op} {acts : List Act} {m : MFACrypto}
    {userID password code : String} {f : Int × Time → Prog Reply}
    (h : ∀ credential enrollment secret now step, enrollment.status = .enabled →
      m.decryptSecret userID enrollment.secretCiphertext = some secret →
      m.validateTOTP secret (Go.trimSpace code) now = some step →
      enrollment.lastUsedStep < step →
      Along (CallSpec svc op)
        (Act.clock now :: Act.read (.getMFA userID) enrollment ::
          Act.read (.passwordCredential userID) credential :: acts) (f (step, now))) :
    Along (CallSpec svc op) acts (svc.requireFactor m userID password code >>= f) := by
  simp only [requireFactor, bind_assoc]
  refine along_verifyCurrentPassword svc fun credential => ?_
  simp only [along_query_expect, along_reject, along_require, along_now, not_not, pure_bind]
  intro enrollment henabled secret hsecret now step hstep hfresh
  exact h credential enrollment secret now step henabled hsecret hstep (by omega)

theorem disableMFA_spec (ctx : Context) (password code : String) (version : Int) :
    Along (CallSpec svc (.disableMFA ctx password code version)) []
      (svc.program (.disableMFA ctx password code version)) := by
  simp only [program, disableMFA, bind_assoc, along_require]
  intro actor hactor m hmfa
  obtain ⟨rfl, htype⟩ := requireSessionUser_eq hactor
  refine along_requireFactor svc fun credential enrollment secret now step henabled hsecret hstep
    hfresh => ?_
  refine along_newOutboxEvent fun event hevent => ?_
  simp only [along_within_expect]
  intro n
  exact ⟨.disableMFA htype hmfa henabled hsecret hstep hfresh hevent, along_ret _⟩

theorem regenerateMFARecoveryCodes_spec (ctx : Context) (password code : String) (version : Int) :
    Along (CallSpec svc (.regenerateMFARecoveryCodes ctx password code version)) []
      (svc.program (.regenerateMFARecoveryCodes ctx password code version)) := by
  simp only [program, regenerateMFARecoveryCodes, bind_assoc, along_require]
  intro actor hactor m hmfa
  obtain ⟨rfl, htype⟩ := requireSessionUser_eq hactor
  refine along_requireFactor svc fun credential enrollment secret now step henabled hsecret hstep
    hfresh => ?_
  refine along_newRecoveryCodes (fun _ _ _ _ => trivial)
    fun draws codes rows event hdraws _ hevent => ?_
  simp only [along_within_expect]
  intro n
  exact ⟨.regenerateMFARecoveryCodes htype hmfa henabled hsecret hstep hfresh hdraws.only
    hdraws.length_rows hdraws.owner hdraws.ids hevent, along_ret _⟩

theorem adminResetMFA_spec (ctx : Context) (userID reason : String) (version : Int) :
    Along (CallSpec svc (.adminResetMFA ctx userID reason version)) []
      (svc.program (.adminResetMFA ctx userID reason version)) := by
  simp only [program, adminResetMFA, bind_assoc, along_require, along_reject, along_query_expect,
    along_now, not_not]
  rintro actor rfl _ _ enrollment henabled now
  refine along_newOutboxEvent fun event hevent => ?_
  simp only [along_within_expect]
  intro n
  exact ⟨.adminResetMFA henabled hevent, along_ret _⟩

theorem issuePasswordReset_spec (ctx : Context) (userID reason : String) :
    Along (CallSpec svc (.issuePasswordReset ctx userID reason)) []
      (svc.program (.issuePasswordReset ctx userID reason)) := by
  simp only [program, issuePasswordReset, bind_assoc, along_require, along_reject,
    along_query_expect, along_draw, along_now, not_not]
  rintro actor rfl _ _ user hactive token now fields _
  simp only [along_within_expect]
  intro n
  exact ⟨.issuePasswordReset ⟨rfl, rfl⟩ hactive, along_ret _⟩

theorem confirmPasswordReset_spec (token new : String) :
    Along (CallSpec svc (.confirmPasswordReset token new)) []
      (svc.program (.confirmPasswordReset token new)) := by
  simp only [program, confirmPasswordReset, Service.hash, bind_assoc, pure_bind, along_reject,
    along_expect, along_draw, along_query_expect, along_now, along_require, along_newUUID, not_or,
    not_not]
  intro _ _ _ salt challenge now hchallenge user hactive credential hcredential same hverify hsame
    eventID
  simp only [along_within_expect]
  intro n
  exact ⟨.confirmPasswordReset hactive hcredential hchallenge.1 hchallenge.2
    (not_verified svc hverify hsame) fun count => ⟨rfl, rfl, rfl⟩, along_ret _⟩

theorem createServiceAccount_spec (ctx : Context) (name : String) (audiences : List String) :
    Along (CallSpec svc (.createServiceAccount ctx name audiences)) []
      (svc.program (.createServiceAccount ctx name audiences)) := by
  cases ctx with
  | none => simp [createServiceAccount]
  | some actor =>
    simp only [program, createServiceAccount, newServiceAccountSecret, Service.hash, bind_assoc,
      pure_bind, along_reject, along_now, along_require, along_expect, along_draw, along_newUUID,
      Platform.auditNew_some, Option.some.injEq, forall_eq']
    intro _ now secret _ _ salt id clientID
    refine along_newOutboxEvent fun event hevent => ?_
    simp only [along_within_expect]
    intro n
    exact ⟨.createServiceAccount ⟨rfl, rfl, rfl, rfl, rfl⟩ hevent, along_ret _⟩

theorem rotateServiceAccountSecret_spec (ctx : Context) (id : String) (version : Int) :
    Along (CallSpec svc (.rotateServiceAccountSecret ctx id version)) []
      (svc.program (.rotateServiceAccountSecret ctx id version)) := by
  simp only [program, rotateServiceAccountSecret, newServiceAccountSecret, Service.hash,
    bind_assoc, pure_bind, along_reject, along_require, along_expect, along_draw, along_now]
  rintro _ actor rfl secret _ _ salt now
  refine along_newOutboxEvent fun event hevent => ?_
  simp only [along_within_expect]
  intro n
  exact ⟨.rotateServiceAccountSecret hevent, along_ret _⟩

theorem updateServiceAccountStatus_spec (ctx : Context) (id status : String) (version : Int) :
    Along (CallSpec svc (.updateServiceAccountStatus ctx id status version)) []
      (svc.program (.updateServiceAccountStatus ctx id status version)) := by
  simp only [program, updateServiceAccountStatus, bind_assoc, along_require, along_query_expect,
    along_now]
  rintro st hst actor rfl current now
  refine along_newOutboxEvent fun event hevent => ?_
  simp only [along_within_expect]
  intro n
  exact ⟨.updateServiceAccountStatus (Option.filter_eq_some_iff.1 hst).1 hevent, along_ret _⟩

section Clean

variable {Φ : List Act → (e : Effect) → e.Res → Prog Reply → Prop} {cleaner : SessionCleaner}
  {fuel : Nat} {acts : List Act}

theorem along_deleteBatch {keys : Except RepositoryError (List String)}
    {delete : List String → Tx Nat} {f : Nat → Prog Reply}
    (hwithin : ∀ keys r next, Φ acts (.within (delete keys)) r next)
    (h : ∀ acts n, Along Φ acts (f n)) : Along Φ acts (deleteBatch keys delete >>= f) := by
  simp only [deleteBatch, bind_assoc, along_expect]
  intro keys _
  split
  · exact h _ _
  · simp only [within, bind_assoc, along_perform, along_expect]
    exact fun r => ⟨hwithin _ _ _, fun n _ => h _ _⟩

theorem along_cleanLoop {delete : Time → Nat → Prog Nat} {age : Time} {batchSize n : Nat}
    {f : Unit → Prog Reply} (hnow : ∀ acts r next, Φ acts .now r next)
    (hdelete : ∀ acts now (f : Nat → Prog Reply), (∀ acts n, Along Φ acts (f n)) →
      Along Φ (Act.clock now :: acts) (delete (now - age) batchSize >>= f))
    (h : ∀ acts, Along Φ acts (f ())) :
    Along Φ acts (cleanLoop delete age batchSize n >>= f) := by
  induction n generalizing acts with
  | zero => exact .fail
  | succ n ih =>
    simp only [cleanLoop, now, bind_assoc, along_perform]
    refine fun t => ⟨hnow _ _ _, hdelete _ t _ fun acts deleted => ?_⟩
    split
    · exact h _
    · exact ih

theorem along_clean (hnow : ∀ acts r next, Φ acts .now r next)
    (hquery : ∀ acts q r next, Φ acts (.query q) r next)
    (hwithin : ∀ acts now q x body r next,
      (∃ keys, body = Repository.deleteSessions keys (now - cleaner.retention) ∨
        body = Repository.deleteMFAChallenges keys (now - 24 * Go.hour) ∨
        body = Repository.deletePasswordResetChallenges keys (now - 24 * Go.hour)) →
      Φ (⟨.query q, x⟩ :: Act.clock now :: acts) (.within body) r next) :
    Along Φ [] (svc.program (.clean cleaner fuel)) := by
  simp only [program, clean, bind_assoc]
  refine along_cleanLoop hnow ?_ fun _ => along_cleanLoop hnow ?_ fun _ => along_cleanLoop hnow ?_
    fun _ => along_ret _
  · intro acts now f hf
    simp only [deleteExpiredOrRevokedSessionsBefore, query, bind_assoc, along_perform]
    exact fun r => ⟨hquery _ _ _ _, along_deleteBatch
      (fun keys _ _ => hwithin _ _ _ _ _ _ _ ⟨keys, .inl rfl⟩) hf⟩
  · intro acts now f hf
    simp only [deleteExpiredMFAChallengesBefore, query, bind_assoc, along_perform]
    exact fun r => ⟨hquery _ _ _ _, along_deleteBatch
      (fun keys _ _ => hwithin _ _ _ _ _ _ _ ⟨keys, .inr (.inl rfl)⟩) hf⟩
  · intro acts now f hf
    simp only [deleteExpiredPasswordResetChallengesBefore, query, bind_assoc, along_perform]
    exact fun r => ⟨hquery _ _ _ _, along_deleteBatch
      (fun keys _ _ => hwithin _ _ _ _ _ _ _ ⟨keys, .inr (.inr rfl)⟩) hf⟩

theorem clean_spec : Along (CallSpec svc (.clean cleaner fuel)) []
    (svc.program (.clean cleaner fuel)) := by
  refine along_clean svc (fun _ _ _ => trivial) (fun _ _ _ _ => trivial) ?_
  rintro acts now q x body (e | n) next ⟨keys, hbody⟩
  · trivial
  · obtain rfl | rfl | rfl := hbody
    · exact .cleanSessions
    · exact .cleanMFAChallenges
    · exact .cleanPasswordResetChallenges

end Clean

section ReadOnly

variable {op : Op} {acts : List Act}

theorem along_validateSession {id userID : String} {f : Option Session × Bool → Prog Reply}
    (h : ∀ acts r, Along (CallSpec svc op) acts (f r)) :
    Along (CallSpec svc op) acts (validateSession id userID >>= f) := by
  simp only [validateSession, bind_assoc, along_query, along_expect]
  intro _ existing _
  cases existing with
  | none => exact h _ _
  | some session =>
    simp only
    split
    · simp only [bind_assoc, along_now]
      exact fun _ => h _ _
    · exact h _ _

theorem along_listSessions {userID tenantID status : String} {page pageSize : Int}
    {f : Page SessionItem → Prog Reply} (h : ∀ acts r, Along (CallSpec svc op) acts (f r)) :
    Along (CallSpec svc op) acts (listSessions userID tenantID status page pageSize >>= f) := by
  simp only [listSessions, bind_assoc, along_reject, along_now, along_query_expect]
  exact fun _ _ _ _ _ => h _ _

theorem along_reportMFA {userID : String} {f : MFAStatusReport → Prog Reply}
    (h : ∀ acts r, Along (CallSpec svc op) acts (f r)) :
    Along (CallSpec svc op) acts (reportMFA userID >>= f) := by
  simp only [reportMFA, bind_assoc, along_query, along_expect]
  intro _ enrollment _
  cases enrollment with
  | none => exact h _ _
  | some e =>
    simp only
    split
    · simp only [bind_assoc, along_query_expect]
      exact fun _ => h _ _
    · exact h _ _

theorem verifyBearer_spec (raw : String) :
    Along (CallSpec svc (.verifyBearer raw)) [] (svc.program (.verifyBearer raw)) := by
  simp only [program, verifyBearer, bind_assoc, along_now, along_require]
  intro now claims _
  split
  · simp only [bind_assoc]
    refine along_validateSession svc fun _ _ => ?_
    simp only [along_reject]
    exact fun _ => along_ret _
  · exact along_ret _

theorem mfaStatus_spec (ctx : Context) :
    Along (CallSpec svc (.mfaStatus ctx)) [] (svc.program (.mfaStatus ctx)) := by
  simp only [program, mfaStatus, bind_assoc, along_require]
  intro actor _
  split
  · exact along_ret _
  · exact along_reportMFA svc fun _ _ => along_ret _

theorem serviceAccountToken_spec (clientID secret : String) :
    Along (CallSpec svc (.serviceAccountToken clientID secret)) []
      (svc.program (.serviceAccountToken clientID secret)) := by
  simp only [program, serviceAccountToken, bind_assoc, along_query_expect, along_reject]
  intro account _ _
  exact along_issue (.inr rfl) fun g _ => along_ret _

end ReadOnly

theorem program_spec (op : Op) : Along (CallSpec svc op) [] (svc.program op) := by
  cases op with
  | register ctx username displayName email phone password =>
    exact register_spec svc ctx username displayName email phone password
  | login name password client => exact login_spec svc name password client
  | refresh refreshToken => exact refresh_spec svc refreshToken
  | logout ctx sessionID reason => exact logout_spec svc ctx sessionID reason
  | changePassword ctx current new => exact changePassword_spec svc ctx current new
  | getUser id => exact along_query_last fun r => by cases r <;> rfl
  | listUsers keyword status page pageSize =>
    simp only [program, listUsers, bind_assoc, along_reject, along_query_expect]
    exact fun _ _ _ _ => along_ret _
  | batchGetUsers ids =>
    simp only [program, batchGetUsers, bind_assoc, along_reject, along_expect]
    intro _ normalized _
    split
    · exact along_ret _
    · exact along_query_last fun r => by cases r <;> rfl
  | updateUserStatus ctx id status reason version =>
    exact updateUserStatus_spec svc ctx id status reason version
  | updateUserProfile ctx id displayName email phone reason version =>
    exact updateUserProfile_spec svc ctx id displayName email phone reason version
  | validateSession id userID => exact along_validateSession svc fun _ _ => along_ret _
  | listSessions userID tenantID status page pageSize =>
    exact along_listSessions svc fun _ _ => along_ret _
  | listOwnSessions ctx status page pageSize =>
    simp only [program, listOwnSessions, bind_assoc, along_require]
    exact fun _ _ => along_listSessions svc fun _ _ => along_ret _
  | revokeOwnSessionByID ctx id reason version =>
    exact revokeOwnSessionByID_spec svc ctx id reason version
  | revokeSessionByID ctx id reason version =>
    exact revokeSessionByID_spec svc ctx id reason version
  | getSessionByID ctx id =>
    simp only [program, getSessionByID, bind_assoc, along_require, along_reject]
    exact fun _ _ _ => along_query_last fun r => by cases r <;> rfl
  | revokeTenantSessions ctx userID tenantID reason =>
    exact revokeTenantSessions_spec svc ctx userID tenantID reason
  | issueTenantToken ctx userID tenantID membershipID sessionID =>
    exact issueTenantToken_spec svc ctx userID tenantID membershipID sessionID
  | verifyBearer raw => exact verifyBearer_spec svc raw
  | verifyMFAChallenge token code recoveryCode =>
    exact verifyMFAChallenge_spec svc token code recoveryCode
  | mfaStatus ctx => exact mfaStatus_spec svc ctx
  | adminMFAStatus ctx userID =>
    simp only [program, adminMFAStatus, bind_assoc, along_require, along_reject,
      along_query_expect]
    exact fun _ _ _ _ => along_reportMFA svc fun _ _ => along_ret _
  | startMFASetup ctx password => exact startMFASetup_spec svc ctx password
  | confirmMFASetup ctx code version => exact confirmMFASetup_spec svc ctx code version
  | disableMFA ctx password code version => exact disableMFA_spec svc ctx password code version
  | regenerateMFARecoveryCodes ctx password code version =>
    exact regenerateMFARecoveryCodes_spec svc ctx password code version
  | adminResetMFA ctx userID reason version =>
    exact adminResetMFA_spec svc ctx userID reason version
  | issuePasswordReset ctx userID reason => exact issuePasswordReset_spec svc ctx userID reason
  | confirmPasswordReset token new => exact confirmPasswordReset_spec svc token new
  | getServiceAccount id =>
    simp only [program, getServiceAccount, bind_assoc, along_query_expect, along_require]
    exact fun _ _ _ => along_ret _
  | listServiceAccounts keyword status page pageSize =>
    simp only [program, listServiceAccounts, decodeAudiences, bind_assoc, along_reject,
      along_query_expect, along_require]
    exact fun _ _ _ _ _ _ => along_ret _
  | batchGetServiceAccounts ids =>
    simp only [program, batchGetServiceAccounts, bind_assoc, along_expect]
    intro unique _
    split
    · exact along_ret _
    · simp only [decodeAudiences, bind_assoc, along_reject, along_query_expect, along_require]
      exact fun _ _ _ _ => along_ret _
  | createServiceAccount ctx name audiences =>
    exact createServiceAccount_spec svc ctx name audiences
  | rotateServiceAccountSecret ctx id version =>
    exact rotateServiceAccountSecret_spec svc ctx id version
  | updateServiceAccountStatus ctx id status version =>
    exact updateServiceAccountStatus_spec svc ctx id status version
  | serviceAccountToken clientID secret =>
    exact serviceAccountToken_spec svc clientID secret
  | clean cleaner fuel => exact clean_spec svc

end Spec

theorem Commit.of_path {svc : Service} {op : Op} {acts : List Act} {body : Tx Nat}
    {k : Except RepositoryError Nat → Prog Reply}
    (h : Program.Path (svc.program op) acts (.call (.within body) k)) (n : Nat) :
    Commit svc op acts body n (k (.ok n)) :=
  ((Program.along_call _ _).1 ((program_spec svc op).of_path h) (.ok n)).1

end IdentityService
