import IdentityService.Defs.Operation

/-! The transactions each operation may commit, with everything it has read, drawn and
signed before and what it answers afterwards. -/

namespace IdentityService

open Lib

abbrev Act.read (q : Query) (row : q.Row) : Act := ⟨.query q, .ok row⟩
abbrev Act.clock (t : Time) : Act := ⟨.now, t⟩
abbrev Act.drew (kind : Draw) (s : String) : Act := ⟨.draw kind, some s⟩
abbrev Act.signed (claims : TokenClaims) (raw : String) : Act := ⟨.sign claims, some raw⟩
abbrev Act.committed (body : Tx Nat) (n : Nat) : Act := ⟨.within body, .ok n⟩

structure Grant where
  issuedAt : Time
  tokenID : String
  access : String

namespace Grant

variable (g : Grant) (svc : Service)

def claims (subject subjectType sessionID tenantID membershipID : String) : TokenClaims :=
  svc.issuer.claims subject subjectType sessionID tenantID membershipID g.issuedAt g.tokenID

abbrev acts (subject subjectType sessionID tenantID membershipID : String) : List Act :=
  [.signed (g.claims svc subject subjectType sessionID tenantID membershipID) g.access,
    .drew .tokenID g.tokenID, .clock g.issuedAt]

def expiresAt : Time := g.issuedAt + svc.issuer.ttl

end Grant

structure Draft where
  now : Time
  rawRefresh : String
  id : String
  grant : Grant

namespace Draft

variable (d : Draft) (svc : Service)

def session (actor userID : String) (client : SessionClient) : Session :=
  svc.newSession ⟨1, d.now, d.now, actor, actor⟩ d.id userID "" "" d.rawRefresh d.now client

def tokens : Tokens := ⟨d.grant.access, d.rawRefresh, "Bearer", d.grant.expiresAt svc, d.id⟩

abbrev acts (userID : String) : List Act :=
  d.grant.acts svc userID "user" d.id "" "" ++
    [.drew .uuid d.id, .drew .refreshToken d.rawRefresh, .clock d.now]

end Draft

def OutboxEvent.Describes (event : OutboxEvent) (aggregateID : String) (payload : Payload) : Prop :=
  event.aggregateID = aggregateID ∧ event.payload = payload

open Service in
/-- `Commit svc op acts body n next`: having done `acts`, newest first, `op` may run `body`;
when it commits with result `n`, `next` is what is left of `op`. -/
inductive Commit (svc : Service) : Op → List Act → Tx Nat → Nat → Prog Reply → Prop
  | register {username displayName email phone password salt now userID credentialID n}
      {actor : Principal} {user : User} {credential : Credential} {event : OutboxEvent}
      (huser : user.id = userID ∧ user.status = .active ∧ user.failedLoginCount = 0 ∧
        user.lockedUntil = none ∧ user.version = 1)
      (hcredential : credential.id = credentialID ∧ credential.userID = userID ∧
        credential.type = "password" ∧ credential.status = .active ∧ credential.version = 1)
      (hevent : event.Describes userID (.userCreated user)) :
      Commit svc (.register (some actor) username displayName email phone password)
        [.drew .uuid event.id, .drew .uuid credentialID, .drew .uuid userID, .clock now,
          .drew .salt salt]
        (do
          Repository.createUser user credential
          Repository.insertOutbox event
          return 0)
        n (.ret (.user user))
  | loginFailed {name password client now n} {user : User} {credential : Credential}
      (havailable : available user credential now = true)
      (hpassword : svc.verified password credential.secretHash = false) :
      Commit svc (.login name password client)
        [.clock now, .read (.passwordCredential user.id) credential,
          .read (.userByLogin (Go.trimSpace name)) user]
        (do
          Repository.recordFailedLogin user.id loginFailureThreshold (now + loginLockDuration) now
          return 0)
        n (.fail (.unauthorized "invalid credentials"))
  | loginVerified {name password client now n} {user : User} {credential : Credential}
      (havailable : available user credential now = true)
      (hpassword : svc.verified password credential.secretHash = true) :
      Commit svc (.login name password client)
        [.clock now, .read (.passwordCredential user.id) credential,
          .read (.userByLogin (Go.trimSpace name)) user]
        (do
          Repository.resetFailedLogin user.id now
          return 0)
        n (do return .login (← svc.completeLogin user client))
  | loginChallenge {name password client now body m token issuedAt n} {user : User}
      {credential : Credential} {enrollment : MFAEnrollment}
      (havailable : available user credential now = true)
      (hpassword : svc.verified password credential.secretHash = true)
      (henabled : enrollment.status = .enabled) :
      Commit svc (.login name password client)
        [.clock issuedAt, .drew .challengeToken token, .read (.getMFA user.id) enrollment,
          .committed body m, .clock now, .read (.passwordCredential user.id) credential,
          .read (.userByLogin (Go.trimSpace name)) user]
        (do
          Repository.insertMFAChallenge (svc.newChallenge
            ⟨1, issuedAt, issuedAt, "identity:login", "identity:login"⟩ token user.id
            (issuedAt + svc.mfaChallengeTTL) client)
          return 0)
        n (.ret (.login ⟨none, true, token, some (issuedAt + svc.mfaChallengeTTL)⟩))
  | loginSession {name password client now body m result n} {enrollment : Option MFAEnrollment}
      {user : User} {credential : Credential} {d : Draft}
      (havailable : available user credential now = true)
      (hpassword : svc.verified password credential.secretHash = true)
      (hfound : found result = .ok enrollment)
      (henabled : enrollment.any (fun e => e.status = .enabled) = false)
      (huser : user.id ≠ "") :
      Commit svc (.login name password client)
        (d.acts svc user.id ++ [⟨.query (.getMFA user.id), result⟩,
          .committed body m, .clock now, .read (.passwordCredential user.id) credential,
          .read (.userByLogin (Go.trimSpace name)) user])
        (do
          Repository.createSession (d.session svc "identity:login" user.id client)
          return 0)
        n (.ret (.login ⟨some (d.tokens svc), false, "", none⟩))
  | refresh {refreshToken checkedAt rawRefresh now n} {session : Session} {user : User} {g : Grant}
      (htoken : refreshToken ≠ "") (hrevoked : session.revokedAt = none)
      (hexpires : checkedAt < session.expiresAt) (hactive : user.status = .active) :
      Commit svc (.refresh refreshToken)
        (g.acts svc user.id "user" session.id session.tenantID session.membershipID ++
          [.clock now, .drew .refreshToken rawRefresh, .read (.getUser session.userID) user,
            .clock checkedAt,
            .read (.sessionByRefreshHash (svc.hashRefreshToken refreshToken)) session])
        (do
          Repository.rotateSession (svc.rotated session rawRefresh now)
            (svc.hashRefreshToken refreshToken)
          return 0)
        n (.ret (.tokens ⟨g.access, rawRefresh, "Bearer", g.expiresAt svc, session.id⟩))
  | logout {sessionID reason now n} {actor : Principal} {session : Session} {event : OutboxEvent}
      (hevent : event.Describes session.id (.sessionRevoked session.id session.userID
        session.tenantID (orDefault reason "logout"))) :
      Commit svc (.logout (some actor) sessionID reason)
        [.drew .uuid event.id, .read (.getSession sessionID actor.id) session, .clock now]
        (do
          Repository.revokeSession sessionID actor.id (orDefault reason "logout") actor.id now
          Repository.insertOutbox event
          return 0)
        n (.ret .done)
  | changePassword {current new now salt eventID n} {actor : Principal} {credential : Credential}
      {event : Nat → OutboxEvent}
      (hactor : actor.type = .user ∧ actor.sessionID ≠ "")
      (hactive : credential.status = .active)
      (hcurrent : svc.verified current credential.secretHash = true)
      (hnew : svc.verified new credential.secretHash = false)
      (hevent : ∀ count, (event count).id = eventID ∧ (event count).Describes actor.id
        (.passwordChanged actor.id count .selfService "user changed password")) :
      Commit svc (.changePassword (some actor) current new)
        [.drew .uuid eventID, .clock now, .drew .salt salt,
          .read (.passwordCredential actor.id) credential]
        (do
          Repository.updatePasswordCredential credential.id (svc.hasher.encode salt new) actor.id
            credential.version now
          let count ← Repository.revokeOtherSessions actor.id actor.sessionID "password changed"
            actor.id now
          Repository.insertOutbox (event count)
          return count)
        n (.ret (.count n))
  | updateUserStatus {id text reason version now n} {status : Status} {actor : Principal}
      {current : User} {event : OutboxEvent} (hstatus : Status.ofString text = some status)
      (hevent : event.Describes id (.userStatusChanged id current.status status reason)) :
      Commit svc (.updateUserStatus (some actor) id text reason version)
        [.drew .uuid event.id, .clock now, .read (.getUser id) current]
        (do
          Repository.updateUserStatus id status actor.id version now
          if status ≠ .active then do
            let _ ← Repository.revokeUserSessions id
              ("user status changed to " ++ status.toString) actor.id now
            Repository.insertOutbox event
            return 0
          else do
            Repository.insertOutbox event
            return 0)
        n (do return .user (← .expect (fun _ => .internal) (← query (.getUser id))))
  | updateUserProfile {id displayName email phone reason version now n} {actor : Principal}
      {current : User} {event : OutboxEvent}
      (hevent : event.Describes (Go.trimSpace id) (.userProfileUpdated
        { current with
          displayName := Go.trimSpace displayName
          email := svc.toLower (Go.trimSpace email)
          phone := Go.trimSpace phone
          version := version + 1
          updatedAt := now
          updatedBy := actor.id } (Go.trimSpace reason))) :
      Commit svc (.updateUserProfile (some actor) id displayName email phone reason version)
        [.drew .uuid event.id, .clock now, .read (.getUser (Go.trimSpace id)) current]
        (do
          Repository.updateUserProfile (Go.trimSpace id) (Go.trimSpace displayName)
            (svc.toLower (Go.trimSpace email)) (Go.trimSpace phone) actor.id version now
          Repository.insertOutbox event
          return 0)
        n (do return .user (← .expect (fun _ => .internal)
            (← query (.getUser (Go.trimSpace id)))))
  | revokeOwnSessionByID {id reason version now n} {actor : Principal} {current : Session}
      {event : OutboxEvent} (hactor : actor.type = .user)
      (hevent : event.Describes current.id (.sessionRevoked current.id current.userID
        current.tenantID (orDefault (Go.trimSpace reason) "user security revocation"))) :
      Commit svc (.revokeOwnSessionByID (some actor) id reason version)
        [.drew .uuid event.id, .clock now, .read (.getSession (Go.trimSpace id) actor.id) current]
        (do
          Repository.revokeOwnedSessionByID current.id actor.id
            (orDefault (Go.trimSpace reason) "user security revocation") actor.id version now
          Repository.insertOutbox event
          return 0)
        n (do return .session (← .expect (fun _ => .internal)
            (← query (.getSession current.id actor.id))))
  | revokeSessionByID {id reason version now n} {actor : Principal} {current : Session}
      {event : OutboxEvent}
      (hevent : event.Describes current.id (.sessionRevoked current.id current.userID
        current.tenantID (orDefault (Go.trimSpace reason) "administrative revocation"))) :
      Commit svc (.revokeSessionByID (some actor) id reason version)
        [.drew .uuid event.id, .clock now, .read (.getSessionByID (Go.trimSpace id)) current]
        (do
          Repository.revokeSessionByID current.id
            (orDefault (Go.trimSpace reason) "administrative revocation") actor.id version now
          Repository.insertOutbox event
          return 0)
        n (do return .session (← .expect (fun _ => .internal)
            (← query (.getSessionByID current.id))))
  | revokeTenantSessions {userID tenantID reason now n} {actor : Principal} :
      Commit svc (.revokeTenantSessions (some actor) userID tenantID reason) [.clock now]
        (Repository.revokeTenantSessions userID tenantID reason actor.id now)
        n (.ret (.count n))
  | issueTenantToken {userID tenantID membershipID sessionID now n} {actor : Principal} {g : Grant}
      (hactor : actor.type = .serviceAccount ∨ actor.type = .system) :
      Commit svc (.issueTenantToken (some actor) userID tenantID membershipID sessionID)
        (.clock now :: g.acts svc (Go.trimSpace userID) "user" (Go.trimSpace sessionID)
          (Go.trimSpace tenantID) (Go.trimSpace membershipID))
        (do
          Repository.scopeSession (Go.trimSpace sessionID) (Go.trimSpace userID)
            (Go.trimSpace tenantID) (Go.trimSpace membershipID) actor.id now
          return 0)
        n (.ret (.token g.access (g.expiresAt svc)))
  | verifyMFAChallenge {token code recoveryCode now step recoveryHash n} {m : MFACrypto}
      {challenge : MFALoginChallenge} {user : User} {enrollment : MFAEnrollment} {d : Draft}
      (hmfa : svc.mfa = some m) (hconsumed : challenge.consumedAt = none)
      (hexpires : now < challenge.expiresAt) (hactive : user.status = .active)
      (henabled : enrollment.status = .enabled) (huser : challenge.userID ≠ "")
      (hfactor : (∃ secret, m.decryptSecret challenge.userID enrollment.secretCiphertext =
            some secret ∧ m.validateTOTP secret (Go.trimSpace code) now = some step ∧
            enrollment.lastUsedStep < step ∧ recoveryHash = "") ∨
          recoveryHash = m.recoveryCodeHash (Go.trimSpace recoveryCode)) :
      Commit svc (.verifyMFAChallenge token code recoveryCode)
        (d.acts svc challenge.userID ++
          [.read (.getMFA challenge.userID) enrollment, .read (.getUser challenge.userID) user,
            .clock now, .read (.getMFAChallenge
              (svc.hashMFAChallengeToken (Go.trimSpace token))) challenge])
        (do
          Repository.consumeMFAChallenge (svc.hashMFAChallengeToken (Go.trimSpace token))
            "identity:mfa" challenge.version now
          spendFactor challenge.userID recoveryHash step now
          Repository.createSession (d.session svc "identity:mfa" challenge.userID
            ⟨challenge.clientIP, challenge.userAgent⟩)
          return 0)
        n (.ret (.tokens (d.tokens svc)))
  | startMFASetup {password nonce secret now result n} {actor : Principal} {m : MFACrypto}
      {credential : Credential} {user : User} {current : Option MFAEnrollment}
      (hactor : actor.type = .user ∧ actor.sessionID ≠ "") (hmfa : svc.mfa = some m)
      (hfound : found result = .ok current)
      (henabled : current.any (fun e => e.status = .enabled) = false) :
      Commit svc (.startMFASetup (some actor) password)
        [⟨.query (.getMFA actor.id), result⟩, .clock now, .drew .nonce nonce,
          .drew .totpSecret secret, .read (.getUser actor.id) user,
          .read (.passwordCredential actor.id) credential]
        (storeSecret actor.id (m.encrypt nonce actor.id secret) ⟨1, now, now, actor.id, actor.id⟩
          now current)
        n (.ret (.mfaSetup ⟨secret, m.uri user.email secret,
            current.elim 1 (fun e => e.version + 1), now + mfaSetupTTL⟩))
  | confirmMFASetup {code version now secret step n draws codes} {actor : Principal}
      {m : MFACrypto} {enrollment : MFAEnrollment} {rows : List MFARecoveryCode}
      {event : OutboxEvent}
      (hactor : actor.type = .user ∧ actor.sessionID ≠ "") (hmfa : svc.mfa = some m)
      (hpending : enrollment.status = .pending)
      (hsecret : m.decryptSecret actor.id enrollment.secretCiphertext = some secret)
      (hstep : m.validateTOTP secret (Go.trimSpace code) now = some step)
      (hdraws : ∀ a ∈ draws, ∃ kind s, a = Act.drew kind s)
      (hrows : rows.length = MFACrypto.recoveryCodeCount)
      (hcodes : ∀ row ∈ rows, row.userID = actor.id ∧ row.consumedAt = none)
      (hids : ∀ row ∈ rows, Act.drew .uuid row.id ∈ draws)
      (hevent : event.Describes actor.id
        (.mfaStatusChanged actor.id true rows.length .enabled "user enabled mfa")) :
      Commit svc (.confirmMFASetup (some actor) code version)
        (draws ++ [.clock now, .read (.getMFA actor.id) enrollment])
        (do
          Repository.enableMFA actor.id step actor.id version now
          Repository.replaceRecoveryCodes rows
          let count ← Repository.revokeOtherSessions actor.id actor.sessionID "mfa enabled"
            actor.id now
          Repository.insertOutbox event
          return count)
        n (.ret (.mfaConfirmation ⟨codes, n, version + 1⟩))
  | disableMFA {password code version now secret step n} {actor : Principal} {m : MFACrypto}
      {credential : Credential} {enrollment : MFAEnrollment} {event : OutboxEvent}
      (hactor : actor.type = .user ∧ actor.sessionID ≠ "") (hmfa : svc.mfa = some m)
      (henabled : enrollment.status = .enabled)
      (hsecret : m.decryptSecret actor.id enrollment.secretCiphertext = some secret)
      (hstep : m.validateTOTP secret (Go.trimSpace code) now = some step)
      (hfresh : enrollment.lastUsedStep < step)
      (hevent : event.Describes actor.id
        (.mfaStatusChanged actor.id false 0 .disabled "user disabled mfa")) :
      Commit svc (.disableMFA (some actor) password code version)
        [.drew .uuid event.id, .clock now, .read (.getMFA actor.id) enrollment,
          .read (.passwordCredential actor.id) credential]
        (do
          Repository.disableMFA actor.id step actor.id version now
          Repository.deleteRecoveryCodes actor.id
          let count ← Repository.revokeOtherSessions actor.id actor.sessionID "mfa disabled"
            actor.id now
          Repository.insertOutbox event
          return count)
        n (.ret (.count n))
  | regenerateMFARecoveryCodes {password code version now secret step n draws codes}
      {actor : Principal} {m : MFACrypto} {credential : Credential} {enrollment : MFAEnrollment}
      {rows : List MFARecoveryCode} {event : OutboxEvent}
      (hactor : actor.type = .user ∧ actor.sessionID ≠ "") (hmfa : svc.mfa = some m)
      (henabled : enrollment.status = .enabled)
      (hsecret : m.decryptSecret actor.id enrollment.secretCiphertext = some secret)
      (hstep : m.validateTOTP secret (Go.trimSpace code) now = some step)
      (hfresh : enrollment.lastUsedStep < step)
      (hdraws : ∀ a ∈ draws, ∃ kind s, a = Act.drew kind s)
      (hrows : rows.length = MFACrypto.recoveryCodeCount)
      (hcodes : ∀ row ∈ rows, row.userID = actor.id ∧ row.consumedAt = none)
      (hids : ∀ row ∈ rows, Act.drew .uuid row.id ∈ draws)
      (hevent : event.Describes actor.id (.mfaStatusChanged actor.id true rows.length
        .recoveryCodesRotated "user rotated mfa recovery codes")) :
      Commit svc (.regenerateMFARecoveryCodes (some actor) password code version)
        (draws ++ [.clock now, .read (.getMFA actor.id) enrollment,
          .read (.passwordCredential actor.id) credential])
        (do
          Repository.advanceMFAStepAtVersion actor.id step actor.id version now
          Repository.replaceRecoveryCodes rows
          Repository.insertOutbox event
          return 0)
        n (.ret (.mfaRotation ⟨codes, version + 1⟩))
  | adminResetMFA {userID reason version now n} {actor : Principal} {enrollment : MFAEnrollment}
      {event : OutboxEvent} (henabled : enrollment.status = .enabled)
      (hevent : event.Describes (Go.trimSpace userID) (.mfaStatusChanged (Go.trimSpace userID)
        false 0 .administrativeReset (Go.trimSpace (Go.trimSpace reason)))) :
      Commit svc (.adminResetMFA (some actor) userID reason version)
        [.drew .uuid event.id, .clock now, .read (.getMFA (Go.trimSpace userID)) enrollment]
        (do
          Repository.adminResetMFA (Go.trimSpace userID) actor.id version now
          Repository.deleteRecoveryCodes (Go.trimSpace userID)
          let count ← Repository.revokeUserSessions (Go.trimSpace userID)
            ("mfa administratively reset: " ++ Go.trimSpace reason) actor.id now
          Repository.insertOutbox event
          return count)
        n (.ret (.mfaReset ⟨Go.trimSpace userID, true, n, version + 1⟩))
  | issuePasswordReset {userID reason token now n} {actor : Principal} {user : User}
      {challenge : PasswordResetChallenge}
      (hchallenge : challenge.tokenHash = svc.hashPasswordResetToken token ∧
        challenge.userID = Go.trimSpace userID)
      (hactive : user.status = .active) :
      Commit svc (.issuePasswordReset (some actor) userID reason)
        [.clock now, .drew .resetToken token, .read (.getUser (Go.trimSpace userID)) user]
        (do
          Repository.invalidatePasswordResetChallenges (Go.trimSpace userID) actor.id now
          Repository.insertPasswordResetChallenge challenge
          return 0)
        n (.ret (.passwordResetIssue ⟨token, challenge.expiresAt⟩))
  | confirmPasswordReset {token new salt now eventID n} {challenge : PasswordResetChallenge}
      {user : User} {credential : Credential} {event : Nat → OutboxEvent}
      (hactive : user.status = .active) (hcredential : credential.status = .active)
      (hconsumed : challenge.consumedAt = none) (hexpires : now < challenge.expiresAt)
      (hnew : svc.verified new credential.secretHash = false)
      (hevent : ∀ count, (event count).id = eventID ∧ (event count).Describes challenge.userID
        (.passwordChanged challenge.userID count .administrativeRecovery challenge.reason)) :
      Commit svc (.confirmPasswordReset token new)
        [.drew .uuid eventID, .read (.passwordCredential challenge.userID) credential,
          .read (.getUser challenge.userID) user, .clock now,
          .read (.getPasswordResetChallenge
            (svc.hashPasswordResetToken (Go.trimSpace token))) challenge, .drew .salt salt]
        (do
          Repository.consumePasswordResetChallenge
            (svc.hashPasswordResetToken (Go.trimSpace token)) challenge.version
            "identity:password-reset" now
          Repository.updatePasswordCredential credential.id (svc.hasher.encode salt new)
            "identity:password-reset" credential.version now
          let count ← Repository.revokeUserSessions challenge.userID
            "password administratively recovered" "identity:password-reset" now
          Repository.insertOutbox (event count)
          return count)
        n (.ret (.passwordReset ⟨true, n⟩))
  | createServiceAccount {name audiences now secret salt id clientID n} {actor : Principal}
      {account : ServiceAccount} {event : OutboxEvent}
      (haccount : account.id = id ∧ account.clientID = "svc_" ++ clientID ∧
        account.secretHash = svc.hasher.encode salt secret ∧ account.status = .active ∧
        account.version = 1)
      (hevent : event.Describes id (.serviceAccountStatusChanged id none .active "created")) :
      Commit svc (.createServiceAccount (some actor) name audiences)
        [.drew .uuid event.id, .drew .uuid clientID, .drew .uuid id, .drew .salt salt,
          .drew .serviceSecret secret, .clock now]
        (do
          Repository.createServiceAccount account
          Repository.insertOutbox event
          return 0)
        n (.ret (.accountCreated account secret))
  | rotateServiceAccountSecret {id version secret salt now n} {actor : Principal}
      {event : OutboxEvent}
      (hevent : event.Describes (Go.trimSpace id)
        (.serviceAccountSecretRotated (Go.trimSpace id) (version + 1))) :
      Commit svc (.rotateServiceAccountSecret (some actor) id version)
        [.drew .uuid event.id, .clock now, .drew .salt salt, .drew .serviceSecret secret]
        (do
          Repository.rotateServiceAccountSecret (Go.trimSpace id) (svc.hasher.encode salt secret)
            actor.id version now
          Repository.insertOutbox event
          return 0)
        n (.ret (.secretRotated secret (version + 1)))
  | updateServiceAccountStatus {id text version now n} {status : Status} {actor : Principal}
      {current : ServiceAccount} {event : OutboxEvent}
      (hstatus : Status.ofString text = some status)
      (hevent : event.Describes id (.serviceAccountStatusChanged id (some current.status) status
        "administrative update")) :
      Commit svc (.updateServiceAccountStatus (some actor) id text version)
        [.drew .uuid event.id, .clock now, .read (.getServiceAccount id) current]
        (do
          Repository.updateServiceAccountStatus id status actor.id version now
          Repository.insertOutbox event
          return 0)
        n (.ret .done)
  | cleanSessions {cleaner fuel acts keys before n next} :
      Commit svc (.clean cleaner fuel) acts (Repository.deleteSessions keys before) n next
  | cleanMFAChallenges {cleaner fuel acts keys before n next} :
      Commit svc (.clean cleaner fuel) acts (Repository.deleteMFAChallenges keys before) n next
  | cleanPasswordResetChallenges {cleaner fuel acts keys before n next} :
      Commit svc (.clean cleaner fuel) acts
        (Repository.deletePasswordResetChallenges keys before) n next

def CallSpec (svc : Service) (op : Op) (acts : List Act) :
    (e : Effect) → e.Res → Prog Reply → Prop
  | .within body, .ok n, next => Commit svc op acts body n next
  | .sign claims, _, _ => claims.subjectType = "user" ∨ claims.sessionID = ""
  | _, _, _ => True

end IdentityService
