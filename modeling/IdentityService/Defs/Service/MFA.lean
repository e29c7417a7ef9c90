import IdentityService.Defs.Service.User

namespace IdentityService

open Lib

structure MFAStatusReport where
  available : Bool
  enabled : Bool
  status : MFAStatus
  recoveryCodesRemaining : Nat
  version : Int
  enabledAt : Option Time
deriving DecidableEq

structure MFASetup where
  secret : String
  uri : String
  version : Int
  expiresAt : Time
deriving DecidableEq

structure MFAConfirmation where
  recoveryCodes : List String
  revokedSessions : Nat
  version : Int
deriving DecidableEq

structure MFARecoveryRotation where
  recoveryCodes : List String
  version : Int
deriving DecidableEq

structure AdminMFAResetResult where
  userID : String
  reset : Bool
  revokedSessions : Nat
  version : Int
deriving DecidableEq

namespace Service

def checkFactor (m : MFACrypto) (enrollment : MFAEnrollment) (userID code recoveryCode : String)
    (now : Time) : Prog (Int × String) :=
  if code ≠ "" then do
    let secret ← .require .internal (m.decryptSecret userID enrollment.secretCiphertext)
    let step ← .require (.unauthorized "invalid or already used mfa code")
      (m.validateTOTP secret code now)
    .reject (step ≤ enrollment.lastUsedStep) (.unauthorized "invalid or already used mfa code")
    return (step, "")
  else return (0, m.recoveryCodeHash recoveryCode)

def spendFactor (userID recoveryHash : String) (step : Int) (now : Time) : Tx Unit :=
  if recoveryHash ≠ "" then Repository.consumeRecoveryCode userID recoveryHash "identity:mfa" now
  else Repository.advanceMFAStep userID step "identity:mfa" now

def verifyMFAChallenge (svc : Service) (challengeToken code recoveryCode : String) :
    Prog Tokens := do
  let m ← .require (.unavailable "mfa verification is unavailable") svc.mfa
  let challengeToken := Go.trimSpace challengeToken
  let code := Go.trimSpace code
  let recoveryCode := Go.trimSpace recoveryCode
  .reject (challengeToken = "" ∨ (code = "" ↔ recoveryCode = ""))
    (.invalid "challenge_token and exactly one verification code are required")
  let tokenHash := svc.hashMFAChallengeToken challengeToken
  let challenge ← .expect (fun _ => .unauthorized "invalid or expired mfa challenge")
    (← query (.getMFAChallenge tokenHash))
  let now ← now
  .reject (challenge.consumedAt ≠ none ∨ ¬now < challenge.expiresAt)
    (.unauthorized "invalid or expired mfa challenge")
  let user ← .expect (fun _ => .unauthorized "account is unavailable")
    (← query (.getUser challenge.userID))
  .reject (user.status ≠ .active) (.unauthorized "account is unavailable")
  let enrollment ← .expect (fun _ => .unauthorized "mfa is not enabled")
    (← query (.getMFA challenge.userID))
  .reject (enrollment.status ≠ .enabled) (.unauthorized "mfa is not enabled")
  let (step, recoveryHash) ←
    checkFactor m enrollment challenge.userID code recoveryCode now
  let (session, tokens) ← svc.prepareSession (svc.platform.systemContext "identity:mfa")
    challenge.userID "" "" ⟨challenge.clientIP, challenge.userAgent⟩
  let _ ← .expect
    (fun
      | .stale => .unauthorized "invalid or already used mfa verification"
      | e => translateIdentityError e)
    (← within do
      Repository.consumeMFAChallenge tokenHash "identity:mfa" challenge.version now
      spendFactor challenge.userID recoveryHash step now
      Repository.createSession session
      return 0)
  return tokens

def reportMFA (userID : String) : Prog MFAStatusReport := do
  let enrollment ← .expect translateIdentityError (found (← query (.getMFA userID)))
  match enrollment with
  | none => return ⟨true, false, .disabled, 0, 0, none⟩
  | some e =>
    if e.status = .enabled then do
      let remaining ← .expect translateIdentityError (← query (.countRecoveryCodes userID))
      return ⟨true, true, e.status, remaining, e.version, e.enabledAt⟩
    else return ⟨true, false, e.status, 0, e.version, e.enabledAt⟩

def requireMFAUser (ctx : Context) : Option Principal := requireSessionUser ctx

def mfaStatus (svc : Service) (ctx : Context) : Prog MFAStatusReport := do
  let actor ← .require (.unauthorized "authenticated user session is required")
    (requireMFAUser ctx)
  if svc.mfa.isNone then return ⟨false, false, .disabled, 0, 0, none⟩
  else reportMFA actor.id

def adminMFAStatus (ctx : Context) (userID : String) : Prog MFAStatusReport := do
  let _ ← .require (.unauthorized "authenticated actor is required") ctx
  let userID := Go.trimSpace userID
  .reject (userID = "") (.invalid "user_id is required")
  let _ ← .expect translateIdentityError (← query (.getUser userID))
  reportMFA userID

def verifyCurrentPassword (svc : Service) (userID password : String) : Prog Unit := do
  let credential ← .expect (fun _ => .unauthorized "current password is invalid")
    (← query (.passwordCredential userID))
  .reject (credential.status ≠ .active) (.unauthorized "current password is invalid")
  .reject (svc.verified password credential.secretHash = false)
    (.unauthorized "current password is invalid")

def storeSecret (userID encrypted : String) (fields : Fields) (now : Time) :
    Option MFAEnrollment → Tx Nat
  | none => do
    Repository.insertMFA {
      toFields := fields
      userID := userID
      method := "totp"
      secretCiphertext := encrypted
      status := .pending
      lastUsedStep := -1
      enabledAt := none }
    return 0
  | some current => do
    Repository.resetPendingMFA userID encrypted userID current.version now
    Repository.deleteRecoveryCodes userID
    return 0

def startMFASetup (svc : Service) (ctx : Context) (currentPassword : String) :
    Prog MFASetup := do
  let actor ← .require (.unauthorized "authenticated user session is required")
    (requireMFAUser ctx)
  let m ← .require (.unavailable "mfa is not configured") svc.mfa
  svc.verifyCurrentPassword actor.id currentPassword
  let user ← .expect translateIdentityError (← query (.getUser actor.id))
  let secret ← draw .totpSecret .internal
  let nonce ← draw .nonce .internal
  let now ← now
  let fields ← .require (.unauthorized "authenticated actor is required")
    (svc.platform.auditNew ctx now)
  let current ← .expect translateIdentityError (found (← query (.getMFA actor.id)))
  .reject (current.any (fun e => e.status = .enabled)) (.conflict "mfa is already enabled")
  let _ ← .expect translateIdentityError
    (← within (storeSecret actor.id (m.encrypt nonce actor.id secret) fields now current))
  return ⟨secret, m.uri user.email secret, current.elim 1 (fun e => e.version + 1),
    now + mfaSetupTTL⟩

def generateRecoveryCodes : Nat → Prog (List String)
  | 0 => return []
  | n + 1 => do
    let compact ← draw .recoveryCode .internal
    let codes ← generateRecoveryCodes n
    return MFACrypto.displayCode compact :: codes

def recoveryCodeRows (userID : String) (fields : Fields) : List String → Prog (List MFARecoveryCode)
  | [] => return []
  | hash :: hashes => do
    let id ← newUUID
    let rows ← recoveryCodeRows userID fields hashes
    return { toFields := fields, id := id, userID := userID, codeHash := hash,
             consumedAt := none } :: rows

def mfaStatusChangedEvent (ctx : Context) (userID : String) (now : Time) (payload : Payload) :
    Prog OutboxEvent :=
  newOutboxEvent ctx "platform.identity.mfa.status-changed.v1"
    "platform.identity.v1.MFAStatusChanged" userID now payload

def confirmMFASetup (svc : Service) (ctx : Context) (code : String) (version : Int) :
    Prog MFAConfirmation := do
  let actor ← .require (.unauthorized "authenticated user session is required")
    (requireMFAUser ctx)
  let m ← .require (.unavailable "mfa is not configured") svc.mfa
  let enrollment ← .expect translateIdentityError (← query (.getMFA actor.id))
  let now ← now
  .reject (enrollment.status ≠ .pending ∨ ¬now < enrollment.updatedAt + mfaSetupTTL)
    (.invalid "mfa setup is not pending or has expired")
  let secret ← .require .internal (m.decryptSecret actor.id enrollment.secretCiphertext)
  let step ← .require (.unauthorized "invalid mfa code")
    (m.validateTOTP secret (Go.trimSpace code) now)
  let codes ← generateRecoveryCodes MFACrypto.recoveryCodeCount
  let fields ← .require (.unauthorized "authenticated actor is required")
    (svc.platform.auditNew ctx now)
  let rows ← recoveryCodeRows actor.id fields (codes.map m.recoveryCodeHash)
  let event ← mfaStatusChangedEvent ctx actor.id now
    (.mfaStatusChanged actor.id true rows.length .enabled "user enabled mfa")
  let revoked ← .expect translateIdentityError (← within do
    Repository.enableMFA actor.id step actor.id version now
    Repository.replaceRecoveryCodes rows
    let count ← Repository.revokeOtherSessions actor.id actor.sessionID "mfa enabled" actor.id now
    Repository.insertOutbox event
    return count)
  return ⟨codes, revoked, version + 1⟩

/-- The checks `DisableMFA` and `RegenerateMFARecoveryCodes` make in the same words: the
password, an enabled enrolment, and a code of an unused step. -/
def requireFactor (svc : Service) (m : MFACrypto) (userID currentPassword code : String) :
    Prog (Int × Time) := do
  svc.verifyCurrentPassword userID currentPassword
  let enrollment ← .expect translateIdentityError (← query (.getMFA userID))
  .reject (enrollment.status ≠ .enabled) (.invalid "mfa is not enabled")
  let secret ← .require .internal (m.decryptSecret userID enrollment.secretCiphertext)
  let now ← now
  let step ← .require (.unauthorized "invalid or already used mfa code")
    (m.validateTOTP secret (Go.trimSpace code) now)
  .reject (step ≤ enrollment.lastUsedStep) (.unauthorized "invalid or already used mfa code")
  return (step, now)

def disableMFA (svc : Service) (ctx : Context) (currentPassword code : String) (version : Int) :
    Prog Nat := do
  let actor ← .require (.unauthorized "authenticated user session is required")
    (requireMFAUser ctx)
  let m ← .require (.unavailable "mfa is not configured") svc.mfa
  let (step, now) ← svc.requireFactor m actor.id currentPassword code
  let event ← mfaStatusChangedEvent ctx actor.id now
    (.mfaStatusChanged actor.id false 0 .disabled "user disabled mfa")
  .expect translateIdentityError (← within do
    Repository.disableMFA actor.id step actor.id version now
    Repository.deleteRecoveryCodes actor.id
    let count ← Repository.revokeOtherSessions actor.id actor.sessionID "mfa disabled" actor.id now
    Repository.insertOutbox event
    return count)

def regenerateMFARecoveryCodes (svc : Service) (ctx : Context) (currentPassword code : String)
    (version : Int) : Prog MFARecoveryRotation := do
  let actor ← .require (.unauthorized "authenticated user session is required")
    (requireMFAUser ctx)
  let m ← .require (.unavailable "mfa is not configured") svc.mfa
  let (step, now) ← svc.requireFactor m actor.id currentPassword code
  let codes ← generateRecoveryCodes MFACrypto.recoveryCodeCount
  let fields ← .require (.unauthorized "authenticated actor is required")
    (svc.platform.auditNew ctx now)
  let rows ← recoveryCodeRows actor.id fields (codes.map m.recoveryCodeHash)
  let event ← mfaStatusChangedEvent ctx actor.id now
    (.mfaStatusChanged actor.id true rows.length .recoveryCodesRotated
      "user rotated mfa recovery codes")
  let _ ← .expect translateIdentityError (← within do
    Repository.advanceMFAStepAtVersion actor.id step actor.id version now
    Repository.replaceRecoveryCodes rows
    Repository.insertOutbox event
    return 0)
  return ⟨codes, version + 1⟩

def adminResetMFA (ctx : Context) (userID reason : String) (version : Int) :
    Prog AdminMFAResetResult := do
  let actor ← .require (.unauthorized "authenticated actor is required") ctx
  let userID := Go.trimSpace userID
  let reason := Go.trimSpace reason
  .reject (userID = "" ∨ reason = "" ∨ version < 1)
    (.invalid "user_id, reason, and version are required")
  .reject (actor.type = .user ∧ actor.id = userID)
    (.invalid "use self-service mfa disable for the current user")
  let enrollment ← .expect translateIdentityError (← query (.getMFA userID))
  .reject (enrollment.status ≠ .enabled) (.invalid "mfa is not enabled")
  let now ← now
  let event ← mfaStatusChangedEvent ctx userID now
    (.mfaStatusChanged userID false 0 .administrativeReset (Go.trimSpace reason))
  let revoked ← .expect translateIdentityError (← within do
    Repository.adminResetMFA userID actor.id version now
    Repository.deleteRecoveryCodes userID
    let count ← Repository.revokeUserSessions userID ("mfa administratively reset: " ++ reason)
      actor.id now
    Repository.insertOutbox event
    return count)
  return ⟨userID, true, revoked, version + 1⟩

end Service

end IdentityService
