import IdentityService.Defs.Service.User

namespace IdentityService

open Lib

namespace Service

def getServiceAccount (svc : Service) (id : String) : Prog (ServiceAccount × List String) := do
  let account ← .expect translateIdentityError (← query (.getServiceAccount id))
  let audiences ← .require .internal (svc.unmarshalAudiences account.audiencesJSON)
  return (account, audiences)

def decodeAudiences (svc : Service) (accounts : List ServiceAccount) :
    Prog (List (ServiceAccount × List String)) :=
  .require .internal (accounts.mapM (fun account =>
    (svc.unmarshalAudiences account.audiencesJSON).map (fun audiences => (account, audiences))))

def listServiceAccounts (svc : Service) (keyword status : String) (page pageSize : Int) :
    Prog (Page (ServiceAccount × List String)) := do
  .reject (status ≠ "" ∧ status ≠ Status.active.toString ∧ status ≠ Status.disabled.toString)
    (.invalid "invalid service account status")
  let page := if page < 1 then 1 else page
  let pageSize := if pageSize < 1 ∨ pageSize > 100 then 20 else pageSize
  let filter : ListFilter := ⟨Go.trimSpace keyword, Go.trimSpace status⟩
  let total ← .expect translateIdentityError (← query (.countServiceAccounts filter))
  let offset := Go.int64 ((page - 1) * pageSize)
  .reject (offset < 0) .internal
  let items ← .expect translateIdentityError
    (← query (.listServiceAccounts filter pageSize.toNat offset.toNat))
  return ⟨← svc.decodeAudiences items, total, page, pageSize⟩

def batchGetServiceAccounts (svc : Service) (ids : List String) :
    Prog (List (ServiceAccount × List String)) := do
  let unique ← .expect id
    (normalizeIDs (.invalid "service_account_ids must not contain empty values") ids [])
  if unique = [] then return []
  else do
    .reject (unique.length > 100)
      (.invalid "service_account_ids must not contain more than 100 values")
    let items ← .expect translateIdentityError (← query (.batchGetServiceAccounts unique))
    svc.decodeAudiences items

def newServiceAccountSecret (svc : Service) : Prog (String × String) := do
  let secret ← draw .serviceSecret .internal
  let hash ← svc.hash (fun _ => .internal) secret
  return (secret, hash)

def createServiceAccount (svc : Service) (ctx : Context) (name : String)
    (audiences : List String) : Prog (ServiceAccount × String) := do
  let name := Go.trimSpace name
  .reject (name = "" ∨ audiences = []) (.invalid "name and audiences are required")
  let now ← now
  let fields ← .require (.unauthorized "authenticated actor is required")
    (svc.platform.auditNew ctx now)
  let (secret, hash) ← svc.newServiceAccountSecret
  let account : ServiceAccount := {
    toFields := fields
    id := ← newUUID
    clientID := "svc_" ++ (← newUUID)
    name := name
    secretHash := hash
    status := .active
    audiencesJSON := svc.marshalAudiences audiences }
  let event ← newOutboxEvent ctx "platform.identity.service-account.status-changed.v1"
    "platform.identity.v1.ServiceAccountStatusChanged" account.id fields.createdAt
    (.serviceAccountStatusChanged account.id none .active "created")
  let _ ← .expect translateIdentityError (← within do
    Repository.createServiceAccount account
    Repository.insertOutbox event
    return 0)
  return (account, secret)

def rotateServiceAccountSecret (svc : Service) (ctx : Context) (id : String) (version : Int) :
    Prog (String × Int) := do
  let id := Go.trimSpace id
  .reject (id = "" ∨ version < 1) (.invalid "service account id and version are required")
  let actor ← .require (.unauthorized "authenticated actor is required") ctx
  let (secret, hash) ← svc.newServiceAccountSecret
  let now ← now
  let nextVersion := version + 1
  let event ← newOutboxEvent ctx "platform.identity.service-account.secret-rotated.v1"
    "platform.identity.v1.ServiceAccountSecretRotated" id now
    (.serviceAccountSecretRotated id nextVersion)
  let _ ← .expect translateIdentityError (← within do
    Repository.rotateServiceAccountSecret id hash actor.id version now
    Repository.insertOutbox event
    return 0)
  return (secret, nextVersion)

def updateServiceAccountStatus (ctx : Context) (id status : String) (version : Int) :
    Prog Unit := do
  let status ← .require (.invalid "status must be active or disabled")
    ((Status.ofString status).filter (fun st => st = .active || st = .disabled))
  let actor ← .require (.unauthorized "authenticated actor is required") ctx
  let current ← .expect translateIdentityError (← query (.getServiceAccount id))
  let now ← now
  let event ← newOutboxEvent ctx "platform.identity.service-account.status-changed.v1"
    "platform.identity.v1.ServiceAccountStatusChanged" id now
    (.serviceAccountStatusChanged id (some current.status) status "administrative update")
  let _ ← .expect translateIdentityError (← within do
    Repository.updateServiceAccountStatus id status actor.id version now
    Repository.insertOutbox event
    return 0)
  return ()

def serviceAccountToken (svc : Service) (clientID secret : String) : Prog (String × Time) := do
  let account ← .expect (fun _ => .unauthorized "invalid service credentials")
    (← query (.serviceAccountByClientID clientID))
  .reject (account.status ≠ .active) (.unauthorized "invalid service credentials")
  .reject (svc.verified secret account.secretHash = false)
    (.unauthorized "invalid service credentials")
  svc.issue account.id "service_account" "" "" ""

end Service

end IdentityService
