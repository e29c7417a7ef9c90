import IdentityService.Defs.Model
import IdentityService.Lib.Like
import IdentityService.Lib.Program
import Mathlib.Data.List.Sort

/-! The database: its tables, the statements that write them and the queries that read
them.  `LOWER` is the database's own and stays a parameter. -/

namespace IdentityService

open Lib

structure Store where
  users : Table User
  credentials : Table Credential
  sessions : Table Session
  userMFA : Table MFAEnrollment
  mfaRecoveryCodes : Table MFARecoveryCode
  mfaLoginChallenges : Table MFALoginChallenge
  passwordResetChallenges : Table PasswordResetChallenge
  serviceAccounts : Table ServiceAccount
  outboxEvents : Table OutboxEvent

namespace Store

def empty : Store :=
  ⟨.empty, .empty, .empty, .empty, .empty, .empty, .empty, .empty, .empty⟩

end Store

inductive Stmt : Type
  | users : Statement User → Stmt
  | credentials : Statement Credential → Stmt
  | sessions : Statement Session → Stmt
  | userMFA : Statement MFAEnrollment → Stmt
  | mfaRecoveryCodes : Statement MFARecoveryCode → Stmt
  | mfaLoginChallenges : Statement MFALoginChallenge → Stmt
  | passwordResetChallenges : Statement PasswordResetChallenge → Stmt
  | serviceAccounts : Statement ServiceAccount → Stmt
  | outboxEvents : Statement OutboxEvent → Stmt

/-- The unique indexes on `LOWER(username)` and `LOWER(email)`. -/
def loginsDistinct (lower : String → String) (rows : List User) : Prop :=
  rows.Pairwise (fun a b => lower a.username ≠ lower b.username ∧ lower a.email ≠ lower b.email)

instance (lower : String → String) (rows : List User) : Decidable (loginsDistinct lower rows) :=
  inferInstanceAs (Decidable (rows.Pairwise _))

namespace Store

def exec (lower : String → String) (s : Store) : Stmt → Option (Nat × Store)
  | .users q =>
    match s.users.run q with
    | some (n, t) => if loginsDistinct lower t.rows then some (n, { s with users := t }) else none
    | none => none
  | .credentials q => (s.credentials.run q).map (fun r => (r.1, { s with credentials := r.2 }))
  | .sessions q => (s.sessions.run q).map (fun r => (r.1, { s with sessions := r.2 }))
  | .userMFA q => (s.userMFA.run q).map (fun r => (r.1, { s with userMFA := r.2 }))
  | .mfaRecoveryCodes q =>
    (s.mfaRecoveryCodes.run q).map (fun r => (r.1, { s with mfaRecoveryCodes := r.2 }))
  | .mfaLoginChallenges q =>
    (s.mfaLoginChallenges.run q).map (fun r => (r.1, { s with mfaLoginChallenges := r.2 }))
  | .passwordResetChallenges q =>
    (s.passwordResetChallenges.run q).map
      (fun r => (r.1, { s with passwordResetChallenges := r.2 }))
  | .serviceAccounts q =>
    (s.serviceAccounts.run q).map (fun r => (r.1, { s with serviceAccounts := r.2 }))
  | .outboxEvents q => (s.outboxEvents.run q).map (fun r => (r.1, { s with outboxEvents := r.2 }))

end Store

/-- `ErrNotFound`, `ErrConflict`, `ErrStale` and every other error of the repository. -/
inductive RepositoryError : Type
  | notFound
  | conflict
  | stale
  | failed
deriving DecidableEq

abbrev Tx (α : Type) := Program Stmt (fun _ => Option Nat) RepositoryError α

namespace Tx

def handle (lower : String → String) (q : Stmt) (s : Store) : Option Nat × Store :=
  match s.exec lower q with
  | some (n, s') => (some n, s')
  | none => (none, s)

/-- A transaction commits all its statements or, on an error, none. -/
def run {α : Type} (lower : String → String) (body : Tx α) (s : Store) :
    Except RepositoryError (α × Store) :=
  body.interpret (handle lower) s

def exec (q : Stmt) (duplicate : RepositoryError) : Tx Nat :=
  .call q (fun
    | some n => .ret n
    | none => .fail duplicate)

end Tx

structure SessionFilter where
  userID : String
  tenantID : String
  status : String
  now : Time

def SessionFilter.matches (f : SessionFilter) (s : Session) : Bool :=
  (f.userID = "" || s.userID = f.userID) && (f.tenantID = "" || s.tenantID = f.tenantID) &&
    (match f.status with
    | "active" => s.revokedAt = none && f.now < s.expiresAt
    | "revoked" => s.revokedAt ≠ none
    | "expired" => s.revokedAt = none && s.expiresAt ≤ f.now
    | _ => true)

structure ListFilter where
  keyword : String
  status : String

namespace ListFilter

def pattern (f : ListFilter) : String := "%" ++ f.keyword ++ "%"

def like (f : ListFilter) (lower : String → String) (columns : List String) : Bool :=
  f.keyword = "" || columns.any (fun column =>
    Like.accepts (Like.parse (lower f.pattern).toList) (lower column).toList)

def selects (f : ListFilter) (status : Status) : Bool :=
  f.status = "" || status.toString = f.status

def matchesUser (f : ListFilter) (lower : String → String) (u : User) : Bool :=
  f.selects u.status && f.like lower [u.username, u.displayName, u.email]

def matchesServiceAccount (f : ListFilter) (lower : String → String) (a : ServiceAccount) : Bool :=
  f.selects a.status && f.like lower [a.clientID, a.name]

end ListFilter

structure SessionItem where
  session : Session
  username : String
  userDisplayName : String

inductive Query : Type
  | userByLogin (login : String)
  | passwordCredential (userID : String)
  | getUser (id : String)
  | countUsers (filter : ListFilter)
  | listUsers (filter : ListFilter) (limit offset : Nat)
  | batchGetUsers (ids : List String)
  | sessionByRefreshHash (hash : String)
  | getSession (id userID : String)
  | getSessionByID (id : String)
  | countSessions (filter : SessionFilter)
  | listSessions (filter : SessionFilter) (limit offset : Nat)
  | getServiceAccount (id : String)
  | countServiceAccounts (filter : ListFilter)
  | listServiceAccounts (filter : ListFilter) (limit offset : Nat)
  | batchGetServiceAccounts (ids : List String)
  | serviceAccountByClientID (clientID : String)
  | getMFA (userID : String)
  | countRecoveryCodes (userID : String)
  | getMFAChallenge (tokenHash : String)
  | getPasswordResetChallenge (tokenHash : String)
  | expiredOrRevokedSessions (before : Time) (limit : Nat)
  | expiredMFAChallenges (before : Time) (limit : Nat)
  | expiredPasswordResetChallenges (before : Time) (limit : Nat)

namespace Query

def Row : Query → Type
  | userByLogin _ => User
  | passwordCredential _ => Credential
  | getUser _ => User
  | countUsers _ => Nat
  | listUsers _ _ _ => List User
  | batchGetUsers _ => List User
  | sessionByRefreshHash _ => Session
  | getSession _ _ => Session
  | getSessionByID _ => Session
  | countSessions _ => Nat
  | listSessions _ _ _ => List SessionItem
  | getServiceAccount _ => ServiceAccount
  | countServiceAccounts _ => Nat
  | listServiceAccounts _ _ _ => List ServiceAccount
  | batchGetServiceAccounts _ => List ServiceAccount
  | serviceAccountByClientID _ => ServiceAccount
  | getMFA _ => MFAEnrollment
  | countRecoveryCodes _ => Nat
  | getMFAChallenge _ => MFALoginChallenge
  | getPasswordResetChallenge _ => PasswordResetChallenge
  | expiredOrRevokedSessions _ _ => List String
  | expiredMFAChallenges _ _ => List String
  | expiredPasswordResetChallenges _ _ => List String

end Query

def byKeyThenID {ρ : Type} (key : ρ → Time) (id : ρ → String) (a b : ρ) : Bool :=
  key a < key b || (key a = key b && id a ≤ id b)

def firstIDs {ρ : Type} (key : ρ → Time) (id : ρ → String) (limit : Nat) (rows : List ρ) :
    List String :=
  ((rows.insertionSort (fun a b => byKeyThenID key id a b)).take limit).map id

def latest {ρ : Type} (key : ρ → Time) (id : ρ → String) (limit offset : Nat) (rows : List ρ) :
    List ρ :=
  ((rows.insertionSort (fun a b => byKeyThenID (fun r => -key r) id a b)).drop offset).take limit

def Session.outdated (before : Time) (s : Session) : Bool :=
  match s.revokedAt with
  | some t => t < before
  | none => s.expiresAt < before

namespace Store

def sessionItems (s : Store) (filter : SessionFilter) : List SessionItem :=
  (s.sessions.rows.filter filter.matches).flatMap (fun session =>
    (s.users.rows.filter (fun u => u.id = session.userID)).map (fun u =>
      ⟨session, u.username, u.displayName⟩))

def select (lower : String → String) (s : Store) : (q : Query) → List q.Row
  | .userByLogin login =>
    s.users.rows.filter (fun u => lower u.username = lower login || lower u.email = lower login)
  | .passwordCredential userID =>
    s.credentials.rows.filter (fun c => c.userID = userID && c.type = "password")
  | .getUser id => s.users.rows.filter (fun u => u.id = id)
  | .countUsers filter => [(s.users.rows.filter (filter.matchesUser lower)).length]
  | .listUsers filter limit offset =>
    [latest (fun u => u.createdAt) (fun u => u.id) limit offset
      (s.users.rows.filter (filter.matchesUser lower))]
  -- Without `ORDER BY` the rows come in any order.
  | .batchGetUsers ids => (s.users.rows.filter (fun u => u.id ∈ ids)).permutations
  | .sessionByRefreshHash hash => s.sessions.rows.filter (fun r => r.refreshTokenHash = hash)
  | .getSession id userID => s.sessions.rows.filter (fun r => r.id = id && r.userID = userID)
  | .getSessionByID id => s.sessions.rows.filter (fun r => r.id = id)
  | .countSessions filter => [(s.sessions.rows.filter filter.matches).length]
  | .listSessions filter limit offset =>
    [(((s.sessionItems filter).insertionSort (fun a b =>
      byKeyThenID (fun i => -i.session.lastUsedAt) (fun i => i.session.id) a b)).drop
        offset).take limit]
  | .getServiceAccount id => s.serviceAccounts.rows.filter (fun a => a.id = id)
  | .countServiceAccounts filter =>
    [(s.serviceAccounts.rows.filter (filter.matchesServiceAccount lower)).length]
  | .listServiceAccounts filter limit offset =>
    [latest (fun a => a.createdAt) (fun a => a.id) limit offset
      (s.serviceAccounts.rows.filter (filter.matchesServiceAccount lower))]
  | .batchGetServiceAccounts ids =>
    [(s.serviceAccounts.rows.filter (fun a => a.id ∈ ids)).insertionSort (fun a b => a.id ≤ b.id)]
  | .serviceAccountByClientID clientID =>
    s.serviceAccounts.rows.filter (fun a => a.clientID = clientID)
  | .getMFA userID => s.userMFA.rows.filter (fun e => e.userID = userID)
  | .countRecoveryCodes userID =>
    [s.mfaRecoveryCodes.rows.countP (fun r => r.userID = userID && r.consumedAt = none)]
  | .getMFAChallenge tokenHash =>
    s.mfaLoginChallenges.rows.filter (fun c => c.tokenHash = tokenHash)
  | .getPasswordResetChallenge tokenHash =>
    s.passwordResetChallenges.rows.filter (fun c => c.tokenHash = tokenHash)
  | .expiredOrRevokedSessions before limit =>
    [firstIDs (fun r => r.revokedAt.getD r.expiresAt) (fun r => r.id) limit
      (s.sessions.rows.filter (Session.outdated before))]
  | .expiredMFAChallenges before limit =>
    [firstIDs (fun r => r.expiresAt) (fun r => r.tokenHash) limit
      (s.mfaLoginChallenges.rows.filter (fun r => r.expiresAt < before))]
  | .expiredPasswordResetChallenges before limit =>
    [firstIDs (fun r => r.expiresAt) (fun r => r.tokenHash) limit
      (s.passwordResetChallenges.rows.filter (fun r => r.expiresAt < before))]

end Store

end IdentityService
