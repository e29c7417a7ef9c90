import IdentityService.Defs.Operation
import IdentityService.Defs.Frame
import IdentityService.Lib.MachineLaws
import IdentityService.Lib.ReadCommitted

/-! The service over a database at READ COMMITTED, which `Transactor.Within` gets for its
`nil` options: every statement of a transaction is a step of its own. -/

namespace IdentityService

open Lib

abbrev Lock := TableName × String

namespace Stmt

def found (s : Store) : Stmt → List Lock
  | .users q => (q.found s.users.rows).map (.users, ·)
  | .credentials q => (q.found s.credentials.rows).map (.credentials, ·)
  | .sessions q => (q.found s.sessions.rows).map (.sessions, ·)
  | .userMFA q => (q.found s.userMFA.rows).map (.userMFA, ·)
  | .mfaRecoveryCodes q => (q.found s.mfaRecoveryCodes.rows).map (.mfaRecoveryCodes, ·)
  | .mfaLoginChallenges q => (q.found s.mfaLoginChallenges.rows).map (.mfaLoginChallenges, ·)
  | .passwordResetChallenges q =>
    (q.found s.passwordResetChallenges.rows).map (.passwordResetChallenges, ·)
  | .serviceAccounts q => (q.found s.serviceAccounts.rows).map (.serviceAccounts, ·)
  | .outboxEvents _ => []

def pin (locks : List Lock) : Stmt → Stmt
  | .users q => .users (q.pin (locks.map Prod.snd))
  | .credentials q => .credentials (q.pin (locks.map Prod.snd))
  | .sessions q => .sessions (q.pin (locks.map Prod.snd))
  | .userMFA q => .userMFA (q.pin (locks.map Prod.snd))
  | .mfaRecoveryCodes q => .mfaRecoveryCodes (q.pin (locks.map Prod.snd))
  | .mfaLoginChallenges q => .mfaLoginChallenges (q.pin (locks.map Prod.snd))
  | .passwordResetChallenges q => .passwordResetChallenges (q.pin (locks.map Prod.snd))
  | .serviceAccounts q => .serviceAccounts (q.pin (locks.map Prod.snd))
  | .outboxEvents q => .outboxEvents q

end Stmt

theorem Store.exec_pin_found (lower : String → String) (s : Store) (q : Stmt) :
    s.exec lower (q.pin (q.found s)) = s.exec lower q := by
  have hkeys : ∀ (table : TableName) (keys : List String),
      (keys.map ((table, ·) : String → Lock)).map Prod.snd = keys := by
    intro table keys
    simp [Function.comp_def]
  cases q <;> simp only [Stmt.pin, Stmt.found, Store.exec, hkeys, Table.run_pin_found]

def Store.engine (lower : String → String) : Engine Store Stmt Lock where
  exec := Store.exec lower
  found := fun s q => q.found s
  pin := Stmt.pin
  pin_found := Store.exec_pin_found lower

inductive Call : Type
  | plain : Effect → Call
  | begin : Call
  | snapshot : (tx : Nat) → Call
  | exec : (tx : Nat) → Stmt → Call
  | commit : (tx : Nat) → Call
  | rollback : (tx : Nat) → Call

abbrev Call.Res : Call → Type
  | .plain e => e.Res
  | .begin => Option Nat
  | .snapshot _ => Unit
  | .exec _ _ => Option (Option Nat)
  | .commit _ => Bool
  | .rollback _ => Unit

abbrev CallProg := Program Call Call.Res AppError Reply

/-- `Transactor.Within` once the transaction has begun; `k` is what follows it. -/
def Tx.steps (tx : Nat) : Tx Nat → (Except RepositoryError Nat → CallProg) → CallProg
  | .ret n, k => .call (.commit tx) (fun done => k (if done then .ok n else .error .failed))
  | .fail e, k => .call (.rollback tx) (fun _ => k (.error e))
  | .call q b, k =>
    .call (.snapshot tx) (fun _ => .call (.exec tx q) (fun r =>
      r.elim (.call (.rollback tx) (fun _ => k (.error .failed))) (fun n => steps tx (b n) k)))

def Effect.steps : (e : Effect) → (e.Res → CallProg) → CallProg
  | .within body, k => .call .begin (fun r =>
    r.elim (k (.error .failed)) (fun tx => body.steps tx k))
  | e, k => .call (.plain e) k

def steps : Prog Reply → CallProg
  | .ret reply => .ret reply
  | .fail err => .fail err
  | .call e k => e.steps (fun r => steps (k r))

structure Node where
  database : Database Store Stmt Lock
  clock : Time

namespace Service

variable (svc : Service)

def performCall (w : Node) : (c : Call) → Answer → Option (c.Res × Node)
  | .plain (.within _), _ => none
  | .plain e, a =>
    (svc.perform ⟨w.database.committed, w.clock⟩ e a).map
      (fun (r, w') => (r, { w with clock := w'.clock }))
  | .begin, .done => some (some w.database.begin.1, { w with database := w.database.begin.2 })
  | .begin, .fault => some (none, w)
  | .snapshot tx, .done =>
    (w.database.snapshot tx).map (fun db => ((), { w with database := db }))
  | .exec tx q, .done =>
    (w.database.execute (Store.engine svc.lower) tx q).map
      (fun (count, db) => (some count, { w with database := db }))
  | .exec _ _, .fault => some (none, w)
  | .commit tx, .done =>
    (w.database.commit (Store.engine svc.lower) tx).map
      (fun (done, db) => (done, { w with database := db }))
  | .commit tx, .fault => some (false, { w with database := w.database.put tx none })
  | .rollback tx, .done => some ((), { w with database := w.database.put tx none })
  | _, _ => none

def readCommitted : Machine Op Call Call.Res AppError Reply Node Answer where
  program op := steps (svc.program op)
  perform := svc.performCall

end Service

end IdentityService
