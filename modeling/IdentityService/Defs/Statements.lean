import IdentityService.Defs.Operation
import IdentityService.Lib.MachineLaws

/-! `Transactor.Within` with each of its statements able to fail. -/

namespace IdentityService

open Lib

structure Outage where
  begin : Bool
  statement : Nat → Bool
  commit : Bool

namespace Tx

variable {α : Type}

def attempt (lower : String → String) (outage : Outage) :
    Tx α → Nat → Store → Except RepositoryError (α × Store)
  | .ret a, _, s => .ok (a, s)
  | .fail e, _, _ => .error e
  | .call q k, i, s =>
    if outage.statement i then .error .failed
    else attempt lower outage (k (handle lower q s).1) (i + 1) (handle lower q s).2

/-- A failed begin or commit applies nothing, and a rollback discards every statement. -/
def within (lower : String → String) (outage : Outage) (body : Tx α) (s : Store) :
    Except RepositoryError α × Store :=
  if outage.begin then (.error .failed, s)
  else
    match body.attempt lower outage 0 s with
    | .error e => (.error e, s)
    | .ok (a, s') => if outage.commit then (.error .failed, s) else (.ok a, s')

theorem attempt_eq (lower : String → String) (outage : Outage) (body : Tx α) (i : Nat) (s : Store) :
    body.attempt lower outage i s = .error .failed ∨
      body.attempt lower outage i s = body.run lower s := by
  induction body generalizing i s with
  | ret a => exact .inr rfl
  | fail e => exact .inr rfl
  | call q k ih =>
    rw [attempt]
    split
    · exact .inl rfl
    · exact ih _ (i + 1) _

end Tx

inductive StatementAnswer : Type
  | transaction : Outage → StatementAnswer
  | other : Answer → StatementAnswer

namespace Service

variable (svc : Service)

def performStatements (w : World) : (e : Effect) → StatementAnswer → Option (e.Res × World)
  | .within body, .transaction outage =>
    some ((body.within svc.lower outage w.store).1,
      { w with store := (body.within svc.lower outage w.store).2 })
  | .within _, .other _ => none
  | e, .other a => svc.perform w e a
  | _, .transaction _ => none

def statements : Machine Op Effect Effect.Res AppError Reply World StatementAnswer where
  program := svc.program
  perform := svc.performStatements

theorem perform_of_statements {w w' : World} {e : Effect} {b : StatementAnswer} {r : e.Res}
    (h : svc.performStatements w e b = some (r, w')) : ∃ a, svc.perform w e a = some (r, w') := by
  cases e with
  | within body =>
    cases b with
    | other a => cases h
    | transaction outage =>
      cases h
      unfold Tx.within
      split
      · exact ⟨.fault, rfl⟩
      · obtain hfailed | hrun := Tx.attempt_eq svc.lower outage body 0 w.store
        · rw [hfailed]
          exact ⟨.fault, rfl⟩
        · rw [hrun]
          cases hbody : body.run svc.lower w.store with
          | error e => exact ⟨.done, by simp [perform, hbody]⟩
          | ok x =>
            obtain ⟨n, s⟩ := x
            cases hcommit : outage.commit with
            | true => exact ⟨.fault, by simp [perform]⟩
            | false => exact ⟨.done, by simp [perform, hbody]⟩
  | query q | now | draw kind | sign claims =>
    cases b with
    | other a => exact ⟨a, h⟩
    | transaction outage => cases h

theorem executes_of_statements {op : Op} {w : World} {c : Config}
    (h : svc.statements.Executes op w c) : svc.machine.Executes op w c :=
  Machine.Run.simulate (M := svc.machine) (N := svc.statements) rfl
    (fun _ _ _ _ _ => svc.perform_of_statements) h

end Service

end IdentityService
