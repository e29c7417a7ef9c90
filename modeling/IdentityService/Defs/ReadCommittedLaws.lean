import IdentityService.Defs.ReadCommitted

/-! Where a call stands between the statements of its transaction, and what its next step does
to the database. -/

namespace IdentityService

open Lib
open Lib.Program (Path)

abbrev Db := Database Store Stmt Lock

/-- `body.Progress writes rest`: having made these writes, `rest` is left of `body`. -/
inductive Tx.Progress (body : Tx Nat) : List Stmt → Tx Nat → Prop
  | start : Progress body [] body
  | executed {writes q b} (locks : List Lock) (n : Nat) : Progress body writes (.call q b) →
      Progress body (writes ++ [q.pin locks]) (b (some n))
  | refused {writes q b} : Progress body writes (.call q b) → Progress body writes (b none)
  | failed {writes b} : Progress body writes b → Progress body writes (.fail .failed)

theorem Tx.Every.progress {P : Stmt → Prop} {body rest : Tx Nat} {writes : List Stmt}
    (h : body.Every P) (hpin : ∀ q locks, P q → P (q.pin locks))
    (hp : body.Progress writes rest) : (∀ q ∈ writes, P q) ∧ rest.Every P := by
  induction hp with
  | start => exact ⟨by simp, h⟩
  | executed locks n _ ih =>
    obtain ⟨hwrites, hrest⟩ := ih
    cases hrest with
    | call hq hb =>
      refine ⟨?_, hb _⟩
      simp only [List.mem_append, List.mem_singleton]
      rintro q (hq' | rfl)
      · exact hwrites q hq'
      · exact hpin _ locks hq
  | refused _ ih =>
    obtain ⟨hwrites, hrest⟩ := ih
    cases hrest with
    | call _ hb => exact ⟨hwrites, hb _⟩
  | failed _ ih => exact ⟨ih.1, .fail _⟩

def Tx.execution (tx : Nat) (q : Stmt) (b : Option Nat → Tx Nat)
    (k : Except RepositoryError Nat → CallProg) : CallProg :=
  .call (.exec tx q) (fun r =>
    r.elim (.call (.rollback tx) (fun _ => k (.error .failed))) (fun n => Tx.steps tx (b n) k))

def CallProg.transaction : CallProg → Option Nat
  | .call (.snapshot tx) _ | .call (.exec tx _) _ | .call (.commit tx) _
  | .call (.rollback tx) _ => some tx
  | _ => none

theorem steps_plain {e : Effect} (hne : ∀ body, e ≠ .within body) (k : e.Res → Prog Reply) :
    steps (.call e k) = .call (.plain e) (fun r => steps (k r)) := by
  cases e with
  | within body => exact absurd rfl (hne body)
  | _ => rfl

theorem performCall_plain {svc : Service} {e : Effect} (hne : ∀ body, e ≠ .within body) (w : Node)
    (a : Answer) : svc.performCall w (.plain e) a =
      (svc.perform ⟨w.database.committed, w.clock⟩ e a).map
        (fun (r, w') => (r, { w with clock := w'.clock })) := by
  cases e with
  | within body => exact absurd rfl (hne body)
  | _ => rfl

@[simp] theorem transaction_steps (p : Prog Reply) : (steps p).transaction = none := by
  cases p with
  | ret reply => rfl
  | fail err => rfl
  | call e k => cases e <;> rfl

@[simp] theorem transaction_txSteps (tx : Nat) (b : Tx Nat)
    (k : Except RepositoryError Nat → CallProg) : (b.steps tx k).transaction = some tx := by
  cases b <;> rfl

@[simp] theorem transaction_execution (tx : Nat) (q : Stmt) (b : Option Nat → Tx Nat)
    (k : Except RepositoryError Nat → CallProg) :
    (Tx.execution tx q b k).transaction = some tx := rfl

inductive Position (svc : Service) (db : Db) (op : Op) : CallProg → Prop
  | outside {acts p} : Path (svc.program op) acts p → Position svc db op (steps p)
  | inside {acts body k tx t b} : Path (svc.program op) acts (.call (.within body) k) →
      db.transactions[tx]? = some (some t) → body.Progress t.writes b →
      Position svc db op (b.steps tx (fun r => steps (k r)))
  | snapped {acts body k tx t q b} : Path (svc.program op) acts (.call (.within body) k) →
      db.transactions[tx]? = some (some t) → body.Progress t.writes (.call q b) →
      Position svc db op (Tx.execution tx q b (fun r => steps (k r)))

inductive Move (svc : Service) (op : Op) (db : Db) :
    Program.Act Call Call.Res → CallProg → CallProg → Db → Prop
  | plain {acts p acts' p' act} : Path (svc.program op) acts p → Path (svc.program op) acts' p' →
      Move svc op db act (steps p) (steps p') db
  | begun {acts body k} : Path (svc.program op) acts (.call (.within body) k) →
      Move svc op db ⟨.begin, some db.begin.1⟩ (steps (.call (.within body) k))
        (body.steps db.begin.1 (fun r => steps (k r))) db.begin.2
  | snapped {acts body k tx t q b act} : Path (svc.program op) acts (.call (.within body) k) →
      db.transactions[tx]? = some (some t) → body.Progress t.writes (.call q b) →
      Move svc op db act (Tx.steps tx (.call q b) (fun r => steps (k r)))
        (Tx.execution tx q b (fun r => steps (k r)))
        (db.put tx (some { t with snapshot := db.committed }))
  | executed {acts body k tx t q b act seen now locks n} :
      Path (svc.program op) acts (.call (.within body) k) →
      db.transactions[tx]? = some (some t) → body.Progress t.writes (.call q b) →
      (Store.engine svc.lower).replay t.writes t.snapshot = some seen →
      (Store.engine svc.lower).replay t.writes db.committed = some now →
      locks = (q.found seen).filter (q.found now).contains →
      Move svc op db act (Tx.execution tx q b (fun r => steps (k r)))
        (Tx.steps tx (b (some n)) (fun r => steps (k r)))
        (db.put tx (some
          { t with writes := t.writes ++ [q.pin locks], locks := t.locks ++ locks }))
  | refused {acts body k tx t q b act} : Path (svc.program op) acts (.call (.within body) k) →
      db.transactions[tx]? = some (some t) → body.Progress t.writes (.call q b) →
      Move svc op db act (Tx.execution tx q b (fun r => steps (k r)))
        (Tx.steps tx (b none) (fun r => steps (k r))) db
  | failed {acts body k tx t q b act} : Path (svc.program op) acts (.call (.within body) k) →
      db.transactions[tx]? = some (some t) → body.Progress t.writes (.call q b) →
      Move svc op db act (Tx.execution tx q b (fun r => steps (k r)))
        (Tx.steps tx (.fail .failed) (fun r => steps (k r))) db
  | committed {acts body k tx t n act s} : Path (svc.program op) acts (.call (.within body) k) →
      db.transactions[tx]? = some (some t) → body.Progress t.writes (.ret n) →
      (Store.engine svc.lower).replay t.writes db.committed = some s →
      Move svc op db act (Tx.steps tx (.ret n) (fun r => steps (k r))) (steps (k (.ok n)))
        { db.put tx none with committed := s }
  | rolledBack {acts body k tx t b act} (e : RepositoryError) :
      Path (svc.program op) acts (.call (.within body) k) →
      db.transactions[tx]? = some (some t) → body.Progress t.writes b →
      Move svc op db act (b.steps tx (fun r => steps (k r))) (steps (k (.error e)))
        (db.put tx none)

theorem Move.of_outside {svc : Service} {op : Op} {w w' : Node} {acts : List Act} {e : Effect}
    {k : e.Res → Prog Reply} {call : Call} {k' : call.Res → CallProg} {a : Answer} {r : call.Res}
    (hpath : Path (svc.program op) acts (.call e k))
    (hrest : Program.call call k' = steps (.call e k))
    (h : svc.performCall w call a = some (r, w')) :
    Move svc op w.database ⟨call, r⟩ (steps (.call e k)) (k' r) w'.database := by
  by_cases hwithin : ∃ body, e = .within body
  · obtain ⟨body, rfl⟩ := hwithin
    have hrest : Program.call call k' = .call .begin (fun r => r.elim (steps (k (.error .failed)))
      (fun tx => body.steps tx (fun r => steps (k r)))) := hrest
    cases hrest
    cases a with
    | done =>
      cases h
      exact .begun hpath
    | fault =>
      cases h
      exact .plain hpath (hpath.cons (.error .failed))
    | _ => cases h
  · have hne : ∀ body, e ≠ .within body := fun body heq => hwithin ⟨body, heq⟩
    cases hrest.trans (steps_plain hne k)
    simp only [performCall_plain hne, Option.map_eq_some_iff, Prod.mk.injEq] at h
    obtain ⟨x, -, rfl, rfl⟩ := h
    exact .plain hpath (hpath.cons _)

theorem execute_cases {lower : String → String} {db db' : Db} {tx : Nat}
    {t : Transaction Store Stmt Lock} {q : Stmt} {r : Option Nat}
    (ht : db.transactions[tx]? = some (some t))
    (h : db.execute (Store.engine lower) tx q = some (r, db')) :
    r = none ∧ db' = db ∨ ∃ n seen now locks, r = some n ∧
      (Store.engine lower).replay t.writes t.snapshot = some seen ∧
      (Store.engine lower).replay t.writes db.committed = some now ∧
      locks = (q.found seen).filter (q.found now).contains ∧
      db' = db.put tx (some
        { t with writes := t.writes ++ [q.pin locks], locks := t.locks ++ locks }) := by
  simp only [Database.execute, ht] at h
  split at h
  · rename_i seen now hseen hnow
    split at h
    · cases h
    · split at h
      · cases h
        exact .inr ⟨_, seen, now, _, rfl, hseen, hnow, rfl, rfl⟩
      · cases h
        exact .inl ⟨rfl, rfl⟩
  · cases h
    exact .inl ⟨rfl, rfl⟩

theorem Move.of_position {svc : Service} {op : Op} {w w' : Node} {call : Call}
    {k : call.Res → CallProg} {a : Answer} {r : call.Res}
    (hpos : Position svc w.database op (.call call k))
    (h : svc.performCall w call a = some (r, w')) :
    Move svc op w.database ⟨call, r⟩ (.call call k) (k r) w'.database := by
  generalize hrest : Program.call call k = rest at hpos
  cases hpos with
  | @outside acts p hpath =>
    cases p with
    | ret reply => cases hrest
    | fail err => cases hrest
    | call e k' => exact .of_outside hpath hrest h
  | @inside acts body k' tx t b hpath ht hprog =>
    cases b with
    | ret n =>
      have hrest : Program.call call k = .call (.commit tx)
        (fun done => steps (k' (if done then .ok n else .error .failed))) := hrest
      cases hrest
      cases a with
      | done =>
        simp only [Service.performCall, Option.map_eq_some_iff, Prod.mk.injEq] at h
        obtain ⟨⟨done, db⟩, hdb, rfl, rfl⟩ := h
        simp only [Database.commit, ht] at hdb
        split at hdb
        · rename_i s hs
          cases hdb
          exact .committed hpath ht hprog hs
        · cases hdb
          exact .rolledBack .failed hpath ht hprog
      | fault =>
        cases h
        exact .rolledBack .failed hpath ht hprog
      | _ => cases h
    | fail e =>
      have hrest : Program.call call k = .call (.rollback tx) (fun _ => steps (k' (.error e))) :=
        hrest
      cases hrest
      cases a with
      | done =>
        cases h
        exact .rolledBack e hpath ht hprog
      | _ => cases h
    | call q b =>
      have hrest : Program.call call k = .call (.snapshot tx)
        (fun _ => Tx.execution tx q b (fun r => steps (k' r))) := hrest
      cases hrest
      cases a with
      | done =>
        simp only [Service.performCall, Database.snapshot, ht, Option.map_some,
          Option.some.injEq, Prod.mk.injEq] at h
        obtain ⟨-, rfl⟩ := h
        exact .snapped hpath ht hprog
      | _ => cases h
  | @snapped acts body k' tx t q b hpath ht hprog =>
    cases hrest
    cases a with
    | done =>
      simp only [Service.performCall, Option.map_eq_some_iff, Prod.mk.injEq] at h
      obtain ⟨⟨count, db⟩, hdb, rfl, rfl⟩ := h
      obtain ⟨rfl, rfl⟩ | ⟨n, seen, now, locks, rfl, hseen, hnow, hlocks, rfl⟩ :=
        execute_cases ht hdb
      · exact .refused hpath ht hprog
      · exact .executed hpath ht hprog hseen hnow hlocks
    | fault =>
      cases h
      exact .failed hpath ht hprog
    | _ => cases h

theorem put_self {db : Db} {tx : Nat} {t : Option (Transaction Store Stmt Lock)}
    {x : Option (Transaction Store Stmt Lock)} (h : db.transactions[tx]? = some x) :
    (db.put tx t).transactions[tx]? = some t :=
  List.getElem?_set_self (List.getElem?_eq_some_iff.1 h).1

namespace Move

variable {svc : Service} {op : Op} {db db' : Db} {act : Program.Act Call Call.Res}
  {rest rest' : CallProg} {tx : Nat}

theorem position (h : Move svc op db act rest rest' db') : Position svc db' op rest' := by
  cases h with
  | plain _ hpath => exact .outside hpath
  | begun hpath =>
    have hnew : db.begin.2.transactions[db.begin.1]? = some (some ⟨db.committed, [], []⟩) := by
      simp [Database.begin]
    exact .inside hpath hnew .start
  | snapped hpath ht hprog => exact .snapped hpath (put_self ht) hprog
  | executed hpath ht hprog => exact .inside hpath (put_self ht) (hprog.executed _ _)
  | refused hpath ht hprog => exact .inside hpath ht hprog.refused
  | failed hpath ht hprog => exact .inside hpath ht hprog.failed
  | committed hpath => exact .outside (hpath.cons _)
  | rolledBack e hpath => exact .outside (hpath.cons _)

theorem transactions (h : Move svc op db act rest rest' db') (hne : rest.transaction ≠ some tx)
    {t : Option (Transaction Store Stmt Lock)} (ht : db.transactions[tx]? = some t) :
    db'.transactions[tx]? = some t := by
  have hput : ∀ {tx'} {x : Option (Transaction Store Stmt Lock)}, some tx' ≠ some tx →
      (db.put tx' x).transactions[tx]? = some t := by
    intro tx' x hne
    rw [Database.put, List.getElem?_set_ne (fun heq => hne (congrArg some heq)), ht]
  cases h with
  | plain | refused | failed => exact ht
  | begun =>
    rw [Database.begin, List.getElem?_append_left (List.getElem?_eq_some_iff.1 ht).1, ht]
  | snapped | executed | committed | rolledBack => exact hput (by simpa using hne)

theorem entered (h : Move svc op db act rest rest' db') (htx : rest'.transaction = some tx) :
    rest.transaction = some tx ∨ rest.transaction = none ∧ act = ⟨.begin, some tx⟩ ∧
      tx = db.transactions.length := by
  cases h with
  | plain | committed | rolledBack => simp at htx
  | begun =>
    simp only [transaction_txSteps, Option.some.injEq] at htx
    subst htx
    exact .inr ⟨transaction_steps _, rfl, rfl⟩
  | snapped | executed | refused | failed => exact .inl (by simpa using htx)

end Move

theorem Position.open {svc : Service} {db : Db} {op : Op} {rest : CallProg} {tx : Nat}
    (h : Position svc db op rest) (htx : rest.transaction = some tx) :
    ∃ t, db.transactions[tx]? = some (some t) := by
  cases h with
  | outside => simp at htx
  | inside _ ht =>
    simp only [transaction_txSteps, Option.some.injEq] at htx
    exact ⟨_, htx ▸ ht⟩
  | snapped _ ht =>
    simp only [transaction_execution, Option.some.injEq] at htx
    exact ⟨_, htx ▸ ht⟩

theorem Position.congr {svc : Service} {db db' : Db} {op : Op} {rest : CallProg}
    (h : Position svc db op rest) (hdb : ∀ tx t, rest.transaction = some tx →
      db.transactions[tx]? = some t → db'.transactions[tx]? = some t) :
    Position svc db' op rest := by
  cases h with
  | outside hpath => exact .outside hpath
  | inside hpath ht hprog => exact .inside hpath (hdb _ _ (transaction_txSteps _ _ _) ht) hprog
  | snapped hpath ht hprog => exact .snapped hpath (hdb _ _ rfl ht) hprog

abbrev CallConfig := Lib.Config Op Call Call.Res AppError Reply Node
abbrev CallEvent := Lib.Event Op Call Call.Res AppError Reply Node
abbrev CallThread := Lib.Thread Op Call Call.Res AppError Reply
abbrev CallPolicy := Lib.Policy Op Call Call.Res AppError Reply Node

structure Placed (svc : Service) (c : CallConfig) : Prop where
  position : ∀ (i : Nat) (th : CallThread), c.threads[i]? = some th →
    Position svc c.state.database th.request th.rest
  distinct : ∀ (i j : Nat) (th th' : CallThread) (tx : Nat),
    c.threads[i]? = some th → c.threads[j]? = some th' →
    CallProg.transaction th.rest = some tx → CallProg.transaction th'.rest = some tx → i = j

section Steps

variable {svc : Service} {π : CallPolicy} {w : Node} {c d : CallConfig} {ev : CallEvent}
  {k : ev.call.Res → CallProg} {a : Answer}

theorem Placed.move (h : Placed svc c) (hf : svc.readCommitted.Fired c ev d k a) :
    Move svc ev.request c.state.database ev.act (.call ev.call k) (k ev.answer)
      d.state.database := by
  have hperf := hf.performed
  rw [hf.before] at hperf
  rw [hf.state]
  exact .of_position (h.position ev.thread _ hf.thread) hperf

theorem Placed.of_step (h : Placed svc c) (hf : svc.readCommitted.Fired c ev d k a) :
    Placed svc d := by
  have hmove := h.move hf
  -- The transaction of another call is not the one of this step.
  have hother : ∀ {j : Nat} {th : CallThread} {tx : Nat}, j ≠ ev.thread → c.threads[j]? = some th →
      CallProg.transaction th.rest = some tx → CallProg.transaction (.call ev.call k) ≠ some tx :=
    fun hj hth htx htx' => hj (h.distinct _ _ _ _ _ hth hf.thread htx htx')
  have hnew : ∀ {j : Nat} {th : CallThread} {tx : Nat}, j ≠ ev.thread → c.threads[j]? = some th →
      CallProg.transaction th.rest = some tx → CallProg.transaction (k ev.answer) ≠ some tx := by
    intro j th tx hj hth htx htx'
    obtain hold | ⟨-, -, rfl⟩ := hmove.entered htx'
    · exact hother hj hth htx hold
    · obtain ⟨t, ht⟩ := (h.position j th hth).open htx
      simp at ht
  constructor
  · intro i th hth
    obtain ⟨rfl, rfl⟩ | ⟨hi, hth⟩ := hf.thread_cases hth
    · exact hmove.position
    · exact (h.position i th hth).congr fun tx t htx ht =>
        hmove.transactions (hother hi hth htx) ht
  · intro i j th th' tx hi hj htx htx'
    obtain ⟨rfl, rfl⟩ | ⟨hi', hi⟩ := hf.thread_cases hi <;>
      obtain ⟨rfl, rfl⟩ | ⟨hj', hj⟩ := hf.thread_cases hj
    · rfl
    · exact absurd htx (hnew hj' hj htx')
    · exact absurd htx' (hnew hi' hi htx)
    · exact h.distinct i j th th' tx hi hj htx htx'

theorem placed (h : svc.readCommitted.Reach π w c) : Placed svc c := by
  refine Machine.Run.invariant (I := Placed svc) h ⟨?_, ?_⟩ ?_ ?_
  · intro i th hth
    cases hth
  · intro i j th th' tx hth
    cases hth
  · intro d q _ ih
    constructor
    · intro i th hth
      obtain hth | ⟨-, rfl⟩ := Machine.begin_thread hth
      · exact ih.position i th hth
      · exact .outside .nil
    · intro i j th th' tx hi hj htx htx'
      obtain hi | ⟨-, rfl⟩ := Machine.begin_thread hi
      · obtain hj | ⟨-, rfl⟩ := Machine.begin_thread hj
        · exact ih.distinct i j th th' tx hi hj htx htx'
        · cases (transaction_steps _).symm.trans htx'
      · cases (transaction_steps _).symm.trans htx
  · intro d ev d' k a _ ih hf _
    exact ih.of_step hf

end Steps

end IdentityService
