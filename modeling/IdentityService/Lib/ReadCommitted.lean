import IdentityService.Lib.Versioned

/-! Transactions at the isolation level READ COMMITTED.  A statement takes a snapshot of what
is committed when it starts.  To go on, it waits until nobody else holds a lock on the rows it
has found there, and then changes those that still match; what it writes is seen by its own
transaction only, until that commits. -/

namespace IdentityService.Lib

/-- `found` are the locks on the rows a statement matches, `pin` narrows it to the rows of the
given locks. -/
structure Engine (σ Q L : Type) where
  exec : σ → Q → Option (Nat × σ)
  found : σ → Q → List L
  pin : List L → Q → Q
  pin_found : ∀ s q, exec s (pin (found s q) q) = exec s q

structure Transaction (σ Q L : Type) where
  snapshot : σ
  writes : List Q
  locks : List L

structure Database (σ Q L : Type) where
  committed : σ
  transactions : List (Option (Transaction σ Q L))

variable {σ Q L : Type}

def Engine.replay (E : Engine σ Q L) : List Q → σ → Option σ
  | [], s => some s
  | q :: writes, s => (E.exec s q).bind (fun r => E.replay writes r.2)

namespace Database

def initial (s : σ) : Database σ Q L := ⟨s, []⟩

def begin (db : Database σ Q L) : Nat × Database σ Q L :=
  (db.transactions.length,
    { db with transactions := db.transactions ++ [some ⟨db.committed, [], []⟩] })

def put (db : Database σ Q L) (i : Nat) (t : Option (Transaction σ Q L)) : Database σ Q L :=
  { db with transactions := db.transactions.set i t }

def snapshot (db : Database σ Q L) (i : Nat) : Option (Database σ Q L) :=
  match db.transactions[i]? with
  | some (some t) => some (db.put i (some { t with snapshot := db.committed }))
  | _ => none

def lockedByOthers [BEq L] (db : Database σ Q L) (i : Nat) (l : L) : Bool :=
  db.transactions.zipIdx.any (fun (t, j) => j ≠ i && t.any (fun t => t.locks.contains l))

/-- `none` while the statement has to wait; otherwise the rows affected, or `none` on a violated
constraint.  The locks of all rows found are taken in one step, where a server takes them row by
row, and an insert waits for nobody. -/
def execute [BEq L] (E : Engine σ Q L) (db : Database σ Q L) (i : Nat) (q : Q) :
    Option (Option Nat × Database σ Q L) :=
  match db.transactions[i]? with
  | some (some t) =>
    match E.replay t.writes t.snapshot, E.replay t.writes db.committed with
    | some seen, some now =>
      if (E.found seen q).any (db.lockedByOthers i) then none
      else
        let locks := (E.found seen q).filter (E.found now q).contains
        match E.exec now (E.pin locks q) with
        | some (n, _) => some (some n, db.put i (some
            { t with writes := t.writes ++ [E.pin locks q], locks := t.locks ++ locks }))
        | none => some (none, db)
    | _, _ => some (none, db)
  | _ => none

/-- A constraint that another transaction's commit has made the writes violate ends the
transaction without effect. -/
def commit (E : Engine σ Q L) (db : Database σ Q L) (i : Nat) : Option (Bool × Database σ Q L) :=
  match db.transactions[i]? with
  | some (some t) =>
    match E.replay t.writes db.committed with
    | some s => some (true, { db.put i none with committed := s })
    | none => some (false, db.put i none)
  | _ => none

end Database

namespace Engine

variable {E : Engine σ Q L}

theorem replay_append {writes : List Q} {q : Q} {s s' : σ} :
    E.replay (writes ++ [q]) s = some s' ↔
      ∃ s1 n, E.replay writes s = some s1 ∧ E.exec s1 q = some (n, s') := by
  induction writes generalizing s with
  | nil => cases h : E.exec s q <;> simp [replay, h, Prod.ext_iff]
  | cons w writes ih =>
    simp only [List.cons_append, replay, Option.bind_eq_some_iff, ih]
    constructor
    · rintro ⟨r, hr, s1, n, h1, h2⟩
      exact ⟨s1, n, ⟨r, hr, h1⟩, h2⟩
    · rintro ⟨s1, n, ⟨r, hr, h1⟩, h2⟩
      exact ⟨r, hr, s1, n, h1, h2⟩

end Engine

namespace Database

variable {E : Engine σ Q L} {db : Database σ Q L} {i : Nat} {t : Transaction σ Q L} {s : σ}

def Alone (db : Database σ Q L) (i : Nat) : Prop :=
  ∀ j t, db.transactions[j]? = some t → j ≠ i → t = none

theorem alone_begin (h : ∀ t ∈ db.transactions, t = none) : db.begin.2.Alone db.begin.1 := by
  intro j t ht hne
  rw [begin, List.getElem?_append] at ht
  split at ht
  · exact h t (List.mem_of_getElem? ht)
  · rename_i hlt
    have := (List.getElem?_eq_some_iff.1 ht).1
    simp only [begin, List.length_singleton] at hne this
    omega

theorem Alone.put (h : db.Alone i) (t : Option (Transaction σ Q L)) : (db.put i t).Alone i := by
  intro j x hx hne
  rw [Database.put, List.getElem?_set_ne (Ne.symm hne)] at hx
  exact h j x hx hne

theorem Alone.ended (h : db.Alone i) : ∀ t ∈ (db.put i none).transactions, t = none := by
  intro t ht
  obtain ⟨j, hj⟩ := List.getElem?_of_mem ht
  by_cases hne : j = i
  · subst hne
    rw [Database.put, List.getElem?_set] at hj
    grind
  · rw [Database.put, List.getElem?_set_ne (Ne.symm hne)] at hj
    exact h j t hj hne

theorem Alone.not_locked [BEq L] (h : db.Alone i) (l : L) : db.lockedByOthers i l = false := by
  rw [lockedByOthers, List.any_eq_false]
  rintro ⟨t, j⟩ hmem
  rw [List.mk_mem_zipIdx_iff_getElem?] at hmem
  by_cases hne : j = i
  · simp [hne]
  · simp [h j t hmem hne]

theorem execute_alone [BEq L] [LawfulBEq L] (halone : db.Alone i)
    (ht : db.transactions[i]? = some (some t)) (hsnap : t.snapshot = db.committed)
    (hs : E.replay t.writes db.committed = some s) (q : Q) :
    db.execute E i q = match E.exec s q with
      | some (n, _) => some (some n, db.put i (some { t with
          writes := t.writes ++ [E.pin (E.found s q) q], locks := t.locks ++ E.found s q }))
      | none => some (none, db) := by
  have hlocks : (E.found s q).filter (E.found s q).contains = E.found s q :=
    List.filter_eq_self.2 fun l hl => by simpa using hl
  have hfree : (E.found s q).any (db.lockedByOthers i) = false :=
    List.any_eq_false.2 fun l _ => by simp [halone.not_locked l]
  simp only [execute, ht, hsnap, hs, hfree, hlocks, E.pin_found]
  rfl

end Database

/-! A statement of a table, by primary key. -/

section Pin

open Versioned

variable {ρ : Type} [Constrained ρ] [Versioned ρ]

namespace Statement

def found (rows : List ρ) : Statement ρ → List String
  | .insert _ => []
  | .update u => (rows.filter u.guard).map key
  | .delete P => (rows.filter P).map key

def pin (keys : List String) : Statement ρ → Statement ρ
  | .insert r => .insert r
  | .update u => .update ⟨fun r => key r ∈ keys, u.set⟩
  | .delete _ => .delete (fun r => key r ∈ keys)

end Statement

theorem Table.mem_keys_iff {t : Table ρ} {P : ρ → Bool} {r : ρ} (hr : r ∈ t.rows) :
    key r ∈ (t.rows.filter P).map key ↔ P r = true := by
  simp only [List.mem_map, List.mem_filter]
  constructor
  · rintro ⟨x, ⟨hx, hP⟩, hk⟩
    exact t.eq_of_key hx hr hk ▸ hP
  · exact fun hP => ⟨r, ⟨hr, hP⟩, rfl⟩

theorem Table.run_pin_found {t : Table ρ} {q : Statement ρ} :
    t.run (q.pin (q.found t.rows)) = t.run q := by
  cases q with
  | insert r => rfl
  | update u =>
    have happly : ∀ r ∈ t.rows, Update.apply ⟨fun r => key r ∈ (t.rows.filter u.guard).map key,
        u.set⟩ r = u.apply r := by
      intro r hr
      simp only [Update.apply, decide_eq_true_eq, t.mem_keys_iff hr]
      rfl
    have hcount : t.rows.countP (fun r => key r ∈ (t.rows.filter u.guard).map key) =
        t.rows.countP u.guard :=
      List.countP_congr fun r hr => by rw [decide_eq_true_eq, t.mem_keys_iff hr]
    exact congrArg₂ (fun n rows => (ofRows rows).map (fun t' => (n, t'))) hcount
      (List.map_congr_left happly)
  | delete P =>
    have hfilter : t.rows.filter (fun r => !decide (key r ∈ (t.rows.filter P).map key)) =
        t.rows.filter (fun r => !P r) :=
      List.filter_congr fun r hr => by rw [Bool.eq_iff_iff]; simp [t.mem_keys_iff hr]
    have hcount : t.rows.countP (fun r => key r ∈ (t.rows.filter P).map key) = t.rows.countP P :=
      List.countP_congr fun r hr => by rw [decide_eq_true_eq, t.mem_keys_iff hr]
    exact congrArg some (Prod.ext hcount (Table.ext hfilter))

end Pin

end IdentityService.Lib
