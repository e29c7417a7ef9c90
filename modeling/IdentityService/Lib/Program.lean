import Mathlib.Data.List.Basic

/-! Sequential programs as trees of calls.  A program either returns, fails, or
performs a call and continues with its answer; what a call does to the world is
left to an interpreter. -/

namespace IdentityService.Lib

inductive Program (E : Type) (R : E → Type) (ε α : Type) : Type
  | ret : α → Program E R ε α
  | fail : ε → Program E R ε α
  | call : (e : E) → (R e → Program E R ε α) → Program E R ε α

namespace Program

variable {E : Type} {R : E → Type} {ε δ α β γ σ A : Type}

def bind : Program E R ε α → (α → Program E R ε β) → Program E R ε β
  | .ret a, f => f a
  | .fail err, _ => .fail err
  | .call e k, f => .call e (fun r => (k r).bind f)

instance : Monad (Program E R ε) where
  pure := .ret
  bind := .bind

def perform (e : E) : Program E R ε (R e) := .call e .ret

def reject (c : Prop) [Decidable c] (err : ε) : Program E R ε Unit :=
  if c then .fail err else .ret ()

def expect (onError : δ → ε) : Except δ α → Program E R ε α
  | .ok a => .ret a
  | .error d => .fail (onError d)

def require (err : ε) : Option α → Program E R ε α
  | some a => .ret a
  | none => .fail err

def outcome : Program E R ε α → Option (Except ε α)
  | .ret a => some (.ok a)
  | .fail err => some (.error err)
  | .call _ _ => none

@[simp] theorem ret_bind (a : α) (f : α → Program E R ε β) : (.ret a >>= f) = f a := rfl

@[simp] theorem fail_bind (err : ε) (f : α → Program E R ε β) :
    ((.fail err : Program E R ε α) >>= f) = .fail err := rfl

@[simp] theorem call_bind (e : E) (k : R e → Program E R ε α) (f : α → Program E R ε β) :
    (.call e k >>= f) = .call e (fun r => k r >>= f) := rfl

@[simp] theorem pure_eq_ret (a : α) : (pure a : Program E R ε α) = .ret a := rfl

theorem bind_assoc' (p : Program E R ε α) (f : α → Program E R ε β) (g : β → Program E R ε γ) :
    p >>= f >>= g = p >>= fun a => f a >>= g := by
  induction p with
  | ret a => rfl
  | fail err => rfl
  | call e k ih => exact congrArg (Program.call e) (funext ih)

theorem id_map' (p : Program E R ε α) : id <$> p = p := by
  induction p with
  | ret a => rfl
  | fail err => rfl
  | call e k ih => exact congrArg (Program.call e) (funext ih)

instance : LawfulMonad (Program E R ε) :=
  LawfulMonad.mk' (Program E R ε) id_map' (fun _ _ => rfl) bind_assoc'

@[simp] theorem outcome_ret (a : α) : (.ret a : Program E R ε α).outcome = some (.ok a) := rfl
@[simp] theorem outcome_fail (err : ε) :
    (.fail err : Program E R ε α).outcome = some (.error err) := rfl
@[simp] theorem outcome_call (e : E) (k : R e → Program E R ε α) :
    (Program.call e k).outcome = none := rfl

def interpret (h : (e : E) → σ → R e × σ) : Program E R ε α → σ → Except ε (α × σ)
  | .ret a, s => .ok (a, s)
  | .fail err, _ => .error err
  | .call e k, s => (k (h e s).1).interpret h (h e s).2

theorem interpret_bind_ok {h : (e : E) → σ → R e × σ} {p : Program E R ε α}
    {f : α → Program E R ε β} {s : σ} {r : β × σ} :
    (p >>= f).interpret h s = .ok r ↔
      ∃ a s', p.interpret h s = .ok (a, s') ∧ (f a).interpret h s' = .ok r := by
  induction p generalizing s with
  | ret a => simp [interpret]
  | fail err => simp [interpret]
  | call e k ih => exact ih (h e s).1

abbrev Act (E : Type) (R : E → Type) := (e : E) × R e

/-- `Path p acts q`: after the calls `acts`, newest first, `q` is what is left of `p`. -/
inductive Path (p : Program E R ε α) : List (Act E R) → Program E R ε α → Prop
  | nil : Path p [] p
  | cons {acts e k} : Path p acts (.call e k) → (r : R e) → Path p (⟨e, r⟩ :: acts) (k r)

namespace Path

variable {p q : Program E R ε α} {acts later : List (Act E R)}

theorem append_inv (h : Path p (later ++ acts) q) : ∃ p', Path p acts p' ∧ Path p' later q := by
  induction later generalizing q with
  | nil => exact ⟨q, h, .nil⟩
  | cons x later ih =>
    cases h with
    | cons h r =>
      obtain ⟨p', hp', hq⟩ := ih h
      exact ⟨p', hp', hq.cons r⟩

theorem of_call {e : E} {k : R e → Program E R ε α} {x : Act E R}
    (h : Path (.call e k) [x] p) : ∃ r, x = ⟨e, r⟩ ∧ p = k r := by
  cases h with
  | cons h r =>
    cases h
    exact ⟨r, rfl, rfl⟩

theorem of_outcome (h : Path p acts q) (hp : p.outcome.isSome) : acts = [] ∧ q = p := by
  induction h with
  | nil => exact ⟨rfl, rfl⟩
  | cons h r ih =>
    rw [← ih.2] at hp
    cases hp

end Path

/-- `Φ` holds of every call a program may make: of the calls before it, the call,
its answer and what is left afterwards. -/
inductive Along (Φ : List (Act E R) → (e : E) → R e → Program E R ε α → Prop) :
    List (Act E R) → Program E R ε α → Prop
  | ret {acts a} : Along Φ acts (.ret a)
  | fail {acts err} : Along Φ acts (.fail err)
  | call {acts e k} : (∀ r, Φ acts e r (k r)) → (∀ r, Along Φ (⟨e, r⟩ :: acts) (k r)) →
      Along Φ acts (.call e k)

section Along

variable {Φ : List (Act E R) → (e : E) → R e → Program E R ε β → Prop}
  {acts : List (Act E R)}

@[simp] theorem along_ret (b : β) : Along Φ acts (.ret b) := .ret

@[simp] theorem along_pure (b : β) : Along Φ acts (pure b) := .ret

@[simp] theorem along_fail (err : ε) : Along Φ acts (.fail err) := .fail

@[simp] theorem along_call (e : E) (k : R e → Program E R ε β) :
    Along Φ acts (.call e k) ↔ ∀ r, Φ acts e r (k r) ∧ Along Φ (⟨e, r⟩ :: acts) (k r) := by
  constructor
  · intro h
    cases h with
    | call hΦ hk => exact fun r => ⟨hΦ r, hk r⟩
  · exact fun h => .call (fun r => (h r).1) (fun r => (h r).2)

@[simp] theorem along_perform (e : E) (f : R e → Program E R ε β) :
    Along Φ acts (perform e >>= f) ↔
      ∀ r, Φ acts e r (f r) ∧ Along Φ (⟨e, r⟩ :: acts) (f r) :=
  along_call e f

@[simp] theorem along_reject (c : Prop) [Decidable c] (err : ε) (f : Unit → Program E R ε β) :
    Along Φ acts (reject c err >>= f) ↔ (¬c → Along Φ acts (f ())) := by
  by_cases h : c <;> simp [reject, h]

@[simp] theorem along_expect (g : δ → ε) (x : Except δ α) (f : α → Program E R ε β) :
    Along Φ acts (expect g x >>= f) ↔ ∀ a, x = .ok a → Along Φ acts (f a) := by
  cases x <;> simp [expect]

@[simp] theorem along_require (err : ε) (x : Option α) (f : α → Program E R ε β) :
    Along Φ acts (require err x >>= f) ↔ ∀ a, x = some a → Along Φ acts (f a) := by
  cases x <;> simp [require]

@[simp] theorem along_ite (c : Prop) [Decidable c] (p q : Program E R ε β) :
    Along Φ acts (if c then p else q) ↔ (c → Along Φ acts p) ∧ (¬c → Along Φ acts q) := by
  by_cases h : c <;> simp [h]

theorem along_of_outcome {p : Program E R ε β} (h : p.outcome.isSome) : Along Φ acts p := by
  cases p with
  | ret b => exact .ret
  | fail err => exact .fail
  | call e k => cases h

theorem Along.of_path {p q : Program E R ε β} (h : Along Φ [] p) (hp : Path p acts q) :
    Along Φ acts q := by
  induction hp with
  | nil => exact h
  | cons hp r ih => exact ((along_call _ _).1 ih r).2

theorem Along.newest {p q : Program E R ε β} {x : Act E R} (h : Along Φ [] p)
    (hp : Path p (x :: acts) q) : Φ acts x.1 x.2 q := by
  cases hp with
  | cons hp r => exact ((along_call _ _).1 (h.of_path hp) r).1

theorem Along.of_length {n : Nat} (hΦ : ∀ acts e r p, n ≤ acts.length → Φ acts e r p)
    (p : Program E R ε β) (hn : n ≤ acts.length) : Along Φ acts p := by
  induction p generalizing acts with
  | ret b => exact .ret
  | fail err => exact .fail
  | call e k ih => exact .call (fun r => hΦ acts e r _ hn) (fun r => ih r (Nat.le_succ_of_le hn))

end Along

/-- Whenever a program returns, `Ψ` holds of all its calls, newest first, and the result. -/
inductive Ends (Ψ : List (Act E R) → α → Prop) : List (Act E R) → Program E R ε α → Prop
  | ret {acts a} : Ψ acts a → Ends Ψ acts (.ret a)
  | fail {acts err} : Ends Ψ acts (.fail err)
  | call {acts e k} : (∀ r, Ends Ψ (⟨e, r⟩ :: acts) (k r)) → Ends Ψ acts (.call e k)

section Ends

variable {Ψ : List (Act E R) → β → Prop} {acts : List (Act E R)}

@[simp] theorem ends_ret (b : β) : Ends Ψ acts (.ret b : Program E R ε β) ↔ Ψ acts b := by
  constructor
  · intro h
    cases h with
    | ret hb => exact hb
  · exact .ret

@[simp] theorem ends_pure (b : β) : Ends Ψ acts (pure b : Program E R ε β) ↔ Ψ acts b :=
  ends_ret b

@[simp] theorem ends_fail (err : ε) : Ends Ψ acts (.fail err) := .fail

@[simp] theorem ends_call (e : E) (k : R e → Program E R ε β) :
    Ends Ψ acts (.call e k) ↔ ∀ r, Ends Ψ (⟨e, r⟩ :: acts) (k r) := by
  constructor
  · intro h
    cases h with
    | call hk => exact hk
  · exact .call

@[simp] theorem ends_perform (e : E) (f : R e → Program E R ε β) :
    Ends Ψ acts (perform e >>= f) ↔ ∀ r, Ends Ψ (⟨e, r⟩ :: acts) (f r) :=
  ends_call e f

@[simp] theorem ends_reject (c : Prop) [Decidable c] (err : ε) (f : Unit → Program E R ε β) :
    Ends Ψ acts (reject c err >>= f) ↔ (¬c → Ends Ψ acts (f ())) := by
  by_cases h : c <;> simp [reject, h]

@[simp] theorem ends_expect (g : δ → ε) (x : Except δ α) (f : α → Program E R ε β) :
    Ends Ψ acts (expect g x >>= f) ↔ ∀ a, x = .ok a → Ends Ψ acts (f a) := by
  cases x <;> simp [expect]

@[simp] theorem ends_require (err : ε) (x : Option α) (f : α → Program E R ε β) :
    Ends Ψ acts (require err x >>= f) ↔ ∀ a, x = some a → Ends Ψ acts (f a) := by
  cases x <;> simp [require]

@[simp] theorem ends_ite (c : Prop) [Decidable c] (p q : Program E R ε β) :
    Ends Ψ acts (if c then p else q) ↔ (c → Ends Ψ acts p) ∧ (¬c → Ends Ψ acts q) := by
  by_cases h : c <;> simp [h]

theorem ends_bind {p : Program E R ε α} {f : α → Program E R ε β}
    (h : ∀ acts a, Ends Ψ acts (f a)) : Ends Ψ acts (p >>= f) := by
  induction p generalizing acts with
  | ret a => exact h _ a
  | fail err => exact .fail
  | call e k ih => exact .call fun r => ih r

theorem Ends.of_path {p q : Program E R ε β} (h : Ends Ψ [] p) (hp : Path p acts q) :
    Ends Ψ acts q := by
  induction hp with
  | nil => exact h
  | cons hp r ih => exact (ends_call _ _).1 ih r

theorem Ends.of_outcome {p : Program E R ε β} {b : β} (h : Ends Ψ acts p)
    (ho : p.outcome = some (.ok b)) : Ψ acts b := by
  cases h with
  | ret hb =>
    cases ho
    exact hb
  | fail => cases ho
  | call hk => cases ho

end Ends

end Program

end IdentityService.Lib
