import IdentityService.Lib.Program

/-! A program against given answers, and programs that go on after another one has ended. -/

namespace IdentityService.Lib.Program

variable {E : Type} {R : E → Type} {ε δ ζ α β γ : Type}

/-- The calls of a program, oldest first, and its end, where `answer` answers every call from those
before it. -/
def run (answer : List (Act E R) → (e : E) → R e) :
    List (Act E R) → Program E R ε α → List (Act E R) × Except ε α
  | _, .ret a => ([], .ok a)
  | _, .fail err => ([], .error err)
  | past, .call e k =>
    let act : Act E R := ⟨e, answer past e⟩
    let later := run answer (past ++ [act]) (k act.2)
    (act :: later.1, later.2)

section Run

variable (answer : List (Act E R) → (e : E) → R e) (past : List (Act E R))

@[simp] theorem run_ret (a : α) : run answer past (.ret a : Program E R ε α) = ([], .ok a) := rfl

@[simp] theorem run_fail (err : ε) :
    run answer past (.fail err : Program E R ε α) = ([], .error err) := rfl

theorem run_perform (e : E) (f : R e → Program E R ε α) :
    run answer past (perform e >>= f) =
      (⟨e, answer past e⟩ :: (run answer (past ++ [⟨e, answer past e⟩]) (f (answer past e))).1,
        (run answer (past ++ [⟨e, answer past e⟩]) (f (answer past e))).2) := rfl

end Run

def settle (onReturn : α → Program E R δ β) (onFail : ε → Program E R δ β) :
    Program E R ε α → Program E R δ β
  | .ret a => onReturn a
  | .fail err => onFail err
  | .call e k => .call e (fun r => (k r).settle onReturn onFail)

theorem settle_settle (p : Program E R ε α) (f : α → Program E R δ β) (g : ε → Program E R δ β)
    (f' : β → Program E R ζ γ) (g' : δ → Program E R ζ γ) :
    (p.settle f g).settle f' g' =
      p.settle (fun a => (f a).settle f' g') (fun err => (g err).settle f' g') := by
  induction p with
  | ret a => rfl
  | fail err => rfl
  | call e k ih => exact congrArg (Program.call e) (funext ih)

theorem settle_eq_self (p : Program E R ε α) {f : α → Program E R ε α} {g : ε → Program E R ε α}
    (hf : ∀ a, f a = .ret a) (hg : ∀ err, g err = .fail err) : p.settle f g = p := by
  induction p with
  | ret a => exact hf a
  | fail err => exact hg err
  | call e k ih => exact congrArg (Program.call e) (funext ih)

end IdentityService.Lib.Program
