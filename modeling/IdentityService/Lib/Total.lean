import IdentityService.Lib.MachineLaws

/-! Total correctness of a request that runs alone: it comes to its end within a number of calls,
and in a state that is known. -/

namespace IdentityService.Lib

variable {Q E : Type} {R : E → Type} {ε α β σ A : Type}

namespace Program

/-- Whichever of the answers that `step` allows it gets, the program goes on until it returns,
after at most so many calls. -/
def Total (step : σ → (e : E) → R e → σ → Prop) (Ψ : α → σ → Prop) :
    Program E R ε α → Nat → σ → Prop
  | .ret a, _, s => Ψ a s
  | .fail _, _, _ => False
  | .call _ _, 0, _ => False
  | .call e k, n + 1, s =>
    (∃ r s', step s e r s') ∧ ∀ r s', step s e r s' → (k r).Total step Ψ n s'

section Total

variable {step : σ → (e : E) → R e → σ → Prop} {Ψ : β → σ → Prop} {n m : Nat} {s : σ}

theorem Total.mono {Ψ' : β → σ → Prop} {p : Program E R ε β} (h : p.Total step Ψ n s) (hn : n ≤ m)
    (hΨ : ∀ b s, Ψ b s → Ψ' b s) : p.Total step Ψ' m s := by
  induction p generalizing n m s with
  | ret b => exact hΨ b s h
  | fail err => exact h.elim
  | call e k ih =>
    cases n with
    | zero => exact h.elim
    | succ n =>
      obtain ⟨m, rfl⟩ := Nat.exists_eq_add_one_of_ne_zero (n := m) (by omega)
      exact ⟨h.1, fun r s' hstep => ih r (h.2 r s' hstep) (by omega)⟩

theorem total_bind {p : Program E R ε α} {f : α → Program E R ε β}
    (h : p.Total step (fun a s' => (f a).Total step Ψ m s') n s) :
    (p >>= f).Total step Ψ (n + m) s := by
  induction p generalizing n s with
  | ret a => exact Total.mono h (Nat.le_add_left m n) fun _ _ h => h
  | fail err => exact h.elim
  | call e k ih =>
    cases n with
    | zero => exact h.elim
    | succ n =>
      rw [Nat.add_right_comm]
      exact ⟨h.1, fun r s' hstep => ih r (h.2 r s' hstep)⟩

theorem total_perform {e : E} {f : R e → Program E R ε β} (hsome : ∃ r s', step s e r s')
    (h : ∀ r s', step s e r s' → (f r).Total step Ψ n s') :
    (perform e >>= f).Total step Ψ (n + 1) s :=
  ⟨hsome, h⟩

end Total

def Resolves (step : σ → (e : E) → R e → σ → Prop) (Ψ : Except ε α → σ → Prop) :
    Program E R ε α → Nat → σ → Prop
  | .ret a, _, s => Ψ (.ok a) s
  | .fail err, _, s => Ψ (.error err) s
  | .call _ _, 0, _ => False
  | .call e k, n + 1, s =>
    (∃ r s', step s e r s') ∧ ∀ r s', step s e r s' → (k r).Resolves step Ψ n s'

section Resolves

variable {step : σ → (e : E) → R e → σ → Prop} {Ψ : Except ε β → σ → Prop} {n : Nat} {s : σ}

theorem Total.resolves {Φ : β → σ → Prop} {p : Program E R ε β} (h : p.Total step Φ n s) :
    p.Resolves step (fun o s => ∃ b, o = .ok b ∧ Φ b s) n s := by
  induction p generalizing n s with
  | ret b => exact ⟨b, rfl, h⟩
  | fail err => exact h.elim
  | call e k ih =>
    cases n with
    | zero => exact h.elim
    | succ n => exact ⟨h.1, fun r s' hstep => ih r (h.2 r s' hstep)⟩

theorem Resolves.of_outcome {p : Program E R ε β} {o : Except ε β} (h : p.Resolves step Ψ n s)
    (ho : p.outcome = some o) : Ψ o s := by
  cases p with
  | ret b =>
    cases ho
    exact h
  | fail err =>
    cases ho
    exact h
  | call e k => cases ho

theorem resolves_perform {e : E} {f : R e → Program E R ε β} (hsome : ∃ r s', step s e r s')
    (h : ∀ r s', step s e r s' → (f r).Resolves step Ψ n s') :
    (perform e >>= f).Resolves step Ψ (n + 1) s :=
  ⟨hsome, h⟩

end Resolves

end Program

def Policy.answering (ok : (e : E) → R e → Prop) : Policy Q E R ε α σ :=
  ⟨fun _ _ => False, fun _ ev => ok ev.call ev.answer⟩

namespace Machine

variable (M : Machine Q E R ε α σ A) (ok : (e : E) → R e → Prop) (q : Q) (s : σ) (n : Nat)

def Steps (s : σ) (e : E) (r : R e) (s' : σ) : Prop :=
  ok e r ∧ ∃ a, M.perform s e a = some (r, s')

/-- Alone, and with such answers, the request takes at most `n` steps, can always go on until it
returns, and does not end otherwise than with `Ψ`. -/
structure Terminates (Ψ : α → σ → Prop) : Prop where
  bounded : ∀ c, M.Run (.answering ok) (M.begin (.initial s) q) c → c.history.length ≤ n
  completes : ∀ c, M.Run (.answering ok) (M.begin (.initial s) q) c →
    ∃ d a, M.Run (.answering ok) c d ∧ d.threads = [⟨q, .ret a⟩]
  result : ∀ c p o, M.Run (.answering ok) (M.begin (.initial s) q) c → c.threads = [⟨q, p⟩] →
    p.outcome = some o → ∃ a, o = .ok a ∧ Ψ a c.state

structure Resolves (Ψ : Except ε α → σ → Prop) : Prop where
  bounded : ∀ c, M.Run (.answering ok) (M.begin (.initial s) q) c → c.history.length ≤ n
  completes : ∀ c, M.Run (.answering ok) (M.begin (.initial s) q) c →
    ∃ d p, M.Run (.answering ok) c d ∧ d.threads = [⟨q, p⟩] ∧ p.outcome.isSome
  result : ∀ c p o, M.Run (.answering ok) (M.begin (.initial s) q) c → c.threads = [⟨q, p⟩] →
    p.outcome = some o → Ψ o c.state

def Answers (o : Except ε α) : Prop := ∃ n, M.Resolves ok q s n (fun o' _ => o' = o)

variable {M ok q s n} {Ψ : Except ε α → σ → Prop}

theorem resolves_of_run (h : (M.program q).Resolves (M.Steps ok) Ψ n s) {c : Config Q E R ε α σ}
    (hc : M.Run (.answering ok) (M.begin (.initial s) q) c) :
    ∃ p m, c.threads = [⟨q, p⟩] ∧ c.history.length + m = n ∧
      p.Resolves (M.Steps ok) Ψ m c.state := by
  induction hc with
  | refl => exact ⟨M.program q, n, rfl, Nat.zero_add n, h⟩
  | start _ _ hq => exact hq.elim
  | @step c ev d i a _ hf hp ih =>
    obtain ⟨p, m, hthreads, hlen, hp'⟩ := ih
    obtain ⟨-, k, hk⟩ := fired_of_fire hf
    have hth := hk.thread
    have hlt := hk.thread_lt
    rw [hthreads, List.length_singleton, Nat.lt_one_iff] at hlt
    rw [hthreads, hlt] at hth
    cases hth
    cases m with
    | zero => exact hp'.elim
    | succ m =>
      refine ⟨k ev.answer, m, ?_, ?_, ?_⟩
      · rw [hk.threads, hthreads, hlt, List.set_cons_zero]
      · rw [hk.history, List.length_cons, ← hlen]
        omega
      · rw [hk.state]
        exact hp'.2 _ _ ⟨hp, a, hk.before ▸ hk.performed⟩

theorem completes_of_resolves {p : Program E R ε α} {m : Nat} {c : Config Q E R ε α σ}
    (hc : c.threads = [⟨q, p⟩]) (h : p.Resolves (M.Steps ok) Ψ m c.state) :
    ∃ d p', M.Run (.answering ok) c d ∧ d.threads = [⟨q, p'⟩] ∧ p'.outcome.isSome := by
  induction p generalizing c m with
  | ret a => exact ⟨c, .ret a, .refl, hc, rfl⟩
  | fail err => exact ⟨c, .fail err, .refl, hc, rfl⟩
  | call e k ih =>
    cases m with
    | zero => exact h.elim
    | succ m =>
      obtain ⟨⟨r, s', hok, a, hperf⟩, hk⟩ := h
      have hfire : M.fire c 0 a = some (⟨0, q, e, r, c.state, s', (k r).outcome⟩,
          ⟨s', [⟨q, k r⟩], ⟨0, q, e, r, c.state, s', (k r).outcome⟩ :: c.history⟩) := by
        simp [fire, hc, hperf]
      obtain ⟨d, p', hd, hthreads, hp'⟩ :=
        ih r (c := ⟨s', [⟨q, k r⟩], _⟩) rfl (hk r s' ⟨hok, a, hperf⟩)
      exact ⟨d, p', (Run.refl.step 0 a hfire hok).trans hd, hthreads, hp'⟩

theorem resolves_of_program (h : (M.program q).Resolves (M.Steps ok) Ψ n s) :
    M.Resolves ok q s n Ψ where
  bounded c hc := by
    obtain ⟨p, m, -, hlen, -⟩ := resolves_of_run h hc
    omega
  completes c hc := by
    obtain ⟨p, m, hthreads, -, hp⟩ := resolves_of_run h hc
    exact completes_of_resolves hthreads hp
  result c p o hc hp ho := by
    obtain ⟨p', m, hthreads, -, hp'⟩ := resolves_of_run h hc
    cases hthreads.symm.trans hp
    exact hp'.of_outcome ho

theorem terminates_of_total {Φ : α → σ → Prop} (h : (M.program q).Total (M.Steps ok) Φ n s) :
    M.Terminates ok q s n Φ where
  bounded := (resolves_of_program h.resolves).bounded
  completes c hc := by
    obtain ⟨d, p, hd, hthreads, hp⟩ := (resolves_of_program h.resolves).completes c hc
    obtain ⟨o, ho⟩ := Option.isSome_iff_exists.1 hp
    obtain ⟨a, rfl, -⟩ := (resolves_of_program h.resolves).result d p o (hc.trans hd) hthreads ho
    cases p with
    | ret b => exact ⟨d, b, hd, hthreads⟩
    | fail err => cases ho
    | call e k => cases ho
  result := (resolves_of_program h.resolves).result

theorem answers_of_program {o : Except ε α}
    (h : (M.program q).Resolves (M.Steps ok) (fun o' _ => o' = o) n s) : M.Answers ok q s o :=
  ⟨n, resolves_of_program h⟩

theorem Resolves.common {Φ : Except ε α → σ → Prop} {m : Nat} (h : M.Resolves ok q s n Ψ)
    (h' : M.Resolves ok q s m Φ) : ∃ o s', Ψ o s' ∧ Φ o s' := by
  obtain ⟨d, p, hd, hthreads, hp⟩ := h.completes _ .refl
  obtain ⟨o, ho⟩ := Option.isSome_iff_exists.1 hp
  exact ⟨o, d.state, h.result d p o hd hthreads ho, h'.result d p o hd hthreads ho⟩

theorem Answers.unique {o o' : Except ε α} (h : M.Answers ok q s o) (h' : M.Answers ok q s o') :
    o = o' := by
  obtain ⟨n, h⟩ := h
  obtain ⟨m, h'⟩ := h'
  obtain ⟨x, -, hx, hx'⟩ := h.common h'
  exact hx.symm.trans hx'

end Machine

end IdentityService.Lib
