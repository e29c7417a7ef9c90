import IdentityService.Lib.Program

/-! A pool of concurrent programs over one shared state.  Requests start at any time;
each step lets one thread perform its next call.  The history records every call
performed, newest first. -/

namespace IdentityService.Lib

structure Machine (Q E : Type) (R : E → Type) (ε α σ A : Type) where
  program : Q → Program E R ε α
  perform : σ → (e : E) → A → Option (R e × σ)

structure Thread (Q E : Type) (R : E → Type) (ε α : Type) where
  request : Q
  rest : Program E R ε α

/-- One call performed: by which thread, for which request, the states around it,
and the outcome of the request if this call was its last. -/
structure Event (Q E : Type) (R : E → Type) (ε α σ : Type) where
  thread : Nat
  request : Q
  call : E
  answer : R call
  before : σ
  after : σ
  outcome : Option (Except ε α)

structure Config (Q E : Type) (R : E → Type) (ε α σ : Type) where
  state : σ
  threads : List (Thread Q E R ε α)
  history : List (Event Q E R ε α σ)

inductive Choice (Q A : Type) : Type
  | start : Q → Choice Q A
  | step : (thread : Nat) → A → Choice Q A

structure Policy (Q E : Type) (R : E → Type) (ε α σ : Type) where
  start : Config Q E R ε α σ → Q → Prop
  event : Config Q E R ε α σ → Event Q E R ε α σ → Prop

variable {Q E : Type} {R : E → Type} {ε α σ A : Type}

def Event.act (ev : Event Q E R ε α σ) : Program.Act E R := ⟨ev.call, ev.answer⟩

namespace Config

def initial (s : σ) : Config Q E R ε α σ := ⟨s, [], []⟩

def actsOf (c : Config Q E R ε α σ) (i : Nat) : List (Program.Act E R) :=
  (c.history.filter (fun ev => ev.thread = i)).map Event.act

def idle (c : Config Q E R ε α σ) : Bool :=
  c.threads.all (fun th => th.rest.outcome.isSome)

end Config

namespace Policy

def any : Policy Q E R ε α σ := ⟨fun _ _ => True, fun _ _ => True⟩

def both (π π' : Policy Q E R ε α σ) : Policy Q E R ε α σ where
  start c q := π.start c q ∧ π'.start c q
  event c ev := π.event c ev ∧ π'.event c ev

def sequential : Policy Q E R ε α σ := ⟨fun c _ => c.idle = true, fun _ _ => True⟩

def closed : Policy Q E R ε α σ := ⟨fun _ _ => False, fun _ _ => True⟩

def onEvents (P : Config Q E R ε α σ → Event Q E R ε α σ → Prop) : Policy Q E R ε α σ :=
  ⟨fun _ _ => True, P⟩

section Decidable

variable {π π' : Policy Q E R ε α σ} (c : Config Q E R ε α σ) (q : Q) (ev : Event Q E R ε α σ)

instance : Decidable ((any : Policy Q E R ε α σ).start c q) := .isTrue trivial

instance : Decidable ((any : Policy Q E R ε α σ).event c ev) := .isTrue trivial

instance [Decidable (π.start c q)] [Decidable (π'.start c q)] :
    Decidable ((π.both π').start c q) :=
  inferInstanceAs (Decidable (_ ∧ _))

instance [Decidable (π.event c ev)] [Decidable (π'.event c ev)] :
    Decidable ((π.both π').event c ev) :=
  inferInstanceAs (Decidable (_ ∧ _))

instance : Decidable ((sequential : Policy Q E R ε α σ).start c q) :=
  inferInstanceAs (Decidable (c.idle = true))

instance : Decidable ((sequential : Policy Q E R ε α σ).event c ev) := .isTrue trivial

instance : Decidable ((closed : Policy Q E R ε α σ).start c q) := .isFalse id

instance : Decidable ((closed : Policy Q E R ε α σ).event c ev) := .isTrue trivial

instance (P : Config Q E R ε α σ → Event Q E R ε α σ → Prop) :
    Decidable ((onEvents P).start c q) := .isTrue trivial

instance (P : Config Q E R ε α σ → Event Q E R ε α σ → Prop) [Decidable (P c ev)] :
    Decidable ((onEvents P).event c ev) :=
  inferInstanceAs (Decidable (P c ev))

end Decidable

end Policy

namespace Machine

def begin (M : Machine Q E R ε α σ A) (c : Config Q E R ε α σ) (q : Q) : Config Q E R ε α σ :=
  { c with threads := c.threads ++ [⟨q, M.program q⟩] }

def fire (M : Machine Q E R ε α σ A) (c : Config Q E R ε α σ) (i : Nat) (a : A) :
    Option (Event Q E R ε α σ × Config Q E R ε α σ) :=
  match c.threads[i]? with
  | some ⟨q, .call e k⟩ =>
    match M.perform c.state e a with
    | some (r, s) =>
      let ev : Event Q E R ε α σ := ⟨i, q, e, r, c.state, s, (k r).outcome⟩
      some (ev, ⟨s, c.threads.set i ⟨q, k r⟩, ev :: c.history⟩)
    | none => none
  | _ => none

inductive Run (M : Machine Q E R ε α σ A) (π : Policy Q E R ε α σ) (c : Config Q E R ε α σ) :
    Config Q E R ε α σ → Prop
  | refl : Run M π c c
  | start {d} (q : Q) : Run M π c d → π.start d q → Run M π c (M.begin d q)
  | step {d ev d'} (i : Nat) (a : A) : Run M π c d → M.fire d i a = some (ev, d') →
      π.event d ev → Run M π c d'

def Reach (M : Machine Q E R ε α σ A) (π : Policy Q E R ε α σ) (s : σ)
    (c : Config Q E R ε α σ) : Prop := M.Run π (.initial s) c

def Executes (M : Machine Q E R ε α σ A) (q : Q) (s : σ) (c : Config Q E R ε α σ) : Prop :=
  M.Run .closed (M.begin (.initial s) q) c

def replay (M : Machine Q E R ε α σ A) (π : Policy Q E R ε α σ)
    [∀ c q, Decidable (π.start c q)] [∀ c ev, Decidable (π.event c ev)] :
    List (Choice Q A) → Config Q E R ε α σ → Option (Config Q E R ε α σ)
  | [], c => some c
  | .start q :: rest, c => if π.start c q then M.replay π rest (M.begin c q) else none
  | .step i a :: rest, c =>
    match M.fire c i a with
    | some (ev, c') => if π.event c ev then M.replay π rest c' else none
    | none => none

end Machine

end IdentityService.Lib
