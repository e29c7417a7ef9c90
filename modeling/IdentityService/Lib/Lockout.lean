import Mathlib.Data.List.Basic

/-! Locking after a number of failures. -/

namespace IdentityService.Lib

structure Lockout (T : Type) where
  threshold : Nat
  duration : T

structure Failure (T : Type) where
  time : T
  unlocked : Bool

namespace Lockout

variable {T : Type} [Add T] {l : Lockout T} {f : Failure T} {older : List (Failure T)}

def lock (l : Lockout T) : List (Failure T) → Option T
  | [] => none
  | f :: older =>
    if l.threshold ≤ older.length + 1 then some (f.time + l.duration) else l.lock older

inductive Admits [LE T] (l : Lockout T) : List (Failure T) → Prop
  | nil : l.Admits []
  | cons {f : Failure T} {older : List (Failure T)} (h : l.Admits older)
      (hunlocked : f.unlocked = (l.lock older).isNone) (htime : ∀ t ∈ l.lock older, t ≤ f.time) :
      l.Admits (f :: older)

theorem lock_of_le (h : l.threshold ≤ older.length + 1) :
    l.lock (f :: older) = some (f.time + l.duration) := if_pos h

variable [LE T]

theorem Admits.countP_unlocked_le {fs : List (Failure T)} (h : l.Admits fs)
    (hpos : 0 < l.threshold) : fs.countP Failure.unlocked ≤ l.threshold := by
  induction h with
  | nil => simp
  | @cons f older _ hunlocked _ ih =>
    by_cases hlength : older.length < l.threshold
    · exact Nat.le_trans List.countP_le_length hlength
    · cases older with
      | nil => exact absurd hpos hlength
      | cons g older =>
        rw [lock_of_le (by simpa using hlength)] at hunlocked
        rwa [List.countP_cons_of_neg (by simp [hunlocked])]

theorem Admits.apart {newer : List (Failure T)} {g : Failure T}
    (h : l.Admits (newer ++ f :: g :: older)) (hlength : l.threshold ≤ older.length + 1) :
    g.time + l.duration ≤ f.time := by
  induction newer with
  | nil =>
    cases h with
    | cons _ _ htime => exact htime _ (lock_of_le hlength)
  | cons _ _ ih =>
    cases h with
    | cons h => exact ih h

end Lockout

end IdentityService.Lib
